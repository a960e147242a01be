import ThreadSched.Task.State

/-!
# Switching tasks (`task/task.c`, `task_block` to `block_task_schedule`)

Each function is the source's less the copying of contexts.  The `while(1)` of
`collaborative_schedule` runs inside the signal handler and is the error `hang`; those of
`died_task_schedule` and `block_task_schedule` run in the task, which from then on has only the
statement `loop` to execute.
-/

set_option autoImplicit false

namespace ThreadSched

/-- `get_next_task`, with the `current_task = next` that follows it in every caller. -/
def getNextTask (s : Sched) : Except Fault Sched := do
  let (next, readyList) ← listPop s.taskReadyList
  let s := { s with taskReadyList := readyList }
  let s := s.modTask next fun task => { task with status := .RUNNING }
  pure ({ s with currentTask := next }.emit (.dispatch next))

/-- `schedule`.  The test for an empty list comes after the append and never succeeds. -/
def schedule (s : Sched) : Except Fault Sched := do
  assertThat (¬ elemFind s.taskReadyList s.currentTask)
  let s := { s with taskReadyList := listAppend s.taskReadyList s.currentTask }
  let s := s.modTask s.currentTask fun task =>
    { task with ticks := task.priority, status := .READY }
  let s := s.emit (.ready s.currentTask .schedule)
  if s.taskReadyList = [] then .error .hang else getNextTask s

/-- `collaborative_schedule`. -/
def collaborativeSchedule (s : Sched) : Except Fault Sched :=
  if s.taskReadyList = [] then .error .hang else getNextTask s

/-- `died_task_schedule`. -/
def diedTaskSchedule (s : Sched) : Except Fault Sched :=
  if s.taskReadyList = [] then .ok (s.push s.currentTask [.loop]) else getNextTask s

/-- `block_task_schedule`. -/
def blockTaskSchedule (s : Sched) : Except Fault Sched :=
  if s.taskReadyList = [] then .ok (s.push s.currentTask [.loop])
  else do
    assertThat (s.taskReadyList ≠ [])
    getNextTask s

/-- `task_block`. -/
def taskBlock (status : TaskStatus) (s : Sched) : Except Fault Sched := do
  assertThat (status = .BLOCKED ∨ status = .WAITING ∨ status = .HANGING)
  blockTaskSchedule (s.modTask s.currentTask fun task => { task with status := status })

/-- `task_unblock`. -/
def taskUnblock (ptask : TaskId) (s : Sched) : Except Fault Sched := do
  let status := (s.tasks ptask).status
  assertThat (status = .BLOCKED ∨ status = .WAITING ∨ status = .HANGING)
  if status ≠ .READY then do
    assertThat (¬ elemFind s.taskReadyList ptask)
    let s := { s with taskReadyList := listPush s.taskReadyList ptask }
    let s := s.modTask ptask fun task => { task with status := .READY }
    pure (s.emit (.ready ptask .taskUnblock))
  else pure s

end ThreadSched
