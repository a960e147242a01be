import ThreadSched.Task.Sync

/-!
# Creating and ending tasks (`task/task.c`)

`malloc` succeeds; the addresses it returns are parameters.
-/

set_option autoImplicit false

namespace ThreadSched

/-- `stack_magic`. -/
abbrev stackMagic : Nat := 0x19991120

/-- `tid_pool_init`. -/
def tidPoolInit (s : Sched) : Sched :=
  { s with
    tidPool := ⟨bitmapInit ⟨125100, s.tidPool.tidBitmap.bits⟩, 1⟩
    locks := Function.update s.locks .tid lockInit }

/-- The bitmap with bit `bit_idx`, converted to `uint32_t`, set to `value`. -/
def Sched.setTidBit (s : Sched) (bitIdx : Int) (value : Bool) : Sched :=
  { s with tidPool := { s.tidPool with
      tidBitmap := bitmapSet s.tidPool.tidBitmap (bitIdx % 2 ^ 32).toNat value } }

/-- `allocate_tid`. -/
def allocateTid (s : Sched) : Except Fault (Int × Sched) := do
  let s ← lockAcquireNow .tid s
  match bitmapScan s.tidPool.tidBitmap 1 with
  | none => .error .assertion
  | some bitIdx =>
    let s ← lockRelease .tid (s.setTidBit bitIdx true)
    pure (i16 (bitIdx + s.tidPool.tidStart), s)

/-- `release_tid`. -/
def releaseTid (tid : Int) (s : Sched) : Except Fault Sched := do
  let s ← lockAcquireNow .tid s
  let bitIdx := tid - s.tidPool.tidStart
  lockRelease .tid (s.setTidBit bitIdx false)

/-- `init_task` up to its `allocate_tid`. -/
def initStatus (ptask : TaskId) (s : Sched) : Sched :=
  if ptask = s.mainTask then
    { s.modTask ptask fun _ => { TaskStruct.zero with status := .RUNNING, first := false } with
      currentTask := ptask }
  else s.modTask ptask fun _ => { TaskStruct.zero with status := .READY, first := true }

/-- The fields `init_task` sets after it. -/
def initFields (tid : Int) (stack : Nat) (prio : Int) (task : TaskStruct) : TaskStruct :=
  { task with
    tid := tid
    stackMinAddr := stack
    priority := u8 prio
    ticks := u8 prio
    elapsedTicks := 0
    stackMagic := stackMagic
    sleepMillisecond := 0
    isHook := false
    isCollaborativeSchedule := false }

/-- `init_task`; `stack` is the address of the new stack. -/
def initTask (ptask stack : Nat) (prio : Int) (s : Sched) : Except Fault Sched := do
  let (tid, s) ← allocateTid (initStatus ptask s)
  let s := { s with stackAllocated := Function.update s.stackAllocated stack true }
  pure (s.modTask ptask (initFields tid stack prio))

/-- The struct `task_start` uses: the oldest of the pool, or a new one at `addr`. -/
def takeTask (addr : TaskId) (s : Sched) : Except Fault (TaskId × Sched) :=
  if s.taskPoolList ≠ [] then do
    let (task, pool) ← listPop s.taskPoolList
    assertThat (.DIED ≠ (s.tasks task).status)
    pure (task, { s with taskPoolList := pool })
  else
    pure (addr, { s with allocated := Function.update s.allocated addr true })

/-- `task_start`. -/
def taskStart (addr stack : Nat) (prio : Int) (s : Sched) : Except Fault Sched := do
  let (task, s) ← takeTask addr s
  let s ← initTask task stack prio s
  let s := { s with conts := Function.update s.conts task [] }
  assertThat (¬ elemFind s.taskReadyList task)
  let s := { s with taskReadyList := listAppend s.taskReadyList task }.emit (.ready task .taskStart)
  assertThat (¬ elemFind s.taskAllList task)
  let s := { s with taskAllList := listAppend s.taskAllList task }
  pure { s with taskAllNums := s.taskAllNums + 1 }

/-- `make_main_task`. -/
def makeMainTask (addr stack : Nat) (s : Sched) : Except Fault Sched := do
  let s := { s with mainTask := addr, allocated := Function.update s.allocated addr true }
  let s ← initTask addr stack 3 s
  assertThat (¬ elemFind s.taskAllList addr)
  let s := { s with taskAllList := listAppend s.taskAllList addr }
  pure { s with taskAllNums := s.taskAllNums + 1 }

/-- The state at the start of the program: nothing allocated, every lock and queue initialised. -/
def boot : Sched where
  tasks _ := TaskStruct.zero
  allocated _ := false
  stackAllocated _ := false
  mainTask := 0
  currentTask := 0
  taskReadyList := []
  taskAllList := []
  taskPoolList := []
  taskAllNums := 0
  tidPool := ⟨⟨0, fun _ => 0⟩, 0⟩
  locks _ := lockInit
  ioqs _ := ioqueueInit
  conts _ := []
  log := []

/-- `task_init`. -/
def taskInit (addr stack : Nat) (s : Sched) : Except Fault Sched :=
  makeMainTask addr stack (tidPoolInit
    { s with taskReadyList := [], taskAllList := [], taskPoolList := [], taskAllNums := 0 })

/-- `tid_check`. -/
def tidCheck (s : Sched) (pelem : TaskId) (tid : Int) : Bool := (s.tasks pelem).tid = tid

/-- `tid2task`: the first task of `task_all_list` that passes `tid_check`. -/
def tid2task (tid : Int) (s : Sched) : Option TaskId :=
  s.taskAllList.find? fun pelem => tidCheck s pelem tid

/-- What `task_exit` does to the lists, the count and the status. -/
def exitLists (task : TaskId) (s : Sched) : Sched :=
  { s.modTask task fun ptask => { ptask with status := .DIED } with
    taskReadyList :=
      if elemFind s.taskReadyList task then listRemove s.taskReadyList task else s.taskReadyList
    taskAllList := listRemove s.taskAllList task
    taskAllNums := s.taskAllNums - 1
    taskPoolList := if task ≠ s.mainTask then listAppend s.taskPoolList task else s.taskPoolList }

/-- `task_exit`. -/
def taskExit (task : TaskId) (s : Sched) : Except Fault Sched := do
  let s := exitLists task s
  let s ← releaseTid (s.tasks task).tid s
  diedTaskSchedule (s.emit (.exit task))

/-- The loop of `clean_dead_task`. -/
def cleanLoop : Nat → Int → Sched → Except Fault Sched
  | 0, _, _ => .error .hang
  | fuel + 1, cleanCnt, s =>
    if s.taskPoolList = [] ∨ cleanCnt = 0 then do
      let (task, pool) ← listPop s.taskPoolList
      cleanLoop fuel (cleanCnt - 1) { s with
        taskPoolList := pool
        stackAllocated := Function.update s.stackAllocated (s.tasks task).stackMinAddr false
        allocated := Function.update s.allocated task false }
    else .ok s

/-- `clean_dead_task`.  The loop ends at its second test or pops an empty list there. -/
def cleanDeadTask (s : Sched) : Except Fault Sched :=
  if s.taskPoolList = [] then .ok s
  else
    let n := s.taskAllNums.tdiv 8
    let cleanCnt := if n > 16 then 16 else n
    cleanLoop (s.taskPoolList.length + 2) cleanCnt s

end ThreadSched
