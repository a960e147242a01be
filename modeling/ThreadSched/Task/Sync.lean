import ThreadSched.Task.Switch

/-!
# Semaphores, locks and ioqueues (`task/sync.c`, `device/ioqueue.c`)

The calls a task makes are run statement by statement, `Sched.runStmt`: a statement either finishes
or leaves more statements to run, and after one that blocks the current task is another one.

`task_start`, `task_exit` and the handler take `tid_lock` and the timer lock inside a call that is
not divided, with `lockAcquireNow`; having to wait there is an error of its own.
-/

set_option autoImplicit false

namespace ThreadSched

/-! ## Semaphores and locks -/

def Lock.setValue (lock : Lock) (value : Nat) : Lock :=
  { lock with semaphore := { lock.semaphore with value := value } }

def Lock.setWaiters (lock : Lock) (waiters : List TaskId) : Lock :=
  { lock with semaphore := { lock.semaphore with waiters := waiters } }

/-- The end of `sema_down`: `psema->value--` and its assertion. -/
def semaTake (plock : LockId) (s : Sched) : Except Fault Sched := do
  let s := s.modLock plock fun lock => lock.setValue (u8 ((lock.semaphore.value : Int) - 1))
  assertThat ((s.locks plock).semaphore.value = 0)
  pure s

/-- One round of `sema_down`.  A task that had to block tests `value` again when it is back.  The
`PANIC` after the assertion repeats its test. -/
def semaDown (plock : LockId) (s : Sched) : Except Fault Sched :=
  if (s.locks plock).semaphore.value = 0 then do
    assertThat (¬ elemFind (s.locks plock).semaphore.waiters s.currentTask)
    let s := s.modLock plock fun lock =>
      lock.setWaiters (listAppend lock.semaphore.waiters s.currentTask)
    taskBlock .BLOCKED (s.push s.currentTask [.semaDown plock])
  else semaTake plock s

/-- The `if` of `sema_up`: unblock the first waiter. -/
def semaWake (plock : LockId) (s : Sched) : Except Fault Sched :=
  if (s.locks plock).semaphore.waiters ≠ [] then do
    let (threadBlocked, waiters) ← listPop (s.locks plock).semaphore.waiters
    taskUnblock threadBlocked (s.modLock plock fun lock => lock.setWaiters waiters)
  else pure s

/-- `sema_up`. -/
def semaUp (plock : LockId) (s : Sched) : Except Fault Sched := do
  assertThat ((s.locks plock).semaphore.value = 0)
  let s ← semaWake plock s
  let s := s.modLock plock fun lock => lock.setValue (u8 ((lock.semaphore.value : Int) + 1))
  assertThat ((s.locks plock).semaphore.value = 1)
  pure s

/-- `lock_acquire` up to its `sema_down`. -/
def lockAcquire (plock : LockId) (s : Sched) : Sched :=
  if (s.locks plock).holder ≠ some s.currentTask then
    s.push s.currentTask [.semaDown plock, .lockAcquired plock]
  else
    s.modLock plock fun lock => { lock with holderRepeatNr := u32 (lock.holderRepeatNr + 1) }

/-- `lock_acquire` after its `sema_down`. -/
def lockAcquired (plock : LockId) (s : Sched) : Except Fault Sched := do
  let s := s.modLock plock fun lock => { lock with holder := some s.currentTask }
  assertThat ((s.locks plock).holderRepeatNr = 0)
  pure (s.modLock plock fun lock => { lock with holderRepeatNr := 1 })

/-- `lock_release`. -/
def lockRelease (plock : LockId) (s : Sched) : Except Fault Sched := do
  assertThat ((s.locks plock).holder = some s.currentTask)
  if (s.locks plock).holderRepeatNr > 1 then
    pure (s.modLock plock fun lock => { lock with holderRepeatNr := lock.holderRepeatNr - 1 })
  else do
    assertThat ((s.locks plock).holderRepeatNr = 1)
    semaUp plock (s.modLock plock fun lock => { lock with holder := none, holderRepeatNr := 0 })

/-- `lock_acquire` in a call that is not divided. -/
def lockAcquireNow (plock : LockId) (s : Sched) : Except Fault Sched :=
  if (s.locks plock).holder ≠ some s.currentTask then
    if (s.locks plock).semaphore.value = 0 then .error .nestedBlock
    else do
      let s ← semaTake plock s
      lockAcquired plock s
  else
    .ok (s.modLock plock fun lock => { lock with holderRepeatNr := u32 (lock.holderRepeatNr + 1) })

/-! ## Ioqueues -/

/-- `next_pos`. -/
def nextPos (pos : Nat) : Nat := (pos + 1) % bufsize

/-- `ioq_full`. -/
def ioqFull (ioq : Ioqueue) : Prop := nextPos ioq.head = ioq.tail

/-- `ioq_empty`. -/
def ioqEmpty (ioq : Ioqueue) : Prop := ioq.head = ioq.tail

instance (ioq : Ioqueue) : Decidable (ioqFull ioq) := by unfold ioqFull; infer_instance

instance (ioq : Ioqueue) : Decidable (ioqEmpty ioq) := by unfold ioqEmpty; infer_instance

def Ioqueue.setWaiter (ioq : Ioqueue) (w : Waiter) (task : Option TaskId) : Ioqueue :=
  { ioq with waiter := Function.update ioq.waiter w task }

/-- `ioq_wait`. -/
def ioqWait (q : IoqId) (w : Waiter) (s : Sched) : Except Fault Sched := do
  assertThat ((s.ioqs q).waiter w = none)
  taskBlock .BLOCKED (s.modIoq q fun ioq => ioq.setWaiter w (some s.currentTask))

/-- `wakeup`, where `*waiter` is `task`. -/
def wakeup (q : IoqId) (w : Waiter) (task : TaskId) (s : Sched) : Except Fault Sched := do
  let s ← taskUnblock task s
  pure (s.modIoq q fun ioq => ioq.setWaiter w none)

/-- The `if(ioq->producer != NULL) wakeup(…)` at the end of `ioq_getchar`, and its twin. -/
def wakeupWaiter (q : IoqId) (w : Waiter) (s : Sched) : Except Fault Sched :=
  match (s.ioqs q).waiter w with
  | some task => wakeup q w task s
  | none => pure s

/-- `ioq_getchar`: one round of its loop, or what follows the loop. -/
def ioqGetchar (q : IoqId) (s : Sched) : Except Fault Sched :=
  if ioqEmpty (s.ioqs q) then
    pure (s.push s.currentTask
      [.lockAcquire (.ioq q), .ioqWait q .consumer, .lockRelease (.ioq q), .ioqGetchar q])
  else do
    let byte := (s.ioqs q).buf (s.ioqs q).tail
    let s := s.modIoq q fun ioq => { ioq with tail := nextPos ioq.tail }
    let s ← wakeupWaiter q .producer s
    pure (s.emit (.getchar s.currentTask q byte))

/-- `ioq_putchar`. -/
def ioqPutchar (q : IoqId) (byte : BitVec 8) (s : Sched) : Except Fault Sched :=
  if ioqFull (s.ioqs q) then
    pure (s.push s.currentTask
      [.lockAcquire (.ioq q), .ioqWait q .producer, .lockRelease (.ioq q), .ioqPutchar q byte])
  else
    let s := s.modIoq q fun ioq =>
      { ioq with buf := Function.update ioq.buf ioq.head byte, head := nextPos ioq.head }
    wakeupWaiter q .consumer s

/-! ## Running a call -/

/-- One statement of the current task. -/
def execStmt (st : Stmt) (s : Sched) : Except Fault Sched :=
  match st with
  | .lockAcquire l => pure (lockAcquire l s)
  | .semaDown l => semaDown l s
  | .lockAcquired l => lockAcquired l s
  | .lockRelease l => lockRelease l s
  | .ioqGetchar q => ioqGetchar q s
  | .ioqPutchar q byte => ioqPutchar q byte s
  | .ioqWait q w => ioqWait q w s
  | .sleepSpin =>
    if s.current.isCollaborativeSchedule then pure (s.push s.currentTask [.sleepSpin]) else pure s
  | .loop => pure (s.push s.currentTask [.loop])

/-- The next statement of the current task; `none` when it is in no call. -/
def runStmt (s : Sched) : Option (Except Fault Sched) :=
  match s.conts s.currentTask with
  | [] => none
  | st :: rest => some (execStmt st { s with conts := Function.update s.conts s.currentTask rest })

end ThreadSched
