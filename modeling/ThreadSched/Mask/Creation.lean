import ThreadSched.Mask.Sema

/-!
# Creating and ending tasks under a signal mask (`Thread/task/task.c`)

`task_start` and `task_exit` close the signal, and then call `allocate_tid` and `release_tid`, which take
`tid_lock`: its semaphore opens the signal again.  Any number of tasks call them, statement by statement,
and the handler comes wherever the signal is open.

* `TaskPc`, `Kern.next` — the statements of the two functions and of what they call.
* `createRuns` — the runs; the handler comes at statements that meet a condition.
* `Consistent` — what the handler relies on when it is entered.

Of a `struct task_struct` the statements read and write the status, the tid, the context and the places in
the lists.  `malloc` returns any address that is not in use.
-/

set_option autoImplicit false

namespace ThreadSched.Mask

/-- The call that takes `tid_lock`. -/
inductive TidCall
  | allocate (task : TaskId)
  | release (task : TaskId)
  deriving DecidableEq, Repr

/-- The call that gives it back, with what is left to do. -/
inductive TidDone
  | allocated (task : TaskId) (bitIdx : Int)
  | released
  deriving DecidableEq, Repr

/-- The statements of `task_start` and `task_exit`. -/
inductive TaskPc
  /-- In neither. -/
  | out
  /-- `interrupt_disable()` of `task_start` -/
  | startDisable
  /-- `if(!list_empty(&task_pool_list))` -/
  | startTest
  /-- `task_tag = list_pop(&task_pool_list)` -/
  | startPop
  /-- `assert(TASK_DIED != task->status)` -/
  | startAssert (task : TaskId)
  /-- `malloc(sizeof(struct task_struct))` -/
  | startMalloc
  /-- `init_task` up to its `allocate_tid` -/
  | startInit (task : TaskId)
  /-- `if(plock->holder != current_task)` of `lock_acquire` -/
  | acquire (c : TidCall)
  /-- In its `sema_down`. -/
  | down (c : TidCall) (pc : SemaPc)
  /-- `plock->holder = current_task` -/
  | setHolder (c : TidCall)
  /-- `assert(plock->holder_repeat_nr == 0)` -/
  | assertZero (c : TidCall)
  /-- `plock->holder_repeat_nr = 1` -/
  | setOne (c : TidCall)
  /-- `plock->holder_repeat_nr++` -/
  | repeatInc (c : TidCall)
  /-- `bit_idx = bitmap_scan(…)` of `allocate_tid` -/
  | scan (task : TaskId)
  /-- `bitmap_set(…, bit_idx, 1)` -/
  | mark (task : TaskId) (bitIdx : Int)
  /-- The body of `release_tid`. -/
  | unmark (task : TaskId)
  /-- `assert(plock->holder == current_task)` of `lock_release` -/
  | release (d : TidDone)
  /-- `if(plock->holder_repeat_nr > 1)` -/
  | testRepeat (d : TidDone)
  /-- `plock->holder_repeat_nr--; return` -/
  | repeatDec (d : TidDone)
  /-- `assert(plock->holder_repeat_nr == 1)` -/
  | assertOne (d : TidDone)
  /-- `plock->holder = NULL` -/
  | clearHolder (d : TidDone)
  /-- `plock->holder_repeat_nr = 0` -/
  | clearRepeat (d : TidDone)
  /-- In its `sema_up`. -/
  | up (d : TidDone) (pc : SemaPc)
  /-- `ptask->tid = allocate_tid()`, after the call -/
  | startTid (task : TaskId) (bitIdx : Int)
  /-- The rest of `init_task`, and `task_create` -/
  | startCreate (task : TaskId)
  /-- `assert(!elem_find(&task_ready_list, …))` -/
  | startAssertReady (task : TaskId)
  /-- `list_append(&task_ready_list, …)` -/
  | startAppendReady (task : TaskId)
  /-- `assert(!elem_find(&task_all_list, …))` -/
  | startAssertAll (task : TaskId)
  /-- `list_append(&task_all_list, …)` -/
  | startAppendAll (task : TaskId)
  /-- `task_all_nums++` -/
  | startCount
  /-- `interrupt_enable()` of `task_start` -/
  | startEnable
  /-- `interrupt_disable()` of `task_exit` -/
  | exitDisable (task : TaskId)
  /-- `task->status = TASK_DIED` -/
  | exitStatus (task : TaskId)
  /-- `if(elem_find(&task_ready_list, …))` -/
  | exitFind (task : TaskId)
  /-- `list_remove(&task->general_tag)` -/
  | exitRemoveReady (task : TaskId)
  /-- `list_remove(&task->all_list_tag)` -/
  | exitRemoveAll (task : TaskId)
  /-- `task_all_nums--` -/
  | exitCount (task : TaskId)
  /-- `if(task != main_task)` -/
  | exitMain (task : TaskId)
  /-- `list_append(&task_pool_list, …)` -/
  | exitPool (task : TaskId)
  /-- `interrupt_enable()` of `task_exit` -/
  | exitEnable
  /-- `if(list_empty(&task_ready_list))` of `died_task_schedule` -/
  | diedTest
  /-- `task_tag = list_pop(&task_ready_list)` -/
  | diedPop
  /-- `next->status = TASK_RUNNING` -/
  | diedStatus (next : TaskId)
  /-- `current_task = next` -/
  | diedCurrent (next : TaskId)
  /-- `context_set(&current_task->context)` -/
  | contextSet (next : TaskId)
  deriving DecidableEq, Repr

/-- What `lock_acquire` returns to. -/
def TidCall.body : TidCall → TaskPc
  | .allocate task => .scan task
  | .release task => .unmark task

/-- What `lock_release` returns to. -/
def TidDone.rest : TidDone → TaskPc
  | .allocated task bitIdx => .startTid task bitIdx
  | .released => .exitEnable

/-- The processor, between two statements.  `sched` has the semaphore of `tid_lock`; `heap` are the
addresses in use.  Ghost: `exited`, the tasks that `task_exit` has set `TASK_DIED`. -/
structure Kern where
  sched : Sched
  holder : Option TaskId
  holderRepeatNr : Nat
  tidPool : TidPool
  tid : TaskId → Int
  taskAllList : List TaskId
  taskPoolList : List TaskId
  taskAllNums : Int
  heap : List TaskId
  mainTask : TaskId
  pc : TaskPc
  context : TaskId → TaskPc
  exited : TaskId → Bool

/-- What happens: the current task calls `task_start` or `task_exit(current_task)`, `malloc` returns an
address, a statement is executed, or the handler runs. -/
inductive TaskEv
  | start | exit | malloc (task : TaskId) | next | handler
  deriving DecidableEq, Repr

namespace Kern

def goto (x : Kern) (pc : TaskPc) : Kern := { x with pc := pc }

def modSched (x : Kern) (f : Sched → Sched) : Kern := { x with sched := f x.sched }

def setTidBit (x : Kern) (bitIdx : Int) (value : Bool) : Kern :=
  { x with tidPool := { x.tidPool with
      tidBitmap := bitmapSet x.tidPool.tidBitmap (bitIdx % 2 ^ 32).toNat value } }

/-- A statement of a semaphore call: `wrap` says where in the caller it is, `after` what follows it. -/
def sema (x : Kern) (pc : SemaPc) (wrap : SemaPc → TaskPc) (after : TaskPc) : Except Fault Kern := do
  let (sched, flow) ← semaNext pc x.sched
  let x := { x with sched := sched }
  match flow with
  | .goto pc => pure (x.goto (if pc = .out then after else wrap pc))
  | .swap temp next =>
    let context := Function.update x.context temp (wrap .downAgain)
    pure { x with pc := context next, context := context }

/-- The next statement.  With no task ready `died_task_schedule` stays in its `while(1)`. -/
def next (x : Kern) : Except Fault Kern :=
  match x.pc with
  | .out | .startMalloc => pure x
  | .startDisable => pure ((x.modSched Sched.interruptDisable).goto .startTest)
  | .startTest => pure (x.goto (if x.taskPoolList ≠ [] then .startPop else .startMalloc))
  | .startPop => do
    let (task, taskPoolList) ← listPop x.taskPoolList
    pure ({ x with taskPoolList := taskPoolList }.goto (.startAssert task))
  | .startAssert task => do
    assertThat (.DIED ≠ x.sched.status task)
    pure (x.goto (.startInit task))
  | .startInit task =>
    pure ((x.modSched fun s =>
      if task = x.mainTask then { s.setStatus task .RUNNING with currentTask := task }
      else s.setStatus task .READY).goto (.acquire (.allocate task)))
  | .acquire c =>
    pure (x.goto (if x.holder ≠ some x.sched.currentTask then .down c .downDisable else .repeatInc c))
  | .down c pc => x.sema pc (.down c) (.setHolder c)
  | .setHolder c => pure ({ x with holder := some x.sched.currentTask }.goto (.assertZero c))
  | .assertZero c => do
    assertThat (x.holderRepeatNr = 0)
    pure (x.goto (.setOne c))
  | .setOne c => pure ({ x with holderRepeatNr := 1 }.goto c.body)
  | .repeatInc c => pure ({ x with holderRepeatNr := u32 (x.holderRepeatNr + 1) }.goto c.body)
  | .scan task =>
    match bitmapScan x.tidPool.tidBitmap 1 with
    | none => .error .assertion
    | some bitIdx => pure (x.goto (.mark task bitIdx))
  | .mark task bitIdx => pure ((x.setTidBit bitIdx true).goto (.release (.allocated task bitIdx)))
  | .unmark task =>
    pure ((x.setTidBit (x.tid task - x.tidPool.tidStart) false).goto (.release .released))
  | .release d => do
    assertThat (x.holder = some x.sched.currentTask)
    pure (x.goto (.testRepeat d))
  | .testRepeat d => pure (x.goto (if x.holderRepeatNr > 1 then .repeatDec d else .assertOne d))
  | .repeatDec d => pure ({ x with holderRepeatNr := x.holderRepeatNr - 1 }.goto d.rest)
  | .assertOne d => do
    assertThat (x.holderRepeatNr = 1)
    pure (x.goto (.clearHolder d))
  | .clearHolder d => pure ({ x with holder := none }.goto (.clearRepeat d))
  | .clearRepeat d => pure ({ x with holderRepeatNr := 0 }.goto (.up d .upDisable))
  | .up d pc => x.sema pc (.up d) d.rest
  | .startTid task bitIdx =>
    pure ({ x with tid := Function.update x.tid task (i16 (bitIdx + x.tidPool.tidStart)) }.goto
      (.startCreate task))
  | .startCreate task =>
    pure ({ x with context := Function.update x.context task .out }.goto (.startAssertReady task))
  | .startAssertReady task => do
    assertThat (¬ elemFind x.sched.taskReadyList task)
    pure (x.goto (.startAppendReady task))
  | .startAppendReady task =>
    pure ((x.modSched fun s => { s with taskReadyList := listAppend s.taskReadyList task }).goto
      (.startAssertAll task))
  | .startAssertAll task => do
    assertThat (¬ elemFind x.taskAllList task)
    pure (x.goto (.startAppendAll task))
  | .startAppendAll task =>
    pure ({ x with taskAllList := listAppend x.taskAllList task }.goto .startCount)
  | .startCount => pure ({ x with taskAllNums := x.taskAllNums + 1 }.goto .startEnable)
  | .startEnable => pure ((x.modSched Sched.interruptEnable).goto .out)
  | .exitDisable task => pure ((x.modSched Sched.interruptDisable).goto (.exitStatus task))
  | .exitStatus task =>
    pure ({ x.modSched (fun s => s.setStatus task .DIED) with
      exited := Function.update x.exited task true }.goto (.exitFind task))
  | .exitFind task =>
    pure (x.goto (if elemFind x.sched.taskReadyList task then .exitRemoveReady task else .exitRemoveAll task))
  | .exitRemoveReady task =>
    pure ((x.modSched fun s => { s with taskReadyList := listRemove s.taskReadyList task }).goto
      (.exitRemoveAll task))
  | .exitRemoveAll task =>
    pure ({ x with taskAllList := listRemove x.taskAllList task }.goto (.exitCount task))
  | .exitCount task => pure ({ x with taskAllNums := x.taskAllNums - 1 }.goto (.exitMain task))
  | .exitMain task =>
    pure (x.goto (if task ≠ x.mainTask then .exitPool task else .acquire (.release task)))
  | .exitPool task =>
    pure ({ x with taskPoolList := listAppend x.taskPoolList task }.goto (.acquire (.release task)))
  | .exitEnable => pure ((x.modSched Sched.interruptEnable).goto .diedTest)
  | .diedTest => pure (x.goto (if x.sched.taskReadyList = [] then .diedTest else .diedPop))
  | .diedPop => do
    let (next, taskReadyList) ← listPop x.sched.taskReadyList
    pure ((x.modSched fun s => { s with taskReadyList := taskReadyList }).goto (.diedStatus next))
  | .diedStatus next => pure ((x.modSched fun s => s.setStatus next .RUNNING).goto (.diedCurrent next))
  | .diedCurrent next => pure ((x.modSched fun s => { s with currentTask := next }).goto (.contextSet next))
  | .contextSet _ => pure (x.goto (x.context x.sched.currentTask))

/-- `interrupt_timer_handler`, as for a semaphore. -/
def handler (x : Kern) : Except Fault Kern := do
  let sched ← x.sched.schedule
  let context := Function.update x.context x.sched.currentTask x.pc
  pure { x with sched := sched, pc := context sched.currentTask, context := context }

def act (x : Kern) : TaskEv → Except Fault Kern
  | .start => pure (x.goto .startDisable)
  | .exit => pure (x.goto (.exitDisable x.sched.currentTask))
  | .malloc task => pure ({ x with heap := task :: x.heap }.goto (.startInit task))
  | .next => x.next
  | .handler => x.handler

/-- When it can happen; `C` is the condition on the statement at which the handler comes. -/
def Enabled (C : TaskPc → Prop) (x : Kern) : TaskEv → Prop
  | .start | .exit => x.pc = .out
  | .malloc task => x.pc = .startMalloc ∧ task ∉ x.heap
  | .next => True
  | .handler => x.sched.masked = false ∧ C x.pc

instance (C : TaskPc → Prop) [DecidablePred C] (x : Kern) (e : TaskEv) : Decidable (x.Enabled C e) :=
  match e with
  | .start => inferInstanceAs (Decidable (x.pc = .out))
  | .exit => inferInstanceAs (Decidable (x.pc = .out))
  | .malloc task => inferInstanceAs (Decidable (x.pc = .startMalloc ∧ task ∉ x.heap))
  | .next => inferInstanceAs (Decidable True)
  | .handler => inferInstanceAs (Decidable (x.sched.masked = false ∧ C x.pc))

end Kern

/-- The runs, from the state `task_init` leaves: `main` alone. -/
def createRuns (C : TaskPc → Prop) : Trans.Sys Kern where
  init x := (x.sched.value = 1 ∧ x.sched.waiters = [] ∧ x.holder = none ∧ x.holderRepeatNr = 0) ∧
    (x.sched.currentTask = x.mainTask ∧ x.sched.status x.mainTask = .RUNNING ∧ x.pc = .out) ∧
    (x.sched.taskReadyList = [] ∧ x.taskAllList = [x.mainTask] ∧ x.taskPoolList = [] ∧
      x.taskAllNums = 1 ∧ x.heap = [x.mainTask]) ∧ ∀ t, x.exited t = false
  step x x' := ∃ e, x.Enabled C e ∧ x.act e = .ok x'

/-- What the handler relies on. -/
structure Consistent (x : Kern) : Prop where
  alive : x.sched.status x.sched.currentTask ≠ .DIED
  unpooled : x.sched.currentTask ∉ x.taskPoolList
  ready : ∀ t, t ≠ x.sched.currentTask → t ∈ x.taskAllList → x.sched.status t = .READY →
    x.sched.taskReadyList.count t = 1
  listed : ∀ t ∈ x.sched.taskReadyList, t ≠ x.sched.currentTask ∧ t ∈ x.taskAllList ∧
    x.sched.status t = .READY
  nums : x.taskAllNums = x.taskAllList.length

/-- The handler is only entered in a consistent state, and a task that ended is never ready again. -/
structure TasksOk (C : TaskPc → Prop) (x : Kern) : Prop where
  entry : x.Enabled C .handler → Consistent x
  gone : ∀ t, x.exited t = true → t ∉ x.sched.taskReadyList

/-! ## The invariant -/

/-- Where the signal is open inside a critical section: while `tid_lock` is held, between the two
`list_append` and the count of `task_start`, and in `task_exit` after `release_tid` has taken the lock. -/
def Exposed : TaskPc → Prop
  | .setHolder _ | .assertZero _ | .setOne _ | .repeatInc _ | .scan _ | .mark _ _ | .unmark _
  | .release _ | .testRepeat _ | .repeatDec _ | .assertOne _ | .clearHolder _ | .clearRepeat _
  | .up _ .upDisable | .startAssertAll _ | .startAppendAll _ | .startCount | .exitEnable
  | .diedTest | .diedPop | .diedStatus _ | .diedCurrent _ | .contextSet _ => True
  | _ => False

instance : DecidablePred Exposed := fun pc =>
  match pc with
  | .setHolder _ | .assertZero _ | .setOne _ | .repeatInc _ | .scan _ | .mark _ _ | .unmark _
  | .release _ | .testRepeat _ | .repeatDec _ | .assertOne _ | .clearHolder _ | .clearRepeat _
  | .startAssertAll _ | .startAppendAll _ | .startCount | .exitEnable
  | .diedTest | .diedPop | .diedStatus _ | .diedCurrent _ | .contextSet _ =>
    inferInstanceAs (Decidable True)
  | .up _ pc =>
    match pc with
    | .upDisable => inferInstanceAs (Decidable True)
    | .out | .downDisable | .downTest | .downAgain | .downAssertFree | .downAppend | .blockStatus
    | .switchTest | .switchAssert | .switchPop | .switchStatus _ | .switchCurrent _ | .swap _ _
    | .downTake | .downAssert | .downEnable | .upAssertZero | .upTest | .upPop | .unblockDisable _
    | .unblockAssert _ | .unblockTest _ | .unblockAssertFree _ | .unblockPush _ | .unblockStatus _
    | .unblockEnable | .upInc | .upAssertOne | .upEnable => inferInstanceAs (Decidable False)
  | .out | .startDisable | .startTest | .startPop | .startAssert _ | .startMalloc | .startInit _
  | .acquire _ | .down _ _ | .startTid _ _ | .startCreate _ | .startAssertReady _ | .startAppendReady _
  | .startEnable | .exitDisable _ | .exitStatus _ | .exitFind _ | .exitRemoveReady _ | .exitRemoveAll _
  | .exitCount _ | .exitMain _ | .exitPool _ => inferInstanceAs (Decidable False)

/-- The task that a call of `task_start` is making, not yet in `task_all_list`. -/
def TidCall.made : TidCall → Option TaskId
  | .allocate task => some task
  | .release _ => none

def TidDone.made : TidDone → Option TaskId
  | .allocated task _ => some task
  | .released => none

/-- What a statement says about the lists. -/
structure Frame where
  /-- The task that is being made. -/
  made : Option TaskId
  /-- Its status is set. -/
  inited : Bool
  /-- Its context is set. -/
  created : Bool
  /-- It is ready, and not yet in `task_all_list`. -/
  pend : Option TaskId
  /-- The task that `died_task_schedule` has taken from `task_ready_list`. -/
  picked : Option TaskId
  /-- A dead task that is still in `task_all_list`. -/
  leaving : Option TaskId
  /-- `task_all_nums` less the length of `task_all_list`. -/
  ahead : Int

def frame : TaskPc → Frame
  | .startInit t => ⟨some t, false, false, none, none, none, 0⟩
  | .scan t | .mark t _ | .startTid t _ | .startCreate t => ⟨some t, true, false, none, none, none, 0⟩
  | .acquire c | .down c _ | .setHolder c | .assertZero c | .setOne c | .repeatInc c =>
    ⟨c.made, true, false, none, none, none, 0⟩
  | .release d | .testRepeat d | .repeatDec d | .assertOne d | .clearHolder d | .clearRepeat d
  | .up d _ => ⟨d.made, true, false, none, none, none, 0⟩
  | .startAssertReady t | .startAppendReady t => ⟨some t, true, true, none, none, none, 0⟩
  | .startAssertAll t | .startAppendAll t => ⟨some t, true, true, some t, none, none, 0⟩
  | .startCount => ⟨none, true, false, none, none, none, -1⟩
  | .exitFind t | .exitRemoveReady t | .exitRemoveAll t => ⟨none, true, false, none, none, some t, 0⟩
  | .exitCount _ => ⟨none, true, false, none, none, none, 1⟩
  | .diedStatus t | .diedCurrent t | .contextSet t => ⟨none, true, false, none, some t, none, 0⟩
  | _ => ⟨none, true, false, none, none, none, 0⟩

/-- What the lists are about. -/
structure View where
  ready : List TaskId
  all : List TaskId
  pool : List TaskId
  nums : Int
  heap : List TaskId
  mainTask : TaskId
  status : TaskId → TaskStatus
  context : TaskId → TaskPc
  exited : TaskId → Bool

def Kern.view (x : Kern) : View :=
  ⟨x.sched.taskReadyList, x.taskAllList, x.taskPoolList, x.taskAllNums, x.heap, x.mainTask,
    x.sched.status, x.context, x.exited⟩

/-- `task_ready_list`, `task_all_list` and the count, while `m` is executed. -/
structure Listing (v : View) (f : Frame) (m : TaskId) : Prop where
  readyNodup : v.ready.Nodup
  allNodup : v.all.Nodup
  listed : ∀ t, t ∈ v.ready ↔ (t ∈ v.all ∧ t ≠ m ∧ f.picked ≠ some t) ∨ f.pend = some t
  status : ∀ t ∈ v.ready, v.status t = .READY
  nums : v.nums = v.all.length + f.ahead

/-- The dead tasks. -/
structure Graves (v : View) (f : Frame) : Prop where
  gone : ∀ t, v.exited t = true → t ∈ v.heap ∧ (t ∈ v.all → f.leaving = some t)
  pool : ∀ t ∈ v.pool, v.exited t = true ∧ v.status t = .DIED
  heap : ∀ t ∈ v.all, t ∈ v.heap
  main : v.mainTask ∈ v.all ∨ v.exited v.mainTask = true

/-- A task that is being made. -/
structure Fresh (v : View) (inited created : Bool) (u : TaskId) : Prop where
  heap : u ∈ v.heap
  unlisted : u ∉ v.all
  alive : v.exited u = false
  status : inited = true → v.status u = .READY
  context : created = true → v.context u = .out

/-- Where a task that is not executed can be. -/
def Paused (t : TaskId) : TaskPc → Prop
  | .out | .startDisable | .startTid _ _ | .startCreate _ | .startAssertReady _ | .startAppendReady _
  | .startEnable => True
  | .exitDisable task => task = t
  | _ => False

/-- The tasks being made, each by one other task. -/
structure Making (v : View) (f : Frame) : Prop where
  mine : ∀ u, f.made = some u → Fresh v f.inited f.created u
  paused : ∀ t, t ∈ v.ready ∨ f.picked = some t → Paused t (v.context t)
  theirs : ∀ t u, t ∈ v.ready ∨ f.picked = some t → (frame (v.context t)).made = some u →
    Fresh v (frame (v.context t)).inited (frame (v.context t)).created u ∧ f.made ≠ some u
  unique : ∀ t t' u, t ∈ v.ready ∨ f.picked = some t → t' ∈ v.ready ∨ f.picked = some t' →
    (frame (v.context t)).made = some u → (frame (v.context t')).made = some u → t = t'

/-- `tid_lock`. -/
def LockIs (x : Kern) (value : Nat) (holder : Option TaskId) (holderRepeatNr : Nat) : Prop :=
  x.sched.value = value ∧ x.holder = holder ∧ x.holderRepeatNr = holderRepeatNr

/-- `tid_lock` at each statement of `m`; nobody else has it. -/
def LockAt (x : Kern) (m : TaskId) : TaskPc → Prop
  | .down _ .downDisable | .down _ .downTest | .down _ .downTake | .up _ .upAssertOne
  | .up _ .upEnable => LockIs x 1 none 0
  | .down _ .downAssert | .down _ .downEnable | .setHolder _ => LockIs x 0 none 0
  | .assertZero _ | .setOne _ => LockIs x 0 (some m) 0
  | .scan _ | .mark _ _ | .unmark _ | .release _ | .testRepeat _ | .assertOne _ | .clearHolder _ =>
    LockIs x 0 (some m) 1
  | .clearRepeat _ => LockIs x 0 none 1
  | .up _ .upDisable | .up _ .upAssertZero | .up _ .upTest | .up _ .upInc => LockIs x 0 none 0
  | .repeatInc _ | .repeatDec _ | .down _ _ | .up _ _ => False
  | _ => LockIs x 1 none 0

/-- Where the signal is blocked. -/
def Closed : TaskPc → Prop
  | .startTest | .startPop | .startAssert _ | .startMalloc | .startInit _ | .acquire _ | .down _ _
  | .exitStatus _ | .exitFind _ | .exitRemoveReady _ | .exitRemoveAll _ | .exitCount _ | .exitMain _
  | .exitPool _ => True
  | .up _ pc => pc ≠ .upDisable
  | _ => False

/-- A task that lives. -/
def Alive (x : Kern) (m : TaskId) : Prop :=
  m = x.sched.currentTask ∧ m ∈ x.taskAllList ∧ x.exited m = false ∧ x.sched.status m ≠ .DIED

/-- A task that is dead, in `task_all_list` or not. -/
def Dead (x : Kern) (m : TaskId) : Prop :=
  m = x.sched.currentTask ∧ x.exited m = true ∧ x.sched.status m = .DIED

/-- A task that has left. -/
def Left (x : Kern) (m : TaskId) : Prop := Dead x m ∧ m ∉ x.taskAllList

def TidCall.At (x : Kern) (m : TaskId) : TidCall → Prop
  | .allocate _ => Alive x m
  | .release task => task = m ∧ Left x m

def TidDone.At (x : Kern) (m : TaskId) : TidDone → Prop
  | .allocated _ _ => Alive x m
  | .released => Left x m

/-- What is so of the task that is executed. -/
def TaskAt (x : Kern) (m : TaskId) : TaskPc → Prop
  | .startPop => Alive x m ∧ x.taskPoolList ≠ []
  | .startAssert task => Alive x m ∧ x.sched.status task = .DIED
  | .acquire c | .down c _ | .setHolder c | .assertZero c | .setOne c | .repeatInc c => c.At x m
  | .release d | .testRepeat d | .repeatDec d | .assertOne d | .clearHolder d | .clearRepeat d
  | .up d _ => d.At x m
  | .unmark task => task = m ∧ Left x m
  | .exitDisable task | .exitStatus task => task = m ∧ Alive x m
  | .exitFind task | .exitRemoveReady task | .exitRemoveAll task =>
    task = m ∧ Dead x m ∧ m ∈ x.taskAllList
  | .exitCount task | .exitMain task | .exitPool task => task = m ∧ Left x m
  | .exitEnable | .diedTest | .diedPop => Left x m
  | .diedStatus next => Left x m ∧ next ∈ x.taskAllList
  | .diedCurrent next => Left x m ∧ next ∈ x.taskAllList ∧ x.sched.status next = .RUNNING
  | .contextSet next => m ∉ x.taskAllList ∧ x.sched.currentTask = next ∧ next ∈ x.taskAllList ∧
    x.sched.status next = .RUNNING
  | _ => Alive x m

/-- **The invariant**; `m` is executed. -/
structure KernInv (x : Kern) (m : TaskId) : Prop where
  listing : Listing x.view (frame x.pc) m
  graves : Graves x.view (frame x.pc)
  making : Making x.view (frame x.pc)
  waiters : x.sched.waiters = []
  lock : LockAt x m x.pc
  closed : Closed x.pc → x.sched.masked = true
  station : TaskAt x m x.pc

section

variable {x : Kern} {v v' : View} {f f' : Frame} {pc pc' : TaskPc} {m t u : TaskId}

/-- A statement that leaves the lists and the tasks alone. -/
theorem KernInv.quiet (h : KernInv x m) (x' : Kern) (hview : x'.view = x.view) (hframe : frame x'.pc = frame x.pc)
    (hwaiters : x'.sched.waiters = x.sched.waiters) (hlock : LockAt x' m x'.pc)
    (hclosed : Closed x'.pc → x'.sched.masked = true) (hstation : TaskAt x' m x'.pc) : KernInv x' m := by
  refine ⟨?_, ?_, ?_, hwaiters.trans h.waiters, hlock, hclosed, hstation⟩
  · rw [hview, hframe]
    exact h.listing
  · rw [hview, hframe]
    exact h.graves
  · rw [hview, hframe]
    exact h.making

theorem Listing.not_ready (h : Listing v f m) (hpend : f.pend ≠ some m) : m ∉ v.ready := by
  rw [h.listed m]
  rintro (⟨-, hne, -⟩ | heq)
  · exact hne rfl
  · exact hpend heq

theorem made_of_pend (h : (frame pc).pend = some u) : (frame pc).made = some u := by
  cases pc <;> first
    | exact h
    | cases h

theorem TaskAt.leaving (h : TaskAt x m pc) (ht : (frame pc).leaving = some t) : t = m := by
  cases pc <;> first
    | (obtain rfl := Option.some.inj ht; exact h.1)
    | cases ht

/-- A dead task is not ready. -/
theorem KernInv.gone_not_ready (h : KernInv x m) (ht : x.exited t = true) : t ∉ x.sched.taskReadyList := by
  intro hready
  rcases (h.listing.listed t).1 hready with ⟨hall, hne, -⟩ | hpend
  · exact hne (h.station.leaving ((h.graves.gone t ht).2 hall))
  · have halive := (h.making.mine t (made_of_pend hpend)).alive
    rw [show x.view.exited t = true from ht] at halive
    cases halive

/-! ## The handler -/

/-- The statements of a task that is not executed concern no list. -/
theorem Paused.frame (h : Paused t pc) : (frame pc).pend = none ∧ (frame pc).picked = none ∧
    (frame pc).leaving = none ∧ (frame pc).ahead = 0 := by
  cases pc <;> first
    | exact ⟨rfl, rfl, rfl, rfl⟩
    | exact h.elim

theorem Paused.station (h : Paused t pc) (halive : Alive x t) : TaskAt x t pc := by
  cases pc <;> first
    | exact halive
    | exact ⟨h, halive⟩
    | exact h.elim

theorem Paused.lockAt (h : Paused t pc) (hlock : LockIs x 1 none 0) : LockAt x t pc := by
  cases pc <;> first
    | exact hlock
    | exact h.elim

theorem Paused.not_closed (h : Paused t pc) : ¬ Closed pc := by
  cases pc <;> first
    | exact id
    | exact h.elim

/-- Where the handler finds the signal open. -/
theorem KernInv.paused (h : KernInv x m) (hopen : x.sched.masked = false) (hpc : ¬ Exposed x.pc) :
    Alive x m ∧ LockIs x 1 none 0 ∧ Paused m x.pc := by
  have hclosed : ¬ Closed x.pc := fun hc => by
    rw [h.closed hc] at hopen
    cases hopen
  have hat := h.station
  have hlock := h.lock
  generalize x.pc = pc at hpc hclosed hat hlock
  cases pc with
  | out => exact ⟨hat, hlock, trivial⟩
  | startDisable => exact ⟨hat, hlock, trivial⟩
  | startTid t b => exact ⟨hat, hlock, trivial⟩
  | startCreate t => exact ⟨hat, hlock, trivial⟩
  | startAssertReady t => exact ⟨hat, hlock, trivial⟩
  | startAppendReady t => exact ⟨hat, hlock, trivial⟩
  | startEnable => exact ⟨hat, hlock, trivial⟩
  | exitDisable t => exact ⟨hat.2, hlock, hat.1⟩
  | up d pc =>
      by_cases hup : pc = .upDisable
      · subst hup
        exact absurd trivial hpc
      · exact absurd hup hclosed
  | _ => first
    | exact absurd trivial hclosed
    | exact absurd trivial hpc

/-- The tasks that wait for the processor, `n` among them, when `n` gets it. -/
theorem Making.dispatch {n : TaskId} (hn : n ∉ v.ready)
    (hpaused : ∀ t, t ∈ v.ready ∨ t = n → Paused t (v.context t))
    (hfresh : ∀ t u, t ∈ v.ready ∨ t = n → (frame (v.context t)).made = some u →
      Fresh v (frame (v.context t)).inited (frame (v.context t)).created u)
    (hunique : ∀ t t' u, t ∈ v.ready ∨ t = n → t' ∈ v.ready ∨ t' = n →
      (frame (v.context t)).made = some u → (frame (v.context t')).made = some u → t = t') :
    Making v (frame (v.context n)) := by
  have hpicked : (frame (v.context n)).picked = none := (hpaused n (Or.inr rfl)).frame.2.1
  have hready : ∀ t, t ∈ v.ready ∨ (frame (v.context n)).picked = some t → t ∈ v.ready := by
    rintro t (ht | ht)
    · exact ht
    · rw [hpicked] at ht
      cases ht
  refine ⟨fun u hu => hfresh n u (Or.inr rfl) hu, fun t ht => hpaused t (Or.inl (hready t ht)),
    fun t u ht hu => ⟨hfresh t u (Or.inl (hready t ht)) hu, ?_⟩,
    fun t t' u ht ht' => hunique t t' u (Or.inl (hready t ht)) (Or.inl (hready t' ht'))⟩
  intro hmine
  have htn := hunique t n u (Or.inl (hready t ht)) (Or.inr rfl) hu hmine
  rw [htn] at ht
  exact hn (hready n ht)

/-- **The handler** at a statement at which it does no harm. -/
theorem KernInv.handler (h : KernInv x m) (hopen : x.sched.masked = false) (hpc : ¬ Exposed x.pc) :
    Returns x.handler fun x' => ∃ m', KernInv x' m' := by
  obtain ⟨⟨hcur, hmem, hexited, hdied⟩, hlock, hpaused⟩ := h.paused hopen hpc
  obtain ⟨hpend, hpicked, hleaving, hahead⟩ := hpaused.frame
  have hlisted : ∀ t, t ∈ x.sched.taskReadyList ↔ t ∈ x.taskAllList ∧ t ≠ m := by
    intro t
    have hiff := h.listing.listed t
    rw [hpend, hpicked] at hiff
    refine hiff.trans ⟨?_, fun ht => Or.inl ⟨ht.1, ht.2, nofun⟩⟩
    rintro (⟨hall, hne, -⟩ | hnone)
    · exact ⟨hall, hne⟩
    · cases hnone
  have hself : x.sched.currentTask ∉ x.sched.taskReadyList := by
    rw [← hcur, hlisted]
    exact fun ht => ht.2 rfl
  obtain ⟨n, rest, hlist, hsched⟩ := schedule_ok hself
  have hnodup : (n :: rest).Nodup := by
    rw [← hlist]
    exact List.nodup_append.2 ⟨h.listing.readyNodup, List.nodup_singleton _, fun a ha b hb hab => by
      rw [List.mem_singleton] at hb
      rw [hab, hb] at ha
      exact hself ha⟩
  have hmemAll : ∀ t, t ∈ rest ∨ t = n ↔ t ∈ x.taskAllList := by
    intro t
    have hcons : t ∈ n :: rest ↔ t ∈ x.sched.taskReadyList ∨ t = m := by
      rw [← hlist, List.mem_append, List.mem_singleton, hcur]
    rw [List.mem_cons, or_comm] at hcons
    rw [hcons, hlisted]
    constructor
    · rintro (ht | rfl)
      · exact ht.1
      · exact hmem
    · intro ht
      by_cases htm : t = m
      · exact Or.inr htm
      · exact Or.inl ⟨ht, htm⟩
  have halive : ∀ t ∈ x.taskAllList, x.exited t = false := by
    intro t ht
    cases he : x.exited t with
    | false => rfl
    | true =>
        have hgone := (h.graves.gone t he).2 ht
        rw [hleaving] at hgone
        cases hgone
  have hn : n ∈ x.taskAllList := (hmemAll n).1 (Or.inr rfl)
  have hstatus : ∀ t, t ≠ m → t ≠ n →
      Function.update (Function.update x.sched.status x.sched.currentTask .READY) n .RUNNING t =
        x.sched.status t := by
    intro t htm htn
    rw [Function.update_of_ne htn, ← hcur, Function.update_of_ne htm]
  have hctxSelf : Function.update x.context x.sched.currentTask x.pc m = x.pc := by
    rw [hcur, Function.update_self]
  have hctx : ∀ t, t ≠ m → Function.update x.context x.sched.currentTask x.pc t = x.context t := by
    intro t htm
    rw [← hcur, Function.update_of_ne htm]
  -- A task that is being made is in no list, so nothing happens to it.
  have hkeep : ∀ {i c u}, Fresh x.view i c u → Fresh ⟨rest, x.taskAllList, x.taskPoolList, x.taskAllNums,
      x.heap, x.mainTask, Function.update (Function.update x.sched.status x.sched.currentTask .READY) n
        .RUNNING, Function.update x.context x.sched.currentTask x.pc, x.exited⟩ i c u := by
    intro i c u hu
    have hum : u ≠ m := by
      rintro rfl
      exact hu.unlisted hmem
    have hun : u ≠ n := by
      rintro rfl
      exact hu.unlisted hn
    exact ⟨hu.heap, hu.unlisted, hu.alive, fun hi => (hstatus u hum hun).trans (hu.status hi),
      fun hc => (hctx u hum).trans (hu.context hc)⟩
  have hold : ∀ t, t ≠ m → t ∈ x.taskAllList → t ∈ x.view.ready ∨ (Mask.frame x.pc).picked = some t :=
    fun t htm ht => Or.inl ((hlisted t).2 ⟨ht, htm⟩)
  have hmaking : Making ⟨rest, x.taskAllList, x.taskPoolList, x.taskAllNums,
      x.heap, x.mainTask, Function.update (Function.update x.sched.status x.sched.currentTask .READY) n
        .RUNNING, Function.update x.context x.sched.currentTask x.pc, x.exited⟩
      (Mask.frame (Function.update x.context x.sched.currentTask x.pc n)) := by
    refine Making.dispatch (List.nodup_cons.1 hnodup).1 ?_ ?_ ?_
    · intro t ht
      by_cases htm : t = m
      · subst htm
        simp only [hctxSelf]
        exact hpaused
      · simp only [hctx t htm]
        exact h.making.paused t (hold t htm ((hmemAll t).1 ht))
    · intro t u ht hu
      by_cases htm : t = m
      · subst htm
        simp only [hctxSelf] at hu ⊢
        exact hkeep (h.making.mine u hu)
      · simp only [hctx t htm] at hu ⊢
        exact hkeep (h.making.theirs t u (hold t htm ((hmemAll t).1 ht)) hu).1
    · intro t t' u ht ht' hu hu'
      have htwo : ∀ a b, a ≠ m → b = m → a ∈ x.taskAllList →
          (Mask.frame (x.context a)).made = some u → (Mask.frame x.pc).made = some u → False :=
        fun a b ha _ hall hua hub => (h.making.theirs a u (hold a ha hall) hua).2 hub
      by_cases htm : t = m
      · by_cases htm' : t' = m
        · exact htm.trans htm'.symm
        · subst htm
          simp only [hctxSelf, hctx t' htm'] at hu hu'
          exact (htwo t' t htm' rfl ((hmemAll t').1 ht') hu' hu).elim
      · by_cases htm' : t' = m
        · subst htm'
          simp only [hctxSelf, hctx t htm] at hu hu'
          exact (htwo t t' htm rfl ((hmemAll t).1 ht) hu hu').elim
        · simp only [hctx t htm, hctx t' htm'] at hu hu'
          exact h.making.unique t t' u (hold t htm ((hmemAll t).1 ht))
            (hold t' htm' ((hmemAll t').1 ht')) hu hu'
  have hpausedN : Paused n (Function.update x.context x.sched.currentTask x.pc n) := by
    by_cases hnm : n = m
    · rw [hnm, hctxSelf]
      exact hpaused
    · rw [hctx n hnm]
      exact h.making.paused n (hold n hnm hn)
  obtain ⟨hpend', hpicked', hleaving', hahead'⟩ := hpausedN.frame
  unfold Kern.handler
  rw [hsched]
  refine Returns.pure ⟨n, ⟨?_, ?_, hmaking, h.waiters, hpausedN.lockAt hlock,
    fun hc => absurd hc hpausedN.not_closed, hpausedN.station ⟨rfl, hn, halive n hn, ?_⟩⟩⟩
  · refine ⟨(List.nodup_cons.1 hnodup).2, h.listing.allNodup, ?_, ?_, ?_⟩
    · intro t
      rw [hpend', hpicked']
      show t ∈ rest ↔ _
      constructor
      · intro ht
        refine Or.inl ⟨(hmemAll t).1 (Or.inl ht), ?_, nofun⟩
        rintro rfl
        exact (List.nodup_cons.1 hnodup).1 ht
      · rintro (⟨hall, hne, -⟩ | hnone)
        · exact ((hmemAll t).2 hall).resolve_right hne
        · cases hnone
    · intro t ht
      have htn : t ≠ n := by
        rintro rfl
        exact (List.nodup_cons.1 hnodup).1 ht
      show Function.update (Function.update x.sched.status x.sched.currentTask .READY) n .RUNNING t = _
      by_cases htm : t = m
      · rw [Function.update_of_ne htn, htm, hcur, Function.update_self]
      · rw [hstatus t htm htn]
        exact h.listing.status t ((hlisted t).2 ⟨(hmemAll t).1 (Or.inl ht), htm⟩)
    · rw [hahead']
      have hnums := h.listing.nums
      rw [hahead] at hnums
      exact hnums
  · refine ⟨fun t ht => ⟨(h.graves.gone t ht).1, fun hall => ?_⟩, fun t ht => ?_, h.graves.heap,
      h.graves.main⟩
    · have hfalse := (halive t hall).symm.trans ht
      cases hfalse
    · obtain ⟨hgone, hdead⟩ := h.graves.pool t ht
      have hne : ∀ a ∈ x.taskAllList, t ≠ a := by
        rintro a ha rfl
        rw [show x.view.exited t = false from halive t ha] at hgone
        cases hgone
      exact ⟨hgone, (hstatus t (hne m hmem) (hne n hn)).trans hdead⟩
  · show Function.update (Function.update x.sched.status x.sched.currentTask .READY) n .RUNNING n ≠ _
    rw [Function.update_self]
    nofun

/-! ## The statements -/

/-- What a statement is to keep. -/
abbrev Kept (x : Except Fault Kern) : Prop := Returns x fun x' => ∃ m, KernInv x' m

theorem KernInv.kept (h : KernInv x m) : Kept (.ok x) := Returns.ok ⟨m, h⟩

theorem sema_goto {pc pc' : SemaPc} {s' : Sched} {wrap : SemaPc → TaskPc} {after : TaskPc}
    (heq : semaNext pc x.sched = .ok (s', .goto pc')) : x.sema pc wrap after =
      .ok ({ x with sched := s' }.goto (if pc' = SemaPc.out then after else wrap pc')) := by
  unfold Kern.sema
  rw [heq]
  rfl

/-- A statement of `sema_down`: nobody has the lock. -/
theorem KernInv.down {c : TidCall} {pc : SemaPc} (h : KernInv x m) (hpc : x.pc = .down c pc) :
    Kept (x.sema pc (.down c) (.setHolder c)) := by
  obtain ⟨hlock, hmasked, hat, hframe⟩ : LockAt x m (.down c pc) ∧ x.sched.masked = true ∧ c.At x m ∧
      frame x.pc = ⟨c.made, true, false, none, none, none, 0⟩ := by
    have hlock := h.lock
    have hclosed := h.closed
    have hat := h.station
    rw [hpc] at hlock hclosed hat ⊢
    exact ⟨hlock, hclosed trivial, hat, rfl⟩
  have hcall : ∀ s', s'.currentTask = x.sched.currentTask → s'.status = x.sched.status →
      ∀ pc, c.At ({ x with sched := s' }.goto pc) m := by
    intro s' hcur hstatus pc
    cases c <;> (simp only [TidCall.At, Alive, Left, Dead, Kern.goto, hcur, hstatus] at hat ⊢; exact hat)
  cases pc with
  | downDisable =>
      rw [sema_goto rfl]
      exact KernInv.kept (h.quiet _ rfl hframe.symm rfl hlock (fun _ => rfl) (hcall _ rfl rfl _))
  | downTest =>
      have hone : x.sched.value ≠ 0 := by rw [hlock.1]; decide
      rw [sema_goto (show semaNext .downTest x.sched = .ok (x.sched, .goto .downTake) by
        unfold semaNext
        rw [if_neg hone]
        rfl)]
      exact KernInv.kept (h.quiet _ rfl hframe.symm rfl hlock (fun _ => hmasked) (hcall _ rfl rfl _))
  | downTake =>
      rw [sema_goto rfl]
      have hzero : u8 ((x.sched.value : Int) - 1) = 0 := by
        rw [hlock.1]
        rfl
      exact KernInv.kept (h.quiet _ rfl hframe.symm rfl ⟨hzero, hlock.2⟩ (fun _ => hmasked) (hcall _ rfl rfl _))
  | downAssert =>
      rw [sema_goto (assertThat_bind hlock.1 _)]
      exact KernInv.kept (h.quiet _ rfl hframe.symm rfl hlock (fun _ => hmasked) (hcall _ rfl rfl _))
  | downEnable =>
      rw [sema_goto rfl]
      exact KernInv.kept (h.quiet _ rfl hframe.symm rfl hlock nofun (hcall _ rfl rfl _))
  | _ => exact hlock.elim

/-- A statement of `sema_up`: nobody waits. -/
theorem KernInv.up {d : TidDone} {pc : SemaPc} (h : KernInv x m) (hpc : x.pc = .up d pc) :
    Kept (x.sema pc (.up d) d.rest) := by
  obtain ⟨hlock, hclosed, hat, hframe⟩ : LockAt x m (.up d pc) ∧
      (pc ≠ .upDisable → x.sched.masked = true) ∧ d.At x m ∧
      frame x.pc = ⟨d.made, true, false, none, none, none, 0⟩ := by
    have hlock := h.lock
    have hclosed := h.closed
    have hat := h.station
    rw [hpc] at hlock hclosed hat ⊢
    exact ⟨hlock, hclosed, hat, rfl⟩
  have hcall : ∀ s', s'.currentTask = x.sched.currentTask → s'.status = x.sched.status →
      ∀ pc, d.At ({ x with sched := s' }.goto pc) m := by
    intro s' hcur hstatus pc
    cases d <;> (simp only [TidDone.At, Alive, Left, Dead, Kern.goto, hcur, hstatus] at hat ⊢; exact hat)
  cases pc with
  | upDisable =>
      rw [sema_goto rfl]
      exact KernInv.kept (h.quiet _ rfl hframe.symm rfl hlock (fun _ => rfl) (hcall _ rfl rfl _))
  | upAssertZero =>
      rw [sema_goto (assertThat_bind hlock.1 _)]
      exact KernInv.kept (h.quiet _ rfl hframe.symm rfl hlock (fun _ => hclosed nofun) (hcall _ rfl rfl _))
  | upTest =>
      rw [sema_goto (show semaNext .upTest x.sched = .ok (x.sched, .goto .upInc) by
        unfold semaNext
        rw [if_neg (not_not.2 h.waiters)]
        rfl)]
      exact KernInv.kept (h.quiet _ rfl hframe.symm rfl hlock (fun _ => hclosed nofun) (hcall _ rfl rfl _))
  | upInc =>
      rw [sema_goto rfl]
      have hone : u8 ((x.sched.value : Int) + 1) = 1 := by
        rw [hlock.1]
        rfl
      exact KernInv.kept (h.quiet _ rfl hframe.symm rfl ⟨hone, hlock.2⟩ (fun _ => hclosed nofun) (hcall _ rfl rfl _))
  | upAssertOne =>
      rw [sema_goto (assertThat_bind hlock.1 _)]
      exact KernInv.kept (h.quiet _ rfl hframe.symm rfl hlock (fun _ => hclosed nofun) (hcall _ rfl rfl _))
  | upEnable =>
      rw [sema_goto rfl]
      have hrest := hcall { x.sched with masked := false } rfl rfl d.rest
      cases d with
      | allocated task bitIdx => exact KernInv.kept (h.quiet _ rfl hframe.symm rfl hlock nofun hrest)
      | released => exact KernInv.kept (h.quiet _ rfl hframe.symm rfl hlock nofun hrest)
  | _ => exact hlock.elim

theorem Fresh.ne_main {i c : Bool} (h : Fresh v i c u) (hg : Graves v f) : u ≠ v.mainTask := by
  rintro rfl
  rcases hg.main with hall | hexited
  · exact h.unlisted hall
  · rw [h.alive] at hexited
    cases hexited

theorem Fresh.not_ready {i c : Bool} (h : Fresh v i c u) (hl : Listing v f m) (hpend : f.pend = none) :
    u ∉ v.ready := by
  rw [hl.listed u, hpend]
  rintro (⟨hall, -, -⟩ | hnone)
  · exact h.unlisted hall
  · cases hnone

/-- A task in `task_all_list` that does not leave it is alive. -/
theorem Graves.alive_of_listed (h : Graves v f) (hleaving : f.leaving ≠ some t) (ht : t ∈ v.all) :
    v.exited t = false := by
  cases he : v.exited t with
  | false => rfl
  | true => exact absurd ((h.gone t he).2 ht) hleaving

/-- `list_pop(&task_pool_list)`: the task is dead. -/
theorem KernInv.startPop {rest : List TaskId} (h : KernInv x m) (hpc : x.pc = .startPop)
    (hpool : x.taskPoolList = u :: rest) :
    KernInv ({ x with taskPoolList := rest }.goto (.startAssert u)) m := by
  obtain ⟨hlisting, hgraves, hmaking, hwaiters, hlock, hclosed, hat⟩ := h
  rw [hpc] at hlisting hgraves hmaking hlock hclosed hat
  have hdead : ∀ t ∈ u :: rest, x.exited t = true ∧ x.sched.status t = .DIED := by
    intro t ht
    apply hgraves.pool t
    show t ∈ x.taskPoolList
    rw [hpool]
    exact ht
  exact ⟨⟨hlisting.readyNodup, hlisting.allNodup, hlisting.listed, hlisting.status, hlisting.nums⟩,
    ⟨hgraves.gone, fun t ht => hdead t (List.mem_cons_of_mem _ ht), hgraves.heap, hgraves.main⟩,
    ⟨nofun, hmaking.paused, fun t v ht hv => ⟨⟨(hmaking.theirs t v ht hv).1.heap,
      (hmaking.theirs t v ht hv).1.unlisted, (hmaking.theirs t v ht hv).1.alive,
      (hmaking.theirs t v ht hv).1.status, (hmaking.theirs t v ht hv).1.context⟩, nofun⟩, hmaking.unique⟩,
    hwaiters, hlock, hclosed, hat.1, (hdead u List.mem_cons_self).2⟩

/-- `malloc`. -/
theorem KernInv.malloc (h : KernInv x m) (hpc : x.pc = .startMalloc) (hu : u ∉ x.heap) :
    KernInv ({ x with heap := u :: x.heap }.goto (.startInit u)) m := by
  obtain ⟨hlisting, hgraves, hmaking, hwaiters, hlock, hclosed, hat⟩ := h
  rw [hpc] at hlisting hgraves hmaking hlock hclosed hat
  have hfresh : ∀ {i c v}, Fresh x.view i c v → Fresh ({ x with heap := u :: x.heap }).view i c v :=
    fun hv => ⟨List.mem_cons_of_mem _ hv.heap, hv.unlisted, hv.alive, hv.status, hv.context⟩
  refine ⟨⟨hlisting.readyNodup, hlisting.allNodup, hlisting.listed, hlisting.status, hlisting.nums⟩,
    ⟨fun t ht => ⟨List.mem_cons_of_mem _ (hgraves.gone t ht).1, (hgraves.gone t ht).2⟩, hgraves.pool,
      fun t ht => List.mem_cons_of_mem _ (hgraves.heap t ht), hgraves.main⟩,
    ⟨?_, hmaking.paused, ?_, hmaking.unique⟩, hwaiters, hlock, hclosed, hat⟩
  · intro v hv
    obtain rfl := Option.some.inj hv
    refine ⟨List.mem_cons_self, fun hall => hu (hgraves.heap u hall), ?_, nofun, nofun⟩
    cases he : x.exited u with
    | false => exact he
    | true => exact absurd (hgraves.gone u he).1 hu
  · intro t v ht hv
    have hold := (hmaking.theirs t v ht hv).1
    refine ⟨hfresh hold, fun heq => hu ?_⟩
    rw [Option.some.inj heq]
    exact hold.heap

/-- `ptask->status = TASK_READY` of `init_task`. -/
theorem KernInv.startInit (h : KernInv x m) (hpc : x.pc = .startInit u) :
    KernInv ((x.modSched fun s => s.setStatus u .READY).goto (.acquire (.allocate u))) m := by
  obtain ⟨hlisting, hgraves, hmaking, hwaiters, hlock, hclosed, hat⟩ := h
  rw [hpc] at hlisting hgraves hmaking hlock hclosed hat
  have hmine := hmaking.mine u rfl
  have hready := hmine.not_ready hlisting rfl
  have hstatus : ∀ t, t ≠ u → Function.update x.sched.status u .READY t = x.sched.status t :=
    fun t ht => Function.update_of_ne ht _ _
  have hum : m ≠ u := by
    rintro rfl
    exact hmine.unlisted hat.2.1
  refine ⟨⟨hlisting.readyNodup, hlisting.allNodup, hlisting.listed, ?_, hlisting.nums⟩,
    ⟨hgraves.gone, ?_, hgraves.heap, hgraves.main⟩, ⟨?_, hmaking.paused, ?_, hmaking.unique⟩, hwaiters, hlock,
    hclosed, hat.1, hat.2.1, hat.2.2.1, ?_⟩
  · intro t ht
    refine (hstatus t ?_).trans (hlisting.status t ht)
    rintro rfl
    exact hready ht
  · intro t ht
    refine ⟨(hgraves.pool t ht).1, (hstatus t ?_).trans (hgraves.pool t ht).2⟩
    rintro rfl
    have hfalse := hmine.alive.symm.trans (hgraves.pool t ht).1
    cases hfalse
  · intro v hv
    obtain rfl := Option.some.inj hv
    exact ⟨hmine.heap, hmine.unlisted, hmine.alive, fun _ => Function.update_self _ _ _, nofun⟩
  · intro t v ht hv
    obtain ⟨hold, hne⟩ := hmaking.theirs t v ht hv
    refine ⟨⟨hold.heap, hold.unlisted, hold.alive, fun hi => (hstatus v ?_).trans (hold.status hi),
      hold.context⟩, hne⟩
    rintro rfl
    exact hne rfl
  · show Function.update x.sched.status u .READY m ≠ _
    rw [hstatus m hum]
    exact hat.2.2.2

/-- `task_create` sets the context. -/
theorem KernInv.startCreate (h : KernInv x m) (hpc : x.pc = .startCreate u) :
    KernInv ({ x with context := Function.update x.context u .out }.goto (.startAssertReady u)) m := by
  obtain ⟨hlisting, hgraves, hmaking, hwaiters, hlock, hclosed, hat⟩ := h
  rw [hpc] at hlisting hgraves hmaking hlock hclosed hat
  have hmine := hmaking.mine u rfl
  have hready := hmine.not_ready hlisting rfl
  have hcontext : ∀ t, t ≠ u → Function.update x.context u TaskPc.out t = x.context t :=
    fun t ht => Function.update_of_ne ht _ _
  have hwait : ∀ t, t ∈ x.view.ready ∨ (frame (.startCreate u)).picked = some t →
      Function.update x.context u TaskPc.out t = x.context t := by
    rintro t (ht | ht)
    · apply hcontext
      rintro rfl
      exact hready ht
    · cases ht
  refine ⟨⟨hlisting.readyNodup, hlisting.allNodup, hlisting.listed, hlisting.status, hlisting.nums⟩,
    ⟨hgraves.gone, hgraves.pool, hgraves.heap, hgraves.main⟩, ⟨?_, ?_, ?_, ?_⟩, hwaiters, hlock, nofun, hat⟩
  · intro v hv
    obtain rfl := Option.some.inj hv
    exact ⟨hmine.heap, hmine.unlisted, hmine.alive, hmine.status, fun _ => Function.update_self _ _ _⟩
  · intro t ht
    show Paused t (Function.update x.context u .out t)
    rw [hwait t ht]
    exact hmaking.paused t ht
  · intro t v ht hv
    change (frame (Function.update x.context u .out t)).made = some v at hv
    show Fresh _ (frame (Function.update x.context u .out t)).inited
      (frame (Function.update x.context u .out t)).created v ∧ _
    rw [hwait t ht] at hv ⊢
    obtain ⟨hold, hne⟩ := hmaking.theirs t v ht hv
    refine ⟨⟨hold.heap, hold.unlisted, hold.alive, hold.status, fun hc => (hcontext v ?_).trans (hold.context hc)⟩,
      hne⟩
    rintro rfl
    exact hne rfl
  · intro t t' v ht ht' hv hv'
    change (frame (Function.update x.context u .out t)).made = some v at hv
    change (frame (Function.update x.context u .out t')).made = some v at hv'
    rw [hwait t ht] at hv
    rw [hwait t' ht'] at hv'
    exact hmaking.unique t t' v ht ht' hv hv'

/-- `list_append(&task_ready_list, …)` of `task_start`. -/
theorem KernInv.startAppendReady (h : KernInv x m) (hpc : x.pc = .startAppendReady u) :
    KernInv ((x.modSched fun s => { s with taskReadyList := listAppend s.taskReadyList u }).goto
      (.startAssertAll u)) m := by
  obtain ⟨hlisting, hgraves, hmaking, hwaiters, hlock, hclosed, hat⟩ := h
  rw [hpc] at hlisting hgraves hmaking hlock hclosed hat
  have hmine := hmaking.mine u rfl
  have hready := hmine.not_ready hlisting rfl
  have hnew : x.context u = .out := hmine.context rfl
  have hmem : ∀ t, t ∈ x.sched.taskReadyList ++ [u] ↔ t ∈ x.sched.taskReadyList ∨ t = u := by
    intro t
    rw [List.mem_append, List.mem_singleton]
  have hwait : ∀ t, t ∈ x.sched.taskReadyList ++ [u] ∨ (none : Option TaskId) = some t →
      t ∈ x.sched.taskReadyList ∨ t = u := by
    rintro t (ht | ht)
    · exact (hmem t).1 ht
    · cases ht
  refine ⟨⟨?_, hlisting.allNodup, ?_, ?_, hlisting.nums⟩,
    ⟨hgraves.gone, hgraves.pool, hgraves.heap, hgraves.main⟩, ⟨?_, ?_, ?_, ?_⟩, hwaiters, hlock, nofun, hat⟩
  · exact List.nodup_append.2 ⟨hlisting.readyNodup, List.nodup_singleton _, fun a ha b hb hab => by
      rw [List.mem_singleton] at hb
      rw [hab, hb] at ha
      exact hready ha⟩
  · intro t
    refine (hmem t).trans ?_
    have hold := hlisting.listed t
    constructor
    · rintro (ht | rfl)
      · rcases hold.1 ht with hall | hnone
        · exact Or.inl hall
        · cases hnone
      · exact Or.inr rfl
    · rintro (hall | heq)
      · exact Or.inl (hold.2 (Or.inl hall))
      · exact Or.inr (Option.some.inj heq).symm
  · intro t ht
    rcases (hmem t).1 ht with hold | rfl
    · exact hlisting.status t hold
    · exact hmine.status rfl
  · intro v hv
    obtain rfl := Option.some.inj hv
    exact ⟨hmine.heap, hmine.unlisted, hmine.alive, hmine.status, hmine.context⟩
  · intro t ht
    rcases hwait t ht with hold | rfl
    · exact hmaking.paused t (Or.inl hold)
    · show Paused t (x.context t)
      rw [hnew]
      trivial
  · intro t v ht hv
    rcases hwait t ht with hold | rfl
    · obtain ⟨hfresh, hne⟩ := hmaking.theirs t v (Or.inl hold) hv
      exact ⟨⟨hfresh.heap, hfresh.unlisted, hfresh.alive, hfresh.status, hfresh.context⟩, hne⟩
    · change (frame (x.context t)).made = some v at hv
      rw [hnew] at hv
      cases hv
  · intro t t' v ht ht' hv hv'
    have hnone : ∀ a, a = u → (frame (x.context a)).made ≠ some v := by
      rintro a rfl
      rw [hnew]
      nofun
    rcases hwait t ht with hold | heq
    · rcases hwait t' ht' with hold' | heq'
      · exact hmaking.unique t t' v (Or.inl hold) (Or.inl hold') hv hv'
      · exact absurd hv' (hnone t' heq')
    · exact absurd hv (hnone t heq)

/-- `list_append(&task_all_list, …)` of `task_start`. -/
theorem KernInv.startAppendAll (h : KernInv x m) (hpc : x.pc = .startAppendAll u) :
    KernInv ({ x with taskAllList := listAppend x.taskAllList u }.goto .startCount) m := by
  obtain ⟨hlisting, hgraves, hmaking, hwaiters, hlock, hclosed, hat⟩ := h
  rw [hpc] at hlisting hgraves hmaking hlock hclosed hat
  have hmine := hmaking.mine u rfl
  have hmem : ∀ t, t ∈ x.taskAllList ++ [u] ↔ t ∈ x.taskAllList ∨ t = u := by
    intro t
    rw [List.mem_append, List.mem_singleton]
  have hum : u ≠ m := by
    rintro rfl
    exact hmine.unlisted hat.2.1
  refine ⟨⟨hlisting.readyNodup, ?_, ?_, hlisting.status, ?_⟩, ⟨?_, hgraves.pool, ?_, ?_⟩,
    ⟨nofun, hmaking.paused, ?_, hmaking.unique⟩, hwaiters, hlock, nofun,
    ⟨hat.1, (hmem m).2 (Or.inl hat.2.1), hat.2.2⟩⟩
  · exact List.nodup_append.2 ⟨hlisting.allNodup, List.nodup_singleton _, fun a ha b hb hab => by
      rw [List.mem_singleton] at hb
      rw [hab, hb] at ha
      exact hmine.unlisted ha⟩
  · intro t
    refine (hlisting.listed t).trans ?_
    constructor
    · rintro (⟨hall, hne, -⟩ | heq)
      · exact Or.inl ⟨(hmem t).2 (Or.inl hall), hne, nofun⟩
      · obtain rfl := Option.some.inj heq
        exact Or.inl ⟨(hmem u).2 (Or.inr rfl), hum, nofun⟩
    · rintro (⟨hall, hne, -⟩ | heq)
      · rcases (hmem t).1 hall with hold | rfl
        · exact Or.inl ⟨hold, hne, nofun⟩
        · exact Or.inr rfl
      · cases heq
  · have hnums := hlisting.nums
    show x.taskAllNums = ((x.taskAllList ++ [u]).length : Int) + -1
    rw [List.length_append, List.length_singleton]
    change x.taskAllNums = (x.taskAllList.length : Int) + 0 at hnums
    omega
  · intro t ht
    refine ⟨(hgraves.gone t ht).1, fun hall => ?_⟩
    rcases (hmem t).1 hall with hold | rfl
    · exact (hgraves.gone t ht).2 hold
    · have hfalse := hmine.alive.symm.trans ht
      cases hfalse
  · intro t ht
    rcases (hmem t).1 ht with hold | rfl
    · exact hgraves.heap t hold
    · exact hmine.heap
  · exact hgraves.main.imp_left fun hold => (hmem _).2 (Or.inl hold)
  · intro t v ht hv
    obtain ⟨hfresh, hne⟩ := hmaking.theirs t v ht hv
    refine ⟨⟨hfresh.heap, fun hall => ?_, hfresh.alive, hfresh.status, hfresh.context⟩, nofun⟩
    rcases (hmem v).1 hall with hold | rfl
    · exact hfresh.unlisted hold
    · exact hne rfl

/-- `task->status = TASK_DIED`. -/
theorem KernInv.exitStatus (h : KernInv x m) (hpc : x.pc = .exitStatus t) :
    KernInv ({ x.modSched (fun s => s.setStatus t .DIED) with
      exited := Function.update x.exited t true }.goto (.exitFind t)) m := by
  obtain ⟨hlisting, hgraves, hmaking, hwaiters, hlock, hclosed, hat⟩ := h
  rw [hpc] at hlisting hgraves hmaking hlock hclosed hat
  obtain ⟨rfl, hcur, hall, -, -⟩ := hat
  have hready : t ∉ x.sched.taskReadyList := hlisting.not_ready nofun
  have hstatus : ∀ a, a ≠ t → Function.update x.sched.status t .DIED a = x.sched.status a :=
    fun a ha => Function.update_of_ne ha _ _
  have hexited : ∀ a, a ≠ t → Function.update x.exited t true a = x.exited a :=
    fun a ha => Function.update_of_ne ha _ _
  refine ⟨⟨hlisting.readyNodup, hlisting.allNodup, hlisting.listed, ?_, hlisting.nums⟩, ⟨?_, ?_, hgraves.heap, ?_⟩,
    ⟨nofun, hmaking.paused, ?_, hmaking.unique⟩, hwaiters, hlock, hclosed, rfl,
    ⟨hcur, Function.update_self _ _ _, Function.update_self _ _ _⟩, hall⟩
  · intro a ha
    refine (hstatus a ?_).trans (hlisting.status a ha)
    rintro rfl
    exact hready ha
  · intro a ha
    by_cases hat : a = t
    · subst hat
      exact ⟨hgraves.heap a hall, fun _ => rfl⟩
    · have hold := hgraves.gone a ((hexited a hat).symm.trans ha)
      exact ⟨hold.1, fun hmem => by cases hold.2 hmem⟩
  · intro a ha
    by_cases hat : a = t
    · subst hat
      exact ⟨Function.update_self _ _ _, Function.update_self _ _ _⟩
    · exact ⟨(hexited a hat).trans (hgraves.pool a ha).1, (hstatus a hat).trans (hgraves.pool a ha).2⟩
  · rcases hgraves.main with hmain | hmain
    · exact Or.inl hmain
    · by_cases hat : x.mainTask = t
      · exact Or.inl (show x.mainTask ∈ x.taskAllList by rw [hat]; exact hall)
      · exact Or.inr ((hexited _ hat).trans hmain)
  · intro a v ha hv
    obtain ⟨hfresh, -⟩ := hmaking.theirs a v ha hv
    have hvt : v ≠ t := by
      rintro rfl
      exact hfresh.unlisted hall
    exact ⟨⟨hfresh.heap, hfresh.unlisted, (hexited v hvt).trans hfresh.alive,
      fun hi => (hstatus v hvt).trans (hfresh.status hi), hfresh.context⟩, nofun⟩

/-- `list_remove(&task->all_list_tag)`. -/
theorem KernInv.exitRemoveAll (h : KernInv x m) (hpc : x.pc = .exitRemoveAll t) :
    KernInv ({ x with taskAllList := listRemove x.taskAllList t }.goto (.exitCount t)) m := by
  obtain ⟨hlisting, hgraves, hmaking, hwaiters, hlock, hclosed, hat⟩ := h
  rw [hpc] at hlisting hgraves hmaking hlock hclosed hat
  obtain ⟨rfl, hdead, hall⟩ := hat
  have hnodup : x.taskAllList.Nodup := hlisting.allNodup
  have hmem : ∀ a, a ∈ x.taskAllList.erase t ↔ a ≠ t ∧ a ∈ x.taskAllList := fun a => hnodup.mem_erase_iff
  refine ⟨⟨hlisting.readyNodup, hnodup.erase t, ?_, hlisting.status, ?_⟩, ⟨?_, hgraves.pool, ?_, ?_⟩,
    ⟨nofun, hmaking.paused, ?_, hmaking.unique⟩, hwaiters, hlock, hclosed, rfl, hdead,
    fun ht => ((hmem t).1 ht).1 rfl⟩
  · intro a
    refine (hlisting.listed a).trans ?_
    constructor
    · rintro (⟨ha, hne, -⟩ | hnone)
      · exact Or.inl ⟨(hmem a).2 ⟨hne, ha⟩, hne, nofun⟩
      · cases hnone
    · rintro (⟨ha, hne, -⟩ | hnone)
      · exact Or.inl ⟨((hmem a).1 ha).2, hne, nofun⟩
      · cases hnone
  · have hnums : x.taskAllNums = (x.taskAllList.length : Int) + 0 := hlisting.nums
    have hlength := List.length_erase_of_mem hall
    have hpos := List.length_pos_of_mem hall
    show x.taskAllNums = ((x.taskAllList.erase t).length : Int) + 1
    omega
  · intro a ha
    refine ⟨(hgraves.gone a ha).1, fun hin => ?_⟩
    obtain ⟨hne, hold⟩ := (hmem a).1 hin
    exact absurd (Option.some.inj ((hgraves.gone a ha).2 hold)).symm hne
  · exact fun a ha => hgraves.heap a ((hmem a).1 ha).2
  · rcases hgraves.main with hmain | hmain
    · by_cases hat : x.mainTask = t
      · exact Or.inr (show x.exited x.mainTask = true by rw [hat]; exact hdead.2.1)
      · exact Or.inl ((hmem _).2 ⟨hat, hmain⟩)
    · exact Or.inr hmain
  · intro a v ha hv
    obtain ⟨hfresh, -⟩ := hmaking.theirs a v ha hv
    exact ⟨⟨hfresh.heap, fun hin => hfresh.unlisted ((hmem v).1 hin).2, hfresh.alive, hfresh.status,
      hfresh.context⟩, nofun⟩

/-- `list_append(&task_pool_list, …)`. -/
theorem KernInv.exitPool (h : KernInv x m) (hpc : x.pc = .exitPool t) :
    KernInv ({ x with taskPoolList := listAppend x.taskPoolList t }.goto (.acquire (.release t))) m := by
  obtain ⟨hlisting, hgraves, hmaking, hwaiters, hlock, hclosed, hat⟩ := h
  rw [hpc] at hlisting hgraves hmaking hlock hclosed hat
  obtain ⟨rfl, hdead, hall⟩ := hat
  refine ⟨⟨hlisting.readyNodup, hlisting.allNodup, hlisting.listed, hlisting.status, hlisting.nums⟩,
    ⟨hgraves.gone, ?_, hgraves.heap, hgraves.main⟩, ⟨nofun, hmaking.paused, ?_, hmaking.unique⟩, hwaiters, hlock,
    hclosed, rfl, hdead, hall⟩
  · intro a ha
    rcases List.mem_append.1 ha with hold | hnew
    · exact hgraves.pool a hold
    · rw [List.mem_singleton.1 hnew]
      exact hdead.2
  · intro a v ha hv
    obtain ⟨hfresh, -⟩ := hmaking.theirs a v ha hv
    exact ⟨⟨hfresh.heap, hfresh.unlisted, hfresh.alive, hfresh.status, hfresh.context⟩, nofun⟩

/-- `list_pop(&task_ready_list)` of `died_task_schedule`. -/
theorem KernInv.diedPop {n : TaskId} {rest : List TaskId} (h : KernInv x m) (hpc : x.pc = .diedPop)
    (hready : x.sched.taskReadyList = n :: rest) :
    KernInv ((x.modSched fun s => { s with taskReadyList := rest }).goto (.diedStatus n)) m := by
  obtain ⟨hlisting, hgraves, hmaking, hwaiters, hlock, hclosed, hat⟩ := h
  rw [hpc] at hlisting hgraves hmaking hlock hclosed hat
  have hnodup : (n :: rest).Nodup := by
    rw [← hready]
    exact hlisting.readyNodup
  have hmem : ∀ a, a ∈ x.view.ready ↔ a = n ∨ a ∈ rest := by
    intro a
    show a ∈ x.sched.taskReadyList ↔ _
    rw [hready, List.mem_cons]
  have hlisted : ∀ a, a ∈ x.view.ready ↔ a ∈ x.taskAllList ∧ a ≠ m := by
    intro a
    refine (hlisting.listed a).trans ⟨?_, fun ha => Or.inl ⟨ha.1, ha.2, nofun⟩⟩
    rintro (⟨ha, hne, -⟩ | hnone)
    · exact ⟨ha, hne⟩
    · cases hnone
  have hwait : ∀ a, a ∈ rest ∨ some n = some a → a ∈ x.view.ready ∨ (none : Option TaskId) = some a := by
    rintro a (ha | heq)
    · exact Or.inl ((hmem a).2 (Or.inr ha))
    · exact Or.inl ((hmem a).2 (Or.inl (Option.some.inj heq).symm))
  refine ⟨⟨(List.nodup_cons.1 hnodup).2, hlisting.allNodup, ?_, ?_, hlisting.nums⟩,
    ⟨hgraves.gone, hgraves.pool, hgraves.heap, hgraves.main⟩,
    ⟨nofun, fun a ha => hmaking.paused a (hwait a ha), ?_,
      fun a b v ha hb => hmaking.unique a b v (hwait a ha) (hwait b hb)⟩, hwaiters, hlock, nofun, hat,
    ((hlisted n).1 ((hmem n).2 (Or.inl rfl))).1⟩
  · intro a
    constructor
    · intro ha
      obtain ⟨hall, hne⟩ := (hlisted a).1 ((hmem a).2 (Or.inr ha))
      refine Or.inl ⟨hall, hne, fun heq => (List.nodup_cons.1 hnodup).1 ?_⟩
      rw [Option.some.inj heq]
      exact ha
    · rintro (⟨hall, hne, hpicked⟩ | hnone)
      · rcases (hmem a).1 ((hlisted a).2 ⟨hall, hne⟩) with rfl | ha
        · exact absurd rfl hpicked
        · exact ha
      · cases hnone
  · exact fun a ha => hlisting.status a ((hmem a).2 (Or.inr ha))
  · intro a v ha hv
    obtain ⟨hfresh, -⟩ := hmaking.theirs a v (hwait a ha) hv
    exact ⟨⟨hfresh.heap, hfresh.unlisted, hfresh.alive, hfresh.status, hfresh.context⟩, nofun⟩

/-- `next->status = TASK_RUNNING` of `died_task_schedule`. -/
theorem KernInv.diedStatus {n : TaskId} (h : KernInv x m) (hpc : x.pc = .diedStatus n) :
    KernInv ((x.modSched fun s => s.setStatus n .RUNNING).goto (.diedCurrent n)) m := by
  obtain ⟨hlisting, hgraves, hmaking, hwaiters, hlock, hclosed, hat⟩ := h
  rw [hpc] at hlisting hgraves hmaking hlock hclosed hat
  obtain ⟨⟨⟨hcur, hexited, hdied⟩, hleft⟩, hn⟩ := hat
  have hstatus : ∀ a, a ≠ n → Function.update x.sched.status n .RUNNING a = x.sched.status a :=
    fun a ha => Function.update_of_ne ha _ _
  have hmn : m ≠ n := by
    rintro rfl
    exact hleft hn
  have halive : x.exited n = false := hgraves.alive_of_listed nofun hn
  refine ⟨⟨hlisting.readyNodup, hlisting.allNodup, hlisting.listed, ?_, hlisting.nums⟩,
    ⟨hgraves.gone, ?_, hgraves.heap, hgraves.main⟩, ⟨nofun, hmaking.paused, ?_, hmaking.unique⟩, hwaiters, hlock,
    nofun, ⟨⟨hcur, hexited, (hstatus m hmn).trans hdied⟩, hleft⟩, hn, Function.update_self _ _ _⟩
  · intro a ha
    refine (hstatus a ?_).trans (hlisting.status a ha)
    rintro rfl
    rcases (hlisting.listed a).1 ha with ⟨-, -, hpicked⟩ | hnone
    · exact hpicked rfl
    · cases hnone
  · intro a ha
    refine ⟨(hgraves.pool a ha).1, (hstatus a ?_).trans (hgraves.pool a ha).2⟩
    rintro rfl
    have hfalse := halive.symm.trans (hgraves.pool a ha).1
    cases hfalse
  · intro a v ha hv
    obtain ⟨hfresh, -⟩ := hmaking.theirs a v ha hv
    have hvn : v ≠ n := by
      rintro rfl
      exact hfresh.unlisted hn
    exact ⟨⟨hfresh.heap, hfresh.unlisted, hfresh.alive, fun hi => (hstatus v hvn).trans (hfresh.status hi),
      hfresh.context⟩, nofun⟩

/-- `context_set`. -/
theorem KernInv.contextSet {n : TaskId} (h : KernInv x m) (hpc : x.pc = .contextSet n) :
    KernInv (x.goto (x.context x.sched.currentTask)) n := by
  obtain ⟨hlisting, hgraves, hmaking, hwaiters, hlock, hclosed, hat⟩ := h
  rw [hpc] at hlisting hgraves hmaking hlock hclosed hat
  obtain ⟨hleft, hcur, hn, hrunning⟩ := hat
  have hpaused : Paused n (x.context n) := hmaking.paused n (Or.inr rfl)
  obtain ⟨hpend, hpicked, hleaving, hahead⟩ := hpaused.frame
  have halive : Alive x n := by
    refine ⟨hcur.symm, hn, hgraves.alive_of_listed nofun hn, ?_⟩
    rw [hrunning]
    nofun
  have hlisted : ∀ a, a ∈ x.view.ready ↔ a ∈ x.taskAllList ∧ a ≠ n := by
    intro a
    refine (hlisting.listed a).trans ?_
    constructor
    · rintro (⟨hall, -, hne⟩ | hnone)
      · exact ⟨hall, fun heq => hne (by rw [heq]; rfl)⟩
      · cases hnone
    · rintro ⟨hall, hne⟩
      refine Or.inl ⟨hall, ?_, fun heq => hne (Option.some.inj heq).symm⟩
      rintro rfl
      exact hleft hall
  have hwait : ∀ a, a ∈ x.view.ready ∨ a = n → a ∈ x.view.ready ∨ some n = some a := by
    rintro a (ha | rfl)
    · exact Or.inl ha
    · exact Or.inr rfl
  rw [hcur]
  refine ⟨⟨hlisting.readyNodup, hlisting.allNodup, ?_, hlisting.status, ?_⟩,
    ⟨fun a ha => ⟨(hgraves.gone a ha).1, fun hall => ?_⟩, hgraves.pool, hgraves.heap, hgraves.main⟩, ?_, hwaiters,
    hpaused.lockAt hlock, fun hc => absurd hc hpaused.not_closed, hpaused.station halive⟩
  · intro a
    show _ ↔ (_ ∧ _ ∧ (frame (x.context n)).picked ≠ some a) ∨ (frame (x.context n)).pend = some a
    rw [hpend, hpicked]
    refine (hlisted a).trans ⟨fun ha => Or.inl ⟨ha.1, ha.2, nofun⟩, ?_⟩
    rintro (⟨hall, hne, -⟩ | hnone)
    · exact ⟨hall, hne⟩
    · cases hnone
  · show _ = _ + (frame (x.context n)).ahead
    rw [hahead]
    exact hlisting.nums
  · have hnone := (hgraves.gone a ha).2 hall
    cases hnone
  · refine Making.dispatch (fun ha => ((hlisted n).1 ha).2 rfl) (fun a ha => hmaking.paused a (hwait a ha)) ?_
      fun a b v ha hb => hmaking.unique a b v (hwait a ha) (hwait b hb)
    intro a v ha hv
    obtain ⟨hfresh, -⟩ := hmaking.theirs a v (hwait a ha) hv
    exact ⟨hfresh.heap, hfresh.unlisted, hfresh.alive, hfresh.status, hfresh.context⟩

theorem Making.recount (h : Making v f) (nums ahead : Int) :
    Making { v with nums := nums } { f with ahead := ahead } :=
  ⟨fun u hu => ⟨(h.mine u hu).heap, (h.mine u hu).unlisted, (h.mine u hu).alive, (h.mine u hu).status,
    (h.mine u hu).context⟩, h.paused, fun t u ht hu => ⟨⟨(h.theirs t u ht hu).1.heap,
    (h.theirs t u ht hu).1.unlisted, (h.theirs t u ht hu).1.alive, (h.theirs t u ht hu).1.status,
    (h.theirs t u ht hu).1.context⟩, (h.theirs t u ht hu).2⟩, h.unique⟩

/-- The calls that take the lock, at a statement that writes neither a status nor `current_task`. -/
theorem TidCall.At.of_fields {c : TidCall} {x' : Kern} (h : c.At x m)
    (hcur : x'.sched.currentTask = x.sched.currentTask) (hstatus : x'.sched.status = x.sched.status)
    (hall : x'.taskAllList = x.taskAllList) (hexited : x'.exited = x.exited) : c.At x' m := by
  cases c <;>
    (simp only [TidCall.At, Alive, Left, Dead, hcur, hstatus, hall, hexited] at h ⊢; exact h)

theorem TidDone.At.of_fields {d : TidDone} {x' : Kern} (h : d.At x m)
    (hcur : x'.sched.currentTask = x.sched.currentTask) (hstatus : x'.sched.status = x.sched.status)
    (hall : x'.taskAllList = x.taskAllList) (hexited : x'.exited = x.exited) : d.At x' m := by
  cases d <;>
    (simp only [TidDone.At, Alive, Left, Dead, hcur, hstatus, hall, hexited] at h ⊢; exact h)

theorem TidCall.At.current {c : TidCall} (h : c.At x m) : m = x.sched.currentTask := by
  cases c with
  | allocate task => exact h.1
  | release task => exact h.2.1.1

/-- **One statement** keeps the invariant. -/
theorem KernInv.next (h : KernInv x m) : Kept x.next := by
  have hlock := h.lock
  have hclosed := h.closed
  have hat := h.station
  unfold Kern.next
  cases hpc : x.pc with
  | out => exact h.kept
  | startMalloc => exact h.kept
  | startDisable =>
      rw [hpc] at hlock hat
      exact KernInv.kept (h.quiet _ rfl (by rw [hpc]; rfl) rfl hlock (fun _ => rfl) hat)
  | startTest =>
      rw [hpc] at hlock hat
      have hmasked := hclosed (by rw [hpc]; trivial)
      by_cases hpool : x.taskPoolList ≠ []
      · show Kept (.ok (x.goto (if x.taskPoolList ≠ [] then .startPop else .startMalloc)))
        rw [if_pos hpool]
        exact KernInv.kept (h.quiet _ rfl (by rw [hpc]; rfl) rfl hlock (fun _ => hmasked) ⟨hat, hpool⟩)
      · show Kept (.ok (x.goto (if x.taskPoolList ≠ [] then .startPop else .startMalloc)))
        rw [if_neg hpool]
        exact KernInv.kept (h.quiet _ rfl (by rw [hpc]; rfl) rfl hlock (fun _ => hmasked) hat)
  | startPop =>
      cases hpool : x.taskPoolList with
      | nil => exact Returns.error
      | cons u rest => exact (h.startPop hpc hpool).kept
  | startAssert u =>
      rw [hpc] at hat
      refine returns_assertThat fun hne => ?_
      exact absurd hat.2.symm hne
  | startInit u =>
      have hmine := h.making.mine u (by rw [hpc]; rfl)
      have hmain : u ≠ x.mainTask := hmine.ne_main h.graves
      have hstep := h.startInit hpc
      refine Returns.ok ⟨m, ?_⟩
      have heq : (fun s : Sched => if u = x.mainTask then
          { s.setStatus u .RUNNING with currentTask := u } else s.setStatus u .READY) =
          fun s => s.setStatus u .READY := by
        funext s
        rw [if_neg hmain]
      rw [heq]
      exact hstep
  | acquire c =>
      rw [hpc] at hlock hat
      have hmasked := hclosed (by rw [hpc]; trivial)
      have hne : x.holder ≠ some x.sched.currentTask := by
        rw [hlock.2.1]
        nofun
      show Kept (.ok (x.goto (if x.holder ≠ some x.sched.currentTask then .down c .downDisable
        else .repeatInc c)))
      rw [if_pos hne]
      exact KernInv.kept (h.quiet _ rfl (by rw [hpc]; rfl) rfl hlock (fun _ => hmasked)
        (hat.of_fields rfl rfl rfl rfl))
  | down c pc => exact h.down hpc
  | setHolder c =>
      rw [hpc] at hlock hat
      refine KernInv.kept (h.quiet _ rfl (by rw [hpc]; rfl) rfl ⟨hlock.1, ?_, hlock.2.2⟩ nofun
        (hat.of_fields rfl rfl rfl rfl))
      rw [hat.current]
      rfl
  | assertZero c =>
      rw [hpc] at hlock hat
      refine returns_assertThat fun _ => ?_
      exact KernInv.kept (h.quiet _ rfl (by rw [hpc]; rfl) rfl hlock nofun (hat.of_fields rfl rfl rfl rfl))
  | setOne c =>
      rw [hpc] at hlock hat
      cases c with
      | allocate u =>
          exact KernInv.kept (h.quiet _ rfl (by rw [hpc]; rfl) rfl ⟨hlock.1, hlock.2.1, rfl⟩ nofun hat)
      | release u =>
          exact KernInv.kept (h.quiet _ rfl (by rw [hpc]; rfl) rfl ⟨hlock.1, hlock.2.1, rfl⟩ nofun hat)
  | repeatInc c =>
      rw [hpc] at hlock
      exact hlock.elim
  | scan u =>
      rw [hpc] at hlock hat
      show Kept (match bitmapScan x.tidPool.tidBitmap 1 with
        | none => .error .assertion
        | some bitIdx => .ok (x.goto (.mark u bitIdx)))
      cases bitmapScan x.tidPool.tidBitmap 1 with
      | none => exact Returns.error
      | some bitIdx => exact KernInv.kept (h.quiet _ rfl (by rw [hpc]; rfl) rfl hlock nofun hat)
  | mark u bitIdx =>
      rw [hpc] at hlock hat
      exact KernInv.kept (h.quiet _ rfl (by rw [hpc]; rfl) rfl hlock nofun hat)
  | unmark u =>
      rw [hpc] at hlock hat
      exact KernInv.kept (h.quiet _ rfl (by rw [hpc]; rfl) rfl hlock nofun hat.2)
  | release d =>
      rw [hpc] at hlock hat
      refine returns_assertThat fun _ => ?_
      exact KernInv.kept (h.quiet _ rfl (by rw [hpc]; rfl) rfl hlock nofun (hat.of_fields rfl rfl rfl rfl))
  | testRepeat d =>
      rw [hpc] at hlock hat
      have hone : ¬ x.holderRepeatNr > 1 := by
        rw [hlock.2.2]
        decide
      show Kept (.ok (x.goto (if x.holderRepeatNr > 1 then .repeatDec d else .assertOne d)))
      rw [if_neg hone]
      exact KernInv.kept (h.quiet _ rfl (by rw [hpc]; rfl) rfl hlock nofun (hat.of_fields rfl rfl rfl rfl))
  | repeatDec d =>
      rw [hpc] at hlock
      exact hlock.elim
  | assertOne d =>
      rw [hpc] at hlock hat
      refine returns_assertThat fun _ => ?_
      exact KernInv.kept (h.quiet _ rfl (by rw [hpc]; rfl) rfl hlock nofun (hat.of_fields rfl rfl rfl rfl))
  | clearHolder d =>
      rw [hpc] at hlock hat
      exact KernInv.kept (h.quiet _ rfl (by rw [hpc]; rfl) rfl ⟨hlock.1, rfl, hlock.2.2⟩ nofun
        (hat.of_fields rfl rfl rfl rfl))
  | clearRepeat d =>
      rw [hpc] at hlock hat
      exact KernInv.kept (h.quiet _ rfl (by rw [hpc]; rfl) rfl ⟨hlock.1, hlock.2.1, rfl⟩
        (fun hne => absurd rfl hne) (hat.of_fields rfl rfl rfl rfl))
  | up d pc => exact h.up hpc
  | startTid u bitIdx =>
      rw [hpc] at hlock hat
      exact KernInv.kept (h.quiet _ rfl (by rw [hpc]; rfl) rfl hlock nofun hat)
  | startCreate u => exact (h.startCreate hpc).kept
  | startAssertReady u =>
      rw [hpc] at hlock hat
      refine returns_assertThat fun _ => ?_
      exact KernInv.kept (h.quiet _ rfl (by rw [hpc]; rfl) rfl hlock nofun hat)
  | startAppendReady u => exact (h.startAppendReady hpc).kept
  | startAssertAll u =>
      rw [hpc] at hlock hat
      refine returns_assertThat fun _ => ?_
      exact KernInv.kept (h.quiet _ rfl (by rw [hpc]; rfl) rfl hlock nofun hat)
  | startAppendAll u => exact (h.startAppendAll hpc).kept
  | startCount =>
      obtain ⟨hlisting, hgraves, hmaking, hwaiters, -, -, -⟩ := h
      rw [hpc] at hlisting hgraves hmaking hlock hat
      have hnums : x.taskAllNums = (x.taskAllList.length : Int) + -1 := hlisting.nums
      refine Returns.ok ⟨m, ⟨hlisting.readyNodup, hlisting.allNodup, hlisting.listed, hlisting.status, ?_⟩,
        ⟨hgraves.gone, hgraves.pool, hgraves.heap, hgraves.main⟩, hmaking.recount _ 0, hwaiters, hlock, nofun, hat⟩
      show x.taskAllNums + 1 = (x.taskAllList.length : Int) + 0
      omega
  | startEnable =>
      rw [hpc] at hlock hat
      exact KernInv.kept (h.quiet _ rfl (by rw [hpc]; rfl) rfl hlock nofun hat)
  | exitDisable u =>
      rw [hpc] at hlock hat
      exact KernInv.kept (h.quiet _ rfl (by rw [hpc]; rfl) rfl hlock (fun _ => rfl) hat)
  | exitStatus u => exact (h.exitStatus hpc).kept
  | exitFind u =>
      rw [hpc] at hlock hat
      have hmasked := hclosed (by rw [hpc]; trivial)
      show Kept (.ok (x.goto (if elemFind x.sched.taskReadyList u then .exitRemoveReady u
        else .exitRemoveAll u)))
      by_cases hfind : elemFind x.sched.taskReadyList u
      · rw [if_pos hfind]
        exact KernInv.kept (h.quiet _ rfl (by rw [hpc]; rfl) rfl hlock (fun _ => hmasked) hat)
      · rw [if_neg hfind]
        exact KernInv.kept (h.quiet _ rfl (by rw [hpc]; rfl) rfl hlock (fun _ => hmasked) hat)
  | exitRemoveReady u =>
      have hnot : m ∉ x.sched.taskReadyList := h.listing.not_ready (by rw [hpc]; nofun)
      rw [hpc] at hlock hat
      have hmasked := hclosed (by rw [hpc]; trivial)
      obtain ⟨rfl, hdead⟩ := hat
      have herase : listRemove x.sched.taskReadyList u = x.sched.taskReadyList := List.erase_of_not_mem hnot
      refine KernInv.kept (h.quiet _ ?_ (by rw [hpc]; rfl) rfl hlock (fun _ => hmasked) ⟨rfl, hdead⟩)
      simp only [Kern.view, Kern.goto, Kern.modSched, herase]
  | exitRemoveAll u => exact (h.exitRemoveAll hpc).kept
  | exitCount u =>
      obtain ⟨hlisting, hgraves, hmaking, hwaiters, -, -, -⟩ := h
      rw [hpc] at hlisting hgraves hmaking hlock hclosed hat
      have hnums : x.taskAllNums = (x.taskAllList.length : Int) + 1 := hlisting.nums
      refine Returns.ok ⟨m, ⟨hlisting.readyNodup, hlisting.allNodup, hlisting.listed, hlisting.status, ?_⟩,
        ⟨hgraves.gone, hgraves.pool, hgraves.heap, hgraves.main⟩, hmaking.recount _ 0, hwaiters, hlock, hclosed,
        hat⟩
      show x.taskAllNums - 1 = (x.taskAllList.length : Int) + 0
      omega
  | exitMain u =>
      rw [hpc] at hlock hat
      have hmasked := hclosed (by rw [hpc]; trivial)
      show Kept (.ok (x.goto (if u ≠ x.mainTask then .exitPool u else .acquire (.release u))))
      by_cases hmain : u ≠ x.mainTask
      · rw [if_pos hmain]
        exact KernInv.kept (h.quiet _ rfl (by rw [hpc]; rfl) rfl hlock (fun _ => hmasked) hat)
      · rw [if_neg hmain]
        exact KernInv.kept (h.quiet _ rfl (by rw [hpc]; rfl) rfl hlock (fun _ => hmasked) hat)
  | exitPool u => exact (h.exitPool hpc).kept
  | exitEnable =>
      rw [hpc] at hlock hat
      exact KernInv.kept (h.quiet _ rfl (by rw [hpc]; rfl) rfl hlock nofun hat)
  | diedTest =>
      rw [hpc] at hlock hat
      show Kept (.ok (x.goto (if x.sched.taskReadyList = [] then .diedTest else .diedPop)))
      by_cases hready : x.sched.taskReadyList = []
      · rw [if_pos hready]
        exact KernInv.kept (h.quiet _ rfl (by rw [hpc]; rfl) rfl hlock nofun hat)
      · rw [if_neg hready]
        exact KernInv.kept (h.quiet _ rfl (by rw [hpc]; rfl) rfl hlock nofun hat)
  | diedPop =>
      cases hready : x.sched.taskReadyList with
      | nil => exact Returns.error
      | cons n rest => exact (h.diedPop hpc hready).kept
  | diedStatus n => exact (h.diedStatus hpc).kept
  | diedCurrent n =>
      rw [hpc] at hlock hat
      exact KernInv.kept (h.quiet _ rfl (by rw [hpc]; rfl) rfl hlock nofun ⟨hat.1.2, rfl, hat.2⟩)
  | contextSet n => exact (h.contextSet hpc).kept

/-- **One step.** -/
theorem KernInv.step {x' : Kern} (h : KernInv x m) (hs : (createRuns fun pc => ¬ Exposed pc).step x x') :
    ∃ m', KernInv x' m' := by
  obtain ⟨e, hen, hact⟩ := hs
  have hlock := h.lock
  have hat := h.station
  cases e with
  | start =>
      obtain rfl := Except.ok.inj hact
      have hpc : x.pc = .out := hen
      rw [hpc] at hlock hat
      exact ⟨m, h.quiet _ rfl (by rw [hpc]; rfl) rfl hlock nofun hat⟩
  | exit =>
      obtain rfl := Except.ok.inj hact
      have hpc : x.pc = .out := hen
      rw [hpc] at hlock hat
      exact ⟨m, h.quiet _ rfl (by rw [hpc]; rfl) rfl hlock nofun ⟨hat.1.symm, hat⟩⟩
  | malloc t =>
      obtain rfl := Except.ok.inj hact
      exact ⟨m, h.malloc hen.1 hen.2⟩
  | next => exact h.next _ hact
  | handler => exact h.handler hen.1 hen.2 _ hact

theorem KernInv.tasksOk (h : KernInv x m) : TasksOk (fun pc => ¬ Exposed pc) x := by
  refine ⟨?_, fun t ht => h.gone_not_ready ht⟩
  rintro ⟨hopen, hpc⟩
  obtain ⟨⟨hcur, hmem, hexited, hdied⟩, -, hpaused⟩ := h.paused hopen hpc
  obtain ⟨hpend, hpicked, -, hahead⟩ := hpaused.frame
  have hnums := h.listing.nums
  rw [hahead] at hnums
  refine ⟨?_, ?_, ?_, ?_, hnums.trans (add_zero _)⟩
  · rw [← hcur]
    exact hdied
  · rw [← hcur]
    intro hpool
    have hfalse := hexited.symm.trans (h.graves.pool m hpool).1
    cases hfalse
  · intro t hne hall _
    apply List.count_eq_one_of_mem h.listing.readyNodup
    refine (h.listing.listed t).2 (Or.inl ⟨hall, ?_, ?_⟩)
    · rw [hcur]
      exact hne
    · rw [hpicked]
      nofun
  · intro t ht
    rcases (h.listing.listed t).1 ht with ⟨hall, hne, -⟩ | hnone
    · rw [← hcur]
      exact ⟨hne, hall, h.listing.status t ht⟩
    · rw [hpend] at hnone
      cases hnone

/-- **The critical sections** work in every run in which the handler never comes where the signal is open
inside one. -/
theorem createRuns_ok (h : (createRuns fun pc => ¬ Exposed pc).Reach x) :
    TasksOk (fun pc => ¬ Exposed pc) x := by
  obtain ⟨m, hinv⟩ := (createRuns fun pc => ¬ Exposed pc).invariant (I := fun x => ∃ m, KernInv x m) (by
    rintro x ⟨⟨hvalue, hwaiters, hholder, hrepeat⟩, ⟨hcur, hrunning, hpc⟩,
      ⟨hready, hall, hpool, hnums, hheap⟩, hexited⟩
    have hnone : ∀ t, t ∈ x.view.ready ∨ (frame .out).picked = some t → False := by
      rintro t (ht | ht)
      · change t ∈ x.sched.taskReadyList at ht
        rw [hready] at ht
        cases ht
      · cases ht
    have halive : Alive x x.mainTask := by
      refine ⟨hcur.symm, ?_, hexited _, ?_⟩
      · rw [hall]
        exact List.mem_singleton_self _
      · rw [hrunning]
        nofun
    refine ⟨x.mainTask, ?_, ?_, ?_, hwaiters, ?_, ?_, ?_⟩
    · rw [hpc]
      refine ⟨?_, ?_, ?_, fun t ht => (hnone t (Or.inl ht)).elim, ?_⟩
      · show x.sched.taskReadyList.Nodup
        rw [hready]
        exact List.nodup_nil
      · show x.taskAllList.Nodup
        rw [hall]
        exact List.nodup_singleton _
      · refine fun t => ⟨fun ht => (hnone t (Or.inl ht)).elim, ?_⟩
        rintro (⟨ht, hne, -⟩ | ht)
        · change t ∈ x.taskAllList at ht
          rw [hall, List.mem_singleton] at ht
          exact absurd ht hne
        · cases ht
      · show x.taskAllNums = (x.taskAllList.length : Int) + 0
        rw [hnums, hall]
        rfl
    · rw [hpc]
      refine ⟨fun t ht => ?_, fun t ht => ?_, fun t ht => ?_, Or.inl halive.2.1⟩
      · have hfalse := (hexited t).symm.trans ht
        cases hfalse
      · change t ∈ x.taskPoolList at ht
        rw [hpool] at ht
        cases ht
      · change t ∈ x.taskAllList at ht
        show t ∈ x.heap
        rw [hheap, ← hall]
        exact ht
    · rw [hpc]
      exact ⟨nofun, fun t ht => (hnone t ht).elim, fun t _ ht => (hnone t ht).elim,
        fun t _ _ ht => (hnone t ht).elim⟩
    · rw [hpc]
      exact ⟨hvalue, hholder, hrepeat⟩
    · rw [hpc]
      nofun
    · rw [hpc]
      exact halive) (fun _ _ ⟨_, hx⟩ hs => hx.step hs) h
  exact hinv.tasksOk

/-! ## Two tasks -/

/-- The run with the events `es`; `none` when one of them cannot happen. -/
def followTasks (C : TaskPc → Prop) [DecidablePred C] (x : Kern) : List TaskEv → Option Kern
  | [] => some x
  | e :: es =>
    if x.Enabled C e then
      match x.act e with
      | .ok x' => followTasks C x' es
      | .error _ => none
    else none

theorem reach_followTasks {C : TaskPc → Prop} [DecidablePred C] {es : List TaskEv} {x' : Kern}
    (h : (createRuns C).Reach x) (hrun : followTasks C x es = some x') : (createRuns C).Reach x' := by
  induction es generalizing x with
  | nil =>
      cases hrun
      exact h
  | cons e es ih =>
      unfold followTasks at hrun
      split at hrun
      · next hen =>
        split at hrun
        · next x₁ hact => exact ih (h.step ⟨e, hen, hact⟩) hrun
        · cases hrun
      · cases hrun

/-- `main` is task `1`. -/
def mainAlone : Kern where
  sched := ⟨false, 1, [], [], fun _ => .RUNNING, 1⟩
  holder := none
  holderRepeatNr := 0
  tidPool := ⟨⟨125100, fun _ => 0⟩, 1⟩
  tid _ := 0
  taskAllList := [1]
  taskPoolList := []
  taskAllNums := 1
  heap := [1]
  mainTask := 1
  pc := .out
  context _ := .out
  exited _ := false

theorem mainAlone_init (C : TaskPc → Prop) : (createRuns C).Reach mainAlone :=
  .init ⟨⟨rfl, rfl, rfl, rfl⟩, ⟨rfl, rfl, rfl⟩, ⟨rfl, rfl, rfl, rfl, rfl⟩, fun _ => rfl⟩

/-- `main` starts task `2`, which is then dispatched by the handler. -/
def startTwo : List TaskEv :=
  .start :: .next :: .next :: .malloc 2 :: List.replicate 31 .next ++ [.handler]

/-- Task `2` ends; `release_tid` has taken `tid_lock`. -/
def exitTwo : List TaskEv := startTwo ++ .exit :: List.replicate 13 .next

theorem createRuns_ok_start : ∃ x, (createRuns fun pc => ¬ Exposed pc).Reach x ∧
    x.sched.currentTask = 2 ∧ x.taskAllNums = 2 ∧ TasksOk (fun pc => ¬ Exposed pc) x := by
  have hrun : (followTasks (fun pc => ¬ Exposed pc) mainAlone startTwo).map (fun x =>
      (x.sched.currentTask, x.taskAllNums)) = some (2, 2) := by decide +kernel
  obtain ⟨x, hx, hfacts⟩ := Option.map_eq_some_iff.1 hrun
  simp only [Prod.mk.injEq] at hfacts
  have hreach := reach_followTasks (mainAlone_init _) hx
  exact ⟨x, hreach, hfacts.1, hfacts.2, createRuns_ok hreach⟩

/-- The handler comes in `release_tid`, and puts the task that ends on `task_ready_list`. -/
theorem dead_task_ready : ¬ ∀ x, (createRuns fun _ => True).Reach x → TasksOk (fun _ => True) x := by
  intro hall
  have hrun : (followTasks (fun _ => True) mainAlone (exitTwo ++ [.handler])).map (fun x =>
      (x.exited 2, x.sched.taskReadyList)) = some (true, [2]) := by decide +kernel
  obtain ⟨x, hx, hfacts⟩ := Option.map_eq_some_iff.1 hrun
  simp only [Prod.mk.injEq] at hfacts
  apply (hall x (reach_followTasks (mainAlone_init _) hx)).gone 2 hfacts.1
  rw [hfacts.2]
  exact List.mem_singleton_self 2

end

end ThreadSched.Mask
