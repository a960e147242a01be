import ThreadSched.Kernel.Bitmap
import ThreadSched.Timer.Wheel

/-!
# Tasks, locks and queues (`include/task.h`, `sync.h`, `ioqueue.h`)

The state of the scheduler as its source files share it.

* A `struct task_struct` is named by its address, `TaskId`; `tasks` is the memory they live in and
  `allocated` says which addresses hold one.  Saved contexts are not part of this model.
* A list is the sequence of the tasks whose node is linked in it.
* A task that was switched out in the middle of a call has statements left to run when it is
  dispatched again: `conts` is that rest, innermost statement first.
* `log` is ghost: the moments a task is put on `task_ready_list`, dispatched or ended, and the bytes
  `ioq_getchar` returned.
-/

set_option autoImplicit false

namespace ThreadSched

/-- `uint8_t` arithmetic. -/
def u8 (x : Int) : Nat := (x % 256).toNat

/-- Conversion to `int16_t`. -/
def i16 (x : Int) : Int := x.bmod 65536

/-- The address of a `struct task_struct`. -/
abbrev TaskId := Nat

abbrev IoqId := Nat

/-- `enum task_status`. -/
inductive TaskStatus
  | RUNNING | READY | BLOCKED | DIED | WAITING | HANGING
  deriving DecidableEq, Repr

/-- `struct task_struct`, less its context and its list nodes. -/
structure TaskStruct where
  stackMinAddr : Nat
  tid : Int
  status : TaskStatus
  priority : Nat
  ticks : Nat
  elapsedTicks : Nat
  stackMagic : Nat
  sleepMillisecond : Nat
  first : Bool
  isHook : Bool
  isCollaborativeSchedule : Bool

/-- The task after `memset(ptask, 0, sizeof(*ptask))`. -/
def TaskStruct.zero : TaskStruct := ⟨0, 0, .RUNNING, 0, 0, 0, 0, 0, false, false, false⟩

/-- `struct semaphore`. -/
structure Semaphore where
  value : Nat
  waiters : List TaskId

/-- `struct lock`. -/
structure Lock where
  holder : Option TaskId
  semaphore : Semaphore
  holderRepeatNr : Nat

/-- `lock_init`. -/
def lockInit : Lock := ⟨none, ⟨1, []⟩, 0⟩

/-- The locks of the program: `tid_pool.tid_lock`, `timer_manager->lock`, the one in each ioqueue,
and those of user code. -/
inductive LockId
  | tid | timer | ioq (ioq : IoqId) | user (plock : Nat)
  deriving DecidableEq, Repr

/-- The two waiter fields of an ioqueue. -/
inductive Waiter
  | producer | consumer
  deriving DecidableEq, Repr

abbrev bufsize : Nat := 64

/-- `struct ioqueue`, less its lock. -/
structure Ioqueue where
  waiter : Waiter → Option TaskId
  buf : Nat → BitVec 8
  head : Nat
  tail : Nat

/-- `ioqueue_init`. -/
def ioqueueInit : Ioqueue := ⟨fun _ => none, fun _ => 0, 0, 0⟩

/-- `struct tid_pool`, less its lock. -/
structure TidPool where
  tidBitmap : Bitmap
  tidStart : Nat

/-- The statements at which a task can be switched out in the middle of a call. -/
inductive Stmt
  | lockAcquire (plock : LockId)
  | semaDown (plock : LockId)
  /-- `lock_acquire` after its `sema_down`. -/
  | lockAcquired (plock : LockId)
  | lockRelease (plock : LockId)
  | ioqGetchar (ioq : IoqId)
  | ioqPutchar (ioq : IoqId) (byte : BitVec 8)
  | ioqWait (ioq : IoqId) (waiter : Waiter)
  /-- `while(current_task->is_collaborative_schedule)` of `sleep`, `usleep` and `nanosleep`. -/
  | sleepSpin
  /-- `while(1);` outside the signal handler. -/
  | loop
  deriving DecidableEq

/-- Which code put a task on `task_ready_list`. -/
inductive Via
  | taskStart | taskUnblock | schedule
  /-- `collaborative_schedule_helper`, called for this timer node in this tick. -/
  | helper (node tick : Nat)
  deriving DecidableEq, Repr

/-- The events of a run. -/
inductive Event
  | ready (task : TaskId) (via : Via)
  | dispatch (task : TaskId)
  | exit (task : TaskId)
  | getchar (task : TaskId) (ioq : IoqId) (byte : BitVec 8)
  deriving DecidableEq

/-- The state shared by `task.c`, `sync.c` and `ioqueue.c`. -/
structure Sched where
  tasks : TaskId → TaskStruct
  allocated : TaskId → Bool
  stackAllocated : Nat → Bool
  mainTask : TaskId
  currentTask : TaskId
  taskReadyList : List TaskId
  taskAllList : List TaskId
  taskPoolList : List TaskId
  taskAllNums : Int
  tidPool : TidPool
  locks : LockId → Lock
  ioqs : IoqId → Ioqueue
  conts : TaskId → List Stmt
  log : List Event

/-- How a run ends. -/
inductive Fault
  | assertion
  /-- `list_pop` of an empty list unlinks the tail sentinel, whose `next` is `NULL`. -/
  | nullDeref
  /-- A loop inside the signal handler that nothing ends. -/
  | hang
  /-- The handler reads a timer manager that was freed. -/
  | useAfterFree
  /-- A `lock_acquire` inside `task_start`, `task_exit` or the handler would have to wait. -/
  | nestedBlock
  deriving DecidableEq, Repr

/-- `assert(c)`. -/
def assertThat (c : Prop) [Decidable c] : Except Fault Unit :=
  if c then .ok () else .error .assertion

/-! ## Lists (`lib/list.c`) -/

abbrev listPush (plist : List TaskId) (elem : TaskId) : List TaskId := elem :: plist

abbrev listAppend (plist : List TaskId) (elem : TaskId) : List TaskId := plist ++ [elem]

abbrev listRemove (plist : List TaskId) (pelem : TaskId) : List TaskId := plist.erase pelem

abbrev elemFind (plist : List TaskId) (elem : TaskId) : Prop := elem ∈ plist

/-- `list_pop`. -/
def listPop : List TaskId → Except Fault (TaskId × List TaskId)
  | [] => .error .nullDeref
  | elem :: plist => .ok (elem, plist)

/-! ## Writing one task, lock or queue -/

namespace Sched

def modTask (s : Sched) (t : TaskId) (f : TaskStruct → TaskStruct) : Sched :=
  { s with tasks := Function.update s.tasks t (f (s.tasks t)) }

def modLock (s : Sched) (l : LockId) (f : Lock → Lock) : Sched :=
  { s with locks := Function.update s.locks l (f (s.locks l)) }

def modIoq (s : Sched) (q : IoqId) (f : Ioqueue → Ioqueue) : Sched :=
  { s with ioqs := Function.update s.ioqs q (f (s.ioqs q)) }

/-- The statements `ss` are run by `t` before what it had left. -/
def push (s : Sched) (t : TaskId) (ss : List Stmt) : Sched :=
  { s with conts := Function.update s.conts t (ss ++ s.conts t) }

def emit (s : Sched) (e : Event) : Sched := { s with log := s.log ++ [e] }

/-- The current task's `struct task_struct`. -/
def current (s : Sched) : TaskStruct := s.tasks s.currentTask

end Sched

end ThreadSched
