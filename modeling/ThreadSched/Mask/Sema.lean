import ThreadSched.Lib.Trans
import ThreadSched.Lib.Returns
import ThreadSched.Task.Tame

/-!
# A semaphore under a signal mask (`Thread/task/sync.c`, `task.c`, `analog_interrupt.c`)

In this tree `SIGUSR1` preempts at any statement at which it is not blocked, and the mask belongs to the
process: `interrupt_enable` opens it whoever closed it.  The processor executes one statement at a
time; what a task does next when it is dispatched is in its saved context.

* `SemaPc`, `semaNext` — the statements of `sema_down` and `sema_up` with all they call, and what one does.
* `Cpu` — the processor, the contexts and, as a ghost, who holds the semaphore.
* `semaRuns` — the runs; the handler comes at statements that meet a condition.
* `SemaOk` — one holder at most, no assertion fails, no wakeup is lost.
* `semaRuns_ok` — this holds when the handler stays out of what follows a test of `value`, `Critical`;
  `wakeup_lost` — it does not when the handler comes after the `task_unblock` of `sema_up`.
-/

set_option autoImplicit false

namespace ThreadSched.Mask

/-- What the statements of `sema_down` and `sema_up` read and write. -/
structure Sched where
  /-- `SIGUSR1` is blocked. -/
  masked : Bool
  value : Nat
  waiters : List TaskId
  taskReadyList : List TaskId
  status : TaskId → TaskStatus
  currentTask : TaskId

/-- The statements of `sema_down` and `sema_up`, of `task_block` and `block_task_schedule`, and of
`task_unblock`. -/
inductive SemaPc
  /-- In no call. -/
  | out
  /-- `interrupt_disable()` of `sema_down` -/
  | downDisable
  /-- `while(psema->value == 0)` -/
  | downTest
  /-- The same after `task_block`. -/
  | downAgain
  /-- `assert(!elem_find(&psema->waiters, …))`; the `PANIC` that follows repeats it. -/
  | downAssertFree
  /-- `list_append(&psema->waiters, …)` -/
  | downAppend
  /-- `current_task->status = status` of `task_block(TASK_BLOCKED)` -/
  | blockStatus
  /-- `if(list_empty(&task_ready_list))` of `block_task_schedule` -/
  | switchTest
  /-- `assert(!list_empty(&task_ready_list))` -/
  | switchAssert
  /-- `task_tag = list_pop(&task_ready_list)` -/
  | switchPop
  /-- `next->status = TASK_RUNNING` -/
  | switchStatus (next : TaskId)
  /-- `current_task = next` -/
  | switchCurrent (next : TaskId)
  /-- `context_swap(&temp->context, &next->context)` -/
  | swap (temp next : TaskId)
  /-- `psema->value--` -/
  | downTake
  /-- `assert(psema->value == 0)` -/
  | downAssert
  /-- `interrupt_enable()` of `sema_down` -/
  | downEnable
  /-- `interrupt_disable()` of `sema_up` -/
  | upDisable
  /-- `assert(psema->value == 0)` -/
  | upAssertZero
  /-- `if(!list_empty(&psema->waiters))` -/
  | upTest
  /-- `thread_blocked = … list_pop(&psema->waiters)` -/
  | upPop
  /-- `interrupt_disable()` of `task_unblock` -/
  | unblockDisable (ptask : TaskId)
  /-- `assert(ptask->status == TASK_BLOCKED || …)` -/
  | unblockAssert (ptask : TaskId)
  /-- `if(ptask->status != TASK_READY)` -/
  | unblockTest (ptask : TaskId)
  /-- `assert(!elem_find(&task_ready_list, &ptask->general_tag))` -/
  | unblockAssertFree (ptask : TaskId)
  /-- `list_push(&task_ready_list, &ptask->general_tag)` -/
  | unblockPush (ptask : TaskId)
  /-- `ptask->status = TASK_READY` -/
  | unblockStatus (ptask : TaskId)
  /-- `interrupt_enable()` of `task_unblock` -/
  | unblockEnable
  /-- `psema->value++` -/
  | upInc
  /-- `assert(psema->value == 1)` -/
  | upAssertOne
  /-- `interrupt_enable()` of `sema_up` -/
  | upEnable
  deriving DecidableEq, Repr

/-- Where the processor goes on. -/
inductive Flow
  | goto (pc : SemaPc)
  /-- `context_swap`: in the context of `next`, with the return from it in that of `temp`. -/
  | swap (temp next : TaskId)

namespace Sched

/-- `interrupt_disable`. -/
def interruptDisable (s : Sched) : Sched := { s with masked := true }

/-- `interrupt_enable`. -/
def interruptEnable (s : Sched) : Sched := { s with masked := false }

def setStatus (s : Sched) (t : TaskId) (status : TaskStatus) : Sched :=
  { s with status := Function.update s.status t status }

/-- `schedule`, called by `interrupt_timer_handler`, up to the contexts. -/
def schedule (s : Sched) : Except Fault Sched := do
  assertThat (¬ elemFind s.taskReadyList s.currentTask)
  let s := { s with taskReadyList := listAppend s.taskReadyList s.currentTask }
  let s := s.setStatus s.currentTask .READY
  let (next, taskReadyList) ← listPop s.taskReadyList
  let s := { s with taskReadyList := taskReadyList }.setStatus next .RUNNING
  pure { s with currentTask := next }

end Sched

/-- One statement.  With no task ready `block_task_schedule` stays in its `while(1)`. -/
def semaNext (pc : SemaPc) (s : Sched) : Except Fault (Sched × Flow) :=
  match pc with
  | .out => pure (s, .goto .out)
  | .downDisable => pure (s.interruptDisable, .goto .downTest)
  | .downTest | .downAgain =>
    pure (s, .goto (if s.value = 0 then .downAssertFree else .downTake))
  | .downAssertFree => do
    assertThat (¬ elemFind s.waiters s.currentTask)
    pure (s, .goto .downAppend)
  | .downAppend => pure ({ s with waiters := listAppend s.waiters s.currentTask }, .goto .blockStatus)
  | .blockStatus => pure (s.setStatus s.currentTask .BLOCKED, .goto .switchTest)
  | .switchTest => pure (s, .goto (if s.taskReadyList = [] then .switchTest else .switchAssert))
  | .switchAssert => do
    assertThat (s.taskReadyList ≠ [])
    pure (s, .goto .switchPop)
  | .switchPop => do
    let (next, taskReadyList) ← listPop s.taskReadyList
    pure ({ s with taskReadyList := taskReadyList }, .goto (.switchStatus next))
  | .switchStatus next => pure (s.setStatus next .RUNNING, .goto (.switchCurrent next))
  | .switchCurrent next => pure ({ s with currentTask := next }, .goto (.swap s.currentTask next))
  | .swap temp next => pure (s, .swap temp next)
  | .downTake => pure ({ s with value := u8 ((s.value : Int) - 1) }, .goto .downAssert)
  | .downAssert => do
    assertThat (s.value = 0)
    pure (s, .goto .downEnable)
  | .downEnable => pure (s.interruptEnable, .goto .out)
  | .upDisable => pure (s.interruptDisable, .goto .upAssertZero)
  | .upAssertZero => do
    assertThat (s.value = 0)
    pure (s, .goto .upTest)
  | .upTest => pure (s, .goto (if s.waiters ≠ [] then .upPop else .upInc))
  | .upPop => do
    let (threadBlocked, waiters) ← listPop s.waiters
    pure ({ s with waiters := waiters }, .goto (.unblockDisable threadBlocked))
  | .unblockDisable ptask => pure (s.interruptDisable, .goto (.unblockAssert ptask))
  | .unblockAssert ptask => do
    assertThat (s.status ptask = .BLOCKED ∨ s.status ptask = .WAITING ∨ s.status ptask = .HANGING)
    pure (s, .goto (.unblockTest ptask))
  | .unblockTest ptask =>
    pure (s, .goto (if s.status ptask ≠ .READY then .unblockAssertFree ptask else .unblockEnable))
  | .unblockAssertFree ptask => do
    assertThat (¬ elemFind s.taskReadyList ptask)
    pure (s, .goto (.unblockPush ptask))
  | .unblockPush ptask =>
    pure ({ s with taskReadyList := listPush s.taskReadyList ptask }, .goto (.unblockStatus ptask))
  | .unblockStatus ptask => pure (s.setStatus ptask .READY, .goto .unblockEnable)
  | .unblockEnable => pure (s.interruptEnable, .goto .upInc)
  | .upInc => pure ({ s with value := u8 ((s.value : Int) + 1) }, .goto .upAssertOne)
  | .upAssertOne => do
    assertThat (s.value = 1)
    pure (s, .goto .upEnable)
  | .upEnable => pure (s.interruptEnable, .goto .out)

/-- The processor, between two statements.  Ghost: `holds` is set at `value--` and reset at `value++`. -/
structure Cpu where
  sched : Sched
  pc : SemaPc
  context : TaskId → SemaPc
  holds : TaskId → Bool

/-- What happens: the current task calls `sema_down` or `sema_up`, or executes its next statement, or
the handler runs. -/
inductive Ev
  | down | up | next | handler
  deriving DecidableEq, Repr

namespace Cpu

def go (x : Cpu) : Flow → Cpu
  | .goto pc => { x with pc := pc }
  | .swap temp next =>
    let context := Function.update x.context temp .downAgain
    { x with pc := context next, context := context }

/-- Who holds the semaphore after the statement at `x.pc`. -/
def held (x : Cpu) : TaskId → Bool :=
  match x.pc with
  | .downTake => Function.update x.holds x.sched.currentTask true
  | .upInc => Function.update x.holds x.sched.currentTask false
  | _ => x.holds

/-- The next statement. -/
def next (x : Cpu) : Except Fault Cpu := do
  let (sched, flow) ← semaNext x.pc x.sched
  pure ({ x with sched := sched, holds := x.held }.go flow)

/-- `interrupt_timer_handler` for a task that does not sleep: the interrupted context is saved in that of
the current task, and the return from the signal goes on with that of the next.  The mask is what the
interrupted code had. -/
def handler (x : Cpu) : Except Fault Cpu := do
  let sched ← x.sched.schedule
  let context := Function.update x.context x.sched.currentTask x.pc
  pure { x with sched := sched, pc := context sched.currentTask, context := context }

def act (x : Cpu) : Ev → Except Fault Cpu
  | .down => pure { x with pc := .downDisable }
  | .up => pure { x with pc := .upDisable }
  | .next => x.next
  | .handler => x.handler

/-- When it can happen; `C` is the condition on the statement at which the handler comes. -/
def Enabled (C : SemaPc → Prop) (x : Cpu) : Ev → Prop
  | .down => x.pc = .out
  | .up => x.pc = .out ∧ x.holds x.sched.currentTask = true
  | .next => True
  | .handler => x.sched.masked = false ∧ C x.pc

instance (C : SemaPc → Prop) [DecidablePred C] (x : Cpu) (e : Ev) : Decidable (x.Enabled C e) :=
  match e with
  | .down => inferInstanceAs (Decidable (x.pc = .out))
  | .up => inferInstanceAs (Decidable (x.pc = .out ∧ x.holds x.sched.currentTask = true))
  | .next => inferInstanceAs (Decidable True)
  | .handler => inferInstanceAs (Decidable (x.sched.masked = false ∧ C x.pc))

/-- The task whose code the processor executes: after `current_task = next` still the old one. -/
def task (x : Cpu) : TaskId :=
  match x.pc with
  | .swap temp _ => temp
  | _ => x.sched.currentTask

/-- The next statement of `t`. -/
def thread (x : Cpu) (t : TaskId) : SemaPc := if t = x.task then x.pc else x.context t

end Cpu

/-- The runs of one semaphore of value 1: `main` runs, any other tasks are ready. -/
def semaRuns (C : SemaPc → Prop) : Trans.Sys Cpu where
  init x := x.sched.value = 1 ∧ x.sched.waiters = [] ∧ x.sched.taskReadyList.Nodup ∧
    x.sched.currentTask ∉ x.sched.taskReadyList ∧ x.pc = .out ∧ (∀ t, x.context t = .out) ∧
    ∀ t, x.holds t = false
  step x x' := ∃ e, x.Enabled C e ∧ x.act e = .ok x'

/-- In `sema_up`. -/
def InUp : SemaPc → Prop
  | .upDisable | .upAssertZero | .upTest | .upPop | .unblockDisable _ | .unblockAssert _
  | .unblockTest _ | .unblockAssertFree _ | .unblockPush _ | .unblockStatus _ | .unblockEnable
  | .upInc | .upAssertOne | .upEnable => True
  | _ => False

instance (pc : SemaPc) : Decidable (InUp pc) := by
  cases pc <;> unfold InUp <;> infer_instance

/-- A woken task that is about to test `value`, or has just tested it and takes it next. -/
def Awake (x : Cpu) (t : TaskId) : Prop :=
  (x.thread t = .downAgain ∨ x.thread t = .downTake) ∧
    (t ∈ x.sched.taskReadyList ∨ t = x.sched.currentTask)

/-- A wakeup is lost. -/
def Lost (x : Cpu) : Prop :=
  x.sched.value = 1 ∧ (∀ t, ¬ InUp (x.thread t)) ∧ x.sched.waiters ≠ [] ∧ ∀ t, ¬ Awake x t

/-- What the semaphore promises. -/
structure SemaOk (x : Cpu) : Prop where
  one : ∀ t u, x.holds t = true → x.holds u = true → t = u
  asserts : x.next ≠ .error .assertion
  noLostWakeup : ¬ Lost x

/-! ## The invariant -/

/-- Between a test of `value` in `sema_down` and the switch or the `value--` that follows, and in
`sema_up` between `task_unblock` and the last assertion. -/
def Critical : SemaPc → Prop
  | .downAssertFree | .downAppend | .blockStatus | .switchTest | .switchAssert | .switchPop
  | .switchStatus _ | .switchCurrent _ | .swap _ _ | .downTake | .upInc | .upAssertOne => True
  | _ => False

instance : DecidablePred Critical := fun pc =>
  match pc with
  | .downAssertFree | .downAppend | .blockStatus | .switchTest | .switchAssert | .switchPop
  | .switchStatus _ | .switchCurrent _ | .swap _ _ | .downTake | .upInc | .upAssertOne =>
    inferInstanceAs (Decidable True)
  | .out | .downDisable | .downTest | .downAgain | .downAssert | .downEnable | .upDisable
  | .upAssertZero | .upTest | .upPop | .unblockDisable _ | .unblockAssert _ | .unblockTest _
  | .unblockAssertFree _ | .unblockPush _ | .unblockStatus _ | .unblockEnable | .upEnable =>
    inferInstanceAs (Decidable False)

/-- What is so of a task that is not executed; `o` holds the semaphore. -/
def Parked (o : Option TaskId) (t : TaskId) : SemaPc → Prop
  | .out | .downDisable | .downAgain | .downEnable | .upEnable => True
  | .downAssert | .upDisable => o = some t
  | _ => False

/-- The lists and the parked tasks; `m` is executed. -/
structure Base (s : Sched) (context : TaskId → SemaPc) (o : Option TaskId) (m : TaskId) : Prop where
  value : s.value = if o = none then 1 else 0
  ready : s.taskReadyList.Nodup
  waiters : s.waiters.Nodup
  apart : ∀ t ∈ s.waiters, t ∉ s.taskReadyList
  self : m ∉ s.taskReadyList
  asleep : ∀ t ∈ s.waiters, t ≠ m → s.status t = .BLOCKED ∧ context t = .downAgain
  parked : ∀ t, t ≠ m → Parked o t (context t)

/-- A woken task is ready. -/
def SomeAwake (s : Sched) (context : TaskId → SemaPc) : Prop :=
  ∃ t ∈ s.taskReadyList, context t = .downAgain

/-- In no list. -/
def Free (s : Sched) (m : TaskId) : Prop := m = s.currentTask ∧ m ∉ s.waiters

/-- On the way to its switch. -/
def Queued (s : Sched) (o : Option TaskId) (m : TaskId) : Prop :=
  m = s.currentTask ∧ m ∈ s.waiters ∧ o ≠ none

/-- Taken from a list. -/
def Picked (s : Sched) (m t : TaskId) : Prop := t ≠ m ∧ t ∉ s.taskReadyList ∧ t ∉ s.waiters

/-- In `sema_up` with the signal blocked. -/
def Upping (s : Sched) (o : Option TaskId) (m : TaskId) : Prop :=
  Free s m ∧ o = some m ∧ s.masked = true

/-- What is so at each statement. -/
def At (s : Sched) (context : TaskId → SemaPc) (o : Option TaskId) (m : TaskId) : SemaPc → Prop
  | .out | .downDisable | .downAgain | .downEnable | .upEnable => Free s m
  | .downTest => Free s m ∧ s.masked = true
  | .downAssertFree | .downAppend => Free s m ∧ o ≠ none
  | .blockStatus => Queued s o m
  | .switchTest => Queued s o m ∧ s.status m = .BLOCKED
  | .switchAssert | .switchPop => (Queued s o m ∧ s.status m = .BLOCKED) ∧ s.taskReadyList ≠ []
  | .switchStatus next | .switchCurrent next =>
    (Queued s o m ∧ s.status m = .BLOCKED) ∧ Picked s m next
  | .swap temp next => (m = temp ∧ s.currentTask = next) ∧ (m ∈ s.waiters ∧ o ≠ none) ∧
    s.status m = .BLOCKED ∧ Picked s m next
  | .downTake => Free s m ∧ o = none
  | .downAssert | .upDisable => Free s m ∧ o = some m
  | .upAssertZero | .upTest => Upping s o m
  | .upPop => Upping s o m ∧ s.waiters ≠ []
  | .unblockDisable u | .unblockAssert u | .unblockTest u | .unblockAssertFree u | .unblockPush u =>
    Upping s o m ∧ Picked s m u ∧ s.status u = .BLOCKED ∧ context u = .downAgain
  | .unblockStatus u => Upping s o m ∧ u ∉ s.waiters ∧ u ∈ s.taskReadyList ∧ context u = .downAgain
  | .unblockEnable => Upping s o m ∧ SomeAwake s context
  | .upInc => (Free s m ∧ o = some m) ∧ (s.waiters ≠ [] → SomeAwake s context)
  | .upAssertOne => Free s m ∧ o = none

/-- The statements of a task that has been woken and has not taken the semaphore. -/
def Retry (pc : SemaPc) : Prop := pc = .downAgain ∨ pc = .downTake

/-- **The invariant**; `o` holds the semaphore and `m` is executed. -/
structure Inv (x : Cpu) (o : Option TaskId) (m : TaskId) : Prop where
  holds : ∀ t, x.holds t = true ↔ o = some t
  base : Base x.sched x.context o m
  station : At x.sched x.context o m x.pc
  awake : o = none → x.sched.waiters ≠ [] → SomeAwake x.sched x.context ∨ Retry x.pc

section

variable {x x' : Cpu} {s s' : Sched} {pc pc' : SemaPc} {context : TaskId → SemaPc}
  {holds : TaskId → Bool} {o o' : Option TaskId} {m t u : TaskId}

theorem Parked.congr (h : Parked o t pc) (ho : o = some t → o' = some t) : Parked o' t pc := by
  cases pc <;> first
    | exact h
    | exact ho h

/-- A parked task that is dispatched. -/
theorem Parked.station (h : Parked o t pc) (hfree : Free s t) : At s context o t pc := by
  cases pc <;> first
    | exact hfree
    | exact ⟨hfree, h⟩
    | exact h.elim

/-- Where the handler finds the signal open. -/
theorem At.parked (h : At s context o m pc) (hopen : s.masked = false) (hpc : ¬ Critical pc) :
    Free s m ∧ Parked o m pc := by
  have hclosed : ∀ {P : Prop}, s.masked = true → P := fun hm => by
    rw [hopen] at hm
    cases hm
  cases pc with
  | out => exact ⟨h, trivial⟩
  | downDisable => exact ⟨h, trivial⟩
  | downAgain => exact ⟨h, trivial⟩
  | downEnable => exact ⟨h, trivial⟩
  | upEnable => exact ⟨h, trivial⟩
  | downAssert => exact h
  | upDisable => exact h
  | downTest => exact hclosed h.2
  | upAssertZero => exact hclosed h.2.2
  | upTest => exact hclosed h.2.2
  | upPop => exact hclosed h.1.2.2
  | unblockDisable u => exact hclosed h.1.2.2
  | unblockAssert u => exact hclosed h.1.2.2
  | unblockTest u => exact hclosed h.1.2.2
  | unblockAssertFree u => exact hclosed h.1.2.2
  | unblockPush u => exact hclosed h.1.2.2
  | unblockStatus u => exact hclosed h.1.2.2
  | unblockEnable => exact hclosed h.1.2.2
  | _ => exact absurd trivial hpc

/-! ## One statement -/

/-- A statement that changes nothing but the mask. -/
theorem Inv.goto (h : Inv ⟨s, pc, context, holds⟩ o m) (b : Bool)
    (hat : At { s with masked := b } context o m pc') (hretry : o = none → Retry pc → Retry pc') :
    Inv ⟨{ s with masked := b }, pc', context, holds⟩ o m := by
  refine ⟨h.holds, ⟨h.base.value, h.base.ready, h.base.waiters, h.base.apart, h.base.self,
    h.base.asleep, h.base.parked⟩, hat, ?_⟩
  intro ho hne
  rcases h.awake ho hne with hsome | hpc
  · exact Or.inl hsome
  · exact Or.inr (hretry ho hpc)

/-- A status is written: not that of a waiter, but perhaps that of the task that is executed. -/
theorem Inv.setStatus (h : Inv ⟨s, pc, context, holds⟩ o m) {status : TaskStatus}
    (ht : t ∈ s.waiters → t = m) (hat : At (s.setStatus t status) context o m pc')
    (hpc : ¬ Retry pc) : Inv ⟨s.setStatus t status, pc', context, holds⟩ o m := by
  refine ⟨h.holds, ⟨h.base.value, h.base.ready, h.base.waiters, h.base.apart, h.base.self, ?_,
    h.base.parked⟩, hat, ?_⟩
  · intro u hu hum
    have hut : u ≠ t := by
      rintro rfl
      exact hum (ht hu)
    have hstatus : (s.setStatus t status).status u = s.status u := Function.update_of_ne hut _ _
    rw [hstatus]
    exact h.base.asleep u hu hum
  · intro ho hne
    exact Or.inl ((h.awake ho hne).resolve_right hpc)

/-- `value--`. -/
theorem Inv.take (h : Inv ⟨s, .downTake, context, holds⟩ none m) :
    Inv ⟨{ s with value := u8 ((s.value : Int) - 1) }, .downAssert, context,
      Function.update holds s.currentTask true⟩ (some m) m := by
  have hcur : s.currentTask = m := h.station.1.1.symm
  have hvalue : s.value = 1 := h.base.value
  refine ⟨?_, ⟨?_, h.base.ready, h.base.waiters, h.base.apart, h.base.self, h.base.asleep, ?_⟩,
    ⟨h.station.1, rfl⟩, nofun⟩
  · intro t
    show Function.update holds s.currentTask true t = true ↔ _
    rw [hcur]
    by_cases htm : t = m
    · subst htm
      simp
    · rw [Function.update_of_ne htm]
      have hnot : ¬ holds t = true := fun ht => by
        have hnone := (h.holds t).1 ht
        cases hnone
      exact ⟨fun ht => absurd ht hnot, fun ht => absurd (Option.some.inj ht).symm htm⟩
  · show u8 ((s.value : Int) - 1) = 0
    rw [hvalue]
    rfl
  · exact fun t ht => (h.base.parked t ht).congr nofun

/-- `value++`. -/
theorem Inv.inc (h : Inv ⟨s, .upInc, context, holds⟩ (some m) m) :
    Inv ⟨{ s with value := u8 ((s.value : Int) + 1) }, .upAssertOne, context,
      Function.update holds s.currentTask false⟩ none m := by
  have hcur : s.currentTask = m := h.station.1.1.1.symm
  have hvalue : s.value = 0 := h.base.value
  refine ⟨?_, ⟨?_, h.base.ready, h.base.waiters, h.base.apart, h.base.self, h.base.asleep, ?_⟩,
    ⟨h.station.1.1, rfl⟩, fun _ hne => Or.inl (h.station.2 hne)⟩
  · intro t
    show Function.update holds s.currentTask false t = true ↔ _
    rw [hcur]
    by_cases htm : t = m
    · subst htm
      simp
    · rw [Function.update_of_ne htm]
      exact ⟨fun ht => absurd (Option.some.inj ((h.holds t).1 ht)).symm htm, nofun⟩
  · show u8 ((s.value : Int) + 1) = 1
    rw [hvalue]
    rfl
  · exact fun t ht => (h.base.parked t ht).congr fun ho => absurd (Option.some.inj ho).symm ht

/-- `list_append(&psema->waiters, …)`. -/
theorem Inv.append (h : Inv ⟨s, .downAppend, context, holds⟩ o m) :
    Inv ⟨{ s with waiters := listAppend s.waiters s.currentTask }, .blockStatus, context, holds⟩ o m := by
  obtain ⟨⟨hcur, hfree⟩, ho⟩ := h.station
  refine ⟨h.holds, ⟨h.base.value, h.base.ready, ?_, ?_, h.base.self, ?_, h.base.parked⟩,
    ⟨hcur, ?_, ho⟩, fun hnone => absurd hnone ho⟩
  · show (s.waiters ++ [s.currentTask]).Nodup
    rw [← hcur]
    exact List.nodup_append.2 ⟨h.base.waiters, List.nodup_singleton m, fun a ha b hb hab => by
      rw [List.mem_singleton] at hb
      rw [hab, hb] at ha
      exact hfree ha⟩
  · intro t ht
    rcases List.mem_append.1 ht with hold | hnew
    · exact h.base.apart t hold
    · rw [List.mem_singleton.1 hnew, ← hcur]
      exact h.base.self
  · intro t ht htm
    rcases List.mem_append.1 ht with hold | hnew
    · exact h.base.asleep t hold htm
    · exact absurd ((List.mem_singleton.1 hnew).trans hcur.symm) htm
  · exact List.mem_append.2 (Or.inr (List.mem_singleton.2 hcur))

/-- `list_pop(&task_ready_list)` of `block_task_schedule`. -/
theorem Inv.switchPop (h : Inv ⟨s, .switchPop, context, holds⟩ o m) {next : TaskId} {rest : List TaskId}
    (hready : s.taskReadyList = next :: rest) :
    Inv ⟨{ s with taskReadyList := rest }, .switchStatus next, context, holds⟩ o m := by
  obtain ⟨⟨⟨hcur, hmem, ho⟩, hstatus⟩, -⟩ := h.station
  have hnodup := h.base.ready
  have hself := h.base.self
  have hapart := h.base.apart
  simp only [hready] at hnodup hself hapart
  refine ⟨h.holds, ⟨h.base.value, (List.nodup_cons.1 hnodup).2, h.base.waiters, ?_, ?_, h.base.asleep,
    h.base.parked⟩, ⟨⟨⟨hcur, hmem, ho⟩, hstatus⟩, ?_, (List.nodup_cons.1 hnodup).1, ?_⟩,
    fun hnone => absurd hnone ho⟩
  · exact fun t ht hrest => hapart t ht (List.mem_cons_of_mem _ hrest)
  · exact fun hrest => hself (List.mem_cons_of_mem _ hrest)
  · rintro rfl
    exact hself List.mem_cons_self
  · exact fun hw => hapart next hw List.mem_cons_self

/-- `list_pop(&psema->waiters)`. -/
theorem Inv.upPop (h : Inv ⟨s, .upPop, context, holds⟩ o m) {waiters : List TaskId}
    (hwaiters : s.waiters = u :: waiters) :
    Inv ⟨{ s with waiters := waiters }, .unblockDisable u, context, holds⟩ o m := by
  obtain ⟨⟨⟨hcur, hfree⟩, ho, hmasked⟩, -⟩ := h.station
  have hnodup := h.base.waiters
  have hasleep := h.base.asleep
  have hapart := h.base.apart
  simp only [hwaiters] at hnodup hasleep hapart hfree
  have hum : u ≠ m := by
    rintro rfl
    exact hfree List.mem_cons_self
  refine ⟨h.holds, ⟨h.base.value, h.base.ready, (List.nodup_cons.1 hnodup).2, ?_, h.base.self, ?_,
    h.base.parked⟩, ⟨⟨⟨hcur, ?_⟩, ho, hmasked⟩, ⟨hum, hapart u List.mem_cons_self,
    (List.nodup_cons.1 hnodup).1⟩, hasleep u List.mem_cons_self hum⟩, fun hnone => ?_⟩
  · exact fun t ht => hapart t (List.mem_cons_of_mem _ ht)
  · exact fun t ht => hasleep t (List.mem_cons_of_mem _ ht)
  · exact fun hrest => hfree (List.mem_cons_of_mem _ hrest)
  · rw [ho] at hnone
    cases hnone

/-- `list_push(&task_ready_list, …)` of `task_unblock`. -/
theorem Inv.push (h : Inv ⟨s, .unblockPush u, context, holds⟩ o m) :
    Inv ⟨{ s with taskReadyList := listPush s.taskReadyList u }, .unblockStatus u, context, holds⟩ o m := by
  obtain ⟨⟨⟨hcur, hfree⟩, ho, hmasked⟩, ⟨hum, hready, hwait⟩, -, hagain⟩ := h.station
  refine ⟨h.holds, ⟨h.base.value, List.nodup_cons.2 ⟨hready, h.base.ready⟩, h.base.waiters, ?_, ?_,
    h.base.asleep, h.base.parked⟩, ⟨⟨⟨hcur, hfree⟩, ho, hmasked⟩, hwait, List.mem_cons_self, hagain⟩,
    fun hnone => ?_⟩
  · intro t ht hmem
    rcases List.mem_cons.1 hmem with rfl | hold
    · exact hwait ht
    · exact h.base.apart t ht hold
  · intro hmem
    rcases List.mem_cons.1 hmem with heq | hold
    · exact hum heq.symm
    · exact h.base.self hold
  · rw [ho] at hnone
    cases hnone

/-- `context_swap`. -/
theorem Inv.swap {temp next : TaskId} (h : Inv ⟨s, .swap temp next, context, holds⟩ o m) :
    Inv (Cpu.go ⟨s, .swap temp next, context, holds⟩ (.swap temp next)) o next := by
  obtain ⟨⟨rfl, hcur⟩, ⟨hmem, ho⟩, hstatus, hne, hready, hwait⟩ := h.station
  have hnext : Function.update context m SemaPc.downAgain next = context next :=
    Function.update_of_ne hne _ _
  refine ⟨h.holds, ⟨h.base.value, h.base.ready, h.base.waiters, h.base.apart, hready, ?_, ?_⟩, ?_,
    fun hnone => absurd hnone ho⟩
  · intro t ht _
    by_cases htm : t = m
    · subst htm
      exact ⟨hstatus, Function.update_self _ _ _⟩
    · obtain ⟨hblocked, hagain⟩ := h.base.asleep t ht htm
      exact ⟨hblocked, (Function.update_of_ne htm _ _).trans hagain⟩
  · intro t _
    show Parked o t (Function.update context m SemaPc.downAgain t)
    by_cases htm : t = m
    · subst htm
      rw [Function.update_self]
      trivial
    · rw [Function.update_of_ne htm]
      exact h.base.parked t htm
  · show At s _ o next (Function.update context m SemaPc.downAgain next)
    rw [hnext]
    exact (h.base.parked next hne).station ⟨hcur.symm, hwait⟩

/-- `schedule` puts the current task at the end and takes the first. -/
theorem schedule_ok (h : s.currentTask ∉ s.taskReadyList) : ∃ next rest,
    s.taskReadyList ++ [s.currentTask] = next :: rest ∧ s.schedule = .ok { s with
      taskReadyList := rest
      status := Function.update (Function.update s.status s.currentTask .READY) next .RUNNING
      currentTask := next } := by
  unfold Sched.schedule
  rw [assertThat_bind h]
  cases hready : s.taskReadyList with
  | nil => exact ⟨_, _, rfl, rfl⟩
  | cons next rest => exact ⟨_, _, rfl, rfl⟩

/-- **The handler** at a statement at which it does no harm. -/
theorem Inv.handler (h : Inv x o m) (hopen : x.sched.masked = false) (hpc : ¬ Critical x.pc) :
    ∃ x' m', x.handler = .ok x' ∧ Inv x' o m' := by
  obtain ⟨⟨hcur, hfree⟩, hparked⟩ := h.station.parked hopen hpc
  have hself := h.base.self
  rw [hcur] at hself
  obtain ⟨next, rest, hlist, hsched⟩ := schedule_ok hself
  have hnodup : (next :: rest).Nodup := by
    rw [← hlist]
    exact List.nodup_append.2 ⟨h.base.ready, List.nodup_singleton _, fun a ha b hb hab => by
      rw [List.mem_singleton] at hb
      rw [hab, hb] at ha
      exact hself ha⟩
  have hmem : ∀ t, t ∈ next :: rest ↔ t ∈ x.sched.taskReadyList ∨ t = m := by
    intro t
    rw [← hlist, List.mem_append, List.mem_singleton, hcur]
  have hwait : ∀ t ∈ next :: rest, t ∉ x.sched.waiters := by
    intro t ht hw
    rcases (hmem t).1 ht with hready | rfl
    · exact h.base.apart t hw hready
    · exact hfree hw
  -- Every context is now one of a task that waits for the processor.
  have hall : ∀ t, Parked o t (Function.update x.context x.sched.currentTask x.pc t) := by
    intro t
    rw [← hcur]
    by_cases htm : t = m
    · subst htm
      rw [Function.update_self]
      exact hparked
    · rw [Function.update_of_ne htm]
      exact h.base.parked t htm
  refine ⟨{ x with
    sched := { x.sched with
      taskReadyList := rest
      status := Function.update (Function.update x.sched.status x.sched.currentTask .READY) next .RUNNING
      currentTask := next }
    pc := Function.update x.context x.sched.currentTask x.pc next
    context := Function.update x.context x.sched.currentTask x.pc }, next, ?_, h.holds,
    ⟨h.base.value, (List.nodup_cons.1 hnodup).2, h.base.waiters, ?_, (List.nodup_cons.1 hnodup).1, ?_,
      fun t _ => hall t⟩, (hall next).station ⟨rfl, hwait next List.mem_cons_self⟩, ?_⟩
  · unfold Cpu.handler
    rw [hsched]
    rfl
  · exact fun t hw ht => hwait t (List.mem_cons_of_mem _ ht) hw
  · intro t hw _
    have htm : t ≠ m := by
      rintro rfl
      exact hfree hw
    have htn : t ≠ next := by
      rintro rfl
      exact hwait t List.mem_cons_self hw
    obtain ⟨hblocked, hagain⟩ := h.base.asleep t hw htm
    simp only [← hcur]
    rw [Function.update_of_ne htn, Function.update_of_ne htm, Function.update_of_ne htm]
    exact ⟨hblocked, hagain⟩
  · intro ho hne
    -- The woken task stays ready, or it is the one that goes on.
    have hwoken : ∃ t ∈ next :: rest,
        Function.update x.context x.sched.currentTask x.pc t = SemaPc.downAgain := by
      rcases h.awake ho hne with ⟨t, ht, hagain⟩ | hretry
      · have htm : t ≠ x.sched.currentTask := by
          rintro rfl
          exact hself ht
        exact ⟨t, (hmem t).2 (Or.inl ht), (Function.update_of_ne htm _ _).trans hagain⟩
      · refine ⟨m, (hmem m).2 (Or.inr rfl), ?_⟩
        rw [hcur, Function.update_self]
        rcases hretry with hagain | htake
        · exact hagain
        · rw [htake] at hpc
          exact absurd trivial hpc
    obtain ⟨t, ht, hagain⟩ := hwoken
    rcases List.mem_cons.1 ht with rfl | hrest
    · exact Or.inr (Or.inl hagain)
    · exact Or.inl ⟨t, hrest, hagain⟩

/-- What a statement returns when its assertion holds. -/
theorem next_of_assert {c : Prop} [Decidable c] {flow : Flow} (hc : c)
    (heq : semaNext x.pc x.sched = (do assertThat c; pure (x.sched, flow))) :
    x.next = .ok ({ x with holds := x.held }.go flow) := by
  unfold Cpu.next
  rw [heq, assertThat_bind hc]
  rfl

theorem Base.value_zero (h : Base s context o m) : s.value = 0 ↔ o ≠ none := by
  rw [h.value]
  by_cases ho : o = none
  · simp [ho]
  · simp [ho]

/-- The test of `value`. -/
theorem Inv.test (h : Inv ⟨s, pc, context, holds⟩ o m) (hfree : Free s m) :
    Inv ⟨s, if s.value = 0 then .downAssertFree else .downTake, context, holds⟩ o m := by
  by_cases hv : s.value = 0
  · rw [if_pos hv]
    have ho := h.base.value_zero.1 hv
    exact h.goto s.masked ⟨hfree, ho⟩ fun hnone => absurd hnone ho
  · rw [if_neg hv]
    have ho : o = none := by
      by_contra hne
      exact hv (h.base.value_zero.2 hne)
    exact h.goto s.masked ⟨hfree, ho⟩ fun _ _ => Or.inr rfl

/-- **One statement** keeps the invariant, and its assertion holds. -/
theorem Inv.next (h : Inv x o m) : ∃ x' o' m', x.next = .ok x' ∧ Inv x' o' m' := by
  obtain ⟨s, pc, context, holds⟩ := x
  have hat := h.station
  cases pc with
  | out => exact ⟨_, o, m, rfl, h⟩
  | downDisable => exact ⟨_, o, m, rfl, h.goto true ⟨hat, rfl⟩ nofun⟩
  | downTest => exact ⟨_, o, m, rfl, h.test hat.1⟩
  | downAgain => exact ⟨_, o, m, rfl, h.test hat⟩
  | downAssertFree =>
      have hfree : ¬ elemFind s.waiters s.currentTask := by
        rw [← hat.1.1]
        exact hat.1.2
      exact ⟨_, o, m, next_of_assert hfree rfl, h.goto s.masked hat nofun⟩
  | downAppend => exact ⟨_, o, m, rfl, h.append⟩
  | blockStatus =>
      refine ⟨_, o, m, rfl, h.setStatus (fun _ => hat.1.symm) ⟨hat, ?_⟩ nofun⟩
      show Function.update s.status s.currentTask .BLOCKED m = .BLOCKED
      rw [hat.1, Function.update_self]
  | switchTest =>
      refine ⟨_, o, m, rfl, ?_⟩
      show Inv ⟨s, if s.taskReadyList = [] then .switchTest else .switchAssert, context, holds⟩ o m
      by_cases hready : s.taskReadyList = []
      · rw [if_pos hready]
        exact h
      · rw [if_neg hready]
        exact h.goto s.masked ⟨hat, hready⟩ nofun
  | switchAssert => exact ⟨_, o, m, next_of_assert hat.2 rfl, h.goto s.masked hat nofun⟩
  | switchPop =>
      cases hready : s.taskReadyList with
      | nil => exact absurd hready hat.2
      | cons next rest =>
          refine ⟨_, o, m, ?_, h.switchPop hready⟩
          unfold Cpu.next semaNext
          simp only [hready]
          rfl
  | switchStatus next =>
      obtain ⟨⟨hqueued, hstatus⟩, hne, hpicked⟩ := hat
      refine ⟨_, o, m, rfl, h.setStatus (fun hw => absurd hw hpicked.2) ⟨⟨hqueued, ?_⟩, hne, hpicked⟩
        nofun⟩
      show Function.update s.status next .RUNNING m = .BLOCKED
      rw [Function.update_of_ne hne.symm]
      exact hstatus
  | switchCurrent next =>
      obtain ⟨⟨⟨hcur, hmem, ho⟩, hstatus⟩, hpicked⟩ := hat
      refine ⟨_, o, m, rfl, ⟨h.holds, ⟨h.base.value, h.base.ready, h.base.waiters, h.base.apart,
        h.base.self, h.base.asleep, h.base.parked⟩, ⟨⟨hcur, rfl⟩, ⟨hmem, ho⟩, hstatus, hpicked⟩,
        fun hnone => absurd hnone ho⟩⟩
  | swap temp next => exact ⟨_, o, next, rfl, h.swap⟩
  | downTake =>
      obtain ⟨-, rfl⟩ := hat
      exact ⟨_, some m, m, rfl, h.take⟩
  | downAssert =>
      have hzero : s.value = 0 := h.base.value_zero.2 (by rw [hat.2]; nofun)
      exact ⟨_, o, m, next_of_assert hzero rfl, h.goto s.masked hat.1 nofun⟩
  | downEnable => exact ⟨_, o, m, rfl, h.goto false hat nofun⟩
  | upDisable => exact ⟨_, o, m, rfl, h.goto true ⟨hat.1, hat.2, rfl⟩ nofun⟩
  | upAssertZero =>
      have hzero : s.value = 0 := h.base.value_zero.2 (by rw [hat.2.1]; nofun)
      exact ⟨_, o, m, next_of_assert hzero rfl, h.goto s.masked hat nofun⟩
  | upTest =>
      refine ⟨_, o, m, rfl, ?_⟩
      show Inv ⟨s, if s.waiters ≠ [] then .upPop else .upInc, context, holds⟩ o m
      by_cases hne : s.waiters ≠ []
      · rw [if_pos hne]
        exact h.goto s.masked ⟨hat, hne⟩ nofun
      · rw [if_neg hne]
        exact h.goto s.masked ⟨⟨hat.1, hat.2.1⟩, fun hw => absurd hw hne⟩ nofun
  | upPop =>
      cases hwaiters : s.waiters with
      | nil => exact absurd hwaiters hat.2
      | cons u waiters =>
          refine ⟨_, o, m, ?_, h.upPop hwaiters⟩
          unfold Cpu.next semaNext
          simp only [hwaiters]
          rfl
  | unblockDisable u =>
      exact ⟨_, o, m, rfl, h.goto true ⟨⟨hat.1.1, hat.1.2.1, rfl⟩, hat.2⟩ nofun⟩
  | unblockAssert u =>
      exact ⟨_, o, m, next_of_assert (Or.inl hat.2.2.1) rfl, h.goto s.masked hat nofun⟩
  | unblockTest u =>
      refine ⟨_, o, m, rfl, ?_⟩
      have hstatus : s.status u ≠ .READY := by
        rw [hat.2.2.1]
        nofun
      show Inv ⟨s, if s.status u ≠ .READY then .unblockAssertFree u else .unblockEnable, context,
        holds⟩ o m
      rw [if_pos hstatus]
      exact h.goto s.masked hat nofun
  | unblockAssertFree u =>
      exact ⟨_, o, m, next_of_assert hat.2.1.2.1 rfl, h.goto s.masked hat nofun⟩
  | unblockPush u => exact ⟨_, o, m, rfl, h.push⟩
  | unblockStatus u =>
      obtain ⟨hup, hwait, hready, hagain⟩ := hat
      exact ⟨_, o, m, rfl, h.setStatus (fun hw => absurd hw hwait) ⟨hup, u, hready, hagain⟩ nofun⟩
  | unblockEnable =>
      exact ⟨_, o, m, rfl, h.goto false ⟨⟨hat.1.1, hat.1.2.1⟩, fun _ => hat.2⟩ nofun⟩
  | upInc =>
      obtain ⟨⟨-, rfl⟩, -⟩ := hat
      exact ⟨_, none, m, rfl, h.inc⟩
  | upAssertOne =>
      obtain ⟨hfree, rfl⟩ := hat
      exact ⟨_, none, m, next_of_assert h.base.value rfl, h.goto s.masked hfree nofun⟩
  | upEnable => exact ⟨_, o, m, rfl, h.goto false hat nofun⟩

/-- **One step.** -/
theorem Inv.step (h : Inv x o m) (hs : (semaRuns fun pc => ¬ Critical pc).step x x') :
    ∃ o' m', Inv x' o' m' := by
  obtain ⟨e, hen, hact⟩ := hs
  cases e with
  | down =>
      obtain rfl := Except.ok.inj hact
      have hat := h.station
      rw [show x.pc = .out from hen] at hat
      have hretry : ¬ Retry x.pc := by
        rw [show x.pc = .out from hen]
        rintro (hagain | htake)
        · cases hagain
        · cases htake
      exact ⟨o, m, (h.goto x.sched.masked hat fun _ hpc => absurd hpc hretry :
        Inv ⟨x.sched, .downDisable, x.context, x.holds⟩ o m)⟩
  | up =>
      obtain rfl := Except.ok.inj hact
      obtain ⟨hout, hholds⟩ := hen
      have hat := h.station
      rw [hout] at hat
      have ho : o = some m := by
        rw [hat.1]
        exact (h.holds _).1 hholds
      have hsome : o ≠ none := by
        rw [ho]
        nofun
      exact ⟨o, m, (h.goto x.sched.masked ⟨hat, ho⟩ fun hnone => absurd hnone hsome :
        Inv ⟨x.sched, .upDisable, x.context, x.holds⟩ o m)⟩
  | next =>
      obtain ⟨x₁, o', m', hnext, hinv⟩ := h.next
      cases hnext.symm.trans hact
      exact ⟨o', m', hinv⟩
  | handler =>
      obtain ⟨x₁, m', hhandler, hinv⟩ := h.handler hen.1 hen.2
      cases hhandler.symm.trans hact
      exact ⟨o, m', hinv⟩

theorem task_of_ne_swap (hpc : ∀ temp next, x.pc ≠ .swap temp next) : x.task = x.sched.currentTask := by
  unfold Cpu.task
  split
  · next temp next heq => exact absurd heq (hpc temp next)
  · rfl

/-- While nobody holds the semaphore no switch out of `sema_down` is under way. -/
theorem At.current (h : At s context none m pc) : m = s.currentTask ∧ ∀ temp next, pc ≠ .swap temp next := by
  cases pc with
  | swap temp next => exact absurd rfl h.2.1.2
  | out => exact ⟨h.1, nofun⟩
  | downDisable => exact ⟨h.1, nofun⟩
  | downAgain => exact ⟨h.1, nofun⟩
  | downEnable => exact ⟨h.1, nofun⟩
  | upEnable => exact ⟨h.1, nofun⟩
  | downTest => exact ⟨h.1.1, nofun⟩
  | downAssertFree => exact ⟨h.1.1, nofun⟩
  | downAppend => exact ⟨h.1.1, nofun⟩
  | blockStatus => exact ⟨h.1, nofun⟩
  | switchTest => exact ⟨h.1.1, nofun⟩
  | switchAssert => exact ⟨h.1.1.1, nofun⟩
  | switchPop => exact ⟨h.1.1.1, nofun⟩
  | switchStatus next => exact ⟨h.1.1.1, nofun⟩
  | switchCurrent next => exact ⟨h.1.1.1, nofun⟩
  | downTake => exact ⟨h.1.1, nofun⟩
  | downAssert => exact ⟨h.1.1, nofun⟩
  | upDisable => exact ⟨h.1.1, nofun⟩
  | upAssertZero => exact ⟨h.1.1, nofun⟩
  | upTest => exact ⟨h.1.1, nofun⟩
  | upPop => exact ⟨h.1.1.1, nofun⟩
  | unblockDisable u => exact ⟨h.1.1.1, nofun⟩
  | unblockAssert u => exact ⟨h.1.1.1, nofun⟩
  | unblockTest u => exact ⟨h.1.1.1, nofun⟩
  | unblockAssertFree u => exact ⟨h.1.1.1, nofun⟩
  | unblockPush u => exact ⟨h.1.1.1, nofun⟩
  | unblockStatus u => exact ⟨h.1.1.1, nofun⟩
  | unblockEnable => exact ⟨h.1.1.1, nofun⟩
  | upInc => exact ⟨h.1.1.1, nofun⟩
  | upAssertOne => exact ⟨h.1.1, nofun⟩

theorem Inv.semaOk (h : Inv x o m) : SemaOk x := by
  refine ⟨?_, ?_, ?_⟩
  · intro t u ht hu
    exact Option.some.inj (((h.holds t).1 ht).symm.trans ((h.holds u).1 hu))
  · obtain ⟨x', -, -, hnext, -⟩ := h.next
    rw [hnext]
    nofun
  · rintro ⟨hvalue, -, hne, hawake⟩
    obtain rfl : o = none := by
      by_contra hsome
      rw [h.base.value_zero.2 hsome] at hvalue
      cases hvalue
    -- The executed task is the current one: it is in its switch only while another holds the semaphore.
    obtain ⟨hcur, hswap⟩ := h.station.current
    have htask : x.task = m ∧ m = x.sched.currentTask := ⟨(task_of_ne_swap hswap).trans hcur.symm, hcur⟩
    rcases h.awake rfl hne with ⟨t, ht, hagain⟩ | hretry
    · apply hawake t
      have htm : t ≠ x.task := by
        rintro rfl
        rw [htask.1] at ht
        exact h.base.self ht
      refine ⟨Or.inl ?_, Or.inl ht⟩
      unfold Cpu.thread
      rw [if_neg htm]
      exact hagain
    · apply hawake x.task
      refine ⟨?_, Or.inr (htask.1.trans htask.2)⟩
      unfold Cpu.thread
      rw [if_pos rfl]
      exact hretry

/-- **The semaphore** works in every run in which the handler never comes between a test of `value` and
what follows from it. -/
theorem semaRuns_ok (h : (semaRuns fun pc => ¬ Critical pc).Reach x) : SemaOk x := by
  obtain ⟨o, m, hinv⟩ := (semaRuns fun pc => ¬ Critical pc).invariant
    (I := fun x => ∃ o m, Inv x o m) (by
      rintro x ⟨hvalue, hwaiters, hready, hcur, hpc, hcontext, hholds⟩
      refine ⟨none, x.sched.currentTask, ⟨?_, ⟨hvalue, hready, ?_, ?_, hcur, ?_, ?_⟩, ?_, ?_⟩⟩
      · intro t
        rw [hholds t]
        exact ⟨nofun, nofun⟩
      · rw [hwaiters]
        exact List.nodup_nil
      · rw [hwaiters]
        nofun
      · rw [hwaiters]
        nofun
      · intro t _
        rw [hcontext t]
        trivial
      · rw [hpc]
        exact ⟨rfl, by rw [hwaiters]; nofun⟩
      · intro _ hne
        exact absurd hwaiters hne) (fun _ _ ⟨_, _, hx⟩ hs => hx.step hs) h
  exact hinv.semaOk

/-! ## Two tasks -/

/-- The run with the events `es`; `none` when one of them cannot happen. -/
def follow (C : SemaPc → Prop) [DecidablePred C] (x : Cpu) : List Ev → Option Cpu
  | [] => some x
  | e :: es =>
    if x.Enabled C e then
      match x.act e with
      | .ok x' => follow C x' es
      | .error _ => none
    else none

theorem reach_follow {C : SemaPc → Prop} [DecidablePred C] {es : List Ev}
    (h : (semaRuns C).Reach x) (hrun : follow C x es = some x') : (semaRuns C).Reach x' := by
  induction es generalizing x with
  | nil =>
      cases hrun
      exact h
  | cons e es ih =>
      unfold follow at hrun
      split at hrun
      · next hen =>
        split at hrun
        · next x₁ hact => exact ih (h.step ⟨e, hen, hact⟩) hrun
        · cases hrun
      · cases hrun

/-- `main` is task `1`; task `2` is ready. -/
def twoTasks : Cpu :=
  ⟨⟨false, 1, [], [2], fun t => if t = 1 then .RUNNING else .READY, 1⟩, .out, fun _ => .out, fun _ => false⟩

theorem twoTasks_init (C : SemaPc → Prop) : (semaRuns C).Reach twoTasks :=
  .init ⟨rfl, rfl, List.nodup_singleton 2, by decide, rfl, fun _ => rfl, fun _ => rfl⟩

/-- `main` takes the semaphore, is preempted, and task `2` blocks on it. -/
def contend : List Ev :=
  .down :: List.replicate 5 .next ++ .handler :: .down :: List.replicate 11 .next

/-- `main` calls `sema_up`, which wakes task `2` and opens the signal; the handler comes before `value++`,
and task `2` finds the semaphore taken and blocks again. -/
def upInterrupted : List Ev :=
  contend ++ .up :: List.replicate 11 .next ++ .handler :: List.replicate 13 .next

theorem semaRuns_ok_contend : ∃ x, (semaRuns fun pc => ¬ Critical pc).Reach x ∧
    x.holds 1 = true ∧ x.sched.waiters = [2] ∧ SemaOk x := by
  have hrun : (follow (fun pc => ¬ Critical pc) twoTasks contend).map (fun x =>
      (x.holds 1, x.sched.waiters)) = some (true, [2]) := by decide +kernel
  obtain ⟨x, hx, hfacts⟩ := Option.map_eq_some_iff.1 hrun
  simp only [Prod.mk.injEq] at hfacts
  have hreach := reach_follow (twoTasks_init _) hx
  exact ⟨x, hreach, hfacts.1, hfacts.2, semaRuns_ok hreach⟩

/-- A wakeup is lost: the semaphore is free, task `2` is in `waiters`, and nobody will wake it. -/
theorem wakeup_lost : ¬ ∀ x, (semaRuns fun _ => True).Reach x → SemaOk x := by
  intro hall
  have hrun : (follow (fun _ => True) twoTasks upInterrupted).map (fun x => ((x.sched.value,
      x.sched.waiters, x.sched.taskReadyList, x.sched.currentTask), x.pc, x.context 0, x.context 2)) =
      some ((1, [2], [], 1), .out, .out, .downAgain) := by decide +kernel
  have hrest : ∀ n, (follow (fun _ => True) twoTasks upInterrupted).map (fun x => x.context (n + 3)) =
      some .out := fun _ => rfl
  obtain ⟨x, hx, hfacts⟩ := Option.map_eq_some_iff.1 hrun
  simp only [Prod.mk.injEq] at hfacts
  obtain ⟨⟨hvalue, hwaiters, hready, hcur⟩, hpc, hzero, htwo⟩ := hfacts
  have hthree : ∀ n, x.context (n + 3) = .out := fun n => by
    have heq := hrest n
    rw [hx] at heq
    exact Option.some.inj heq
  have htask : x.task = 1 := by
    rw [task_of_ne_swap (by rw [hpc]; nofun), hcur]
  have hthread : ∀ t, x.thread t = .out ∨ t = 2 ∧ x.thread t = .downAgain := by
    intro t
    unfold Cpu.thread
    rw [htask]
    match t with
    | 0 => exact Or.inl hzero
    | 1 => exact Or.inl hpc
    | 2 => exact Or.inr ⟨rfl, htwo⟩
    | n + 3 => exact Or.inl ((if_neg (show n + 3 ≠ 1 from nofun)).trans (hthree n))
  apply (hall x (reach_follow (twoTasks_init _) hx)).noLostWakeup
  refine ⟨hvalue, ?_, by rw [hwaiters]; nofun, ?_⟩
  · intro t hup
    rcases hthread t with hout | ⟨-, hagain⟩
    · rw [hout] at hup
      exact hup
    · rw [hagain] at hup
      exact hup
  · rintro t ⟨hretry, hmem⟩
    rw [hready, hcur] at hmem
    rcases hthread t with hout | ⟨rfl, -⟩
    · rw [hout] at hretry
      rcases hretry with hagain | htake
      · cases hagain
      · cases htake
    · rcases hmem with hmem | hmem
      · cases hmem
      · cases hmem

end

end ThreadSched.Mask
