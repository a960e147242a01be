import ThreadSched.Lib.Trans
import ThreadSched.Task.Task

/-!
# The clock interrupt (`interrupt/timer.c`, `User_Schedule` tree)

`interrupt_timer_handler` with `run_timer` and the two timer callbacks of the program.  A `World` is
the scheduler with its timer manager; `nodes` timer nodes have been allocated.
-/

set_option autoImplicit false

namespace ThreadSched

open Wheel (TimerManager TimerNode createTimer runTimer)

/-- `timerFn` and `pParam`. -/
inductive TimerFn
  | collaborativeScheduleHelper (task : TaskId)
  | cleanDeadTask
  deriving DecidableEq, Repr

structure World where
  sched : Sched
  tm : TimerManager TimerFn
  freed : Bool
  nodes : Nat

/-- `collaborative_schedule_helper`, called for timer node `node` in tick `j`. -/
def collaborativeScheduleHelper (task : TaskId) (node j : Nat) (s : Sched) : Except Fault Sched := do
  assertThat (¬ elemFind s.taskReadyList task)
  let s := { s with taskReadyList := listAppend s.taskReadyList task }.emit
    (.ready task (.helper node j))
  pure (s.modTask task fun ptask => { ptask with
    ticks := ptask.priority
    status := .READY
    isCollaborativeSchedule := false
    sleepMillisecond := 0 })

/-- `pTmr->timerFn(pTmr->pParam)`. -/
def timerCall (pTmr : TimerNode TimerFn) (j : Nat) (s : Sched) : Except Fault Sched :=
  match pTmr.timer with
  | .collaborativeScheduleHelper task => collaborativeScheduleHelper task pTmr.node j s
  | .cleanDeadTask => cleanDeadTask s

/-- `run_timer` for the clock reading `uJiffies`, with its lock. -/
def World.runTimer (uJiffies : Nat) (w : World) : Except Fault World := do
  let s ← lockAcquireNow .timer w.sched
  let (tm, s) ← Wheel.runTimer timerCall .hang uJiffies (w.tm, s)
  let s ← lockRelease .timer s
  pure { w with sched := s, tm := tm }

/-- `create_timer`, with its lock. -/
def World.createTimer (timer : TimerFn) (uDueTime uPeriod : Nat) (w : World) :
    Except Fault World :=
  if w.freed then .error .useAfterFree
  else do
    let s ← lockAcquireNow .timer w.sched
    let tm := Wheel.createTimer w.tm w.nodes timer uDueTime uPeriod
    let s ← lockRelease .timer s
    pure { w with sched := s, tm := tm, nodes := w.nodes + 1 }

/-- `timer_init` at the clock reading `uJiffies`. -/
def timerInit (uJiffies : Nat) (s : Sched) : Except Fault World :=
  World.createTimer .cleanDeadTask 150000 150000
    ⟨{ s with locks := Function.update s.locks .timer lockInit }, .empty uJiffies, false, 0⟩

/-- `destroy_timer_manager`.  `timer_manager` keeps pointing to the freed manager. -/
def destroyTimerManager (w : World) : World :=
  { w with tm := { w.tm with uExitFlag := 1, arrListTimer := fun _ => [] }, freed := true }

/-- The part of `interrupt_timer_handler` before the switch. -/
def World.advance (uJiffies : Nat) (w : World) : Except Fault World :=
  if w.freed then .error .useAfterFree
  else if w.tm.uExitFlag = 0 then w.runTimer uJiffies
  else .ok (destroyTimerManager w)

/-- `current_task->ticks--`. -/
def Sched.countDown (s : Sched) : Sched :=
  s.modTask s.currentTask fun task => { task with ticks := u8 ((task.ticks : Int) - 1) }

/-- `interrupt_timer_handler`, in which `get_jiffies` reads `uJiffies`. -/
def interruptTimerHandler (uJiffies : Nat) (w : World) : Except Fault World := do
  assertThat (w.sched.current.stackMagic = stackMagic)
  let w ← w.advance uJiffies
  if w.sched.current.isCollaborativeSchedule = false ∧ w.sched.current.ticks = 0 then do
    let s ← schedule w.sched
    pure { w with sched := s }
  else if w.sched.current.isCollaborativeSchedule = false then
    pure { w with sched := w.sched.countDown }
  else do
    let w ← w.createTimer (.collaborativeScheduleHelper w.sched.currentTask)
      w.sched.current.sleepMillisecond 0
    let s ← collaborativeSchedule w.sched
    pure { w with sched := s }

/-! ## Runs -/

/-- What the current task does next, or that the clock interrupts it. -/
inductive Action
  /-- `task_start`, with the addresses `malloc` returns for the struct and the stack. -/
  | taskStart (addr stack : Nat) (prio : Int)
  /-- `task_exit(current_task)`. -/
  | taskExit
  /-- `lock_acquire` of a user lock. -/
  | lockAcquire (plock : Nat)
  | lockRelease (plock : Nat)
  | ioqGetchar (ioq : IoqId)
  | ioqPutchar (ioq : IoqId) (byte : BitVec 8)
  /-- The task marks itself asleep and spins. -/
  | sleep (milliseconds : Nat)
  /-- The current task goes on with the call it is in. -/
  | resume
  /-- `interrupt_timer_handler`, with the clock reading. -/
  | tick (uJiffies : Nat)

/-- When an action can happen: a task that is in a call goes on with it, `malloc` returns an address
that is not in use, and `unsigned int` and `uint32_t` have 32 bits. -/
def Action.enabled (w : World) : Action → Prop
  | .taskStart addr stack _ =>
    w.sched.conts w.sched.currentTask = [] ∧ w.sched.allocated addr = false ∧
      w.sched.stackAllocated stack = false
  | .sleep milliseconds => w.sched.conts w.sched.currentTask = [] ∧ milliseconds < 2 ^ 32
  | .resume => w.sched.conts w.sched.currentTask ≠ []
  | .tick uJiffies => uJiffies < 2 ^ 32
  | _ => w.sched.conts w.sched.currentTask = []

/-- `sleep`, `usleep` and `nanosleep` of a task that is hooked: the marks they leave for the handler,
and the loop that waits until it has cleared them. -/
def markAsleep (milliseconds : Nat) (s : Sched) : Sched :=
  (s.modTask s.currentTask fun task => { task with
    isCollaborativeSchedule := true
    sleepMillisecond := milliseconds }).push s.currentTask [.sleepSpin]

/-- An action of the current task. -/
def schedAction (s : Sched) : Action → Except Fault Sched
  | .taskStart addr stack prio => taskStart addr stack prio s
  | .taskExit => taskExit s.currentTask s
  | .lockAcquire l => pure (s.push s.currentTask [.lockAcquire (.user l)])
  | .lockRelease l => pure (s.push s.currentTask [.lockRelease (.user l)])
  | .ioqGetchar q => pure (s.push s.currentTask [.ioqGetchar q])
  | .ioqPutchar q byte => pure (s.push s.currentTask [.ioqPutchar q byte])
  | .sleep milliseconds => pure (markAsleep milliseconds s)
  | .resume => (runStmt s).getD (pure s)
  | .tick _ => pure s

/-- One action. -/
def World.act (w : World) : Action → Except Fault World
  | .tick uJiffies => interruptTimerHandler uJiffies w
  | a => do
    let s ← schedAction w.sched a
    pure { w with sched := s }

/-- The current task executes one of the `while(1)` loops outside the handler. -/
def Sched.Looping (s : Sched) : Prop := (s.conts s.currentTask).head? = some .loop

/-- The state after `task_init` and `timer_init`. -/
def start (addr stack uJiffies : Nat) : Except Fault World := do
  let s ← taskInit addr stack boot
  timerInit uJiffies s

/-- One action that does not end the run. -/
def World.Step (w w' : World) : Prop := ∃ a : Action, a.enabled w ∧ w.act a = .ok w'

def World.Init (w : World) : Prop :=
  ∃ addr stack uJiffies, uJiffies < 2 ^ 32 ∧ start addr stack uJiffies = .ok w

/-- All runs. -/
def allRuns : Trans.Sys World := ⟨World.Init, World.Step⟩

/-- The runs in which every operation that has to switch away finds a ready task. -/
def busyRuns : Trans.Sys World :=
  ⟨World.Init, fun w w' => w.Step w' ∧ ¬ w'.sched.Looping⟩

theorem busyRuns_all {w : World} (h : busyRuns.Reach w) : allRuns.Reach w := by
  induction h with
  | init h => exact .init h
  | step _ ht ih => exact ih.step ht.1

/-- The next state of a run that is evaluated, with what is needed to know of it. -/
theorem exists_next {α : Type} {x : Except Fault World} {w : World} (hx : x = .ok w) {a : Action}
    {f : World → α} {b : α} (h : (x >>= fun w => w.act a).map f = .ok b) :
    ∃ w', w.act a = .ok w' ∧ (x >>= fun w => w.act a) = .ok w' ∧ f w' = b := by
  subst hx
  change (w.act a).map f = .ok b at h
  cases hact : w.act a with
  | error e => rw [hact] at h; cases h
  | ok w' =>
      rw [hact] at h
      exact ⟨w', rfl, hact, Except.ok.inj h⟩

instance (w : World) : (a : Action) → Decidable (a.enabled w)
  | .taskStart _ _ _ => inferInstanceAs (Decidable (_ ∧ _ ∧ _))
  | .sleep _ => inferInstanceAs (Decidable (_ ∧ _))
  | .resume => inferInstanceAs (Decidable (_ ≠ _))
  | .tick _ => inferInstanceAs (Decidable (_ < _))
  | .taskExit => inferInstanceAs (Decidable (_ = _))
  | .lockAcquire _ => inferInstanceAs (Decidable (_ = _))
  | .lockRelease _ => inferInstanceAs (Decidable (_ = _))
  | .ioqGetchar _ => inferInstanceAs (Decidable (_ = _))
  | .ioqPutchar _ _ => inferInstanceAs (Decidable (_ = _))

instance (s : Sched) : Decidable s.Looping := inferInstanceAs (Decidable (_ = _))

/-- The state after an action, if that can happen in it and `P` holds of the two states. -/
def World.next (P : World → Action → World → Prop) [∀ w a w', Decidable (P w a w')] (w : World)
    (a : Action) : Option World :=
  match w.act a with
  | .ok w' => if a.enabled w ∧ P w a w' then some w' else none
  | .error _ => none

theorem World.next_eq_some {P : World → Action → World → Prop} [∀ w a w', Decidable (P w a w')]
    {w w' : World} {a : Action} (h : w.next P a = some w') :
    w.act a = .ok w' ∧ a.enabled w ∧ P w a w' := by
  unfold World.next at h
  cases hact : w.act a with
  | error e =>
      rw [hact] at h
      cases h
  | ok v =>
      rw [hact] at h
      obtain ⟨hc, heq⟩ := Option.ite_none_right_eq_some.1 h
      cases heq
      exact ⟨rfl, hc⟩

/-- An action that does not end in an idle loop. -/
abbrev World.nextBusy : World → Action → Option World := World.next fun _ _ w' => ¬ w'.sched.Looping

theorem busyRuns_nextBusy (w : World) (a : Action) (w' : World) (h : w.nextBusy a = some w') :
    busyRuns.step w w' := by
  obtain ⟨hact, henabled, hloop⟩ := World.next_eq_some h
  exact ⟨⟨a, henabled, hact⟩, hloop⟩

/-- A run that is evaluated, with what is needed to know of its last state. -/
theorem exists_reach {M : Trans.Sys World} {next : World → Action → Option World}
    (hinit : ∀ w, World.Init w → M.init w) (hnext : ∀ w a w', next w a = some w' → M.step w w')
    {α : Type} {addr stack j : Nat} {as : List Action} {f : World → α} {b : α} (hj : j < 2 ^ 32)
    (h : ((start addr stack j).toOption.bind fun w => as.foldlM next w).map f = some b) :
    ∃ w, M.Reach w ∧ f w = b := by
  cases hs : start addr stack j with
  | error e =>
      rw [hs] at h
      cases h
  | ok v =>
      rw [hs] at h
      obtain ⟨w, hw, hb⟩ := Option.map_eq_some_iff.1 h
      have hv : M.Reach v := .init (hinit v ⟨addr, stack, j, hj, hs⟩)
      exact ⟨w, hv.foldlM hnext hw, hb⟩

end ThreadSched
