import ThreadSched.Task.Events
import ThreadSched.Task.Partition
import ThreadSched.Timer.NeverEarly

/-!
# Sleepers are woken by the wheel

Every run of the scheduler is, for its timer manager, a run of the wheel: the handler's `run_timer`
is a sequence of ticks, putting a task to sleep is a `create_timer`, and nothing else touches the
wheel.  What was proved about the wheel then holds for the tasks that sleep.

* `Mirrors` — the run of the wheel that a run of the scheduler follows.
* `sleeper_not_early` — a sleeper whose delay is on time is not made ready before it has passed.
* `neverEarly_iff_onTime` — when a timer, and a sleeper, can be early.
-/

set_option autoImplicit false

namespace ThreadSched

open Wheel (TimerManager TimerNode tickWheel tickNodes OnTime)

/-- The runs whose clock readings are below `2^32 - 1`. -/
def clockRuns : Trans.Sys World where
  init w := ∃ addr stack j, j < 2 ^ 32 - 1 ∧ start addr stack j = .ok w
  step w w' := ∃ a : Action, a.enabled w ∧ (∀ r, a = .tick r → r < 2 ^ 32 - 1) ∧ w.act a = .ok w'

/-- Runs of the wheel whose callbacks do nothing. -/
abbrev WheelRun := Wheel.Run TimerFn Unit

def wheelSys : Trans.Sys WheelRun := Wheel.system fun _ _ => ()

/-- `x` is a run of the wheel `tm`, and every sleeper made ready is one of its calls. -/
structure Mirrors (x : WheelRun) (tm : TimerManager TimerFn) (s : Sched) : Prop where
  wheel : x.tm = tm
  exitFlag : tm.uExitFlag = 0
  calls : ∀ t node j, Event.ready t (.helper node j) ∈ s.log →
    ∃ a, (a, j) ∈ x.log.calls ∧ a.node = node

theorem Mirrors.quiet {x : WheelRun} {tm : TimerManager TimerFn} {s s' : Sched}
    {who : Option TaskId} (h : Mirrors x tm s) (hq : Quiet who s s') : Mirrors x tm s' :=
  ⟨h.wheel, h.exitFlag, fun t node j hm => h.calls t node j (hq.mem hm)⟩

/-- A round of the loop. -/
theorem Mirrors.runTick {x : WheelRun} {tm : TimerManager TimerFn} {s : Sched}
    (h : Mirrors x tm s) {r : Nat} (hr : r < 2 ^ 32 - 1) (hle : Wheel.TIME_AFTER_EQ r tm.uJiffies) :
    Returns (Wheel.runTick timerCall (tm, s)) fun w' =>
      ∃ x', wheelSys.Steps x x' ∧ x'.nodes = x.nodes ∧ Mirrors x' w'.1 w'.2 := by
  have hlog := Returns.foldlM (f := fun s n => timerCall n tm.uJiffies s)
    (I := fun l s' => (∀ n ∈ l, n ∈ tickNodes tm) ∧
      ∀ t node j, Event.ready t (.helper node j) ∈ s'.log → Event.ready t (.helper node j) ∈ s.log ∨
        (j = tm.uJiffies ∧ ∃ n ∈ tickNodes tm, n.node = node)) ?_ (tickNodes tm) s
    ⟨fun _ => id, fun _ _ _ => Or.inl⟩
  · rw [Wheel.runTick_eq]
    intro w' hw'
    cases hf : (tickNodes tm).foldlM (fun s n => timerCall n tm.uJiffies s) s with
    | error e => rw [hf] at hw'; cases hw'
    | ok s' =>
        rw [hf] at hw'
        cases hw'
        refine ⟨⟨tickWheel tm, Wheel.logWalk (fun _ _ => ()) tm.uJiffies (tickNodes tm) x.log,
          x.nodes⟩, (Trans.Sys.Steps.refl _ x).tail ?_, rfl, rfl, ?_, fun t node j hm => ?_⟩
        · refine Wheel.Step.tick r hr (by rw [h.wheel]; exact hle) ?_
          rw [h.wheel]
          exact Wheel.runTick_logCall _ _ _
        · exact (Wheel.tickWheel_uExitFlag tm).trans h.exitFlag
        · rcases (hlog s' hf).2 t node j hm with hold | ⟨rfl, n, hn, hnode⟩
          · obtain ⟨a, ha, hanode⟩ := h.calls t node j hold
            exact ⟨a, List.mem_append_left _ ha, hanode⟩
          · exact ⟨n.arming, List.mem_append_right _ (List.mem_map.2 ⟨n, hn, rfl⟩), hnode⟩
  · rintro n l s' ⟨hl, hev⟩
    refine (timerCall_called s' n tm.uJiffies).imp ?_
    rintro s'' ⟨⟨es, hes, hes'⟩, _, _⟩
    refine ⟨fun m hm => hl m (List.mem_cons_of_mem _ hm), fun t node j hm => ?_⟩
    rw [hes] at hm
    rcases List.mem_append.1 hm with hm | hm
    · exact hev t node j hm
    · obtain ⟨t', heq⟩ := hes' _ hm
      cases heq
      exact Or.inr ⟨rfl, n, hl n List.mem_cons_self, rfl⟩

theorem Mirrors.runTimerLoop {r : Nat} (hr : r < 2 ^ 32 - 1) (fuel : Nat) {x : WheelRun}
    {tm : TimerManager TimerFn} {s : Sched} (h : Mirrors x tm s) :
    Returns (Wheel.runTimerLoop timerCall .hang r fuel (tm, s)) fun w' =>
      ∃ x', wheelSys.Steps x x' ∧ x'.nodes = x.nodes ∧ Mirrors x' w'.1 w'.2 := by
  induction fuel generalizing x tm s with
  | zero => exact Returns.error
  | succ fuel ih =>
      refine Returns.ite (fun hle => ?_) fun _ => Returns.ok ⟨x, .refl _ x, rfl, h⟩
      refine (h.runTick hr hle).bind ?_
      rintro ⟨tm', s'⟩ ⟨x', hs, hn, h'⟩
      refine (ih h').imp ?_
      rintro w' ⟨x'', hs', hn', h''⟩
      exact ⟨x'', hs.trans hs', hn'.trans hn, h''⟩

/-- The run of the wheel that a state of the scheduler has followed. -/
structure Follows (x : WheelRun) (w : World) : Prop where
  mirrors : Mirrors x w.tm w.sched
  nodes : x.nodes = w.nodes

/-- The handler before the switch is a sequence of ticks. -/
theorem Follows.advance {x : WheelRun} {w : World} (h : Follows x w) {r : Nat}
    (hr : r < 2 ^ 32 - 1) : Returns (w.advance r) fun v =>
      ∃ y, wheelSys.Steps x y ∧ Follows y v := by
  refine Returns.ite (fun _ => Returns.error) fun _ => Returns.ite (fun _ => ?_) fun hne =>
    absurd h.mirrors.exitFlag hne
  refine (lockAcquireNow_quiet w.sched .timer).bind fun s hs => ?_
  refine Returns.bind ((h.mirrors.quiet hs).runTimerLoop hr _) ?_
  rintro ⟨tm, s'⟩ ⟨y, hy, hn, hm⟩
  exact (lockRelease_quiet s' .timer).bind fun s'' hs'' =>
    Returns.pure ⟨y, hy, hm.quiet hs'', hn.trans h.nodes⟩

/-- Putting the current task to sleep is a `create_timer`. -/
theorem Follows.createTimer {y : WheelRun} {v : World} (h : Follows y v) (timer : TimerFn)
    (d p : Nat) : Returns (v.createTimer timer d p) (Follows (y.create timer d p)) := by
  refine Returns.ite (fun _ => Returns.error) fun _ => ?_
  refine (lockAcquireNow_quiet v.sched .timer).bind fun s hs => ?_
  refine (lockRelease_quiet s .timer).bind fun s' hs' => Returns.pure ⟨⟨?_, ?_, ?_⟩, ?_⟩
  · rw [Wheel.Run.create_tm, h.mirrors.wheel, h.nodes]
    rfl
  · show (Wheel.createTimer _ _ _ _ _).uExitFlag = 0
    unfold Wheel.createTimer
    rw [Wheel.addTimer_uExitFlag]
    exact h.mirrors.exitFlag
  · intro t node j hm
    rw [Wheel.Run.create_calls]
    exact h.mirrors.calls t node j (hs.mem (hs'.mem hm))
  · rw [Wheel.Run.create_nodes, h.nodes]

/-- The end of the handler: a switch, or nothing the wheel sees. -/
theorem Follows.switch {x : WheelRun} {w : World} {who : Option TaskId} (h : Follows x w)
    {m : Except Fault Sched} (hm : Returns m (Quiet who w.sched)) :
    Returns (m >>= fun s => pure { w with sched := s }) (Follows x) :=
  hm.bind fun _ hs => Returns.pure ⟨h.mirrors.quiet hs, h.nodes⟩

/-- Every step of the scheduler is a run of the wheel. -/
theorem Follows.step {w w' : World} {x : WheelRun} (h : Follows x w) (hs : clockRuns.step w w') :
    ∃ x', wheelSys.Steps x x' ∧ Follows x' w' := by
  obtain ⟨a, _, hr, hact⟩ := hs
  have hother : (∀ milliseconds, a ≠ .sleep milliseconds) →
      w.act a = (schedAction w.sched a >>= fun s => pure { w with sched := s }) →
      ∃ x', wheelSys.Steps x x' ∧ Follows x' w' := fun ha heq =>
    ⟨x, .refl _ x, h.switch (schedAction_quiet w.sched ha) w' (heq ▸ hact)⟩
  cases a with
  | tick r =>
      have hret : Returns (interruptTimerHandler r w) fun w' =>
          ∃ x', wheelSys.Steps x x' ∧ Follows x' w' := by
        refine returns_assertThat fun _ => (h.advance (hr r rfl)).bind ?_
        rintro v ⟨y, hy, hv⟩
        refine Returns.ite (fun _ => ?_) fun _ => Returns.ite (fun _ => ?_) fun _ => ?_
        · exact (hv.switch (schedule_quiet v.sched)).imp fun w' hw' => ⟨y, hy, hw'⟩
        · exact Returns.pure ⟨y, hy, ⟨hv.mirrors.wheel, hv.mirrors.exitFlag, hv.mirrors.calls⟩, hv.nodes⟩
        · refine (hv.createTimer _ _ _).bind fun v' hv' => ?_
          refine (hv'.switch (collaborativeSchedule_quiet v'.sched)).imp fun w' hw' => ⟨_, ?_, hw'⟩
          exact hy.tail (Wheel.Step.create _ _ _)
      exact hret w' hact
  | sleep milliseconds =>
      cases hact
      exact ⟨x, .refl _ x, ⟨h.mirrors.wheel, h.mirrors.exitFlag, h.mirrors.calls⟩, h.nodes⟩
  | _ => exact hother nofun rfl

theorem Follows.init {w : World} (h : clockRuns.init w) :
    ∃ x, wheelSys.Reach x ∧ Follows x w := by
  obtain ⟨addr, stack, j, hj, hw⟩ := h
  rw [start_eq] at hw
  cases hw
  have hempty : Follows ⟨TimerManager.empty j, ⟨(), [], []⟩, 0⟩
      ⟨mainOnly addr stack, .empty j, false, 0⟩ := by
    refine ⟨⟨rfl, rfl, fun t node j hm => ?_⟩, rfl⟩
    simp [mainOnly, inited, tidPoolInit, boot] at hm
  have hreach : wheelSys.Reach ⟨TimerManager.empty j, ⟨(), [], []⟩, 0⟩ := .init ⟨j, (), hj, rfl⟩
  refine ⟨_, hreach.step (Wheel.Step.create .cleanDeadTask 150000 150000), ?_⟩
  exact hempty.createTimer .cleanDeadTask 150000 150000 _
    (createTimer_eq (w := ⟨mainOnly addr stack, .empty j, false, 0⟩) rfl (locks_boot .timer) _ _ _)

/-- **Refinement**: a reachable state of the scheduler has followed a run of the wheel. -/
theorem clockRuns_follows {w : World} (h : clockRuns.Reach w) :
    ∃ x, wheelSys.Reach x ∧ Follows x w := by
  induction h with
  | init h => exact Follows.init h
  | step _ ht ih =>
      obtain ⟨x, hx, hf⟩ := ih
      obtain ⟨x', hs, hf'⟩ := hf.step ht
      exact ⟨x', hx.steps hs, hf'⟩

/-- A clock interrupt with reading `r` puts the current task of `w` to sleep: `v` is the state after
`run_timer`, `w'` the one after the switch. -/
structure PutsToSleep (r : Nat) (w v w' : World) : Prop where
  reading : r < 2 ^ 32 - 1
  advance : w.advance r = .ok v
  asleep : v.sched.current.isCollaborativeSchedule = true
  handler : interruptTimerHandler r w = .ok w'

/-- The handler's call of `create_timer` for a task that sleeps. -/
theorem PutsToSleep.follows {r : Nat} {w v w' : World} (h : PutsToSleep r w v w') {x : WheelRun}
    (hx : Follows x w) : ∃ y, wheelSys.Steps x y ∧ Follows y v ∧
      Follows (y.create (.collaborativeScheduleHelper v.sched.currentTask)
        v.sched.current.sleepMillisecond 0) w' := by
  obtain ⟨y, hy, hv⟩ := hx.advance h.reading v h.advance
  refine ⟨y, hy, hv, ?_⟩
  have hret : Returns (interruptTimerHandler r w) (Follows (y.create
      (.collaborativeScheduleHelper v.sched.currentTask) v.sched.current.sleepMillisecond 0)) := by
    refine returns_assertThat fun _ => ?_
    rw [h.advance, ok_bind, if_neg (by simp [h.asleep]), if_neg (by simp [h.asleep])]
    exact (hv.createTimer _ _ _).bind fun v' hv' => hv'.switch (collaborativeSchedule_quiet v'.sched)
  exact hret w' h.handler

/-- **A sleeper whose delay is on time** is not made ready by its timer before the delay has passed,
in any continuation. -/
theorem sleeper_not_early {r : Nat} {w v w₁ w' : World} (h : clockRuns.Reach w)
    (hp : PutsToSleep r w v w₁)
    (hd : v.tm.uJiffies + v.sched.current.sleepMillisecond < 2 ^ 32)
    (hon : OnTime v.tm.uJiffies v.sched.current.sleepMillisecond)
    (hs : clockRuns.Steps w₁ w') {t j : Nat}
    (hm : Event.ready t (.helper v.nodes j) ∈ w'.sched.log) :
    v.tm.uJiffies + v.sched.current.sleepMillisecond ≤ j := by
  obtain ⟨x, hx, hf⟩ := clockRuns_follows h
  obtain ⟨y, hy, hv, hcreated⟩ := hp.follows hf
  obtain ⟨x', hs', hf'⟩ := Trans.Sys.simulates_steps (A := wheelSys)
    (R := fun w x => Follows x w) (fun _ _ _ hR hstep => Follows.step hR hstep) hcreated hs
  obtain ⟨a, ha, hnode⟩ := hf'.mirrors.calls t v.nodes j hm
  have hwheel := hv.mirrors.wheel
  rw [← hwheel] at hd hon ⊢
  exact Wheel.node_not_early (hx.steps hy) _ _ hd hon hs' ha (hnode.trans hv.nodes.symm)

/-- **Never early, exactly when.**  A `create_timer` call for a delay `d` at manager time `j`, with
`j + d` below `2^32`, is called before `j + d` in no continuation if and only if `OnTime j d`; and
then a task that the handler puts to sleep for `d` milliseconds at manager time `j` is not put on the
ready list by its timer before `j + d` either. -/
theorem neverEarly_iff_onTime {α σ : Type} {cb : α → σ → σ} {w : Wheel.Run α σ}
    (h : (Wheel.system cb).Reach w) (timer : α) (d p : Nat) (hd : w.tm.uJiffies + d < 2 ^ 32) :
    ((∀ w', (Wheel.system cb).Steps (w.create timer d p) w' →
      ∀ t, ((Wheel.newTimer w.tm w.nodes timer d p).arming, t) ∈ w'.log.calls →
        w.tm.uJiffies + d ≤ t) ↔ OnTime w.tm.uJiffies d) ∧
    (OnTime w.tm.uJiffies d → ∀ (r : Nat) (u v u₁ u' : World), clockRuns.Reach u →
      PutsToSleep r u v u₁ → v.tm.uJiffies = w.tm.uJiffies → v.sched.current.sleepMillisecond = d →
      clockRuns.Steps u₁ u' → ∀ t j, Event.ready t (.helper v.nodes j) ∈ u'.sched.log →
        w.tm.uJiffies + d ≤ j) := by
  refine ⟨Wheel.neverEarly_iff h timer d p hd, ?_⟩
  intro hon r u v u₁ u' hu hp hj hsleep hs t j hm
  rw [← hj, ← hsleep] at hd hon ⊢
  exact sleeper_not_early hu hp hd hon hs hm

/-- The wheel right after `timer_init` at clock `0`. -/
theorem reach_empty : (Wheel.system fun (_ : Unit) (s : Unit) => s).Reach
    ⟨TimerManager.empty 0, ⟨(), [], []⟩, 0⟩ :=
  .init ⟨0, (), by norm_num, rfl⟩

/-- A delay of 100 milliseconds is on time. -/
theorem neverEarly_delay_hundred : OnTime 0 100 ∧
    ∀ w', (Wheel.system fun (_ : Unit) (s : Unit) => s).Steps
        (Wheel.Run.create ⟨TimerManager.empty 0, ⟨(), [], []⟩, 0⟩ () 100 0) w' →
      ∀ t, ((Wheel.newTimer (TimerManager.empty 0) 0 () 100 0).arming, t) ∈ w'.log.calls →
        (TimerManager.empty 0 : TimerManager Unit).uJiffies + 100 ≤ t := by
  have hon : OnTime 0 100 := by norm_num [OnTime]
  exact ⟨hon, (neverEarly_iff_onTime reach_empty () 100 0 (by norm_num [TimerManager.empty])).1.2 hon⟩

/-- `sleep(1)`: a delay of 1000 milliseconds armed at clock `0` is called early. -/
theorem sleep_one_second_early : ¬ ∀ w', (Wheel.system fun (_ : Unit) (s : Unit) => s).Steps
      (Wheel.Run.create ⟨TimerManager.empty 0, ⟨(), [], []⟩, 0⟩ () 1000 0) w' →
    ∀ t, ((Wheel.newTimer (TimerManager.empty 0) 0 () 1000 0).arming, t) ∈ w'.log.calls →
      (TimerManager.empty 0 : TimerManager Unit).uJiffies + 1000 ≤ t := by
  intro hnever
  have hon := (Wheel.neverEarly_iff reach_empty () 1000 0 (by norm_num [TimerManager.empty])).1 hnever
  norm_num [OnTime] at hon

end ThreadSched
