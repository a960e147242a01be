import ThreadSched.Lib.Rotation
import ThreadSched.Task.Turns

/-!
# Tasks that only compute share the processor by their priorities

From a state in which nobody sleeps, the current task and the ready ones compute and the handler is called
again and again.

* `Sched.circle` — the current task, the ready ones behind it, and their ticks;
* `Computing.handler` — a call of the handler is a step of this turntable;
* `round_robin` — each task is interrupted in `priority + 1` calls in a row, in the order of the ready list,
  round after round.
-/

set_option autoImplicit false

namespace ThreadSched

open Rotation

def Sched.circle (s : Sched) : Turntable TaskId :=
  ⟨s.currentTask :: s.taskReadyList, fun t => (s.tasks t).ticks⟩

/-- What `schedule` refills. -/
def Sched.quantum (s : Sched) (t : TaskId) : Nat := (s.tasks t).priority

/-- The task each call of the handler interrupts. -/
def currents : List Nat → World → List TaskId
  | [], _ => []
  | r :: rs, w => w.sched.currentTask ::
    match interruptTimerHandler r w with
    | .ok v => currents rs v
    | .error _ => []

/-- The current task and the ready ones compute, and nobody sleeps. -/
structure Computing (w : World) : Prop where
  orderly : Orderly w
  awake : ∀ t ∈ w.sched.taskAllList, (w.sched.tasks t).status = .RUNNING → t = w.sched.currentTask
  compute : ∀ t ∈ w.sched.circle.ring, (w.sched.tasks t).isCollaborativeSchedule = false

/-- What the timers leave alone when nobody sleeps. -/
structure SameTasks (s s' : Sched) : Prop where
  tasks : s'.tasks = s.tasks
  roster : s'.roster = s.roster
  conts : s'.conts = s.conts

/-- What a call of the handler makes of the tasks. -/
structure Served (s s' : Sched) : Prop where
  circle : s'.circle = s.circle.step s.quantum
  quantum : s'.quantum = s.quantum
  all : s'.taskAllList = s.taskAllList
  conts : s'.conts = s.conts
  collaborative : ∀ t, (s'.tasks t).isCollaborativeSchedule = (s.tasks t).isCollaborativeSchedule
  awake : ∀ t, (s'.tasks t).status = .RUNNING → t = s'.currentTask ∨
    t ≠ s.currentTask ∧ (s.tasks t).status = .RUNNING

section

variable {w u : World} {m s s' : Sched} {r k : Nat} {rs : List Nat}

/-! ## The timers -/

theorem SameTasks.refl (s : Sched) : SameTasks s s := ⟨rfl, rfl, rfl⟩

theorem SameTasks.trans (h : SameTasks s m) (h' : SameTasks m s') : SameTasks s s' :=
  ⟨h'.tasks.trans h.tasks, h'.roster.trans h.roster, h'.conts.trans h.conts⟩

/-- No helper is called: there is no sleeper. -/
theorem Computing.kept (h : Computing w) : KeptByCallbacks (SameTasks w.sched) := by
  rintro n M j s ⟨pl, hf, hcur⟩ hs
  unfold timerCall
  cases hn : n.timer with
  | collaborativeScheduleHelper t =>
      have hp : helpers (n.timer ::ₘ M) t ≠ 0 := by
        rw [hn, helpers_cons]
        simp
      have hasleep : pl t = some .asleep := by
        by_contra hne
        exact hp (by simpa [hne] using (hf.fits t).pending)
      have hmem : t ∈ s.roster.live := hf.mem_all hasleep (by simp)
      have hstatus : (s.tasks t).status = .RUNNING := (hf.fits t).status _ hasleep
      rw [hs.roster] at hmem
      rw [hs.tasks] at hstatus
      have hcurrent : s.currentTask = t :=
        (congrArg Roster.current hs.roster).trans (h.awake t hmem hstatus).symm
      rw [hcurrent, hasleep] at hcur
      cases hcur
  | cleanDeadTask =>
      refine (cleanDeadTask_freed s).imp ?_
      rintro s' ⟨pool, stackMem, structMem, rfl⟩
      exact hs.trans ⟨rfl, rfl, rfl⟩

theorem Computing.advance (h : Computing w) (r : Nat) :
    Returns (w.advance r) fun v => Sliced v.sched ∧ SameTasks w.sched v.sched :=
  have hsame := h.orderly.inv.advance_with h.kept (fun _ _ hs => ⟨hs.tasks, hs.roster, hs.conts⟩)
    (SameTasks.refl _) r
  ((sliced_kept.advance h.orderly.slices h.orderly.inv.tame r).and hsame).imp fun _ hv => ⟨hv.1, hv.2.2⟩

/-! ## The switch -/

theorem SameTasks.served (h : SameTasks s m) (hs : Served m s') : Served s s' := by
  have hcurrent : m.currentTask = s.currentTask := congrArg Roster.current h.roster
  have hready : m.taskReadyList = s.taskReadyList := congrArg Roster.queue h.roster
  have hquantum : m.quantum = s.quantum := by
    unfold Sched.quantum
    rw [h.tasks]
  have hcircle : m.circle = s.circle := by
    unfold Sched.circle
    rw [h.tasks, hcurrent, hready]
  refine ⟨?_, hs.quantum.trans hquantum, hs.all.trans (congrArg Roster.live h.roster), hs.conts.trans h.conts,
    fun t => ?_, fun t ht => ?_⟩
  · rw [hs.circle, hcircle, hquantum]
  · rw [hs.collaborative, h.tasks]
  · rw [← hcurrent, ← h.tasks]
    exact hs.awake t ht

/-- A field that an update of one task keeps. -/
theorem modTask_field {β : Type} (field : TaskStruct → β) (s : Sched) (x : TaskId)
    {f : TaskStruct → TaskStruct} (hf : field (f (s.tasks x)) = field (s.tasks x)) (t : TaskId) :
    field ((s.modTask x f).tasks t) = field (s.tasks t) := by
  unfold Sched.modTask
  by_cases ht : t = x
  · subst ht
    simpa using hf
  · simp [Function.update_of_ne ht]

/-- The fields that the dispatch does not set. -/
theorem dispatched_field {β : Type} (field : TaskStruct → β)
    (hf : ∀ task status, field { task with status := status } = field task) (s : Sched) (x t : TaskId) :
    field ((s.modTask x fun task => { task with status := .RUNNING }).tasks t) = field (s.tasks t) :=
  modTask_field field s x (hf _ _) t

/-- The fields that the way back to the ready list does not set. -/
theorem refilled_field {β : Type} (field : TaskStruct → β)
    (hf : ∀ task ticks status, field { task with ticks := ticks, status := status } = field task)
    (s : Sched) (x t : TaskId) :
    field ((s.modTask x fun task => { task with ticks := task.priority, status := .READY }).tasks t) =
      field (s.tasks t) :=
  modTask_field field s x (hf _ _ _) t

theorem refilled_running {x t : TaskId}
    (h : ((s.modTask x fun task => { task with ticks := task.priority, status := .READY }).tasks t).status =
      .RUNNING) : t ≠ x ∧ (s.tasks t).status = .RUNNING := by
  have hne : t ≠ x := by
    rintro rfl
    simp [Sched.modTask] at h
  refine ⟨hne, ?_⟩
  simpa [Sched.modTask, Function.update_of_ne hne] using h

/-- The current task has no ticks left. -/
theorem schedule_served (h : s.current.ticks = 0) : Returns (schedule s) (Served s) := by
  refine returns_assertThat fun hnot => Returns.ite (fun _ => Returns.error) fun _ => ?_
  unfold getNextTask
  obtain ⟨x, rest, hready⟩ : ∃ x rest, listAppend s.taskReadyList s.currentTask = x :: rest :=
    List.exists_cons_of_ne_nil (by simp)
  rw [show (Sched.emit _ _).taskReadyList = listAppend s.taskReadyList s.currentTask from rfl, hready]
  have hstep : s.circle.step s.quantum = ⟨x :: rest,
      Function.update (fun t => (s.tasks t).ticks) s.currentTask (s.quantum s.currentTask)⟩ := by
    rw [← hready]
    exact if_pos h
  refine Returns.pure ⟨?_, ?_, rfl, rfl, fun t => ?_, fun t ht => ?_⟩
  · rw [hstep]
    refine Turntable.ext rfl (funext fun t => (dispatched_field TaskStruct.ticks (fun _ _ => rfl) _ _ t).trans ?_)
    show ((Function.update s.tasks s.currentTask _) t).ticks =
      Function.update (fun t => (s.tasks t).ticks) s.currentTask (s.quantum s.currentTask) t
    by_cases ht : t = s.currentTask
    · subst ht
      rw [Function.update_self, Function.update_self]
      rfl
    · rw [Function.update_of_ne ht, Function.update_of_ne ht]
  · funext t
    exact (dispatched_field TaskStruct.priority (fun _ _ => rfl) _ _ t).trans
      (refilled_field TaskStruct.priority (fun _ _ _ => rfl) _ _ t)
  · exact (dispatched_field TaskStruct.isCollaborativeSchedule (fun _ _ => rfl) _ _ t).trans
      (refilled_field TaskStruct.isCollaborativeSchedule (fun _ _ _ => rfl) _ _ t)
  · by_cases htx : t = x
    · exact .inl htx
    · refine .inr (refilled_running ?_)
      rw [← ht]
      show _ = ((Function.update (Function.update s.tasks s.currentTask _) x _) t).status
      rw [Function.update_of_ne htx]
      rfl

/-- The current task has ticks left. -/
theorem countDown_served (h : Sliced s) (hpos : s.current.ticks ≠ 0) : Served s s.countDown := by
  have hstep : s.circle.step s.quantum = ⟨s.currentTask :: s.taskReadyList,
      Function.update (fun t => (s.tasks t).ticks) s.currentTask (s.current.ticks - 1)⟩ := if_neg hpos
  have hticks := countDown_ticks h hpos
  refine ⟨?_, ?_, rfl, rfl, fun t => ?_, fun t ht => ?_⟩
  · rw [hstep]
    refine Turntable.ext rfl (funext fun t => ?_)
    show (s.countDown.tasks t).ticks =
      Function.update (fun t => (s.tasks t).ticks) s.currentTask (s.current.ticks - 1) t
    by_cases ht : t = s.currentTask
    · subst ht
      rw [Function.update_self]
      show s.countDown.current.ticks = _
      omega
    · rw [Function.update_of_ne ht]
      show ((Function.update s.tasks s.currentTask _) t).ticks = _
      rw [Function.update_of_ne ht]
  · funext t
    exact modTask_field TaskStruct.priority _ s.currentTask rfl t
  · exact modTask_field TaskStruct.isCollaborativeSchedule _ s.currentTask rfl t
  · by_cases htc : t = s.currentTask
    · exact .inl htc
    · have hsame : (s.countDown.tasks t).status = (s.tasks t).status :=
        modTask_field TaskStruct.status _ s.currentTask rfl t
      exact .inr ⟨htc, hsame ▸ ht⟩

/-- **A call of the handler** is a step of the turntable. -/
theorem Computing.handler (h : Computing w) (hr : r < 2 ^ 32) :
    Returns (interruptTimerHandler r w) fun u => Computing u ∧ Served w.sched u.sched := by
  have hserved : Returns (interruptTimerHandler r w) fun u => Served w.sched u.sched := by
    refine returns_assertThat fun _ => (h.advance r).bind ?_
    rintro v ⟨hsl, hv⟩
    have hcompute : v.sched.current.isCollaborativeSchedule = false := by
      have hcur : v.sched.currentTask = w.sched.currentTask := congrArg Roster.current hv.roster
      rw [Sched.current, hv.tasks, hcur]
      exact h.compute _ List.mem_cons_self
    refine Returns.ite (fun hzero => ?_) fun hnz => Returns.ite (fun _ => Returns.pure ?_)
      fun hc => absurd hcompute hc
    · have hswitch : Returns (schedule v.sched) (Served w.sched) :=
        (schedule_served hzero.2).imp fun _ => hv.served
      exact hswitch.bind fun s' hs' => Returns.pure hs'
    · exact hv.served (countDown_served hsl fun hz => hnz ⟨hcompute, hz⟩)
  intro u hu
  have hs := hserved u hu
  have hloop : NoLoop u.sched := fun t => by
    rw [hs.conts]
    exact h.orderly.loops t
  have hinv : WorldInv u := (h.orderly.inv.act (a := .tick r) hr u hu).resolve_left hloop.not_looping
  have hmem : ∀ t, t ∈ u.sched.circle.ring → t ∈ w.sched.circle.ring := by
    intro t ht
    rw [hs.circle] at ht
    exact Turntable.mem_step.1 ht
  refine ⟨⟨⟨hinv, h.orderly.slices.act h.orderly.inv.tame (.tick r) u hu, hloop⟩, fun t ht hrun => ?_,
    fun t ht => ?_⟩, hs⟩
  · rcases hs.awake t hrun with hcur | ⟨hne, hrun'⟩
    · exact hcur
    · exact absurd (h.awake t (hs.all ▸ ht) hrun') hne
  · rw [hs.collaborative]
    exact h.compute t (hmem t ht)

/-! ## Runs of the handler -/

/-- A call returns when `run_timer` does. -/
theorem Computing.returns (h : Computing w) (hall : allRuns.Reach w) (hm : ∃ m, w.runTimer r = .ok m) :
    ∃ v, interruptTimerHandler r w = .ok v := by
  obtain ⟨hmagic, hmanaged⟩ := allRuns_magic hall
  obtain ⟨m, hm⟩ := hm
  have hsame : SameTasks w.sched m.sched := (h.advance r m ((hmanaged.advance r).trans hm)).2
  have hcompute : m.sched.current.isCollaborativeSchedule = false := by
    have hcur : m.sched.currentTask = w.sched.currentTask := congrArg Roster.current hsame.roster
    rw [Sched.current, hsame.tasks, hcur]
    exact h.compute _ List.mem_cons_self
  obtain ⟨v, hv, -⟩ := handler_serves h.orderly.inv hmagic hmanaged hm fun hflag => by
    rw [hcompute] at hflag
    cases hflag
  exact ⟨v, hv⟩

/-- Any number of calls. -/
theorem Computing.handlerRun (h : Computing w) (hall : allRuns.Reach w) (hr : ∀ r ∈ rs, r < 2 ^ 32)
    (htimers : TimersReturn rs w) :
    ∃ u, ThreadSched.handlerRun rs w = .ok u ∧
      u.sched.circle = (Turntable.step w.sched.quantum)^[rs.length] w.sched.circle ∧
        u.sched.quantum = w.sched.quantum ∧
          currents rs w = Turntable.served w.sched.quantum rs.length w.sched.circle := by
  induction rs generalizing w with
  | nil => exact ⟨w, rfl, rfl, rfl, rfl⟩
  | cons r rs ih =>
      have hr₀ : r < 2 ^ 32 := hr r List.mem_cons_self
      obtain ⟨v, hv⟩ := h.returns hall htimers.1
      obtain ⟨hcv, hs⟩ := h.handler hr₀ v hv
      obtain ⟨u, hu, hcircle, hquantum, hcurrents⟩ := ih hcv (hall.step ⟨.tick r, hr₀, hv⟩)
        (fun r' hr' => hr r' (List.mem_cons_of_mem _ hr')) (htimers.2 v hv)
      rw [hs.circle, hs.quantum] at hcircle hcurrents
      refine ⟨u, ?_, hcircle, hquantum.trans hs.quantum, ?_⟩
      · unfold ThreadSched.handlerRun
        rw [List.foldlM_cons, hv]
        exact hu
      · rw [currents, hv]
        exact congrArg (w.sched.currentTask :: ·) hcurrents

theorem Filed.ready_nodup {p : TaskId → Nat} {pl : TaskId → Option Place} (h : Filed p pl s) :
    s.taskReadyList.Nodup := by
  rw [List.nodup_iff_count_le_one]
  intro t
  have hready : s.taskReadyList.count t = if pl t = some .ready then 1 else 0 := (h.fits t).ready
  rw [hready]
  split <;> omega

/-- What the situations say. -/
theorem computing_of_reach (h : busyRuns.Reach w)
    (hawake : ∀ t ∈ w.sched.taskAllList, ¬ InSituation w t .asleep)
    (hcompute : ∀ t ∈ w.sched.currentTask :: w.sched.taskReadyList,
      (w.sched.tasks t).isCollaborativeSchedule = false) : Computing w := by
  have horderly := busyRuns_orderly h
  refine ⟨horderly, fun t ht hrun => ?_, hcompute⟩
  obtain ⟨pl, hf, hcur⟩ := horderly.inv.running
  have hall := (hf.fits t).all
  have hcount : 0 < (w.sched.obs t).all := List.count_pos_iff.2 ht
  cases hx : pl t with
  | none =>
      rw [hx] at hall
      simp at hall
      omega
  | some x =>
      have hsit := hf.inSituation hcur hx
      have hstatus : (w.sched.tasks t).status = x.status := (hf.fits t).status x hx
      rw [hrun] at hstatus
      cases x with
      | current => exact hf.cur t hx
      | asleep => exact absurd hsit (hawake t ht)
      | ready => cases hstatus
      | waiting l => cases hstatus
      | ioWaiting q b => cases hstatus
      | exited => cases hstatus

/-- **Round robin.**  From any state of a run in which nobody sleeps and the current task and the ready ones
compute, as many calls of the handler as use up their ticks and then `k` rounds, in which `run_timer` returns,
return as well.  They interrupt the current task and then the ready ones in their order, each in as many calls
in a row as it had ticks and one more, and then in each round in `priority + 1` calls in a row; and the order
is as it was. -/
theorem round_robin (h : busyRuns.Reach w) (hawake : ∀ t ∈ w.sched.taskAllList, ¬ InSituation w t .asleep)
    (hcompute : ∀ t ∈ w.sched.currentTask :: w.sched.taskReadyList,
      (w.sched.tasks t).isCollaborativeSchedule = false)
    (hr : ∀ r ∈ rs, r < 2 ^ 32)
    (hlen : rs.length =
      Turntable.cost (w.sched.currentTask :: w.sched.taskReadyList) (fun t => (w.sched.tasks t).ticks) +
      k * Turntable.cost (w.sched.currentTask :: w.sched.taskReadyList) w.sched.quantum)
    (htimers : TimersReturn rs w) :
    ∃ u, handlerRun rs w = .ok u ∧
      currents rs w =
        Turntable.shares (w.sched.currentTask :: w.sched.taskReadyList) (fun t => (w.sched.tasks t).ticks) ++
          (List.replicate k
            (Turntable.shares (w.sched.currentTask :: w.sched.taskReadyList) w.sched.quantum)).flatten ∧
      u.sched.currentTask = w.sched.currentTask ∧ u.sched.taskReadyList = w.sched.taskReadyList ∧
        ∀ t ∈ w.sched.currentTask :: w.sched.taskReadyList, (u.sched.tasks t).ticks = w.sched.quantum t := by
  have hcomputing := computing_of_reach h hawake hcompute
  obtain ⟨u, hu, hcircle, -, hcurrents⟩ := hcomputing.handlerRun (busyRuns_all h) hr htimers
  have hnodup : w.sched.circle.ring.Nodup := by
    obtain ⟨pl, hf, hcur⟩ := hcomputing.orderly.inv.running
    exact List.nodup_cons.2 ⟨hf.current_not_ready hcur, hf.ready_nodup⟩
  obtain ⟨hend, hserved⟩ := Turntable.rounds w.sched.quantum hnodup k
  have hlen' : rs.length = Turntable.cost w.sched.circle.ring w.sched.circle.left +
    k * Turntable.cost w.sched.circle.ring w.sched.quantum := hlen
  rw [hlen', hend] at hcircle
  rw [hlen', hserved] at hcurrents
  have hring : u.sched.currentTask :: u.sched.taskReadyList = w.sched.currentTask :: w.sched.taskReadyList :=
    congrArg Turntable.ring hcircle
  rw [List.cons.injEq] at hring
  refine ⟨u, hu, hcurrents, hring.1, hring.2, fun t ht => ?_⟩
  have hticks := congrFun (congrArg Turntable.left hcircle) t
  exact hticks.trans (if_pos ht)

end

/-- What two computing tasks, the first with three ticks, are like, and that the handler can be called. -/
def TwoComputing (w : World) : Prop :=
  (w.sched.currentTask = 1 ∧ w.sched.taskReadyList = [3] ∧ w.sched.taskAllList = [1, 3]) ∧
  ((w.sched.tasks 3).status = .READY ∧ ∀ t ∈ [1, 3], (w.sched.tasks t).isCollaborativeSchedule = false) ∧
  (w.sched.tasks 1).ticks = 3 ∧ (w.sched.tasks 3).ticks = 0 ∧
  (w.sched.tasks 1).priority = 3 ∧ (w.sched.tasks 3).priority = 0 ∧
  (handlerRun (List.replicate 10 0) w).isOk = true

instance (w : World) : Decidable (TwoComputing w) := inferInstanceAs (Decidable (_ ∧ _))

/-- The main task, with priority 3, and a task of priority 0. -/
theorem round_robin_two : ∃ w, busyRuns.Reach w ∧
    currents (List.replicate 10 0) w = [1, 1, 1, 1, 3, 1, 1, 1, 1, 3] := by
  have hinit : World.Init _ := ⟨1, 2, 0, by norm_num, start_eq 1 2 0⟩
  obtain ⟨w, hact, _, he⟩ := exists_next (start_eq 1 2 0) (a := .taskStart 3 4 0)
    (f := fun w => (w.sched.conts w.sched.currentTask, decide (TwoComputing w))) (b := ([], true))
    (by decide +kernel)
  rw [Prod.mk.injEq] at he
  obtain ⟨⟨hcur, hready, hall⟩, ⟨hstatus, hcompute⟩, hticks, hticks', hprio, hprio', hok⟩ :=
    of_decide_eq_true he.2
  have hreach : busyRuns.Reach w := (Trans.Sys.Reach.init hinit).step
    ⟨⟨.taskStart 3 4 0, ⟨rfl, rfl, rfl⟩, hact⟩, not_looping_of_conts he.1 (by simp)⟩
  obtain ⟨u, hu⟩ := exists_ok_of_isOk hok
  have hawake : ∀ t ∈ w.sched.taskAllList, ¬ InSituation w t .asleep := by
    rw [hall]
    rintro t ht ⟨hne, hrun, -⟩
    simp only [List.mem_cons, List.not_mem_nil, or_false] at ht
    rcases ht with rfl | rfl
    · exact hne hcur.symm
    · rw [hstatus] at hrun
      cases hrun
  have htimers := timersReturn_of_run (allRuns_magic (busyRuns_all hreach)).2 hu
  obtain ⟨_, _, hrounds, _⟩ := round_robin (k := 1) hreach hawake (by rw [hcur, hready]; exact hcompute)
    (by simp) (by simp [Turntable.cost, Sched.quantum, hcur, hready, hticks, hticks', hprio, hprio']) htimers
  refine ⟨w, hreach, hrounds.trans ?_⟩
  simp [Turntable.shares, Sched.quantum, hcur, hready, hticks, hticks', hprio, hprio', List.replicate]

end ThreadSched
