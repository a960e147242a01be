import ThreadSched.Task.Join

/-!
# Status and lists agree

What the status of a task says about where it is linked, in every run.  A task that has been left in a
`while(1)` is excepted, and stays current or ready for ever.

* `Sleeping` — who is in a call of `sleep`, who is marked asleep, and the helper timers pending for each
  task, by node.
* `Standing` — the agreement for one task.
* `Upright`, `Seated` — the invariant: every task that is not stuck is in agreement, the marks and timers
  are those given, and a task in a call of `sleep` is left alone; and the current task runs.
* `Upright.getNextTask`, `Runs.acts`, `Runs.taskStart`, … — every operation keeps it.
-/

set_option autoImplicit false

namespace ThreadSched

/-- The task executes one of the `while(1)` loops outside the handler, for ever. -/
def Sched.Stuck (s : Sched) (t : TaskId) : Prop := .loop ∈ s.conts t

structure Sleeping where
  inCall : TaskId → Prop
  marked : TaskId → Bool
  timers : TaskId → Multiset Nat

/-- What the status of a task says; `ns` are the timers pending for it. -/
structure Standing (ns : Multiset Nat) (s : Sched) (t : TaskId) : Prop where
  ready : s.taskReadyList.count t = if (s.tasks t).status = .READY then 1 else 0
  alive : (s.tasks t).status = .READY ∨ Blocking (s.tasks t).status → s.allocated t = true
  pool : s.taskPoolList.count t ≤ 1
  poolDied : t ∈ s.taskPoolList → (s.tasks t).status = .DIED
  pending : ns ≠ 0 → (s.tasks t).status = .RUNNING ∧ ∃ n, ns = {n}
  running : s.allocated t = true → (s.tasks t).status = .RUNNING → ns = 0 → t = s.currentTask

/-- A task in a call of `sleep` has no other call to go on with, and is not blocked or dead. -/
structure Napping (s : Sched) (t : TaskId) : Prop where
  conts : s.conts t = []
  allocated : s.allocated t = true
  status : (s.tasks t).status = .RUNNING ∨ (s.tasks t).status = .READY

/-- **The invariant.** -/
structure Upright (g : Sleeping) (s : Sched) : Prop where
  standing : ∀ t, ¬ s.Stuck t → Standing (g.timers t) s t
  stuck : ∀ t, s.Stuck t →
    (s.conts t).head? = some .loop ∧ (t = s.currentTask ∨ t ∈ s.taskReadyList)
  marks : ∀ t, s.marked t = g.marked t
  resting : ∀ t, g.inCall t → Napping s t
  markedInCall : ∀ t, g.marked t = true → g.inCall t
  timersMarked : ∀ t, g.timers t ≠ 0 → g.marked t = true
  main : s.allocated s.mainTask = true ∧ s.mainTask ∉ s.taskPoolList

/-- The current task runs, and no timer is pending for it. -/
structure Seated (g : Sleeping) (s : Sched) : Prop where
  allocated : s.allocated s.currentTask = true
  running : s.current.status = .RUNNING
  pending : g.timers s.currentTask = 0

/-- What holds between two actions. -/
structure Steady (g : Sleeping) (s : Sched) : Prop where
  upright : Upright g s
  seated : ¬ s.Stuck s.currentTask → Seated g s

variable {g : Sleeping} {s s' m : Sched} {t u : TaskId}

namespace Standing

variable {ns : Multiset Nat}

/-- Nothing that the status speaks of has changed. -/
theorem congr (h : Standing ns s t) (halloc : s'.allocated t = s.allocated t)
    (hstatus : (s'.tasks t).status = (s.tasks t).status)
    (hready : s'.taskReadyList.count t = s.taskReadyList.count t)
    (hpool : s'.taskPoolList.count t = s.taskPoolList.count t)
    (hcur : t = s.currentTask → t = s'.currentTask) : Standing ns s' t where
  ready := by
    rw [hready, hstatus]
    exact h.ready
  alive := by
    rw [halloc, hstatus]
    exact h.alive
  pool := by
    rw [hpool]
    exact h.pool
  poolDied := by
    intro ht
    rw [hstatus]
    apply h.poolDied
    rw [← List.count_pos_iff, ← hpool, List.count_pos_iff]
    exact ht
  pending := by
    rw [hstatus]
    exact h.pending
  running := by
    rw [halloc, hstatus]
    intro ha hr hn
    exact hcur (h.running ha hr hn)

theorem mem_ready (h : Standing ns s t) : t ∈ s.taskReadyList ↔ (s.tasks t).status = .READY := by
  rw [← List.count_pos_iff, h.ready]
  split
  · simp [*]
  · simp [*]

/-- No timer is pending for a task that is not running. -/
theorem no_timer (h : Standing ns s t) (hst : (s.tasks t).status ≠ .RUNNING) : ns = 0 := by
  by_contra hn
  exact hst (h.pending hn).1

end Standing

theorem Upright.not_stuck (h : Upright g s) (ht : g.inCall t) : ¬ s.Stuck t := by
  unfold Sched.Stuck
  rw [(h.resting t ht).conts]
  exact List.not_mem_nil

/-! ## Switches -/

/-- **A switch.**  The task that leaves does not run any more, and the stuck tasks are ready. -/
theorem Upright.getNextTask (h : Upright g m) (hstuck : ∀ t, m.Stuck t → t ∈ m.taskReadyList)
    (hgone : ¬ m.Stuck m.currentTask → m.allocated m.currentTask = true →
      m.current.status = .RUNNING → g.timers m.currentTask ≠ 0) :
    Returns (getNextTask m) (Steady g) := by
  unfold ThreadSched.getNextTask
  cases hr : m.taskReadyList with
  | nil => exact Returns.error
  | cons u rest =>
      have hready : ¬ m.Stuck u → (m.tasks u).status = .READY := by
        intro hu
        apply (h.standing u hu).mem_ready.1
        rw [hr]
        exact List.mem_cons_self
      refine Returns.pure ⟨⟨?_, ?_, ?_, ?_, h.markedInCall, h.timersMarked, h.main⟩, ?_⟩
      · intro t ht
        have hst := h.standing t ht
        by_cases htu : t = u
        · -- the task dispatched
          subst htu
          have hstatus := hready ht
          have hcount := hst.ready
          rw [hr, if_pos hstatus, List.count_cons_self] at hcount
          refine ⟨?_, fun _ => hst.alive (Or.inl hstatus), hst.pool, ?_, ?_, fun _ _ _ => rfl⟩
          · simp only [Sched.emit, Sched.modTask, Function.update_self]
            rw [if_neg (by simp)]
            omega
          · intro hp
            have hdied := hst.poolDied hp
            rw [hstatus] at hdied
            cases hdied
          · intro hn
            exact absurd (hst.no_timer (by rw [hstatus]; simp)) hn
        · have hcount := hst.ready
          rw [hr, List.count_cons_of_ne (Ne.symm htu)] at hcount
          constructor
          all_goals simp only [Sched.emit, Sched.modTask, Function.update_of_ne htu]
          · exact hcount
          · exact hst.alive
          · exact hst.pool
          · exact hst.poolDied
          · exact hst.pending
          · intro ha hrun hn
            have hcur := hst.running ha hrun hn
            subst hcur
            exact absurd hn (hgone ht ha hrun)
      · intro t ht
        refine ⟨(h.stuck t ht).1, ?_⟩
        have hmem := hstuck t ht
        rw [hr, List.mem_cons] at hmem
        exact hmem
      · intro t
        rw [← h.marks t]
        by_cases htu : t = u
        · subst htu
          simp [Sched.marked, Sched.emit, Sched.modTask]
        · simp [Sched.marked, Sched.emit, Sched.modTask, Function.update_of_ne htu]
      · intro t ht
        have hrest := h.resting t ht
        refine ⟨hrest.conts, hrest.allocated, ?_⟩
        by_cases htu : t = u
        · subst htu
          left
          simp [Sched.emit, Sched.modTask]
        · simp only [Sched.emit, Sched.modTask, Function.update_of_ne htu]
          exact hrest.status
      · intro hu
        have hu : ¬ m.Stuck u := hu
        have hst := h.standing u hu
        have hstatus := hready hu
        refine ⟨hst.alive (Or.inl hstatus), ?_, hst.no_timer (by rw [hstatus]; simp)⟩
        simp [Sched.current, Sched.emit, Sched.modTask]

/-! ## Statements -/

/-- The current task runs, in no `while(1)` and in no call of `sleep`. -/
structure Runs (g : Sleeping) (s : Sched) : Prop where
  upright : Upright g s
  seated : Seated g s
  notStuck : ¬ s.Stuck s.currentTask
  notInCall : ¬ g.inCall s.currentTask

/-- Only what the current task has left to run has changed, and it is in no `while(1)`. -/
theorem Runs.of_same (h : Runs g s) (halloc : s'.allocated = s.allocated)
    (htasks : s'.tasks = s.tasks) (hready : s'.taskReadyList = s.taskReadyList)
    (hpool : s'.taskPoolList = s.taskPoolList) (hcur : s'.currentTask = s.currentTask)
    (hmain : s'.mainTask = s.mainTask)
    (hconts : ∀ t, t ≠ s.currentTask → s'.conts t = s.conts t)
    (hloop : .loop ∉ s'.conts s.currentTask) : Runs g s' := by
  have hnot : ¬ s'.Stuck s'.currentTask := by
    rw [hcur]
    exact hloop
  have hstuck : ∀ t, s'.Stuck t → t ≠ s.currentTask ∧ s.Stuck t := by
    intro t ht
    have htc : t ≠ s.currentTask := by
      rintro rfl
      exact hloop ht
    refine ⟨htc, ?_⟩
    unfold Sched.Stuck at ht ⊢
    rwa [hconts t htc] at ht
  refine ⟨⟨?_, ?_, ?_, ?_, h.upright.markedInCall, h.upright.timersMarked, ?_⟩, ⟨?_, ?_, ?_⟩, hnot,
    ?_⟩
  · intro t ht
    have ht' : ¬ s.Stuck t := by
      by_cases htc : t = s.currentTask
      · subst htc
        exact h.notStuck
      · unfold Sched.Stuck at ht ⊢
        rwa [hconts t htc] at ht
    apply (h.upright.standing t ht').congr
    · rw [halloc]
    · rw [htasks]
    · rw [hready]
    · rw [hpool]
    · rw [hcur]
      exact id
  · intro t ht
    obtain ⟨htc, ht'⟩ := hstuck t ht
    rw [hconts t htc, hcur, hready]
    exact h.upright.stuck t ht'
  · intro t
    rw [← h.upright.marks t, Sched.marked, htasks]
  · intro t ht
    have htc : t ≠ s.currentTask := by
      rintro rfl
      exact h.notInCall ht
    have hrest := h.upright.resting t ht
    refine ⟨?_, ?_, ?_⟩
    · rw [hconts t htc]
      exact hrest.conts
    · rw [halloc]
      exact hrest.allocated
    · rw [htasks]
      exact hrest.status
  · rw [halloc, hmain, hpool]
    exact h.upright.main
  · rw [halloc, hcur]
    exact h.seated.allocated
  · rw [Sched.current, htasks, hcur]
    exact h.seated.running
  · rw [hcur]
    exact h.seated.pending
  · rw [hcur]
    exact h.notInCall

/-- A blocked task is made ready. -/
theorem Runs.wake (h : Runs g s) (hst : Blocking (s.tasks t).status) (ht : t ∉ s.taskReadyList) :
    Runs g (unblocked t s) := by
  have htc : s.currentTask ≠ t := by
    rintro rfl
    have hrunning : (s.tasks s.currentTask).status = .RUNNING := h.seated.running
    rw [hrunning] at hst
    simp [Blocking] at hst
  have hother : ∀ u, u ≠ t → (unblocked t s).tasks u = s.tasks u := by
    intro u hu
    simp [unblocked, Sched.emit, Sched.modTask, Function.update_of_ne hu]
  have hself : ((unblocked t s).tasks t).status = .READY := by
    simp [unblocked, Sched.emit, Sched.modTask]
  have hlist : (unblocked t s).taskReadyList = t :: s.taskReadyList := rfl
  refine ⟨⟨?_, ?_, ?_, ?_, h.upright.markedInCall, h.upright.timersMarked, h.upright.main⟩,
    ⟨h.seated.allocated, ?_, h.seated.pending⟩, h.notStuck, h.notInCall⟩
  · intro u hu
    have hstand := h.upright.standing u hu
    by_cases hut : u = t
    · subst hut
      refine ⟨?_, fun _ => hstand.alive (Or.inr hst), hstand.pool, ?_, ?_, ?_⟩
      · rw [hself, hlist, List.count_cons_self, List.count_eq_zero_of_not_mem ht]
        rfl
      · intro hp
        have hdied := hstand.poolDied hp
        rw [hdied] at hst
        simp [Blocking] at hst
      · intro hn
        exact absurd (hstand.no_timer (by rintro heq; rw [heq] at hst; simp [Blocking] at hst)) hn
      · rw [hself]
        simp
    · refine hstand.congr rfl ?_ ?_ rfl id
      · rw [hother u hut]
      · rw [hlist, List.count_cons_of_ne (Ne.symm hut)]
  · intro u hu
    obtain ⟨hhead, hin⟩ := h.upright.stuck u hu
    exact ⟨hhead, hin.imp_right (List.mem_cons_of_mem t)⟩
  · intro u
    rw [← h.upright.marks u]
    by_cases hut : u = t
    · subst hut
      simp [Sched.marked, unblocked, Sched.emit, Sched.modTask]
    · rw [Sched.marked, hother u hut]
  · intro u hu
    have hrest := h.upright.resting u hu
    refine ⟨hrest.conts, hrest.allocated, ?_⟩
    by_cases hut : u = t
    · subst hut
      exact Or.inr hself
    · rw [hother u hut]
      exact hrest.status
  · show ((unblocked t s).tasks s.currentTask).status = .RUNNING
    rw [hother _ htc]
    exact h.seated.running

theorem Runs.prim (h : Runs g s) (hp : Prim s s') : Runs g s' := by
  cases hp with
  | lock l f _ => exact h.of_same rfl rfl rfl rfl rfl rfl (fun _ _ => rfl) h.notStuck
  | ioq q f => exact h.of_same rfl rfl rfl rfl rfl rfl (fun _ _ => rfl) h.notStuck
  | getchar q byte => exact h.of_same rfl rfl rfl rfl rfl rfl (fun _ _ => rfl) h.notStuck
  | push ss hss =>
      refine h.of_same rfl rfl rfl rfl rfl rfl ?_ ?_
      · intro t ht
        exact Function.update_of_ne ht _ _
      · show Stmt.loop ∉ Function.update s.conts s.currentTask _ s.currentTask
        rw [Function.update_self, List.mem_append]
        rintro (hmem | hmem)
        · exact (hss _ hmem).2 rfl
        · exact h.notStuck hmem
  | pop st rest _ hc =>
      refine h.of_same rfl rfl rfl rfl rfl rfl ?_ ?_
      · intro t ht
        exact Function.update_of_ne ht _ _
      · show Stmt.loop ∉ Function.update s.conts s.currentTask rest s.currentTask
        rw [Function.update_self]
        intro hmem
        apply h.notStuck
        unfold Sched.Stuck
        rw [hc]
        exact List.mem_cons_of_mem _ hmem
  | wake t hst ht => exact h.wake hst ht

/-- The current task leaves: it gets a status in which it does not run. -/
theorem Runs.setStatus (h : Runs g s) {status : TaskStatus} (hst : Blocking status) :
    Upright g (s.setStatus status) ∧ (s.setStatus status).current.status = status := by
  have hother : ∀ u, u ≠ s.currentTask → (s.setStatus status).tasks u = s.tasks u := by
    intro u hu
    simp [Sched.setStatus, Sched.modTask, Function.update_of_ne hu]
  have hself : ((s.setStatus status).tasks s.currentTask).status = status := by
    simp [Sched.setStatus, Sched.modTask]
  refine ⟨⟨?_, h.upright.stuck, ?_, ?_, h.upright.markedInCall, h.upright.timersMarked,
    h.upright.main⟩, hself⟩
  · intro u hu
    have hstand := h.upright.standing u hu
    by_cases huc : u = s.currentTask
    · subst huc
      have hcount := hstand.ready
      have hrunning : (s.tasks s.currentTask).status = .RUNNING := h.seated.running
      rw [hrunning, if_neg (by simp)] at hcount
      refine ⟨?_, fun _ => h.seated.allocated, hstand.pool, ?_, ?_, fun _ _ _ => rfl⟩
      · rw [hself, if_neg (by rintro rfl; simp [Blocking] at hst)]
        exact hcount
      · intro hp
        have hdied := hstand.poolDied hp
        rw [hrunning] at hdied
        cases hdied
      · intro hn
        exact absurd h.seated.pending hn
    · refine hstand.congr rfl ?_ rfl rfl id
      rw [hother u huc]
  · intro u
    rw [← h.upright.marks u]
    by_cases huc : u = s.currentTask
    · subst huc
      simp [Sched.marked, Sched.setStatus, Sched.modTask]
    · rw [Sched.marked, hother u huc]
  · intro u hu
    have huc : u ≠ s.currentTask := by
      rintro rfl
      exact h.notInCall hu
    have hrest := h.upright.resting u hu
    refine ⟨hrest.conts, hrest.allocated, ?_⟩
    rw [hother u huc]
    exact hrest.status

/-- Every stuck task is ready when the current one is not stuck. -/
theorem Runs.stuck_ready (h : Runs g s) (ht : s.Stuck t) : t ∈ s.taskReadyList := by
  apply (h.upright.stuck t ht).2.resolve_left
  rintro rfl
  exact h.notStuck ht

/-- The task goes into a `while(1)`. -/
theorem Upright.push_loop (h : Upright g s) (hnot : ¬ g.inCall s.currentTask) :
    Steady g (s.push s.currentTask [.loop]) := by
  have hself : (s.push s.currentTask [.loop]).conts s.currentTask =
      .loop :: s.conts s.currentTask := by simp [Sched.push]
  have hother : ∀ t, t ≠ s.currentTask → (s.push s.currentTask [.loop]).conts t = s.conts t := by
    intro t ht
    exact Function.update_of_ne ht _ _
  have hcur : (s.push s.currentTask [.loop]).Stuck s.currentTask := by
    unfold Sched.Stuck
    rw [hself]
    exact List.mem_cons_self
  refine ⟨⟨?_, ?_, h.marks, ?_, h.markedInCall, h.timersMarked, h.main⟩,
    fun hnot => absurd hcur hnot⟩
  · intro t ht
    have htc : t ≠ s.currentTask := by
      rintro rfl
      exact ht hcur
    have ht' : ¬ s.Stuck t := by
      unfold Sched.Stuck at ht ⊢
      rwa [hother t htc] at ht
    exact (h.standing t ht').congr rfl rfl rfl rfl id
  · intro t ht
    by_cases htc : t = s.currentTask
    · subst htc
      rw [hself]
      exact ⟨rfl, Or.inl rfl⟩
    · unfold Sched.Stuck at ht
      rw [hother t htc] at ht ⊢
      exact h.stuck t ht
  · intro t ht
    have htc : t ≠ s.currentTask := by
      rintro rfl
      exact hnot ht
    have hrest := h.resting t ht
    refine ⟨?_, hrest.allocated, hrest.status⟩
    rw [hother t htc]
    exact hrest.conts

/-- A sequence of writes, and what may follow it. -/
theorem Runs.acts (h : Runs g s) (ha : Acts s s') : Steady g s' := by
  cases ha with
  | stay hp =>
      have hs' : Runs g s' := hp.invariant (fun _ _ => Runs.prim) h
      exact ⟨hs'.upright, fun _ => hs'.seated⟩
  | switch m status hp hst hs =>
      have hm : Runs g m := hp.invariant (fun _ _ => Runs.prim) h
      obtain ⟨hup, hstatus⟩ := hm.setStatus hst
      refine hup.getNextTask (fun t ht => hm.stuck_ready ht) ?_ s' hs
      intro _ _ hrunning
      rw [hstatus] at hrunning
      subst hrunning
      simp [Blocking] at hst
  | idle m status hp hst hready hs =>
      have hm : Runs g m := hp.invariant (fun _ _ => Runs.prim) h
      rw [hs]
      exact (hm.setStatus hst).1.push_loop hm.notInCall

theorem Steady.runs (h : Steady g s) (hstuck : ¬ s.Stuck s.currentTask)
    (hcall : ¬ g.inCall s.currentTask) : Runs g s :=
  ⟨h.upright, h.seated hstuck, hstuck, hcall⟩

/-- The next statement of a call. -/
theorem Steady.runStmt (h : Steady g s) (ht : Tame s) (hcall : ¬ g.inCall s.currentTask) :
    Returns ((runStmt s).getD (pure s)) (Steady g) := by
  by_cases hstuck : s.Stuck s.currentTask
  · rw [runStmt_loop (h.upright.stuck _ hstuck).1]
    exact Returns.ok h
  · exact (runStmt_acts ht).imp fun s' => (h.runs hstuck hcall).acts

/-! ## Ending and starting tasks -/

/-- What `task_exit` writes before it switches. -/
theorem Runs.exitLists (h : Runs g s) :
    Upright g (exitLists s.currentTask s) ∧
      (exitLists s.currentTask s).taskReadyList = s.taskReadyList := by
  have hrunning : (s.tasks s.currentTask).status = .RUNNING := h.seated.running
  have hcur := h.upright.standing _ h.notStuck
  have hcount := hcur.ready
  rw [hrunning, if_neg (by simp)] at hcount
  have hready : (ThreadSched.exitLists s.currentTask s).taskReadyList = s.taskReadyList := by
    show (if s.currentTask ∈ s.taskReadyList then s.taskReadyList.erase s.currentTask
      else s.taskReadyList) = s.taskReadyList
    rw [if_neg (List.count_eq_zero.1 hcount)]
  have hpoolcur : s.taskPoolList.count s.currentTask = 0 := by
    rw [List.count_eq_zero]
    intro hp
    have hdied := hcur.poolDied hp
    rw [hrunning] at hdied
    cases hdied
  have hother : ∀ u, u ≠ s.currentTask →
      (ThreadSched.exitLists s.currentTask s).tasks u = s.tasks u := by
    intro u hu
    simp [ThreadSched.exitLists, Sched.modTask, Function.update_of_ne hu]
  have hself : ((ThreadSched.exitLists s.currentTask s).tasks s.currentTask).status = .DIED := by
    simp [ThreadSched.exitLists, Sched.modTask]
  have hpool : ∀ u, u ≠ s.currentTask →
      (ThreadSched.exitLists s.currentTask s).taskPoolList.count u = s.taskPoolList.count u := by
    intro u hu
    show (if s.currentTask ≠ s.mainTask then s.taskPoolList ++ [s.currentTask]
      else s.taskPoolList).count u = _
    split
    · rw [List.count_append, List.count_singleton, if_neg (by simpa using Ne.symm hu), Nat.add_zero]
    · rfl
  refine ⟨⟨?_, ?_, ?_, ?_, h.upright.markedInCall, h.upright.timersMarked, h.upright.main.1, ?_⟩,
    hready⟩
  · intro u hu
    have hstand := h.upright.standing u hu
    by_cases huc : u = s.currentTask
    · subst huc
      refine ⟨?_, ?_, ?_, fun _ => hself, ?_, ?_⟩
      · rw [hself, hready, if_neg (by simp)]
        exact hcount
      · rw [hself]
        simp [Blocking]
      · show (if s.currentTask ≠ s.mainTask then s.taskPoolList ++ [s.currentTask]
          else s.taskPoolList).count s.currentTask ≤ 1
        split
        · rw [List.count_append, hpoolcur, List.count_singleton_self]
        · rw [hpoolcur]
          exact Nat.zero_le _
      · intro hn
        exact absurd h.seated.pending hn
      · rw [hself]
        simp
    · refine hstand.congr rfl ?_ ?_ (hpool u huc) id
      · rw [hother u huc]
      · rw [hready]
  · intro u hu
    rw [hready]
    exact h.upright.stuck u hu
  · intro u
    rw [← h.upright.marks u]
    by_cases huc : u = s.currentTask
    · subst huc
      simp [Sched.marked, ThreadSched.exitLists, Sched.modTask]
    · rw [Sched.marked, hother u huc]
  · intro u hu
    have huc : u ≠ s.currentTask := by
      rintro rfl
      exact h.notInCall hu
    have hrest := h.upright.resting u hu
    refine ⟨hrest.conts, hrest.allocated, ?_⟩
    rw [hother u huc]
    exact hrest.status
  · show s.mainTask ∉ if s.currentTask ≠ s.mainTask then s.taskPoolList ++ [s.currentTask]
      else s.taskPoolList
    split
    · next hne =>
        rw [List.mem_append, List.mem_singleton]
        rintro (hmem | heq)
        · exact h.upright.main.2 hmem
        · exact hne heq.symm
    · exact h.upright.main.2

/-- `task_exit` of the current task. -/
theorem Runs.taskExit (h : Runs g s) (ht : Tame s) :
    Returns (taskExit s.currentTask s) (Steady g) := by
  obtain ⟨hup, hready⟩ := h.exitLists
  unfold ThreadSched.taskExit
  show Returns (releaseTid _ (ThreadSched.exitLists s.currentTask s) >>= _) _
  rw [releaseTid_eq (ht.exitLists s.currentTask).tid, ok_bind]
  have hexit : ∀ i b e, Upright g
      (((ThreadSched.exitLists s.currentTask s).setTidBit i b).emit e) := by
    intro i b e
    exact ⟨fun u hu => (hup.standing u hu).congr rfl rfl rfl rfl id, hup.stuck, hup.marks,
      fun u hu => ⟨(hup.resting u hu).conts, (hup.resting u hu).allocated, (hup.resting u hu).status⟩,
      hup.markedInCall, hup.timersMarked, hup.main⟩
  refine Returns.ite (fun _ => Returns.ok ((hexit _ _ _).push_loop h.notInCall)) fun _ => ?_
  refine (hexit _ _ _).getNextTask ?_ ?_
  · intro u hu
    show u ∈ (ThreadSched.exitLists s.currentTask s).taskReadyList
    rw [hready]
    exact h.stuck_ready hu
  · intro _ _ hrunning
    have hdied : ((ThreadSched.exitLists s.currentTask s).tasks s.currentTask).status = .DIED := by
      simp [ThreadSched.exitLists, Sched.modTask]
    have hrunning : ((ThreadSched.exitLists s.currentTask s).tasks s.currentTask).status =
      .RUNNING := hrunning
    rw [hdied] at hrunning
    cases hrunning

/-- A new task, at an address that was not allocated. -/
theorem Runs.create (h : Runs g s) {addr : TaskId} {task : TaskStruct}
    (haddr : s.allocated addr = false) (hnew : addr ∉ s.taskReadyList) (hstatus : task.status = .READY)
    (hmark : task.isCollaborativeSchedule = false)
    (halloc : s'.allocated = Function.update s.allocated addr true)
    (htasks : s'.tasks = Function.update s.tasks addr task)
    (hready : s'.taskReadyList = s.taskReadyList ++ [addr]) (hpool : s'.taskPoolList = [])
    (hcur : s'.currentTask = s.currentTask) (hmain : s'.mainTask = s.mainTask)
    (hconts : s'.conts = Function.update s.conts addr []) : Steady g s' := by
  have hne : ∀ u, s.allocated u = true → u ≠ addr := by
    rintro u hu rfl
    rw [haddr] at hu
    cases hu
  have hcurne := hne _ h.seated.allocated
  have hcall : ∀ u, g.inCall u → u ≠ addr := fun u hu => hne u (h.upright.resting u hu).allocated
  have hnone : g.timers addr = 0 := by
    by_contra hn
    exact hcall addr (h.upright.markedInCall _ (h.upright.timersMarked _ hn)) rfl
  have hstuckne : ∀ u, s.Stuck u → u ≠ addr := by
    rintro u hu rfl
    exact hnew (h.stuck_ready hu)
  have hstuck : ∀ u, s'.Stuck u → s.Stuck u ∧ u ≠ addr := by
    intro u hu
    unfold Sched.Stuck at hu ⊢
    rw [hconts] at hu
    by_cases hua : u = addr
    · subst hua
      rw [Function.update_self] at hu
      cases hu
    · rw [Function.update_of_ne hua] at hu
      exact ⟨hu, hua⟩
  refine ⟨⟨?_, ?_, ?_, ?_, h.upright.markedInCall, h.upright.timersMarked, ?_⟩, fun _ => ⟨?_, ?_, ?_⟩⟩
  · intro u hu
    by_cases hua : u = addr
    · subst hua
      have hself : (s'.tasks u).status = .READY := by rw [htasks, Function.update_self, hstatus]
      refine ⟨?_, ?_, ?_, ?_, ?_, ?_⟩
      · rw [hself, if_pos rfl, hready, List.count_append, List.count_eq_zero_of_not_mem hnew,
          List.count_singleton_self]
      · intro _
        rw [halloc, Function.update_self]
      · rw [hpool]
        exact Nat.zero_le _
      · rw [hpool]
        nofun
      · intro hn
        exact absurd hnone hn
      · rw [hself]
        nofun
    · have hu' : ¬ s.Stuck u := by
        unfold Sched.Stuck at hu ⊢
        rwa [hconts, Function.update_of_ne hua] at hu
      have hstand := h.upright.standing u hu'
      refine ⟨?_, ?_, ?_, ?_, ?_, ?_⟩
      · rw [hready, List.count_append, List.count_singleton, if_neg (by simpa using Ne.symm hua),
          Nat.add_zero, htasks, Function.update_of_ne hua]
        exact hstand.ready
      · rw [htasks, halloc, Function.update_of_ne hua, Function.update_of_ne hua]
        exact hstand.alive
      · rw [hpool]
        exact Nat.zero_le _
      · rw [hpool]
        nofun
      · rw [htasks, Function.update_of_ne hua]
        exact hstand.pending
      · rw [htasks, halloc, Function.update_of_ne hua, Function.update_of_ne hua, hcur]
        exact hstand.running
  · intro u hu
    obtain ⟨hu', hua⟩ := hstuck u hu
    rw [hconts, Function.update_of_ne hua, hcur, hready, List.mem_append]
    exact ⟨(h.upright.stuck u hu').1, (h.upright.stuck u hu').2.imp_right Or.inl⟩
  · intro u
    rw [Sched.marked, htasks]
    by_cases hua : u = addr
    · subst hua
      rw [Function.update_self, hmark]
      cases hm : g.marked u with
      | false => rfl
      | true => exact absurd rfl (hcall u (h.upright.markedInCall u hm))
    · rw [Function.update_of_ne hua]
      exact h.upright.marks u
  · intro u hu
    have hua := hcall u hu
    have hrest := h.upright.resting u hu
    refine ⟨?_, ?_, ?_⟩
    · rw [hconts, Function.update_of_ne hua]
      exact hrest.conts
    · rw [halloc, Function.update_of_ne hua]
      exact hrest.allocated
    · rw [htasks, Function.update_of_ne hua]
      exact hrest.status
  · rw [halloc, hmain, hpool, Function.update_of_ne (hne _ h.upright.main.1)]
    exact ⟨h.upright.main.1, List.not_mem_nil⟩
  · rw [halloc, hcur, Function.update_of_ne hcurne]
    exact h.seated.allocated
  · rw [Sched.current, htasks, hcur, Function.update_of_ne hcurne]
    exact h.seated.running
  · rw [hcur]
    exact h.seated.pending

/-- The pool's tasks are dead, or stuck: `task_start` does not get one, and its new task was not
allocated before. -/
theorem Runs.taskStart (h : Runs g s) (ht : Tame s) {addr stack : Nat} (prio : Int)
    (haddr : s.allocated addr = false) : Returns (taskStart addr stack prio s) (Steady g) := by
  unfold ThreadSched.taskStart takeTask
  by_cases hpool : s.taskPoolList = []
  · rw [if_neg (by simpa using hpool)]
    show Returns (initTask addr stack prio
      { s with allocated := Function.update s.allocated addr true } >>= _) _
    rw [initTask_eq (s := { s with allocated := Function.update s.allocated addr true }) ht.tid]
    cases bitmapScan s.tidPool.tidBitmap 1 with
    | none => exact Returns.error
    | some bitIdx =>
        refine returns_assertThat fun hready => returns_assertThat fun _ => Returns.pure ?_
        have hmain : addr ≠ s.mainTask := by
          rintro rfl
          rw [h.upright.main.1] at haddr
          cases haddr
        refine h.create haddr hready ?_ ?_ rfl rfl rfl hpool ?_ rfl rfl
        · simp [initedTask, initFields, hmain]
        · simp [initedTask, initFields]
        · show (if addr = s.mainTask then addr else s.currentTask) = s.currentTask
          rw [if_neg hmain]
  · -- the oldest task of the pool
    rw [if_pos hpool]
    cases hp : s.taskPoolList with
    | nil => exact absurd hp hpool
    | cons t rest =>
        refine Returns.bind (P := fun r => s.Stuck r.1 ∧ r.2 = { s with taskPoolList := rest }) ?_ ?_
        · refine returns_assertThat fun hst => Returns.pure ⟨?_, rfl⟩
          by_contra hnot
          exact hst ((h.upright.standing t hnot).poolDied (by rw [hp]; exact List.mem_cons_self)).symm
        · rintro ⟨t, s₁⟩ ⟨hstuck, heq⟩
          have heq : s₁ = { s with taskPoolList := rest } := heq
          subst heq
          show Returns (initTask t stack prio { s with taskPoolList := rest } >>= _) _
          rw [initTask_eq (s := { s with taskPoolList := rest }) ht.tid]
          cases bitmapScan s.tidPool.tidBitmap 1 with
          | none => exact Returns.error
          | some bitIdx =>
              exact returns_assertThat fun hready => absurd (h.stuck_ready hstuck) hready

/-- **An action** of a task that is in no call of `sleep`. -/
theorem Steady.schedAction (h : Steady g s) (ht : Tame s) (hcall : ¬ g.inCall s.currentTask)
    {a : Action} {w : World} (hw : w.sched = s) (ha : a.enabled w)
    (hsleep : ∀ milliseconds, a ≠ .sleep milliseconds) :
    Returns (schedAction s a) (Steady g) := by
  subst hw
  have hnot : w.sched.conts w.sched.currentTask = [] → ¬ w.sched.Stuck w.sched.currentTask := by
    intro hc
    unfold Sched.Stuck
    rw [hc]
    exact List.not_mem_nil
  have hpush : w.sched.conts w.sched.currentTask = [] → ∀ st : Stmt, st ≠ .loop →
      Steady g (w.sched.push w.sched.currentTask [st]) := by
    intro hc st hst
    have hruns := h.runs (hnot hc) hcall
    have hs' : Runs g (w.sched.push w.sched.currentTask [st]) := by
      refine hruns.of_same rfl rfl rfl rfl rfl rfl ?_ ?_
      · intro u hu
        exact Function.update_of_ne hu _ _
      · show Stmt.loop ∉ Function.update w.sched.conts w.sched.currentTask _ w.sched.currentTask
        rw [Function.update_self, hc, List.append_nil, List.mem_singleton]
        exact Ne.symm hst
    exact ⟨hs'.upright, fun _ => hs'.seated⟩
  cases a with
  | taskStart addr stack prio => exact (h.runs (hnot ha.1) hcall).taskStart ht prio ha.2.1
  | taskExit => exact (h.runs (hnot ha) hcall).taskExit ht
  | lockAcquire l => exact Returns.pure (hpush ha _ nofun)
  | lockRelease l => exact Returns.pure (hpush ha _ nofun)
  | ioqGetchar q => exact Returns.pure (hpush ha _ nofun)
  | ioqPutchar q byte => exact Returns.pure (hpush ha _ nofun)
  | sleep milliseconds => exact absurd rfl (hsleep milliseconds)
  | resume => exact h.runStmt ht hcall
  | tick r => exact Returns.pure h

/-! ## The handler -/

/-- The current task goes to the end of the ready list. -/
def requeued (s : Sched) : Sched :=
  ({ s with taskReadyList := s.taskReadyList ++ [s.currentTask] }.modTask s.currentTask fun task =>
    { task with ticks := task.priority, status := .READY }).emit (.ready s.currentTask .schedule)

theorem requeued_tasks (hu : u ≠ s.currentTask) : (requeued s).tasks u = s.tasks u := by
  simp [requeued, Sched.emit, Sched.modTask, Function.update_of_ne hu]

theorem requeued_status : ((requeued s).tasks s.currentTask).status = .READY := by
  simp [requeued, Sched.emit, Sched.modTask]

theorem requeued_marked : (requeued s).marked u = s.marked u := by
  by_cases hu : u = s.currentTask
  · subst hu
    simp [Sched.marked, requeued, Sched.emit, Sched.modTask]
  · rw [Sched.marked, requeued_tasks hu]

/-- Even a stuck task may be put there. -/
theorem Steady.requeue (h : Steady g s) (hnot : s.currentTask ∉ s.taskReadyList) :
    Upright g (requeued s) := by
  have hready : (requeued s).taskReadyList = s.taskReadyList ++ [s.currentTask] := rfl
  refine ⟨?_, ?_, ?_, ?_, h.upright.markedInCall, h.upright.timersMarked, h.upright.main⟩
  · intro u hu
    have hstand := h.upright.standing u hu
    by_cases huc : u = s.currentTask
    · subst huc
      have hseat := h.seated hu
      have hrunning : (s.tasks s.currentTask).status = .RUNNING := hseat.running
      refine ⟨?_, fun _ => hseat.allocated, hstand.pool, ?_, ?_, ?_⟩
      · rw [requeued_status, if_pos rfl, hready, List.count_append,
          List.count_eq_zero_of_not_mem hnot, List.count_singleton_self]
      · intro hp
        have hdied := hstand.poolDied hp
        rw [hrunning] at hdied
        cases hdied
      · intro hn
        exact absurd hseat.pending hn
      · rw [requeued_status]
        nofun
    · refine hstand.congr rfl ?_ ?_ rfl id
      · rw [requeued_tasks huc]
      · rw [hready, List.count_append, List.count_singleton, if_neg (by simpa using Ne.symm huc),
          Nat.add_zero]
  · intro u hu
    rw [hready, List.mem_append]
    exact ⟨(h.upright.stuck u hu).1, (h.upright.stuck u hu).2.imp_right Or.inl⟩
  · intro u
    rw [requeued_marked]
    exact h.upright.marks u
  · intro u hu
    have hrest := h.upright.resting u hu
    refine ⟨hrest.conts, hrest.allocated, ?_⟩
    by_cases huc : u = s.currentTask
    · rw [huc]
      exact Or.inr requeued_status
    · rw [requeued_tasks huc]
      exact hrest.status

/-- `schedule`. -/
theorem Steady.schedule (h : Steady g s) : Returns (schedule s) (Steady g) := by
  refine returns_assertThat fun hnot => Returns.ite (fun _ => Returns.error) fun _ => ?_
  have hup := h.requeue hnot
  refine hup.getNextTask ?_ ?_
  · intro u hu
    show u ∈ s.taskReadyList ++ [s.currentTask]
    rw [List.mem_append, List.mem_singleton]
    exact (h.upright.stuck u hu).2.symm
  · intro _ _ hrunning
    have hrunning : ((requeued s).tasks s.currentTask).status = .RUNNING := hrunning
    rw [requeued_status] at hrunning
    cases hrunning

theorem Steady.countDown (h : Steady g s) : Steady g s.countDown := by
  have hstatus : ∀ u, (s.countDown.tasks u).status = (s.tasks u).status ∧
      s.countDown.marked u = s.marked u := by
    intro u
    by_cases huc : u = s.currentTask
    · subst huc
      simp [Sched.marked, Sched.countDown, Sched.modTask]
    · simp [Sched.marked, Sched.countDown, Sched.modTask, Function.update_of_ne huc]
  refine ⟨⟨?_, h.upright.stuck, ?_, ?_, h.upright.markedInCall, h.upright.timersMarked,
    h.upright.main⟩, ?_⟩
  · intro u hu
    exact (h.upright.standing u hu).congr rfl (hstatus u).1 rfl rfl id
  · intro u
    rw [(hstatus u).2]
    exact h.upright.marks u
  · intro u hu
    have hrest := h.upright.resting u hu
    refine ⟨hrest.conts, hrest.allocated, ?_⟩
    rw [(hstatus u).1]
    exact hrest.status
  · intro hu
    have hseat := h.seated hu
    refine ⟨hseat.allocated, ?_, hseat.pending⟩
    rw [Sched.current, (hstatus _).1]
    exact hseat.running

end ThreadSched
