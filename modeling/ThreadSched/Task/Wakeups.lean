import ThreadSched.Task.Standing

/-!
# Sleepers and their timers, in every run

* `helperNodes` — the nodes of the helper timers in the wheel, by task.
* `Awakened` — what a walk of callbacks does to the sleepers: some are woken, each by its own timer.
* `Watch`, `Watch.advance`, `Watch.handler` — the invariant with the wheel, and what the handler does: it
  wakes sleepers, and arms one timer for the current task when that is marked asleep.
-/

set_option autoImplicit false

namespace ThreadSched

open Wheel (TimerManager TimerNode tickNodes tickWheel rearmed)

/-! ## Helper timers -/

/-- The nodes of the helper timers of a task. -/
def helperNodes (M : Multiset (TimerNode TimerFn)) (t : TaskId) : Multiset Nat :=
  (M.filter fun n => n.timer = .collaborativeScheduleHelper t).map TimerNode.node

theorem helperNodes_cons (n : TimerNode TimerFn) (M : Multiset (TimerNode TimerFn)) (t : TaskId) :
    helperNodes (n ::ₘ M) t = (if n.timer = .collaborativeScheduleHelper t then {n.node} else 0) +
      helperNodes M t := by
  unfold helperNodes
  rw [Multiset.filter_cons, Multiset.map_add]
  split
  · rfl
  · rfl

theorem helperNodes_add (M N : Multiset (TimerNode TimerFn)) (t : TaskId) :
    helperNodes (M + N) t = helperNodes M t + helperNodes N t := by
  unfold helperNodes
  rw [Multiset.filter_add, Multiset.map_add]

/-- Timers that are armed again are not helper timers. -/
theorem helperNodes_rearmed {l : List (TimerNode TimerFn)} (j : Nat)
    (hl : ∀ n ∈ l, ∀ t, n.timer = .collaborativeScheduleHelper t → n.uPeriod = 0) (t : TaskId) :
    helperNodes (rearmed j l : List (TimerNode TimerFn)) t = 0 := by
  unfold helperNodes
  rw [Multiset.map_eq_zero, Multiset.filter_eq_nil]
  intro m hm heq
  obtain ⟨n, hn, rfl⟩ := List.mem_map.1 (Multiset.mem_coe.1 hm)
  obtain ⟨hn, hp⟩ := List.mem_filter.1 hn
  have hzero := hl n hn t heq
  simp [hzero] at hp

/-! ## Callbacks -/

/-- `t` has been woken: it is not marked, and no timer is pending for it. -/
def Sleeping.wake (g : Sleeping) (t : TaskId) : Sleeping :=
  { g with marked := Function.update g.marked t false, timers := Function.update g.timers t 0 }

/-- `t`, which is marked, has been given a timer. -/
def Sleeping.arm (g : Sleeping) (t : TaskId) (node : Nat) : Sleeping :=
  { g with timers := Function.update g.timers t {node} }

/-- Every task sleeps on as before, or has been woken by the one timer that was pending for it. -/
structure Awakened (g g' : Sleeping) (s : Sched) : Prop where
  inCall : g'.inCall = g.inCall
  each : ∀ t, (g'.marked t = g.marked t ∧ g'.timers t = g.timers t) ∨
    (g'.marked t = false ∧ g'.timers t = 0 ∧
      ∃ n j, g.timers t = {n} ∧ Event.ready t (.helper n j) ∈ s.log)

variable {g g' g'' : Sleeping} {s s' : Sched} {t : TaskId}

theorem Awakened.refl (g : Sleeping) (s : Sched) : Awakened g g s :=
  ⟨rfl, fun _ => Or.inl ⟨rfl, rfl⟩⟩

theorem Awakened.trans (h : Awakened g g' s) (h' : Awakened g' g'' s')
    (hlog : ∀ e ∈ s.log, e ∈ s'.log) : Awakened g g'' s' := by
  refine ⟨h'.inCall.trans h.inCall, ?_⟩
  intro t
  rcases h.each t with ⟨hm, ht⟩ | ⟨hm, ht, n, j, hn, hin⟩
  · rcases h'.each t with ⟨hm', ht'⟩ | ⟨hm', ht', n, j, hn, hin⟩
    · exact Or.inl ⟨hm'.trans hm, ht'.trans ht⟩
    · rw [ht] at hn
      exact Or.inr ⟨hm', ht', n, j, hn, hin⟩
  · right
    rcases h'.each t with ⟨hm', ht'⟩ | ⟨_, _, n', _, hn', _⟩
    · exact ⟨hm'.trans hm, ht'.trans ht, n, j, hn, hlog _ hin⟩
    · rw [ht] at hn'
      exact absurd hn'.symm (Multiset.singleton_ne_zero n')

/-- `collaborative_schedule_helper` for a task a timer is pending for. -/
theorem Steady.helper (h : Steady g s) (hpend : g.timers t ≠ 0) (node j : Nat) :
    Returns (collaborativeScheduleHelper t node j s) (Steady (g.wake t)) := by
  refine returns_assertThat fun hnot => ?_
  have hnot : t ∉ s.taskReadyList := hnot
  have hcall := h.upright.markedInCall t (h.upright.timersMarked t hpend)
  have hstuck := h.upright.not_stuck hcall
  have hstand := h.upright.standing t hstuck
  have hrest := h.upright.resting t hcall
  have hcur : ¬ s.Stuck s.currentTask → s.currentTask ≠ t := by
    rintro hns rfl
    exact hpend (h.seated hns).pending
  refine Returns.pure ?_
  generalize hm : Sched.modTask _ t _ = m
  have hfields : m.allocated = s.allocated ∧ m.conts = s.conts ∧ m.currentTask = s.currentTask ∧
      m.taskPoolList = s.taskPoolList ∧ m.mainTask = s.mainTask ∧
      m.taskReadyList = s.taskReadyList ++ [t] := by
    rw [← hm]
    exact ⟨rfl, rfl, rfl, rfl, rfl, rfl⟩
  obtain ⟨halloc, hconts, hcurrent, hpool, hmain, hready⟩ := hfields
  have hother : ∀ u, u ≠ t → m.tasks u = s.tasks u := by
    intro u hu
    rw [← hm]
    simp [Sched.emit, Sched.modTask, Function.update_of_ne hu]
  have hself : (m.tasks t).status = .READY ∧ m.marked t = false := by
    rw [← hm]
    simp [Sched.marked, Sched.emit, Sched.modTask]
  have hstuckeq : ∀ u, m.Stuck u ↔ s.Stuck u := by
    intro u
    unfold Sched.Stuck
    rw [hconts]
  refine ⟨⟨?_, ?_, ?_, ?_, ?_, ?_, ?_⟩, ?_⟩
  · intro u hu
    rw [hstuckeq] at hu
    by_cases hut : u = t
    · subst hut
      refine ⟨?_, ?_, ?_, ?_, ?_, ?_⟩
      · rw [hself.1, if_pos rfl, hready, List.count_append, List.count_eq_zero_of_not_mem hnot,
          List.count_singleton_self]
      · intro _
        rw [halloc]
        exact hrest.allocated
      · rw [hpool]
        exact hstand.pool
      · rw [hpool]
        intro hp
        have hdied := hstand.poolDied hp
        rw [(hstand.pending hpend).1] at hdied
        cases hdied
      · simp [Sleeping.wake]
      · rw [hself.1]
        simp
    · have htimers : (g.wake t).timers u = g.timers u := Function.update_of_ne hut _ _
      rw [htimers]
      apply (h.upright.standing u hu).congr
      · rw [halloc]
      · rw [hother u hut]
      · rw [hready, List.count_append, List.count_singleton, if_neg (by simpa using Ne.symm hut),
          Nat.add_zero]
      · rw [hpool]
      · rw [hcurrent]
        exact id
  · intro u hu
    rw [hstuckeq] at hu
    rw [hconts, hcurrent, hready, List.mem_append]
    exact ⟨(h.upright.stuck u hu).1, (h.upright.stuck u hu).2.imp_right Or.inl⟩
  · intro u
    by_cases hut : u = t
    · subst hut
      rw [hself.2]
      simp [Sleeping.wake]
    · have hmarked : (g.wake t).marked u = g.marked u := Function.update_of_ne hut _ _
      rw [Sched.marked, hother u hut, hmarked]
      exact h.upright.marks u
  · intro u hu
    have hru := h.upright.resting u hu
    refine ⟨?_, ?_, ?_⟩
    · rw [hconts]
      exact hru.conts
    · rw [halloc]
      exact hru.allocated
    · by_cases hut : u = t
      · rw [hut]
        exact Or.inr hself.1
      · rw [hother u hut]
        exact hru.status
  · intro u hu
    apply h.upright.markedInCall
    by_cases hut : u = t
    · subst hut
      simp [Sleeping.wake] at hu
    · simpa [Sleeping.wake, Function.update_of_ne hut] using hu
  · intro u hu
    by_cases hut : u = t
    · subst hut
      simp [Sleeping.wake] at hu
    · have htimers : (g.wake t).timers u = g.timers u := Function.update_of_ne hut _ _
      have hmarked : (g.wake t).marked u = g.marked u := Function.update_of_ne hut _ _
      rw [htimers] at hu
      rw [hmarked]
      exact h.upright.timersMarked u hu
  · rw [halloc, hmain, hpool]
    exact h.upright.main
  · intro hns
    rw [hcurrent, hstuckeq] at hns
    have hseat := h.seated hns
    have hne := hcur hns
    refine ⟨?_, ?_, ?_⟩
    · rw [halloc, hcurrent]
      exact hseat.allocated
    · rw [Sched.current, hcurrent, hother _ hne]
      exact hseat.running
    · have htimers : (g.wake t).timers s.currentTask = g.timers s.currentTask :=
        Function.update_of_ne hne _ _
      rw [hcurrent, htimers]
      exact hseat.pending

/-- `clean_dead_task` takes dead tasks from the pool. -/
theorem Steady.cleanLoop (h : Steady g s) (fuel : Nat) (cleanCnt : Int) :
    Returns (cleanLoop fuel cleanCnt s) (Steady g) := by
  induction fuel generalizing s cleanCnt with
  | zero => exact Returns.error
  | succ fuel ih =>
      refine Returns.ite (fun _ => ?_) fun _ => Returns.ok h
      cases hp : s.taskPoolList with
      | nil => exact Returns.error
      | cons t rest =>
          have hmem : t ∈ s.taskPoolList := by
            rw [hp]
            exact List.mem_cons_self
          have hdied : ¬ s.Stuck t → (s.tasks t).status = .DIED :=
            fun ht => (h.upright.standing t ht).poolDied hmem
          have hsub : ∀ u ∈ rest, u ∈ s.taskPoolList := by
            intro u hu
            rw [hp]
            exact List.mem_cons_of_mem t hu
          have hrun : ∀ u, ¬ s.Stuck u → (s.tasks u).status ≠ .DIED → u ≠ t := by
            rintro u hu hst rfl
            exact hst (hdied hu)
          apply ih
          refine ⟨⟨?_, h.upright.stuck, h.upright.marks, ?_, h.upright.markedInCall,
            h.upright.timersMarked, ?_⟩, ?_⟩
          · intro u hu
            have hstand := h.upright.standing u hu
            refine ⟨hstand.ready, ?_, ?_, ?_, hstand.pending, ?_⟩
            · intro hst
              have hut : u ≠ t := by
                apply hrun u hu
                intro hd
                rw [hd] at hst
                simp [Blocking] at hst
              show Function.update s.allocated t false u = true
              rw [Function.update_of_ne hut]
              exact hstand.alive hst
            · have hle := hstand.pool
              rw [hp] at hle
              exact le_trans (List.count_le_count_cons) hle
            · intro hin
              exact hstand.poolDied (hsub u hin)
            · intro ha hst hn
              have hut : u ≠ t := hrun u hu (by rw [hst]; simp)
              have ha : Function.update s.allocated t false u = true := ha
              rw [Function.update_of_ne hut] at ha
              exact hstand.running ha hst hn
          · intro u hu
            have hrest := h.upright.resting u hu
            have hut : u ≠ t := by
              apply hrun u (h.upright.not_stuck hu)
              rcases hrest.status with hst | hst
              · rw [hst]
                simp
              · rw [hst]
                simp
            refine ⟨hrest.conts, ?_, hrest.status⟩
            show Function.update s.allocated t false u = true
            rw [Function.update_of_ne hut]
            exact hrest.allocated
          · obtain ⟨ha, hpool⟩ := h.upright.main
            have hne : s.mainTask ≠ t := by
              intro heq
              exact hpool (heq ▸ hmem)
            constructor
            · show Function.update s.allocated t false s.mainTask = true
              rw [Function.update_of_ne hne]
              exact ha
            · intro hin
              exact hpool (hsub _ hin)
          · intro hns
            have hseat := h.seated hns
            have hne : s.currentTask ≠ t := by
              apply hrun _ hns
              rw [show (s.tasks s.currentTask).status = .RUNNING from hseat.running]
              simp
            refine ⟨?_, hseat.running, hseat.pending⟩
            show Function.update s.allocated t false s.currentTask = true
            rw [Function.update_of_ne hne]
            exact hseat.allocated

/-- A callback whose timer is the first of those pending. -/
theorem Steady.timerCall {n : TimerNode TimerFn} {M : Multiset (TimerNode TimerFn)} {j : Nat}
    (h : Steady g s) (hg : g.timers = helperNodes (n ::ₘ M)) :
    Returns (ThreadSched.timerCall n j s) fun s' =>
      ∃ g', Steady g' s' ∧ g'.timers = helperNodes M ∧ Awakened g g' s' ∧
        (∀ u, g.timers u = 0 → s'.tasks u = s.tasks u) ∧ Grown s s' := by
  have hgrown : Returns (ThreadSched.timerCall n j s) (Grown s) :=
    (timerCall_called s n j).imp fun _ => Called.grown
  refine (hgrown.and ?_).imp ?_ (P := fun s' => Grown s s' ∧
    ∃ g', Steady g' s' ∧ g'.timers = helperNodes M ∧ Awakened g g' s' ∧
      ∀ u, g.timers u = 0 → s'.tasks u = s.tasks u)
  · unfold ThreadSched.timerCall
    cases hn : n.timer with
    | collaborativeScheduleHelper t =>
        have htimers : ∀ u, g.timers u = (if u = t then {n.node} else 0) + helperNodes M u := by
          intro u
          rw [hg, helperNodes_cons, hn]
          simp [eq_comm]
        have hpend : g.timers t ≠ 0 := by
          rw [htimers, if_pos rfl]
          simp
        -- the timer is the only one pending for its task
        have honly : g.timers t = {n.node} ∧ helperNodes M t = 0 := by
          have hcall := h.upright.markedInCall t (h.upright.timersMarked t hpend)
          obtain ⟨-, k, hk⟩ := (h.upright.standing t (h.upright.not_stuck hcall)).pending hpend
          have hsum := htimers t
          rw [hk, if_pos rfl, Multiset.singleton_add] at hsum
          have hcard := congrArg Multiset.card hsum
          rw [Multiset.card_singleton, Multiset.card_cons] at hcard
          have hzero : helperNodes M t = 0 := Multiset.card_eq_zero.1 (by omega)
          rw [htimers, if_pos rfl, hzero, add_zero]
          exact ⟨rfl, rfl⟩
        have hlog : Returns (collaborativeScheduleHelper t n.node j s) fun s' =>
            Event.ready t (.helper n.node j) ∈ s'.log :=
          returns_assertThat fun _ => Returns.pure (List.mem_append_right _ List.mem_cons_self)
        have hsame : Returns (collaborativeScheduleHelper t n.node j s) fun s' =>
            ∀ u, g.timers u = 0 → s'.tasks u = s.tasks u := by
          refine returns_assertThat fun _ => Returns.pure ?_
          intro u hu
          have hut : u ≠ t := by
            rintro rfl
            exact hpend hu
          simp [Sched.emit, Sched.modTask, Function.update_of_ne hut]
        refine (((h.helper hpend n.node j).and hlog).and hsame).imp ?_
        rintro s' ⟨⟨hs', hin⟩, hsame⟩
        have hself : (g.wake t).marked t = false ∧ (g.wake t).timers t = 0 := by
          simp [Sleeping.wake]
        have hother : ∀ u, u ≠ t →
            (g.wake t).marked u = g.marked u ∧ (g.wake t).timers u = g.timers u := by
          intro u hut
          simp [Sleeping.wake, Function.update_of_ne hut]
        refine ⟨g.wake t, hs', ?_, ⟨rfl, ?_⟩, hsame⟩
        · funext u
          by_cases hut : u = t
          · rw [hut, hself.2, honly.2]
          · have hrest := htimers u
            rw [if_neg hut, zero_add] at hrest
            rw [(hother u hut).2, hrest]
        · intro u
          by_cases hut : u = t
          · rw [hut]
            exact Or.inr ⟨hself.1, hself.2, n.node, j, honly.1, hin⟩
          · exact Or.inl (hother u hut)
    | cleanDeadTask =>
        have hrest : g.timers = helperNodes M := by
          funext u
          rw [hg, helperNodes_cons, hn, if_neg (by simp), zero_add]
        have hclean : Returns (cleanDeadTask s) (Steady g) :=
          Returns.ite (fun _ => Returns.ok h) fun _ => h.cleanLoop _ _
        refine (hclean.and (cleanDeadTask_freed s)).imp ?_
        rintro s' ⟨hs', pool, stackMem, structMem, rfl⟩
        exact ⟨g, hs', hrest, Awakened.refl g _, fun u _ => rfl⟩
  · rintro s' ⟨hlog, g', hs', htimers, haw, hsame⟩
    exact ⟨g', hs', htimers, haw, hsame, hlog⟩

/-! ## Ticks -/

/-- The state of `run_timer` since it began with `g` and `s`. -/
structure Walked (g : Sleeping) (s : Sched) (M : Multiset (TimerNode TimerFn)) (s' : Sched) : Prop where
  sleepers : ∃ g', Steady g' s' ∧ g'.timers = helperNodes M ∧ Awakened g g' s'
  same : ∀ t, g.timers t = 0 → s'.tasks t = s.tasks t
  grown : Grown s s'

theorem Awakened.no_timer (h : Awakened g g' s) (ht : g.timers t = 0) : g'.timers t = 0 := by
  rcases h.each t with ⟨-, heq⟩ | ⟨-, heq, -⟩
  · rw [heq]
    exact ht
  · exact heq

theorem Grown.refl (s : Sched) : Grown s s := ⟨[], (List.append_nil _).symm⟩

theorem Grown.mem (h : Grown s s') {e : Event} (he : e ∈ s.log) : e ∈ s'.log := by
  obtain ⟨es, hes⟩ := h
  rw [hes]
  exact List.mem_append_left _ he

theorem Walked.timerCall {n : TimerNode TimerFn} {M : Multiset (TimerNode TimerFn)} {j : Nat}
    (h : Walked g s (n ::ₘ M) s') : Returns (ThreadSched.timerCall n j s') (Walked g s M) := by
  obtain ⟨⟨g₁, hs₁, htimers, haw⟩, hsame, hgrown⟩ := h
  refine (hs₁.timerCall htimers).imp ?_
  rintro s'' ⟨g₂, hs₂, htimers₂, haw₂, hsame₂, hgrown₂⟩
  exact ⟨⟨g₂, hs₂, htimers₂, haw.trans haw₂ fun e => hgrown₂.mem⟩,
    fun t ht => (hsame₂ t (haw.no_timer ht)).trans (hsame t ht), hgrown.trans hgrown₂⟩

theorem Walked.runTick {tm : TimerManager TimerFn} (h : Walked g s tm.linked s')
    (hone : OneShot tm) : Returns (Wheel.runTick ThreadSched.timerCall (tm, s')) fun w =>
      Walked g s w.1.linked w.2 ∧ OneShot w.1 ∧ w.1.uExitFlag = tm.uExitFlag := by
  obtain ⟨rest, hr, hr'⟩ := Wheel.tickWheel_linked tm
  have hticks : ∀ n ∈ tickNodes tm, ∀ t, n.timer = .collaborativeScheduleHelper t → n.uPeriod = 0 :=
    fun n hn => hone n (by rw [hr]; exact Multiset.mem_add.2 (Or.inr hn))
  have hwalk := Returns.foldlM (f := fun s n => ThreadSched.timerCall n tm.uJiffies s)
    (I := fun l s' => Walked g s (rest + (l : Multiset (TimerNode TimerFn))) s') ?_ (tickNodes tm) s'
    (by rw [← hr]; exact h)
  · rw [Wheel.runTick_eq]
    intro w hw
    cases hf : (tickNodes tm).foldlM (fun s n => ThreadSched.timerCall n tm.uJiffies s) s' with
    | error e => rw [hf] at hw; cases hw
    | ok s'' =>
        rw [hf] at hw
        cases hw
        obtain ⟨⟨g', hs', htimers, haw⟩, hsame, hgrown⟩ := hwalk s'' hf
        refine ⟨⟨⟨g', hs', ?_, haw⟩, hsame, hgrown⟩, ?_, Wheel.tickWheel_uExitFlag tm⟩
        · rw [htimers]
          funext t
          rw [hr', Multiset.coe_nil, add_zero, helperNodes_add, helperNodes_rearmed _ hticks, add_zero]
        · intro n hn t ht
          rw [hr'] at hn
          rcases Multiset.mem_add.1 hn with hn | hn
          · exact hone n (by rw [hr]; exact Multiset.mem_add.2 (Or.inl hn)) t ht
          · obtain ⟨m, hm, rfl⟩ := List.mem_map.1 (Multiset.mem_coe.1 hn)
            exact hticks m (List.mem_filter.1 hm).1 t ht
  · intro n l s'' hs''
    have hcons : rest + (↑(n :: l) : Multiset (TimerNode TimerFn)) = n ::ₘ (rest + ↑l) := by
      rw [← Multiset.cons_coe, Multiset.add_cons]
    rw [hcons] at hs''
    exact hs''.timerCall

theorem Walked.runTimerLoop (r fuel : Nat) {w : TimerManager TimerFn × Sched}
    (h : Walked g s w.1.linked w.2) (hone : OneShot w.1) :
    Returns (Wheel.runTimerLoop ThreadSched.timerCall .hang r fuel w) fun w' =>
      Walked g s w'.1.linked w'.2 ∧ OneShot w'.1 ∧ w'.1.uExitFlag = w.1.uExitFlag := by
  induction fuel generalizing w with
  | zero => exact Returns.error
  | succ fuel ih =>
      refine Returns.ite (fun _ => ?_) fun _ => Returns.ok ⟨h, hone, rfl⟩
      refine (h.runTick hone).bind ?_
      rintro w' ⟨h', hone', hexit⟩
      exact (ih h' hone').imp fun w'' hw'' => ⟨hw''.1, hw''.2.1, hw''.2.2.trans hexit⟩

/-! ## The handler -/

/-- **The invariant** of the scheduler with its wheel. -/
structure Watch (g : Sleeping) (w : World) : Prop where
  steady : Steady g w.sched
  timers : g.timers = helperNodes w.tm.linked
  tame : Tame w.sched
  oneShot : OneShot w.tm
  exitFlag : w.tm.uExitFlag = 0

/-- No field of the invariant speaks of locks. -/
theorem Steady.setLocks (h : Steady g s) (locks : LockId → Lock) :
    Steady g { s with locks := locks } where
  upright := ⟨fun t ht => (h.upright.standing t ht).congr rfl rfl rfl rfl id, h.upright.stuck,
    h.upright.marks,
    fun t ht => ⟨(h.upright.resting t ht).conts, (h.upright.resting t ht).allocated,
      (h.upright.resting t ht).status⟩,
    h.upright.markedInCall, h.upright.timersMarked, h.upright.main⟩
  seated := fun ht => ⟨(h.seated ht).allocated, (h.seated ht).running, (h.seated ht).pending⟩

/-- The handler before its switch wakes sleepers. -/
theorem Watch.advance {w : World} (h : Watch g w) (r : Nat) :
    Returns (w.advance r) fun v => ∃ g', Watch g' v ∧ Awakened g g' v.sched ∧
      v.sched.currentTask = w.sched.currentTask ∧ v.nodes = w.nodes ∧
      ∀ t, g.timers t = 0 → v.sched.tasks t = w.sched.tasks t := by
  refine (h.tame.advance r).and ?_ |>.imp ?_ (P := fun v => Tame v.sched ∧
    ∃ g', Steady g' v.sched ∧ g'.timers = helperNodes v.tm.linked ∧ Awakened g g' v.sched ∧
      OneShot v.tm ∧ v.tm.uExitFlag = 0 ∧ v.sched.currentTask = w.sched.currentTask ∧
      v.nodes = w.nodes ∧ ∀ t, g.timers t = 0 → v.sched.tasks t = w.sched.tasks t)
  · refine Returns.ite (fun _ => Returns.error) fun _ => Returns.ite (fun _ => ?_) fun hne =>
      absurd h.exitFlag hne
    unfold World.runTimer
    rw [lockAcquireNow_eq h.tame.timer, ok_bind]
    have hstart : Walked g w.sched w.tm.linked
        (w.sched.modLock .timer fun _ => heldBy w.sched.currentTask) :=
      ⟨⟨g, h.steady.setLocks _, h.timers, Awakened.refl g _⟩, fun _ _ => rfl, Grown.refl _⟩
    refine ((hstart.runTimerLoop r _ (w := (w.tm, _)) h.oneShot).and
      (runTimerLoop_undisturbed r _ _)).bind ?_
    rintro ⟨tm, s⟩ ⟨⟨⟨⟨g', hs, htimers, haw⟩, hsame, -⟩, hone, hexit⟩, hu⟩
    show Returns (ThreadSched.lockRelease .timer s >>= _) _
    rw [withLock_eq h.tame.timer s hu.locks hu.current]
    exact Returns.pure ⟨g', hs.setLocks _, htimers, ⟨haw.inCall, haw.each⟩, hone,
      hexit.trans h.exitFlag, hu.current, rfl, hsame⟩
  · rintro v ⟨htame, g', hs, htimers, haw, hone, hexit, hcur, hnodes, hsame⟩
    exact ⟨g', ⟨hs, htimers, htame, hone, hexit⟩, haw, hcur, hnodes, hsame⟩

/-- The current task, which is marked asleep, gets a timer. -/
theorem Steady.arm (h : Steady g s) (hmark : s.current.isCollaborativeSchedule = true) (node : Nat) :
    Upright (g.arm s.currentTask node) s := by
  have hmarked : g.marked s.currentTask = true := (h.upright.marks s.currentTask).symm.trans hmark
  have hnot := h.upright.not_stuck (h.upright.markedInCall _ hmarked)
  have hseat := h.seated hnot
  have htimers : ∀ u, u ≠ s.currentTask → (g.arm s.currentTask node).timers u = g.timers u :=
    fun u hu => Function.update_of_ne hu _ _
  refine ⟨?_, h.upright.stuck, h.upright.marks, fun t ht => h.upright.resting t ht,
    h.upright.markedInCall, ?_, h.upright.main⟩
  · intro u hu
    have hstand := h.upright.standing u hu
    by_cases huc : u = s.currentTask
    · subst huc
      have htimer : (g.arm s.currentTask node).timers s.currentTask = {node} :=
        Function.update_self _ _ _
      rw [htimer]
      refine ⟨hstand.ready, hstand.alive, hstand.pool, hstand.poolDied,
        fun _ => ⟨hseat.running, node, rfl⟩, ?_⟩
      intro _ _ _
      rfl
    · rw [htimers u huc]
      exact hstand
  · intro u hu
    by_cases huc : u = s.currentTask
    · rw [huc]
      exact hmarked
    · rw [htimers u huc] at hu
      exact h.upright.timersMarked u hu

/-- The switch away from it. -/
theorem Steady.fallAsleep (h : Steady g s) (hmark : s.current.isCollaborativeSchedule = true)
    (node : Nat) :
    Returns (collaborativeSchedule s) (Steady (g.arm s.currentTask node)) := by
  have hmarked : g.marked s.currentTask = true := (h.upright.marks s.currentTask).symm.trans hmark
  have hnot := h.upright.not_stuck (h.upright.markedInCall _ hmarked)
  refine Returns.ite (fun _ => Returns.error) fun _ => (h.arm hmark node).getNextTask ?_ ?_
  · intro u hu
    rcases (h.upright.stuck u hu).2 with rfl | hready
    · exact absurd hu hnot
    · exact hready
  · intro _ _ _
    have htimer : (g.arm s.currentTask node).timers s.currentTask = {node} :=
      Function.update_self _ _ _
    rw [htimer]
    exact Multiset.singleton_ne_zero node

theorem helperNodes_createTimer (tm : TimerManager TimerFn) (node : Nat) (u t : TaskId) (d : Nat) :
    helperNodes (Wheel.createTimer tm node (.collaborativeScheduleHelper u) d 0).linked t =
      (if u = t then {node} else 0) + helperNodes tm.linked t := by
  unfold Wheel.createTimer
  rw [Wheel.addTimer_linked, helperNodes_cons]
  simp [Wheel.newTimer]

/-- The handler puts the current task, which is marked asleep, to sleep. -/
theorem Watch.fallAsleep {v : World} (h : Watch g v)
    (hmark : v.sched.current.isCollaborativeSchedule = true) :
    Returns (do
      let w ← v.createTimer (.collaborativeScheduleHelper v.sched.currentTask)
        v.sched.current.sleepMillisecond 0
      let s ← collaborativeSchedule w.sched
      pure { w with sched := s }) fun w' =>
      Grown v.sched w'.sched ∧ Watch (g.arm v.sched.currentTask v.nodes) w' := by
  have hmarked := (h.steady.upright.marks v.sched.currentTask).symm.trans hmark
  have hnot := h.steady.upright.not_stuck (h.steady.upright.markedInCall _ hmarked)
  refine returns_createTimer h.tame.timer ?_
  refine (((h.steady.fallAsleep hmark v.nodes).and h.tame.collaborativeSchedule).and
    (collaborativeSchedule_quiet v.sched)).bind ?_
  rintro s' ⟨⟨hs', htame⟩, hq⟩
  refine Returns.pure ⟨hq.grown, hs', ?_, htame, ?_, ?_⟩
  · funext u
    rw [helperNodes_createTimer, ← h.timers]
    by_cases huc : v.sched.currentTask = u
    · subst huc
      rw [if_pos rfl, (h.steady.seated hnot).pending, add_zero]
      exact Function.update_self _ _ _
    · rw [if_neg huc, zero_add]
      exact Function.update_of_ne (Ne.symm huc) _ _
  · exact h.oneShot.createTimer _ _ _ _ fun _ _ => rfl
  · show (Wheel.createTimer _ _ _ _ _).uExitFlag = 0
    unfold Wheel.createTimer
    rw [Wheel.addTimer_uExitFlag]
    exact h.exitFlag

/-- The handler switches away from the current task, or shortens its time slice. -/
theorem Watch.stayAwake {v : World} (h : Watch g v) :
    Returns (do
      let s ← schedule v.sched
      pure { v with sched := s }) (fun w' => Grown v.sched w'.sched ∧ Watch g w') ∧
    Watch g { v with sched := v.sched.countDown } := by
  constructor
  · refine ((h.steady.schedule.and h.tame.schedule).and (schedule_quiet v.sched)).bind ?_
    rintro s' ⟨⟨hs', htame⟩, hq⟩
    exact Returns.pure ⟨hq.grown, hs', h.timers, htame, h.oneShot, h.exitFlag⟩
  · exact ⟨h.steady.countDown, h.timers, h.tame.of rfl rfl fun _ _ => Or.inl, h.oneShot, h.exitFlag⟩

/-- What a call of the handler leaves: sleepers that its timers woke, and one timer for the current
task when that is marked asleep. -/
structure Interrupted (g : Sleeping) (w w' v : World) (g' : Sleeping) : Prop where
  watch : Watch g' v
  awakened : Awakened g g' v.sched
  current : v.sched.currentTask = w.sched.currentTask
  nodes : v.nodes = w.nodes
  same : ∀ t, g.timers t = 0 → v.sched.tasks t = w.sched.tasks t
  grown : Grown v.sched w'.sched
  armed : Watch (if v.sched.current.isCollaborativeSchedule then g'.arm v.sched.currentTask v.nodes
    else g') w'

/-- **A tick.** -/
theorem Watch.handler {w : World} (h : Watch g w) (r : Nat) :
    Returns (interruptTimerHandler r w) fun w' =>
      ∃ v, w.advance r = .ok v ∧ ∃ g', Interrupted g w w' v g' := by
  refine returns_assertThat fun _ => ?_
  have hadvance : Returns (w.advance r) fun v => w.advance r = .ok v := fun v hv => hv
  refine (hadvance.and (h.advance r)).bind ?_
  rintro v ⟨hadv, g', hv, haw, hcur, hnodes, hsame⟩
  have hstays : v.sched.current.isCollaborativeSchedule = false → ∀ w' : World,
      Grown v.sched w'.sched ∧ Watch g' w' → Interrupted g w w' v g' := by
    rintro hmark w' ⟨hgrown, hw'⟩
    refine ⟨hv, haw, hcur, hnodes, hsame, hgrown, ?_⟩
    rw [if_neg (by simp [hmark])]
    exact hw'
  refine Returns.ite (fun hs => ?_) fun _ => Returns.ite (fun hs => ?_) fun hs => ?_
  · exact hv.stayAwake.1.imp fun w' hw' => ⟨v, hadv, g', hstays hs.1 w' hw'⟩
  · exact Returns.pure ⟨v, hadv, g', hstays hs _ ⟨Grown.refl _, hv.stayAwake.2⟩⟩
  · have hmark : v.sched.current.isCollaborativeSchedule = true := by simpa using hs
    refine (hv.fallAsleep hmark).imp ?_
    rintro w' ⟨hgrown, hw'⟩
    refine ⟨v, hadv, g', hv, haw, hcur, hnodes, hsame, hgrown, ?_⟩
    rw [if_pos hmark]
    exact hw'

/-! ## The other actions -/

/-- An action of a task that is in no call of `sleep`. -/
theorem Watch.act {w : World} (h : Watch g w) (hcall : ¬ g.inCall w.sched.currentTask)
    {a : Action} (ha : a.enabled w) (hsleep : ∀ milliseconds, a ≠ .sleep milliseconds)
    (htick : ∀ r, a ≠ .tick r) :
    Returns (w.act a) fun w' => Watch g w' ∧ Grown w.sched w'.sched := by
  refine ((h.tame.act a).and (act_grown w a)).and ?_ |>.imp ?_ (P := fun w' =>
    (Tame w'.sched ∧ Grown w.sched w'.sched) ∧ Steady g w'.sched ∧ w'.tm = w.tm)
  · have hact : w.act a = schedAction w.sched a >>= fun s => pure { w with sched := s } := by
      cases a with
      | tick r => exact absurd rfl (htick r)
      | _ => rfl
    rw [hact]
    refine (h.steady.schedAction h.tame hcall rfl ha hsleep).bind ?_
    intro s' hs'
    exact Returns.pure ⟨hs', rfl⟩
  · rintro w' ⟨⟨htame, hgrown⟩, hs', htm⟩
    refine ⟨⟨hs', ?_, htame, ?_, ?_⟩, hgrown⟩
    · rw [htm]
      exact h.timers
    · rw [htm]
      exact h.oneShot
    · rw [htm]
      exact h.exitFlag

/-! ## The current task's own fields -/

/-- The current task is not stuck when it can act by itself. -/
theorem not_stuck_of_conts {s : Sched} (h : s.conts s.currentTask = []) : ¬ s.Stuck s.currentTask := by
  unfold Sched.Stuck
  rw [h]
  exact List.not_mem_nil

/-- The current task writes its own fields, not its status. -/
theorem Watch.modCurrent {w : World} (h : Watch g w) (hns : ¬ w.sched.Stuck w.sched.currentTask)
    (f : TaskStruct → TaskStruct) (hstatus : (f w.sched.current).status = w.sched.current.status)
    (hcall : (f w.sched.current).isCollaborativeSchedule = true → g.inCall w.sched.currentTask) :
    Watch { g with
        marked := Function.update g.marked w.sched.currentTask
          (f w.sched.current).isCollaborativeSchedule }
      { w with sched := w.sched.modTask w.sched.currentTask f } := by
  have hseat := h.steady.seated hns
  have hself : (w.sched.modTask w.sched.currentTask f).tasks w.sched.currentTask =
      f w.sched.current := Function.update_self _ _ _
  have hother : ∀ u, u ≠ w.sched.currentTask →
      (w.sched.modTask w.sched.currentTask f).tasks u = w.sched.tasks u :=
    fun u hu => Function.update_of_ne hu _ _
  have hstat : ∀ u, ((w.sched.modTask w.sched.currentTask f).tasks u).status =
      (w.sched.tasks u).status := by
    intro u
    by_cases huc : u = w.sched.currentTask
    · rw [huc, hself]
      exact hstatus
    · rw [hother u huc]
  refine ⟨⟨⟨?_, h.steady.upright.stuck, ?_, ?_, ?_, ?_, h.steady.upright.main⟩, ?_⟩, h.timers,
    h.tame.of rfl rfl fun _ _ => Or.inl, h.oneShot, h.exitFlag⟩
  · intro u hu
    exact (h.steady.upright.standing u hu).congr rfl (hstat u) rfl rfl id
  · intro u
    by_cases huc : u = w.sched.currentTask
    · rw [huc, Sched.marked, hself]
      exact (Function.update_self _ _ g.marked).symm
    · rw [Sched.marked, hother u huc]
      exact (h.steady.upright.marks u).trans (Function.update_of_ne huc _ g.marked).symm
  · intro u hu
    have hrest := h.steady.upright.resting u hu
    refine ⟨hrest.conts, hrest.allocated, ?_⟩
    rw [hstat]
    exact hrest.status
  · intro u hu
    by_cases huc : u = w.sched.currentTask
    · subst huc
      exact hcall ((Function.update_self _ _ g.marked).symm.trans hu)
    · exact h.steady.upright.markedInCall u ((Function.update_of_ne huc _ g.marked).symm.trans hu)
  · intro u hu
    by_cases huc : u = w.sched.currentTask
    · subst huc
      exact absurd hseat.pending hu
    · exact (Function.update_of_ne huc _ g.marked).trans (h.steady.upright.timersMarked u hu)
  · intro _
    refine ⟨hseat.allocated, ?_, hseat.pending⟩
    exact (hstat _).trans hseat.running

/-- A task begins a call, or returns from it. -/
theorem Watch.calls {w : World} (h : Watch g w) {C : TaskId → Prop} (hrest : ∀ u, C u → Napping w.sched u)
    (hmark : ∀ u, g.marked u = true → C u) : Watch { g with inCall := C } w :=
  ⟨⟨⟨h.steady.upright.standing, h.steady.upright.stuck, h.steady.upright.marks, hrest, hmark,
    h.steady.upright.timersMarked, h.steady.upright.main⟩,
    fun hns => ⟨(h.steady.seated hns).allocated, (h.steady.seated hns).running,
      (h.steady.seated hns).pending⟩⟩, h.timers, h.tame, h.oneShot, h.exitFlag⟩

/-! ## The start -/

/-- Nobody sleeps. -/
def Sleeping.none : Sleeping := ⟨fun _ => False, fun _ => false, fun _ => 0⟩

theorem steady_mainOnly (addr stack : Nat) : Steady .none (mainOnly addr stack) := by
  have hcur := currentTask_mainOnly addr stack
  have hnot : ∀ t, ¬ (mainOnly addr stack).Stuck t := by
    intro t
    unfold Sched.Stuck
    rw [show (mainOnly addr stack).conts t = [] from rfl]
    exact List.not_mem_nil
  have hself : ((mainOnly addr stack).tasks addr).status = .RUNNING := by
    simp [mainOnly, inited, initedTask, initFields]
  have hother : ∀ t, t ≠ addr → (mainOnly addr stack).tasks t = .zero := by
    intro t ht
    simp [mainOnly, inited, Function.update_of_ne ht, tidPoolInit, boot]
  have halloc : (mainOnly addr stack).allocated addr = true := by
    simp [mainOnly, inited, tidPoolInit, boot]
  refine ⟨⟨?_, fun t ht => absurd ht (hnot t), ?_, fun t ht => ht.elim, by rintro _ ⟨⟩,
    fun t ht => absurd rfl ht, ?_⟩, ?_⟩
  · intro t _
    have hready : (mainOnly addr stack).taskReadyList = [] := rfl
    have hpool : (mainOnly addr stack).taskPoolList = [] := rfl
    by_cases ht : t = addr
    · subst ht
      refine ⟨?_, fun _ => halloc, ?_, ?_, fun hn => absurd rfl hn, fun _ _ _ => hcur.symm⟩
      · rw [hself, hready]
        rfl
      · rw [hpool]
        simp
      · rw [hpool]
        exact fun hp => absurd hp List.not_mem_nil
    · have hzero : ((mainOnly addr stack).tasks t).status = TaskStruct.zero.status := by
        rw [hother t ht]
      have hrunning : ((mainOnly addr stack).tasks t).status = .RUNNING := hzero
      have hfree : (mainOnly addr stack).allocated t = false := by
        simp [mainOnly, inited, Function.update_of_ne ht, tidPoolInit, boot]
      refine ⟨?_, ?_, ?_, ?_, fun hn => absurd rfl hn, ?_⟩
      · rw [hrunning, hready]
        rfl
      · rw [hrunning]
        rintro (hst | hst)
        · cases hst
        · simp [Blocking] at hst
      · rw [hpool]
        simp
      · rw [hpool]
        exact fun hp => absurd hp List.not_mem_nil
      · rw [hfree]
        simp
  · intro t
    by_cases ht : t = addr
    · subst ht
      simp [Sched.marked, mainOnly, inited, initedTask, initFields, Sleeping.none]
    · rw [Sched.marked, hother t ht]
      rfl
  · exact ⟨halloc, List.not_mem_nil⟩
  · intro _
    refine ⟨?_, ?_, rfl⟩
    · rw [hcur]
      exact halloc
    · rw [Sched.current, hcur]
      exact hself

theorem Watch.init {w : World} (hw : World.Init w) : Watch .none w := by
  have hinv := WorldInv.init hw
  obtain ⟨addr, stack, j, _, hw⟩ := hw
  rw [start_eq] at hw
  cases hw
  refine ⟨steady_mainOnly addr stack, ?_, hinv.tame, hinv.oneShot, hinv.exitFlag⟩
  · funext t
    unfold Wheel.createTimer
    rw [Wheel.addTimer_linked, helperNodes_cons, Wheel.empty_linked]
    rfl

end ThreadSched
