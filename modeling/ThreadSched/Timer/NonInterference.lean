import ThreadSched.Timer.NeverLate

/-!
# Timers do not interfere

Two runs of the wheel with the same clock readings, one of which creates and deletes additional
timers.  The timers are named by their `create_timer` calls; a timer's name is its node.

* `erase keep` — the wheel without the timers that are not kept.  It commutes with every operation:
  `erase_addTimer`, `erase_cascades`, `tickWheel_erase`, `erase_deleteTimer`.
* `exec_erase` — so the smaller run is the larger one with the additional timers erased.
* `timers_do_not_interfere` — the calls of the common timers are the same sequence in both runs, and a
  deleted timer is not called again.
-/

set_option autoImplicit false

namespace ThreadSched.Wheel

variable {α σ : Type}

/-! ## Runs -/

/-- What a program does with the wheel, between and with its `run_timer` calls. -/
inductive Op (α : Type) where
  | createTimer (node : Nat) (timer : α) (uDueTime uPeriod : Nat)
  | deleteTimer (node : Nat)
  | runTimer (uJiffies : Nat)

def exec (cb : α → σ → σ) (w : TimerManager α × Log σ) : Op α → Except Unit (TimerManager α × Log σ)
  | .createTimer node timer uDueTime uPeriod =>
      .ok (createTimer w.1 node timer uDueTime uPeriod,
        { w.2 with armed := w.2.armed ++ [(newTimer w.1 node timer uDueTime uPeriod).arming] })
  | .deleteTimer node => .ok (deleteTimer w.1 node, w.2)
  | .runTimer uJiffies => runTimer (logCall cb) () uJiffies w

/-- A run: its operations in order. -/
def execAll (cb : α → σ → σ) (ops : List (Op α)) (w : TimerManager α × Log σ) :
    Except Unit (TimerManager α × Log σ) :=
  ops.foldlM (exec cb) w

/-- The operation is about a timer that is kept, or about none. -/
def Op.kept (keep : Nat → Bool) : Op α → Bool
  | .createTimer node _ _ _ => keep node
  | .deleteTimer node => keep node
  | .runTimer _ => true

/-- The calls of the timers that are kept, in order. -/
def callsOf (keep : Nat → Bool) (L : Log σ) : List (Arming × Nat) :=
  L.calls.filter fun c => keep c.1.node

/-! ## Erasing timers -/

/-- The wheel without the timers that are not kept. -/
def erase (keep : Nat → Bool) (tm : TimerManager α) : TimerManager α :=
  { tm with arrListTimer := fun s => (tm.arrListTimer s).filter fun n => keep n.node }

section erase

variable (keep : Nat → Bool) (tm : TimerManager α)

@[simp] theorem erase_uJiffies : (erase keep tm).uJiffies = tm.uJiffies := rfl

theorem erase_listTimerInsertTail (s : Slot) (n : TimerNode α) :
    erase keep (listTimerInsertTail tm s n) =
      if keep n.node then listTimerInsertTail (erase keep tm) s n else erase keep tm := by
  unfold erase listTimerInsertTail
  simp only
  by_cases hn : keep n.node = true
  · rw [if_pos hn]
    congr 1
    funext t
    by_cases ht : t = s
    · subst ht
      simp [hn]
    · rw [Function.update_of_ne ht, Function.update_of_ne ht]
  · rw [if_neg hn]
    congr 1
    funext t
    by_cases ht : t = s
    · subst ht
      simp [hn]
    · rw [Function.update_of_ne ht]

theorem erase_addTimer (n : TimerNode α) :
    erase keep (addTimer tm n) = if keep n.node then addTimer (erase keep tm) n else erase keep tm := by
  unfold addTimer
  rw [erase_listTimerInsertTail]
  rfl

theorem erase_foldl_addTimer (l : List (TimerNode α)) :
    erase keep (l.foldl addTimer tm) =
      (l.filter fun n => keep n.node).foldl addTimer (erase keep tm) := by
  induction l generalizing tm with
  | nil => rfl
  | cons n l ih =>
      rw [List.foldl_cons, ih, erase_addTimer, List.filter_cons]
      by_cases hn : keep n.node = true
      · rw [if_pos hn, if_pos hn, List.foldl_cons]
      · rw [if_neg hn, if_neg hn]

theorem erase_replaceInit (s : Slot) :
    erase keep (listTimerReplaceInit tm s) = listTimerReplaceInit (erase keep tm) s := by
  unfold erase listTimerReplaceInit
  simp only
  congr 1
  funext t
  by_cases ht : t = s
  · subst ht
    simp
  · rw [Function.update_of_ne ht, Function.update_of_ne ht]

theorem cascadeTimer_erase (arr : Fin 5) (idx : Nat) :
    cascadeTimer (erase keep tm) arr idx = (erase keep (cascadeTimer tm arr idx).1, idx) := by
  unfold cascadeTimer
  rw [erase_foldl_addTimer, erase_replaceInit]
  rfl

theorem INDEX_erase (N : Nat) : INDEX (erase keep tm) N = INDEX tm N := rfl

theorem cascades_erase : cascades (erase keep tm) = erase keep (cascades tm) := by
  unfold cascades
  simp only [erase_uJiffies, cascadeTimer_erase, INDEX_erase]
  -- the same cascades are made, since they depend on `uJiffies` only
  split_ifs with h h₀ h₁ h₂ h₀' h₁' h₂' <;> first | rfl | contradiction

theorem tickNodes_erase :
    tickNodes (erase keep tm) = (tickNodes tm).filter fun n => keep n.node := by
  unfold tickNodes
  rw [cascades_erase]
  rfl

theorem rearmed_filter (j : Nat) (l : List (TimerNode α)) :
    rearmed j (l.filter fun n => keep n.node) = (rearmed j l).filter fun n => keep n.node := by
  unfold rearmed
  rw [List.filter_map, List.filter_filter, List.filter_filter]
  congr 1
  apply List.filter_congr
  intro n _
  rw [Bool.and_comm]
  rfl

/-- **A tick commutes with erasing.** -/
theorem tickWheel_erase : tickWheel (erase keep tm) = erase keep (tickWheel tm) := by
  unfold tickWheel
  simp only
  rw [tickNodes_erase, rearmed_filter, cascades_erase, ← erase_replaceInit, erase_uJiffies,
    ← erase_foldl_addTimer]
  rfl

theorem erase_createTimer (node : Nat) (timer : α) (d p : Nat) :
    erase keep (createTimer tm node timer d p) =
      if keep node then createTimer (erase keep tm) node timer d p else erase keep tm := by
  unfold createTimer
  rw [erase_addTimer]
  rfl

theorem erase_deleteTimer (node : Nat) :
    erase keep (deleteTimer tm node) =
      if keep node then deleteTimer (erase keep tm) node else erase keep tm := by
  unfold erase deleteTimer
  simp only [List.filter_filter]
  by_cases hk : keep node = true
  · rw [if_pos hk]
    congr 1
    funext s
    apply List.filter_congr
    intro n _
    exact Bool.and_comm _ _
  · rw [if_neg hk]
    congr 1
    funext s
    apply List.filter_congr
    intro n _
    by_cases hn : n.node = node
    · rw [hn]
      simp [hk]
    · simp [hn]

end erase

/-! ## Comparing two runs -/

/-- The second run is the first one with the timers that are not kept erased. -/
structure Erased (keep : Nat → Bool) (w w' : TimerManager α × Log σ) : Prop where
  wheel : w'.1 = erase keep w.1
  calls : w'.2.calls = callsOf keep w.2

/-- Timer `node` is not in the wheel, and its calls so far are `calls`. -/
structure Gone (node : Nat) (calls : List (Arming × Nat)) (w : TimerManager α × Log σ) : Prop where
  wheel : erase (fun n => n ≠ node) w.1 = w.1
  calls : callsOf (fun n => n = node) w.2 = calls

/-- A tick of a wheel with its log. -/
def tickLog (cb : α → σ → σ) (w : TimerManager α × Log σ) : TimerManager α × Log σ :=
  (tickWheel w.1, logWalk cb w.1.uJiffies (tickNodes w.1) w.2)

section compare

variable {cb : α → σ → σ} {keep : Nat → Bool}

theorem callsOf_logWalk (j : Nat) (l : List (TimerNode α)) (L : Log σ) :
    callsOf keep (logWalk cb j l L) =
      callsOf keep L ++ (l.filter fun n => keep n.node).map fun n => (n.arming, j) := by
  unfold callsOf logWalk
  simp only
  rw [List.filter_append, List.filter_map]
  rfl

theorem Erased.tick {w w' : TimerManager α × Log σ} (h : Erased keep w w') :
    Erased keep (tickLog cb w) (tickLog cb w') := by
  constructor
  · show tickWheel w'.1 = erase keep (tickWheel w.1)
    rw [h.wheel, tickWheel_erase]
  · show (logWalk cb w'.1.uJiffies (tickNodes w'.1) w'.2).calls = callsOf keep (logWalk _ _ _ _)
    rw [callsOf_logWalk, ← h.calls, h.wheel, tickNodes_erase]
    rfl

theorem Gone.tick {node : Nat} {calls : List (Arming × Nat)} {w : TimerManager α × Log σ}
    (h : Gone node calls w) : Gone node calls (tickLog cb w) := by
  constructor
  · show erase _ (tickWheel w.1) = tickWheel w.1
    rw [← tickWheel_erase, h.wheel]
  · show callsOf _ (logWalk _ _ _ _) = calls
    rw [callsOf_logWalk, h.calls, ← h.wheel, tickNodes_erase, List.filter_filter]
    have hnone : ∀ l : List (TimerNode α),
        l.filter (fun n => decide (n.node = node) && decide (n.node ≠ node)) = [] := by
      intro l
      rw [List.filter_eq_nil_iff]
      intro n _
      simp
    rw [hnone]
    simp

/-- The loop of `run_timer` on both wheels: it makes the same ticks. -/
theorem Erased.runTimerLoop {w w' v : TimerManager α × Log σ} (h : Erased keep w w') {r fuel : Nat}
    (hrun : runTimerLoop (logCall cb) () r fuel w = .ok v) :
    ∃ v', Wheel.runTimerLoop (logCall cb) () r fuel w' = .ok v' ∧ Erased keep v v' := by
  induction fuel generalizing w w' with
  | zero => cases hrun
  | succ fuel ih =>
      have hj : w'.1.uJiffies = w.1.uJiffies := by rw [h.wheel, erase_uJiffies]
      rw [Wheel.runTimerLoop] at hrun ⊢
      rw [hj]
      split at hrun
      · next hle =>
          rw [if_pos hle]
          rw [runTick_logCall] at hrun ⊢
          exact ih h.tick hrun
      · next hlt =>
          rw [if_neg hlt]
          cases hrun
          exact ⟨w', rfl, h⟩

theorem Gone.runTimerLoop {node : Nat} {calls : List (Arming × Nat)} {w v : TimerManager α × Log σ}
    (h : Gone node calls w) {r fuel : Nat} (hrun : runTimerLoop (logCall cb) () r fuel w = .ok v) :
    Gone node calls v := by
  induction fuel generalizing w with
  | zero => cases hrun
  | succ fuel ih =>
      rw [Wheel.runTimerLoop] at hrun
      split at hrun
      · rw [runTick_logCall] at hrun
        exact ih h.tick hrun
      · cases hrun
        exact h

/-- **One operation**: one about a kept timer is made in both runs, another one only in the first. -/
theorem exec_erase {w w' v : TimerManager α × Log σ} (h : Erased keep w w') {op : Op α}
    (hrun : exec cb w op = .ok v) :
    if op.kept keep then ∃ v', exec cb w' op = .ok v' ∧ Erased keep v v' else Erased keep v w' := by
  cases op with
  | createTimer node timer d p =>
      cases hrun
      have hwheel := erase_createTimer keep w.1 node timer d p
      split
      · next hk =>
          have hk' : keep node = true := hk
          rw [if_pos hk', ← h.wheel] at hwheel
          exact ⟨_, rfl, hwheel.symm, h.calls⟩
      · next hk =>
          have hk' : ¬ keep node = true := hk
          rw [if_neg hk', ← h.wheel] at hwheel
          exact ⟨hwheel.symm, h.calls⟩
  | deleteTimer node =>
      cases hrun
      have hwheel := erase_deleteTimer keep w.1 node
      split
      · next hk =>
          have hk' : keep node = true := hk
          rw [if_pos hk', ← h.wheel] at hwheel
          exact ⟨_, rfl, hwheel.symm, h.calls⟩
      · next hk =>
          have hk' : ¬ keep node = true := hk
          rw [if_neg hk', ← h.wheel] at hwheel
          exact ⟨hwheel.symm, h.calls⟩
  | runTimer r =>
      rw [if_pos (show Op.kept keep (.runTimer r : Op α) = true from rfl)]
      exact h.runTimerLoop hrun

theorem exec_gone {node : Nat} {calls : List (Arming × Nat)} {w v : TimerManager α × Log σ}
    (h : Gone node calls w) {op : Op α} (hop : ∀ timer d p, op ≠ .createTimer node timer d p)
    (hrun : exec cb w op = .ok v) : Gone node calls v := by
  cases op with
  | createTimer node' timer d p =>
      cases hrun
      have hne : node' ≠ node := by
        rintro rfl
        exact hop timer d p rfl
      refine ⟨?_, h.calls⟩
      show erase _ (createTimer _ _ _ _ _) = createTimer _ _ _ _ _
      rw [erase_createTimer, if_pos (by simpa using hne), h.wheel]
  | deleteTimer node' =>
      cases hrun
      refine ⟨?_, h.calls⟩
      show erase _ (deleteTimer _ _) = deleteTimer _ _
      rw [erase_deleteTimer]
      split
      · rw [h.wheel]
      · next hk =>
          have heq : node' = node := by simpa using hk
          rw [heq]
          exact h.wheel.trans h.wheel.symm
  | runTimer r => exact h.runTimerLoop hrun

theorem execAll_cons {w v : TimerManager α × Log σ} {op : Op α} {ops : List (Op α)}
    (h : execAll cb (op :: ops) w = .ok v) :
    ∃ u, exec cb w op = .ok u ∧ execAll cb ops u = .ok v := by
  unfold execAll at h
  rw [List.foldlM_cons] at h
  cases hu : exec cb w op with
  | error e =>
      rw [hu] at h
      cases h
  | ok u =>
      rw [hu] at h
      exact ⟨u, rfl, h⟩

/-- **The smaller run is the larger one erased.** -/
theorem execAll_erase {w w' v : TimerManager α × Log σ} (h : Erased keep w w') {ops : List (Op α)}
    (hrun : execAll cb ops w = .ok v) :
    ∃ v', execAll cb (ops.filter (Op.kept keep)) w' = .ok v' ∧ Erased keep v v' := by
  induction ops generalizing w w' with
  | nil =>
      cases hrun
      exact ⟨w', rfl, h⟩
  | cons op ops ih =>
      obtain ⟨u, hu, hrest⟩ := execAll_cons hrun
      have hop := exec_erase h hu
      split at hop
      · next hk =>
          obtain ⟨u', hu', hs⟩ := hop
          obtain ⟨v', hv', hs'⟩ := ih hs hrest
          refine ⟨v', ?_, hs'⟩
          rw [List.filter_cons_of_pos hk]
          unfold execAll
          rw [List.foldlM_cons, hu']
          exact hv'
      · next hk =>
          rw [List.filter_cons_of_neg hk]
          exact ih hop hrest

theorem execAll_gone {node : Nat} {calls : List (Arming × Nat)} {w v : TimerManager α × Log σ}
    (h : Gone node calls w) {ops : List (Op α)}
    (hops : ∀ timer d p, Op.createTimer node timer d p ∉ ops) (hrun : execAll cb ops w = .ok v) :
    Gone node calls v := by
  induction ops generalizing w with
  | nil =>
      cases hrun
      exact h
  | cons op ops ih =>
      obtain ⟨u, hu, hrest⟩ := execAll_cons hrun
      apply ih _ _ hrest
      · apply exec_gone h _ hu
        rintro timer d p rfl
        exact hops timer d p List.mem_cons_self
      · intro timer d p hmem
        exact hops timer d p (List.mem_cons_of_mem _ hmem)

/-- A run ends, for clock readings below the last number. -/
theorem exists_execAll {ops : List (Op α)} (hclock : ∀ r, Op.runTimer r ∈ ops → r < 2 ^ 32 - 1)
    (w : TimerManager α × Log σ) : ∃ v, execAll cb ops w = .ok v := by
  induction ops generalizing w with
  | nil => exact ⟨w, rfl⟩
  | cons op ops ih =>
      have hu : ∃ u, exec cb w op = .ok u := by
        cases op with
        | createTimer node timer d p => exact ⟨_, rfl⟩
        | deleteTimer node => exact ⟨_, rfl⟩
        | runTimer r =>
            obtain ⟨tm, L⟩ := w
            obtain ⟨tm', L', hrun, _⟩ :=
              runTimer_steps cb (hclock r List.mem_cons_self) ⟨tm, L, 0⟩
            exact ⟨_, hrun⟩
      obtain ⟨u, hu⟩ := hu
      obtain ⟨v, hv⟩ := ih (fun r hr => hclock r (List.mem_cons_of_mem _ hr)) u
      refine ⟨v, ?_⟩
      unfold execAll
      rw [List.foldlM_cons, hu]
      exact hv

theorem execAll_append {w v : TimerManager α × Log σ} {ops₁ ops₂ : List (Op α)}
    (h : execAll cb (ops₁ ++ ops₂) w = .ok v) :
    ∃ u, execAll cb ops₁ w = .ok u ∧ execAll cb ops₂ u = .ok v := by
  induction ops₁ generalizing w with
  | nil => exact ⟨w, rfl, h⟩
  | cons op ops₁ ih =>
      obtain ⟨u, hu, hrest⟩ := execAll_cons h
      obtain ⟨t, ht, hv⟩ := ih hrest
      refine ⟨t, ?_, hv⟩
      unfold execAll
      rw [List.foldlM_cons, hu]
      exact ht

end compare

/-- The wheel of `timer_init` with an empty log. -/
def started (j : Nat) (s : σ) : TimerManager α × Log σ := (TimerManager.empty j, ⟨s, [], []⟩)

/-- **Timers do not interfere**: leaving the operations on some timers out of a run leaves the sequence
of the calls of the other timers, with their ticks, as it is; and a timer is not called after it has
been deleted. -/
theorem timers_do_not_interfere (cb : α → σ → σ) (keep : Nat → Bool) (j : Nat) (s s' : σ)
    (ops : List (Op α)) (hclock : ∀ r, Op.runTimer r ∈ ops → r < 2 ^ 32 - 1) :
    ∃ w w', execAll cb ops (started j s) = .ok w ∧
      execAll cb (ops.filter (Op.kept keep)) (started j s') = .ok w' ∧
      w'.2.calls = callsOf keep w.2 ∧
      ∀ ops₁ node ops₂, ops = ops₁ ++ .deleteTimer node :: ops₂ →
        (∀ timer d p, Op.createTimer node timer d p ∉ ops₂) →
        ∃ w₁, execAll cb ops₁ (started j s) = .ok w₁ ∧
          callsOf (fun n => n = node) w.2 = callsOf (fun n => n = node) w₁.2 := by
  obtain ⟨w, hw⟩ : ∃ w, execAll cb ops (started j s) = .ok w := exists_execAll hclock (started j s)
  have hstart : Erased keep (started j s : TimerManager α × Log σ) (started j s') := ⟨rfl, rfl⟩
  obtain ⟨w', hw', hs⟩ := execAll_erase hstart hw
  refine ⟨w, w', hw, hw', hs.calls, ?_⟩
  rintro ops₁ node ops₂ rfl hnew
  obtain ⟨w₁, hw₁, hrest⟩ := execAll_append hw
  obtain ⟨u, hu, hrest⟩ := execAll_cons hrest
  refine ⟨w₁, hw₁, ?_⟩
  cases hu
  have hgone : Gone node (callsOf (fun n => n = node) w₁.2) (deleteTimer w₁.1 node, w₁.2) := by
    refine ⟨?_, rfl⟩
    unfold erase deleteTimer
    simp
  exact (execAll_gone hgone hnew hrest).calls

/-- Timer `1` left out of a run with the timers `0` and `1`, of which `1` is periodic. -/
theorem timers_do_not_interfere_two :
    ∃ w w', execAll (fun _ s => s) [.createTimer 0 () 5 0, .createTimer 1 () 5 3, .runTimer 9]
        (started 0 ()) = .ok w ∧
      execAll (fun _ s => s) [.createTimer 0 () 5 0, .runTimer 9] (started 0 ()) = .ok w' ∧
      w'.2.calls = callsOf (fun n => n = 0) w.2 := by
  obtain ⟨w, w', hw, hw', hcalls, _⟩ :=
    timers_do_not_interfere (fun _ s => s) (fun n => n = 0) 0 () ()
      [.createTimer 0 () 5 0, .createTimer 1 () 5 3, .runTimer 9] (by simp)
  exact ⟨w, w', hw, hw', hcalls⟩

end ThreadSched.Wheel
