import ThreadSched.Lib.Trans
import ThreadSched.Timer.Placement

/-!
# No timer is lost, duplicated or late

Runs of the wheel: `create_timer` calls with any delay and period, and rounds of
`run_timer`'s loop for clock readings below `2^32 - 1`.  A `run_timer` call is a maximal sequence of
rounds with one reading (`runTimer_steps`), so the reachable states include those inside the loop.
Callbacks are arbitrary functions on a state of their own, which the rest of the program may change
between two calls.

* `Placed j s e` — what makes slot `s` safe for the expiry `e` when tick `j` is the next: it is
  `e`'s slot in its array, the slot's next cascade (for the first array: its next expiry) is not
  past `e`, and less than the array's range is left.
* `WheelInv` — every linked timer whose expiry did not wrap is placed, and the armings made so far
  are exactly those linked and those called, each once.
* `timerWheel_exactly_once` — no loss, no duplication, never late.
-/

set_option autoImplicit false

namespace ThreadSched.Wheel

variable {α σ : Type}

/-! ## Runs -/

/-- What the callbacks work on, with the armings and the calls made so far.  A call is recorded with
the tick, `timer_manager->uJiffies`, it is made in. -/
structure Log (σ : Type) where
  cb : σ
  armed : List Arming
  calls : List (Arming × Nat)

/-- `pTmr->timerFn(pTmr->pParam)`, recorded; so is the arming that follows for a periodic timer. -/
def logCall (cb : α → σ → σ) (n : TimerNode α) (j : Nat) (L : Log σ) : Except Unit (Log σ) :=
  .ok { cb := cb n.timer L.cb
        armed := if n.uPeriod = 0 then L.armed else L.armed ++ [(n.rearm j).arming]
        calls := L.calls ++ [(n.arming, j)] }

/-- A wheel with the log of its run; `nodes` timer nodes have been allocated. -/
structure Run (α σ : Type) where
  tm : TimerManager α
  log : Log σ
  nodes : Nat

/-- `create_timer`, recorded. -/
def Run.create (w : Run α σ) (timer : α) (uDueTime uPeriod : Nat) : Run α σ :=
  { tm := createTimer w.tm w.nodes timer uDueTime uPeriod
    log := { w.log with armed := w.log.armed ++
      [(newTimer w.tm w.nodes timer uDueTime uPeriod).arming] }
    nodes := w.nodes + 1 }

section create

variable (w : Run α σ) (timer : α) (d p : Nat)

theorem Run.create_tm :
    (w.create timer d p).tm = addTimer w.tm (newTimer w.tm w.nodes timer d p) := by
  unfold Run.create createTimer; rfl

theorem Run.create_armed : (w.create timer d p).log.armed =
    w.log.armed ++ [(newTimer w.tm w.nodes timer d p).arming] := by
  unfold Run.create; rfl

theorem Run.create_calls : (w.create timer d p).log.calls = w.log.calls := by
  unfold Run.create; rfl

theorem Run.create_nodes : (w.create timer d p).nodes = w.nodes + 1 := by
  unfold Run.create; rfl

end create

/-- The same wheel and log, with `s` for what the callbacks work on. -/
def Run.setCb (w : Run α σ) (s : σ) : Run α σ := ⟨w.tm, ⟨s, w.log.armed, w.log.calls⟩, w.nodes⟩

/-- One step: a `create_timer` call, one round of `run_timer`'s loop for a reading `r`, or anything
the rest of the program does outside `run_timer`. -/
inductive Step (cb : α → σ → σ) : Run α σ → Run α σ → Prop
  | create {w : Run α σ} (timer : α) (uDueTime uPeriod : Nat) :
      Step cb w (w.create timer uDueTime uPeriod)
  | other {w : Run α σ} (s : σ) : Step cb w (w.setCb s)
  | tick {w : Run α σ} {tm : TimerManager α} {L : Log σ} (r : Nat) :
      r < 2 ^ 32 - 1 → TIME_AFTER_EQ r w.tm.uJiffies →
      runTick (logCall cb) (w.tm, w.log) = .ok (tm, L) → Step cb w ⟨tm, L, w.nodes⟩

/-- The runs that start from `timer_init`'s empty wheel. -/
def system (cb : α → σ → σ) : Trans.Sys (Run α σ) where
  init w := ∃ (j : Nat) (s : σ), j < 2 ^ 32 - 1 ∧ w = ⟨TimerManager.empty j, ⟨s, [], []⟩, 0⟩
  step := Step cb

/-- The log after a walk over `l` in tick `j`. -/
def logWalk (cb : α → σ → σ) (j : Nat) (l : List (TimerNode α)) (L : Log σ) : Log σ :=
  { cb := l.foldl (fun s n => cb n.timer s) L.cb
    armed := L.armed ++ (rearmed j l).map TimerNode.arming
    calls := L.calls ++ l.map fun n => (n.arming, j) }

theorem foldlM_logCall (cb : α → σ → σ) (j : Nat) (l : List (TimerNode α)) (L : Log σ) :
    l.foldlM (fun L n => logCall cb n j L) L = .ok (logWalk cb j l L) := by
  induction l generalizing L with
  | nil => simp [logWalk, rearmed, pure, Except.pure]
  | cons n l ih =>
      rw [List.foldlM_cons]
      refine (ih _).trans ?_
      by_cases hp : n.uPeriod = 0 <;> simp [logWalk, rearmed, hp]

/-- A round of the loop never fails here and is the pure tick with its calls logged. -/
theorem runTick_logCall (cb : α → σ → σ) (tm : TimerManager α) (L : Log σ) :
    runTick (logCall cb) (tm, L) =
      .ok (tickWheel tm, logWalk cb tm.uJiffies (tickNodes tm) L) := by
  rw [runTick_eq, foldlM_logCall]
  rfl

/-- What a step can be. -/
theorem step_cases {cb : α → σ → σ} {w w' : Run α σ} (h : Step cb w w') :
    (∃ timer d p, w' = w.create timer d p) ∨
    (∃ s, w' = w.setCb s) ∨
    (w.tm.uJiffies < 2 ^ 32 - 1 ∧
      w' = ⟨tickWheel w.tm, logWalk cb w.tm.uJiffies (tickNodes w.tm) w.log, w.nodes⟩) := by
  cases h with
  | create timer d p => exact Or.inl ⟨timer, d, p, rfl⟩
  | other s => exact Or.inr (Or.inl ⟨s, rfl⟩)
  | tick r hr hle ht =>
      rw [runTick_logCall] at ht
      cases ht
      refine Or.inr (Or.inr ⟨?_, rfl⟩)
      unfold TIME_AFTER_EQ at hle
      omega

/-- The loop of `run_timer` is a sequence of steps, and for a reading below `2^32 - 1` it ends. -/
theorem runTimerLoop_steps (cb : α → σ → σ) {r : Nat} (hr : r < 2 ^ 32 - 1) (fuel : Nat)
    (w : Run α σ) (hfuel : r + 1 - w.tm.uJiffies < fuel) :
    ∃ tm L, runTimerLoop (logCall cb) () r fuel (w.tm, w.log) = .ok (tm, L) ∧
      (system cb).Steps w ⟨tm, L, w.nodes⟩ ∧ tm.uJiffies = max w.tm.uJiffies (r + 1) := by
  induction fuel generalizing w with
  | zero => omega
  | succ fuel ih =>
      rw [runTimerLoop]
      by_cases hle : TIME_AFTER_EQ r w.tm.uJiffies
      · have hle' : w.tm.uJiffies ≤ r := by unfold TIME_AFTER_EQ at hle; omega
        have hj : (tickWheel w.tm).uJiffies = w.tm.uJiffies + 1 := by
          rw [tickWheel_uJiffies, u32_of_lt (by omega)]
        have hstep : Step cb w _ := Step.tick r hr hle (runTick_logCall cb w.tm w.log)
        obtain ⟨tm, L, hrun, hsteps, hmax⟩ := ih ⟨_, _, w.nodes⟩ (by
          show r + 1 - (tickWheel w.tm).uJiffies < fuel
          omega)
        refine ⟨tm, L, ?_, (Trans.Sys.Steps.refl _ w).tail hstep |>.trans hsteps, ?_⟩
        · rw [if_pos hle, runTick_logCall]
          exact hrun
        · rw [hmax]
          show max (tickWheel w.tm).uJiffies (r + 1) = _
          omega
      · refine ⟨w.tm, w.log, by rw [if_neg hle], Trans.Sys.Steps.refl _ _, ?_⟩
        unfold TIME_AFTER_EQ at hle
        omega

/-- **`run_timer` returns**, and is a sequence of steps that processes every tick up to `r`. -/
theorem runTimer_steps (cb : α → σ → σ) {r : Nat} (hr : r < 2 ^ 32 - 1) (w : Run α σ) :
    ∃ tm L, runTimer (logCall cb) () r (w.tm, w.log) = .ok (tm, L) ∧
      (system cb).Steps w ⟨tm, L, w.nodes⟩ ∧ tm.uJiffies = max w.tm.uJiffies (r + 1) :=
  runTimerLoop_steps cb hr _ w (by omega)

/-! ## Placement -/

/-- Slot `s` is safe for the expiry `e` while tick `j` is the next one to be processed. -/
structure Placed (j : Nat) (s : Slot) (e : Nat) : Prop where
  slot : s = slotIn s.1 e
  ahead : j ≤ e / gran s.1 * gran s.1
  near : e < j + cap s.1

theorem Placed.le {j : Nat} {s : Slot} {e : Nat} (h : Placed j s e) : j ≤ e :=
  h.ahead.trans (Nat.div_mul_le_self _ _)

/-- The start of a slot that is not the current tick's is still ahead after the tick. -/
theorem ahead_succ {j e g : Nat} (hg : 0 < g) (h : j ≤ e / g * g)
    (hne : j % g = 0 → e / g ≠ j / g) : j + 1 ≤ e / g * g := by
  rcases Nat.lt_or_eq_of_le h with hlt | heq
  · exact hlt
  · exfalso
    refine hne ?_ ?_
    · rw [heq, Nat.mul_mod_left]
    · rw [heq, Nat.mul_div_cancel _ hg]

/-- `add_timer` places an expiry that is not in the past. -/
theorem placed_pHead {j e : Nat} (h : j ≤ e) (he : e < 2 ^ 32) : Placed j (pHead j e) e := by
  rw [pHead_of_le h he]
  refine ⟨rfl, ?_, ?_⟩
  · show j ≤ e / gran (levelOf (e - j)) * gran (levelOf (e - j))
    by_cases h0 : levelOf (e - j) = 0
    · rw [h0]; simpa [gran] using h
    · have hg := ten_gran_le h0
      have hdm := Nat.div_add_mod e (gran (levelOf (e - j)))
      have hlt := Nat.mod_lt e (gran_pos (levelOf (e - j)))
      rw [Nat.mul_comm] at hdm
      omega
  · have := levelOf_lt_cap (d := e - j) (by omega)
    show e < j + cap (levelOf (e - j))
    omega

/-- An expiry after tick `j` that is filed during tick `j` is placed for the next tick. -/
theorem placed_pHead_succ {j e : Nat} (h : j < e) (he : e < 2 ^ 32) :
    Placed (j + 1) (pHead j e) e := by
  have hp := placed_pHead h.le he
  refine ⟨hp.slot, ?_, by have := hp.near; omega⟩
  rw [pHead_of_le h.le he]
  show j + 1 ≤ e / gran (levelOf (e - j)) * gran (levelOf (e - j))
  by_cases h0 : levelOf (e - j) = 0
  · rw [h0]
    simp only [gran, Nat.div_one, Nat.mul_one]
    omega
  · have hg := ten_gran_le h0
    have hpos := gran_pos (levelOf (e - j))
    have hdm := Nat.div_add_mod e (gran (levelOf (e - j)))
    have hlt := Nat.mod_lt e hpos
    rw [Nat.mul_comm] at hdm
    omega

/-- What is due in tick `j` is filed in the slot that tick expires. -/
theorem pHead_self {j : Nat} (hj : j < 2 ^ 32) : pHead j j = (0, j % 256) := by
  rw [pHead_of_le le_rfl hj, Nat.sub_self]
  simp [levelOf, slotIn, gran, slots]

/-- A timer whose slot is neither cascading nor expiring keeps its place over the tick. -/
theorem Placed.succ {j : Nat} {s : Slot} {e : Nat} (h : Placed j s e) (hc : ¬ Cascading j s)
    (hx : s ≠ (0, j % 256)) : Placed (j + 1) s e := by
  refine ⟨h.slot, ?_, by have := h.near; omega⟩
  refine ahead_succ (gran_pos _) h.ahead fun hj heq => ?_
  by_cases h0 : s.1 = 0
  · refine hx ?_
    have hslot := h.slot
    rw [h0] at heq hslot
    rw [hslot]
    simp only [gran, Nat.div_one] at heq
    simp [slotIn, gran, slots, heq]
  · refine hc ⟨h0, hj, ?_⟩
    have hslot := h.slot
    rwa [slotIn, heq] at hslot

/-! ## The invariant -/

/-- Placement of every linked timer whose expiry did not wrap. -/
def AllPlaced (tm : TimerManager α) : Prop :=
  ∀ s n, n ∈ tm.arrListTimer s → n.due < 2 ^ 32 → Placed tm.uJiffies s n.due

/-- The stored expiry is the natural one modulo `2^32`. -/
def AllStored (tm : TimerManager α) : Prop :=
  ∀ s n, n ∈ tm.arrListTimer s → n.uExpires = u32 n.due

theorem AllPlaced.cascades {tm : TimerManager α} (hp : AllPlaced tm) (hs : AllStored tm)
    {s : Slot} {n : TimerNode α} (h : n ∈ (cascades tm).arrListTimer s) (hd : n.due < 2 ^ 32) :
    Placed tm.uJiffies s n.due ∧
      (s ≠ (0, tm.uJiffies % 256) → Placed (tm.uJiffies + 1) s n.due) := by
  rcases mem_cascades h with ⟨hm, hc⟩ | ⟨s0, hc, hm, hs'⟩
  · exact ⟨hp s n hm hd, (hp s n hm hd).succ hc⟩
  · have hle := (hp s0 n hm hd).le
    rw [hs s0 n hm, u32_of_lt hd] at hs'
    subst hs'
    refine ⟨placed_pHead hle hd, fun hne => placed_pHead_succ ?_ hd⟩
    refine Nat.lt_of_le_of_ne hle fun heq => hne ?_
    rw [← heq] at hd ⊢
    exact pHead_self hd

theorem AllStored.cascades {tm : TimerManager α} (hs : AllStored tm) {s : Slot} {n : TimerNode α}
    (h : n ∈ (Wheel.cascades tm).arrListTimer s) : n.uExpires = u32 n.due := by
  rcases mem_cascades h with ⟨hm, _⟩ | ⟨s0, _, hm, _⟩
  · exact hs _ _ hm
  · exact hs _ _ hm

theorem mem_rearmed {j : Nat} {l : List (TimerNode α)} {n : TimerNode α} :
    n ∈ rearmed j l ↔ ∃ m ∈ l, m.uPeriod ≠ 0 ∧ n = m.rearm j := by
  simp only [rearmed, List.mem_map, List.mem_filter, decide_eq_true_eq]
  constructor
  · rintro ⟨m, ⟨hm, hp⟩, rfl⟩; exact ⟨m, hm, hp, rfl⟩
  · rintro ⟨m, hm, hp, rfl⟩; exact ⟨m, ⟨hm, hp⟩, rfl⟩

theorem AllStored.tick {tm : TimerManager α} (hs : AllStored tm) : AllStored (tickWheel tm) := by
  intro s n hn
  rcases mem_tickWheel.1 hn with ⟨hm, _⟩ | ⟨hm, _⟩
  · exact hs.cascades hm
  · obtain ⟨m, _, _, rfl⟩ := mem_rearmed.1 hm
    rfl

theorem AllPlaced.tick {tm : TimerManager α} (hp : AllPlaced tm) (hs : AllStored tm)
    (hj : tm.uJiffies < 2 ^ 32 - 1) : AllPlaced (tickWheel tm) := by
  intro s n hn hd
  have hj' : (tickWheel tm).uJiffies = tm.uJiffies + 1 := by
    rw [tickWheel_uJiffies, u32_of_lt (by omega)]
  rw [hj']
  rcases mem_tickWheel.1 hn with ⟨hm, hne⟩ | ⟨hm, hs'⟩
  · exact (hp.cascades hs hm hd).2 hne
  · obtain ⟨m, _, hper, rfl⟩ := mem_rearmed.1 hm
    have hdue : (m.rearm tm.uJiffies).due = tm.uJiffies + m.uPeriod := rfl
    have hexp : (m.rearm tm.uJiffies).uExpires = (m.rearm tm.uJiffies).due := u32_of_lt hd
    rw [hexp] at hs'
    subst hs'
    exact placed_pHead_succ (by omega) hd

/-- What a run keeps. -/
structure WheelInv (w : Run α σ) : Prop where
  jiffies : w.tm.uJiffies < 2 ^ 32
  stored : AllStored w.tm
  placed : AllPlaced w.tm
  /-- The armings so far are those linked and those called. -/
  conserved : (w.log.armed : Multiset Arming) =
    w.tm.linked.map TimerNode.arming + (w.log.calls.map Prod.fst : Multiset Arming)
  armed_nodup : w.log.armed.Nodup
  node_once : ∀ i, (w.tm.linked.map TimerNode.node).count i ≤ 1
  round_le : ∀ n ∈ w.tm.linked, ∀ a ∈ w.log.armed, a.node = n.node → a.round ≤ n.round
  node_lt : ∀ a ∈ w.log.armed, a.node < w.nodes
  called : ∀ a t, (a, t) ∈ w.log.calls → t < w.tm.uJiffies ∧ (a.due < 2 ^ 32 → t ≤ a.due)

theorem WheelInv.init {j : Nat} (hj : j < 2 ^ 32 - 1) (s : σ) :
    WheelInv (⟨TimerManager.empty j, ⟨s, [], []⟩, 0⟩ : Run α σ) where
  jiffies := by show j < 2 ^ 32; omega
  stored := fun _ _ h => by cases h
  placed := fun _ _ h => by cases h
  conserved := by simp [empty_linked]
  armed_nodup := List.nodup_nil
  node_once := by simp [empty_linked]
  round_le := fun _ _ _ h => by cases h
  node_lt := fun _ h => by cases h
  called := fun _ _ h => by cases h

theorem WheelInv.linked_armed {w : Run α σ} (h : WheelInv w) {n : TimerNode α}
    (hn : n ∈ w.tm.linked) : n.arming ∈ w.log.armed := by
  rw [← Multiset.mem_coe, h.conserved]
  exact Multiset.mem_add.2 (Or.inl (Multiset.mem_map_of_mem _ hn))

theorem newTimer_stored (tm : TimerManager α) (node : Nat) (timer : α) (d p : Nat) :
    (newTimer tm node timer d p).uExpires = u32 (newTimer tm node timer d p).due := by
  simp only [newTimer]

theorem WheelInv.create {w : Run α σ} (h : WheelInv w) (timer : α) (d p : Nat) :
    WheelInv (w.create timer d p) := by
  have hlinked : (w.create timer d p).tm.linked =
      newTimer w.tm w.nodes timer d p ::ₘ w.tm.linked := by rw [Run.create_tm, addTimer_linked]
  have hmem : ∀ s n, n ∈ (w.create timer d p).tm.arrListTimer s →
      n ∈ w.tm.arrListTimer s ∨ (n = newTimer w.tm w.nodes timer d p ∧
        s = pHead w.tm.uJiffies n.uExpires) := fun s n hn => by
    rw [Run.create_tm] at hn; exact mem_addTimer.1 hn
  have hj : (w.create timer d p).tm.uJiffies = w.tm.uJiffies := by
    rw [Run.create_tm, addTimer_uJiffies]
  have hnode : ∀ n ∈ w.tm.linked, n.node < w.nodes := fun n hn => h.node_lt _ (h.linked_armed hn)
  have hnew : (newTimer w.tm w.nodes timer d p).node = w.nodes := by unfold newTimer; rfl
  constructor
  · rw [hj]; exact h.jiffies
  · intro s n hn
    rcases hmem s n hn with hn | ⟨rfl, _⟩
    · exact h.stored s n hn
    · exact newTimer_stored _ _ _ _ _
  · intro s n hn hd
    rw [hj]
    rcases hmem s n hn with hn | ⟨rfl, hs⟩
    · exact h.placed s n hn hd
    · rw [newTimer_stored, u32_of_lt hd] at hs
      subst hs
      exact placed_pHead (Nat.le_add_right _ _) hd
  · rw [hlinked, Multiset.map_cons, Multiset.cons_add, Run.create_calls, ← h.conserved,
      Run.create_armed, ← Multiset.coe_add, Multiset.coe_singleton, add_comm,
      Multiset.singleton_add]
  · rw [Run.create_armed]
    refine List.nodup_append.2 ⟨h.armed_nodup, List.nodup_singleton _, ?_⟩
    intro a ha b hb hab
    rw [List.mem_singleton] at hb
    have hlt := h.node_lt a ha
    rw [hab, hb] at hlt
    exact Nat.ne_of_lt hlt hnew
  · intro i
    rw [hlinked, Multiset.map_cons, Multiset.count_cons, hnew]
    by_cases heq : i = w.nodes
    · have h0 : (w.tm.linked.map TimerNode.node).count i = 0 := by
        refine Multiset.count_eq_zero.2 fun hm => ?_
        obtain ⟨n, hn, hni⟩ := Multiset.mem_map.1 hm
        have := hnode n hn
        omega
      rw [if_pos heq, h0]
    · rw [if_neg heq, Nat.add_zero]
      exact h.node_once i
  · intro n hn a ha heq
    rw [hlinked, Multiset.mem_cons] at hn
    rw [Run.create_armed, List.mem_append, List.mem_singleton] at ha
    rcases ha with ha | rfl
    · rcases hn with rfl | hn
      · exact absurd (heq.trans hnew) (Nat.ne_of_lt (h.node_lt a ha))
      · exact h.round_le n hn a ha heq
    · exact Nat.zero_le _
  · intro a ha
    rw [Run.create_armed, List.mem_append, List.mem_singleton] at ha
    rw [Run.create_nodes]
    rcases ha with ha | rfl
    · exact Nat.lt_succ_of_lt (h.node_lt a ha)
    · exact hnew ▸ Nat.lt_succ_self _
  · intro a t ha
    rw [Run.create_calls] at ha
    rw [hj]
    exact h.called a t ha

theorem WheelInv.setCb {w : Run α σ} (h : WheelInv w) (s : σ) : WheelInv (w.setCb s) :=
  ⟨h.jiffies, h.stored, h.placed, h.conserved, h.armed_nodup, h.node_once, h.round_le, h.node_lt,
    h.called⟩

/-- An arming stays recorded. -/
theorem steps_armed {cb : α → σ → σ} {w w' : Run α σ} (h : (system cb).Steps w w') {a : Arming}
    (ha : a ∈ w.log.armed) : a ∈ w'.log.armed := by
  refine Trans.Sys.steps_invariant (I := fun w => a ∈ w.log.armed) (fun u v hu hv => ?_) ha h
  rcases step_cases hv with ⟨timer, d, p, rfl⟩ | ⟨s, rfl⟩ | ⟨_, rfl⟩
  · rw [Run.create_armed]
    exact List.mem_append_left _ hu
  · exact hu
  · exact List.mem_append_left _ hu

theorem mem_linked_of_tickNodes {tm : TimerManager α} {n : TimerNode α} (h : n ∈ tickNodes tm) :
    n ∈ tm.linked := by
  obtain ⟨rest, hr, _⟩ := tickWheel_linked tm
  rw [hr]
  exact Multiset.mem_add.2 (Or.inr h)

theorem rearm_arming_node (n : TimerNode α) (j : Nat) : (n.rearm j).arming.node = n.node := rfl

theorem rearm_arming_round (n : TimerNode α) (j : Nat) :
    (n.rearm j).arming.round = n.round + 1 := rfl

theorem WheelInv.tickNodes_nodup {w : Run α σ} (h : WheelInv w) :
    ((tickNodes w.tm).map TimerNode.node).Nodup := by
  obtain ⟨rest, hr, _⟩ := tickWheel_linked w.tm
  have hn := Multiset.nodup_iff_count_le_one.2 h.node_once
  rw [hr, Multiset.map_add] at hn
  exact Multiset.coe_nodup.1 (Multiset.nodup_of_le (Multiset.le_add_left _ _) hn)

/-- The armings a tick makes are new and distinct. -/
theorem WheelInv.tick_armed_nodup {w : Run α σ} (h : WheelInv w) :
    (w.log.armed ++ (rearmed w.tm.uJiffies (tickNodes w.tm)).map TimerNode.arming).Nodup := by
  refine List.nodup_append.2 ⟨h.armed_nodup, ?_, ?_⟩
  · refine List.Nodup.of_map Arming.node ?_
    have hsub : (((tickNodes w.tm).filter (·.uPeriod ≠ 0)).map TimerNode.node).Nodup :=
      h.tickNodes_nodup.sublist (List.filter_sublist.map _)
    rw [rearmed, List.map_map, List.map_map]
    exact hsub
  · intro a ha b hb hab
    obtain ⟨n, hn, rfl⟩ := List.mem_map.1 hb
    obtain ⟨m, hm, _, rfl⟩ := mem_rearmed.1 hn
    have hle := h.round_le m (mem_linked_of_tickNodes hm) a ha (by rw [hab, rearm_arming_node])
    rw [hab, rearm_arming_round] at hle
    omega

/-- Over a tick each address stays linked at most once. -/
theorem WheelInv.tick_node_once {w : Run α σ} (h : WheelInv w) (i : Nat) :
    ((tickWheel w.tm).linked.map TimerNode.node).count i ≤ 1 := by
  obtain ⟨rest, hr, hr'⟩ := tickWheel_linked w.tm
  have hsub : ((rearmed w.tm.uJiffies (tickNodes w.tm)).map TimerNode.node).count i ≤
      ((tickNodes w.tm).map TimerNode.node).count i := by
    have hmap : (rearmed w.tm.uJiffies (tickNodes w.tm)).map TimerNode.node =
        ((tickNodes w.tm).filter (·.uPeriod ≠ 0)).map TimerNode.node := by
      rw [rearmed, List.map_map]; rfl
    rw [hmap]
    exact (List.filter_sublist.map _).count_le i
  have hone := h.node_once i
  rw [hr, Multiset.map_add, Multiset.count_add, Multiset.map_coe, Multiset.coe_count] at hone
  rw [hr', Multiset.map_add, Multiset.count_add, Multiset.map_coe, Multiset.coe_count]
  omega

theorem WheelInv.tick {w : Run α σ} (h : WheelInv w) (cb : α → σ → σ)
    (hj : w.tm.uJiffies < 2 ^ 32 - 1) :
    WheelInv ⟨tickWheel w.tm, logWalk cb w.tm.uJiffies (tickNodes w.tm) w.log, w.nodes⟩ := by
  have hj' : (tickWheel w.tm).uJiffies = w.tm.uJiffies + 1 := by
    rw [tickWheel_uJiffies, u32_of_lt (by omega)]
  obtain ⟨rest, hr, hr'⟩ := tickWheel_linked w.tm
  constructor
  · rw [hj']; omega
  · exact h.stored.tick
  · exact h.placed.tick h.stored hj
  · have hc := h.conserved
    have hfst : (logWalk cb w.tm.uJiffies (tickNodes w.tm) w.log).calls.map Prod.fst =
        w.log.calls.map Prod.fst ++ (tickNodes w.tm).map TimerNode.arming := by
      simp [logWalk]
    have harm : (logWalk cb w.tm.uJiffies (tickNodes w.tm) w.log).armed =
        w.log.armed ++ (rearmed w.tm.uJiffies (tickNodes w.tm)).map TimerNode.arming := by
      simp only [logWalk]
    rw [hfst, harm, hr', ← Multiset.coe_add, ← Multiset.coe_add, hc, hr, Multiset.map_add,
      Multiset.map_add, Multiset.map_coe, Multiset.map_coe]
    abel
  · exact h.tick_armed_nodup
  · exact h.tick_node_once
  · intro n hn a ha heq
    have hn' := hn
    rw [hr', Multiset.mem_add] at hn'
    rcases List.mem_append.1 ha with ha | ha
    · rcases hn' with hrest | hre
      · exact h.round_le n (by rw [hr]; exact Multiset.mem_add.2 (Or.inl hrest)) a ha heq
      · obtain ⟨m, hm, _, rfl⟩ := mem_rearmed.1 (Multiset.mem_coe.1 hre)
        exact (h.round_le m (mem_linked_of_tickNodes hm) a ha heq).trans (Nat.le_succ _)
    · -- a re-armed timer is the only one linked under its address
      obtain ⟨m, hm, rfl⟩ := List.mem_map.1 ha
      have hml : m ∈ (tickWheel w.tm).linked := by
        rw [hr']; exact Multiset.mem_add.2 (Or.inr (Multiset.mem_coe.2 hm))
      have hnm : m = n := Multiset.inj_on_of_nodup_map
        (Multiset.nodup_iff_count_le_one.2 h.tick_node_once) m hml n hn heq
      exact le_of_eq (congrArg TimerNode.round hnm)
  · intro a ha
    rcases List.mem_append.1 ha with ha | ha
    · exact h.node_lt a ha
    · obtain ⟨n, hn, rfl⟩ := List.mem_map.1 ha
      obtain ⟨m, hm, _, rfl⟩ := mem_rearmed.1 hn
      exact h.node_lt m.arming (h.linked_armed (mem_linked_of_tickNodes hm))
  · intro a t ha
    rw [hj']
    rcases List.mem_append.1 ha with ha | ha
    · have := h.called a t ha
      exact ⟨by omega, this.2⟩
    · obtain ⟨n, hn, heq⟩ := List.mem_map.1 ha
      cases heq
      refine ⟨Nat.lt_succ_self _, fun hd => ?_⟩
      exact (h.placed.cascades h.stored (mem_tickNodes.1 hn) hd).1.le

theorem reach_inv {cb : α → σ → σ} {w : Run α σ} (h : (system cb).Reach w) : WheelInv w := by
  refine (system cb).invariant ?_ ?_ h
  · rintro w ⟨j, s, hj, rfl⟩
    exact WheelInv.init hj s
  · intro w w' hw hs
    rcases step_cases hs with ⟨timer, d, p, rfl⟩ | ⟨s, rfl⟩ | ⟨hj, rfl⟩
    · exact hw.create timer d p
    · exact hw.setCb s
    · exact hw.tick cb hj

/-! ## No loss, no duplication, never late -/

/-- An arming that has not been called is linked exactly once, in one slot of one array. -/
theorem WheelInv.linked_once {w : Run α σ} (h : WheelInv w) {a : Arming} (ha : a ∈ w.log.armed)
    (hc : a ∉ w.log.calls.map Prod.fst) :
    ∃ s ∈ allSlots, ((w.tm.arrListTimer s).map TimerNode.arming).count a = 1 ∧
      ∀ t ∈ allSlots, t ≠ s → a ∉ (w.tm.arrListTimer t).map TimerNode.arming := by
  refine Buckets.exists_slot_of_count_one (f := fun s => (w.tm.arrListTimer s).map _) ?_
  have hone : (w.log.armed : Multiset Arming).count a = 1 := by
    rw [Multiset.coe_count]; exact List.count_eq_one_of_mem h.armed_nodup ha
  rw [h.conserved, Multiset.count_add, Multiset.coe_count, List.count_eq_zero_of_not_mem hc,
    Nat.add_zero] at hone
  rw [← Buckets.all_map, ← hone]
  unfold TimerManager.linked
  rfl

/-- An arming is called at most once. -/
theorem WheelInv.called_once {w : Run α σ} (h : WheelInv w) (a : Arming) :
    (w.log.calls.map Prod.fst).count a ≤ 1 := by
  have hle := List.nodup_iff_count_le_one.1 h.armed_nodup a
  rw [← Multiset.coe_count, h.conserved, Multiset.count_add, Multiset.coe_count] at hle
  omega

/-- What is linked and did not wrap is not due before the next tick. -/
theorem WheelInv.due_ge {w : Run α σ} (h : WheelInv w) {s : Slot} {n : TimerNode α}
    (hn : n ∈ w.tm.arrListTimer s) (hd : n.due < 2 ^ 32) : w.tm.uJiffies ≤ n.due :=
  (h.placed s n hn hd).le

/-- **No loss, no duplication, never late.**  In every state of every run, inside the loop of
`run_timer` or between its calls: an arming whose expiry is below `2^32` has been called at most
once, only in ticks up to its expiry, and has been called once the tick of its expiry has been
processed; no arming whose expiry has been processed is still linked; and every arming not yet
called is linked in exactly one slot of one array. -/
theorem timerWheel_exactly_once {cb : α → σ → σ} {w : Run α σ} (h : (system cb).Reach w) :
    (∀ a ∈ w.log.armed, a.due < 2 ^ 32 →
      (w.log.calls.map Prod.fst).count a ≤ 1 ∧
      (∀ t, (a, t) ∈ w.log.calls → t ≤ a.due) ∧
      (a.due < w.tm.uJiffies → ∃ t, (a, t) ∈ w.log.calls ∧ t ≤ a.due)) ∧
    (∀ T < w.tm.uJiffies, ∀ s, ∀ n ∈ w.tm.arrListTimer s, ¬ n.due ≤ T) ∧
    (∀ a ∈ w.log.armed, a ∉ w.log.calls.map Prod.fst →
      ∃ s ∈ allSlots, ((w.tm.arrListTimer s).map TimerNode.arming).count a = 1 ∧
        ∀ t ∈ allSlots, t ≠ s → a ∉ (w.tm.arrListTimer t).map TimerNode.arming) := by
  have hw := reach_inv h
  have hj := hw.jiffies
  refine ⟨fun a ha hd => ⟨hw.called_once a, fun t ht => (hw.called a t ht).2 hd, fun hlt => ?_⟩,
    fun T hT s n hn hle => ?_, fun a ha hc => hw.linked_once ha hc⟩
  · by_cases hc : a ∈ w.log.calls.map Prod.fst
    · obtain ⟨⟨b, t⟩, hbt, rfl⟩ := List.mem_map.1 hc
      exact ⟨t, hbt, (hw.called b t hbt).2 hd⟩
    · exfalso
      obtain ⟨s, _, hone, _⟩ := hw.linked_once ha hc
      have hmem : a ∈ (w.tm.arrListTimer s).map TimerNode.arming :=
        List.count_pos_iff.1 (by omega)
      obtain ⟨n, hn, rfl⟩ := List.mem_map.1 hmem
      have : w.tm.uJiffies ≤ n.due := hw.due_ge hn hd
      have : n.arming.due = n.due := rfl
      omega
  · have := hw.due_ge hn (by omega)
    omega

/-- Two timers, armed at `0`: one with a delay of 2600 milliseconds, which hangs in the second array, and a
periodic one, due at 2 and then every 3 milliseconds. -/
def twoTimers : Run Unit Unit :=
  ((⟨TimerManager.empty 0, ⟨(), [], []⟩, 0⟩ : Run Unit Unit).create () 2600 0).create () 2 3

/-- Once `run_timer` has seen the readings 2 and 2600, the first timer has been called after a cascade, and the
second one again after it was called and armed again. -/
theorem timerWheel_exactly_once_cascaded :
    (twoTimers.tm.arrListTimer (1, 10)).map TimerNode.node = [0] ∧
    ∃ w : Run Unit Unit, (system fun _ s => s).Reach w ∧
      (∃ t, (⟨0, 0, 2600⟩, t) ∈ w.log.calls ∧ t ≤ 2600) ∧ ∃ t, (⟨1, 1, 5⟩, t) ∈ w.log.calls ∧ t ≤ 5 := by
  refine ⟨by decide +kernel, ?_⟩
  have hinit : (system fun (_ : Unit) (s : Unit) => s).Reach ⟨TimerManager.empty 0, ⟨(), [], []⟩, 0⟩ :=
    .init ⟨0, (), by norm_num, rfl⟩
  have hreach : (system fun (_ : Unit) (s : Unit) => s).Reach twoTimers :=
    (hinit.step (Step.create () 2600 0)).step (Step.create () 2 3)
  obtain ⟨tm, L, hrun, hsteps, -⟩ := runTimer_steps (fun _ s => s) (r := 2) (by norm_num) twoTimers
  have heval : (runTimer (logCall fun _ s => s) () 2 (twoTimers.tm, twoTimers.log)).toOption.map
      (fun x => x.2.armed) = some [⟨0, 0, 2600⟩, ⟨1, 0, 2⟩, ⟨1, 1, 5⟩] := by
    decide +kernel
  rw [hrun] at heval
  have harmed : L.armed = [⟨0, 0, 2600⟩, ⟨1, 0, 2⟩, ⟨1, 1, 5⟩] := Option.some.inj heval
  obtain ⟨tm', L', -, hsteps', hmax⟩ := runTimer_steps (fun _ s => s) (r := 2600) (by norm_num)
    (⟨tm, L, twoTimers.nodes⟩ : Run Unit Unit)
  have hreach' := (hreach.steps hsteps).steps hsteps'
  have hcalled : ∀ a ∈ L.armed, a.due ≤ 2600 → ∃ t, (a, t) ∈ L'.calls ∧ t ≤ a.due := by
    intro a ha hdue
    refine ((timerWheel_exactly_once hreach').1 a (steps_armed hsteps' ha) (by omega)).2.2 ?_
    show a.due < tm'.uJiffies
    omega
  rw [harmed] at hcalled
  exact ⟨_, hreach', hcalled ⟨0, 0, 2600⟩ (by simp) (by norm_num), hcalled ⟨1, 1, 5⟩ (by simp) (by norm_num)⟩

end ThreadSched.Wheel
