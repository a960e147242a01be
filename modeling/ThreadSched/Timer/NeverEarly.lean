import ThreadSched.Timer.NeverLate

/-!
# When a timer is called early

`add_timer` divides the remaining delay by `clock_granularity` before it picks the array, so the
first array takes delays up to 2559 although its 256 slots come round every 256 milliseconds.  A
timer that reaches the first array with 256 to 2559 milliseconds left is called too early, by a
multiple of 256 milliseconds; every other path through the arrays is exact.

* `onTimeIn arr e` — a timer with expiry `e` that sits in array `arr` will be called exactly at `e`.
* `OnTime j d` — the same for a delay `d` that is armed at manager time `j`, before it is filed.
* `called_at_due_iff` — in every continuation, a call of the arming is at its expiry if and only if
  `OnTime` held when it was created.
* `neverEarly_iff` — no continuation calls it early if and only if `OnTime` held.
-/

set_option autoImplicit false

namespace ThreadSched.Wheel

variable {α σ : Type}

/-- A timer with `r` (less than 163840) milliseconds left is called in time if the slot of the first
array it is filed in comes round only once, or if it is filed in the second array. -/
def NoGap (r : Nat) : Prop := r < 256 ∨ 2560 ≤ r

instance (r : Nat) : Decidable (NoGap r) := by unfold NoGap; infer_instance

/-- A timer with expiry `e` in this array will be called at `e`.  What counts is what is left of `e`
when the array's slot is cascaded for the last time. -/
def onTimeIn : Fin 5 → Nat → Prop
  | 0, _ => True
  | 1, _ => True
  | 2, e => NoGap (e % 2 ^ 14)
  | 3, e => if e % 2 ^ 20 < 163840 then NoGap (e % 2 ^ 20) else NoGap (e % 2 ^ 14)
  | 4, e =>
    if e % 2 ^ 26 < 163840 then NoGap (e % 2 ^ 26)
    else if e % 2 ^ 26 < 10485760 then NoGap (e % 2 ^ 14)
    else if e % 2 ^ 20 < 163840 then NoGap (e % 2 ^ 20)
    else NoGap (e % 2 ^ 14)

/-- A delay `d` armed at manager time `j` will be called at `j + d`. -/
def OnTime (j d : Nat) : Prop :=
  if d < 2560 then d < 256 else onTimeIn (levelOf d) (j + d)

/-- The same for a timer that is filed in slot `s` when tick `j` is the next one. -/
def Exact (j : Nat) (s : Slot) (e : Nat) : Prop :=
  if s.1 = 0 then e < j + 256 else onTimeIn s.1 e

theorem levelOf_eq_zero {d : Nat} : levelOf d = 0 ↔ d < 2560 := by
  unfold levelOf
  split_ifs <;> simp_all

/-- Filing decides by the remaining delay. -/
theorem exact_pHead {j e : Nat} (h : j ≤ e) (he : e < 2 ^ 32) :
    Exact j (pHead j e) e ↔ OnTime j (e - j) := by
  rw [pHead_of_le h he]
  unfold Exact OnTime
  simp only [slotIn, levelOf_eq_zero, Nat.add_sub_cancel' h]
  split_ifs
  · omega
  · rfl

/-- `OnTime` by the range of the delay. -/
theorem onTime_iff {j d : Nat} : OnTime j d ↔
    if d < 163840 then NoGap d
    else if d < 10485760 then onTimeIn 2 (j + d)
    else if d < 671088640 then onTimeIn 3 (j + d)
    else onTimeIn 4 (j + d) := by
  unfold OnTime levelOf
  by_cases h0 : d < 2560
  · rw [if_pos h0, if_pos (by omega)]; unfold NoGap; omega
  rw [if_neg h0, if_neg h0]
  by_cases h1 : d < 163840
  · rw [if_pos h1, if_pos h1]
    exact ⟨fun _ => Or.inr (by omega), fun _ => trivial⟩
  rw [if_neg h1, if_neg h1]
  split_ifs <;> rfl

/-- A cascade changes the array, not the time of the call. -/
theorem onTime_of_cascading {j e : Nat} {s : Slot} (hp : Placed j s e) (hc : Cascading j s) :
    OnTime j (e - j) ↔ Exact j s e := by
  obtain ⟨arr, i⟩ := s
  obtain ⟨h0, hmod, hslot⟩ := hc
  have hle := hp.le
  obtain ⟨hslot', hahead, hnear⟩ := hp
  have heq : e / gran arr % slots arr = j / gran arr % slots arr := by
    rw [hslot'] at hslot
    exact (Prod.mk.inj hslot).2
  rw [onTime_iff, Nat.add_sub_cancel' hle]
  unfold Exact
  rw [if_neg h0]
  clear hslot hslot'
  -- `e` and `j` agree in the bits above the array's granularity, or differ by a whole turn of it
  match arr, h0 with
  | 1, _ =>
      simp only [gran, slots, cap] at hmod hahead hnear heq
      rw [if_pos (by omega)]
      simp only [onTimeIn, NoGap, iff_true]
      omega
  | 2, _ =>
      simp only [gran, slots, cap] at hmod hahead hnear heq
      simp only [onTimeIn, NoGap]
      split_ifs <;> omega
  | 3, _ =>
      simp only [gran, slots, cap] at hmod hahead hnear heq
      simp only [onTimeIn, NoGap]
      split_ifs <;> omega
  | 4, _ =>
      simp only [gran, slots, cap] at hmod hahead hnear heq
      simp only [onTimeIn, NoGap]
      split_ifs <;> omega

/-- Outside the slot that expires now, being exact does not depend on the tick. -/
theorem Exact.succ_iff {j e : Nat} {s : Slot} (hs : s = slotIn s.1 e) (hle : j ≤ e)
    (hne : s ≠ (0, j % 256)) : Exact (j + 1) s e ↔ Exact j s e := by
  unfold Exact
  by_cases h0 : s.1 = 0
  · rw [if_pos h0, if_pos h0]
    rw [h0] at hs
    have : e % 256 ≠ j % 256 := fun heq => hne (by rw [hs]; simp [slotIn, gran, slots, heq])
    omega
  · rw [if_neg h0, if_neg h0]

/-- In the slot that expires now, the timers that are exact are those due now. -/
theorem exact_expiring {j e : Nat} (hs : ((0 : Fin 5), j % 256) = slotIn 0 e) (hle : j ≤ e) :
    Exact j (0, j % 256) e ↔ j = e := by
  have : j % 256 = e % 256 := by simpa [slotIn, gran, slots] using hs
  unfold Exact
  simp only [if_true]
  omega

/-- A timer that is still linked in the tick of its expiry is exact. -/
theorem exact_at_due {e : Nat} {s : Slot} (hp : Placed e s e) : Exact e s e := by
  obtain ⟨arr, i⟩ := s
  have hahead := hp.ahead
  unfold Exact
  split_ifs with h0
  · omega
  · match arr, h0 with
    | 1, _ => trivial
    | 2, _ =>
        simp only [gran] at hahead
        simp only [onTimeIn, NoGap]
        omega
    | 3, _ =>
        simp only [gran] at hahead
        simp only [onTimeIn, NoGap]
        split_ifs <;> omega
    | 4, _ =>
        simp only [gran] at hahead
        simp only [onTimeIn, NoGap]
        split_ifs <;> omega

/-! ## Following one arming -/

/-- The arming `a` of a `create_timer` call, followed through a run: while it is linked it is exact
if and only if `c` holds, and so is the tick of its call. -/
structure Follows (a : Arming) (c : Prop) (w : Run α σ) : Prop where
  inv : WheelInv w
  armed : a ∈ w.log.armed
  linked : ∀ s n, n ∈ w.tm.arrListTimer s → n.arming = a → (Exact w.tm.uJiffies s a.due ↔ c)
  called : ∀ t, (a, t) ∈ w.log.calls → (t = a.due ↔ c)

/-- The cascades of a tick keep what is followed: it is exact afterwards, for this tick and, outside
the expiring slot, for the next. -/
theorem Follows.cascades {a : Arming} {c : Prop} {w : Run α σ} (h : Follows a c w)
    (hd : a.due < 2 ^ 32) {s : Slot} {n : TimerNode α}
    (hn : n ∈ (cascades w.tm).arrListTimer s) (ha : n.arming = a) :
    Exact w.tm.uJiffies s a.due ↔ c := by
  subst ha
  rcases mem_cascades hn with ⟨hm, _⟩ | ⟨s0, hc, hm, hs⟩
  · exact h.linked s n hm rfl
  · have hp : Placed w.tm.uJiffies s0 n.due := h.inv.placed s0 n hm hd
    rw [h.inv.stored s0 n hm, u32_of_lt (show n.due < 2 ^ 32 from hd)] at hs
    subst hs
    exact (exact_pHead hp.le hd).trans ((onTime_of_cascading hp hc).trans (h.linked s0 n hm rfl))

theorem Follows.tick {a : Arming} {c : Prop} {w : Run α σ} (h : Follows a c w)
    (h0 : a.round = 0) (hd : a.due < 2 ^ 32) (cb : α → σ → σ)
    (hj : w.tm.uJiffies < 2 ^ 32 - 1) :
    Follows a c ⟨tickWheel w.tm, logWalk cb w.tm.uJiffies (tickNodes w.tm) w.log, w.nodes⟩ := by
  have hj' : (tickWheel w.tm).uJiffies = w.tm.uJiffies + 1 := by
    rw [tickWheel_uJiffies, u32_of_lt (by omega)]
  refine ⟨h.inv.tick cb hj, List.mem_append_left _ h.armed, fun s n hn ha => ?_, fun t ht => ?_⟩
  · show Exact (tickWheel w.tm).uJiffies s a.due ↔ c
    rw [hj']
    rcases mem_tickWheel.1 hn with ⟨hm, hne⟩ | ⟨hm, _⟩
    · have hdn : n.due < 2 ^ 32 := by rw [← ha] at hd; exact hd
      have hp := (h.inv.placed.cascades h.inv.stored hm hdn).1
      have hdue : n.due = a.due := by rw [← ha]; rfl
      rw [hdue] at hp
      exact (Exact.succ_iff hp.slot hp.le hne).trans (h.cascades hd hm ha)
    · obtain ⟨m, _, _, rfl⟩ := mem_rearmed.1 hm
      rw [← ha, rearm_arming_round] at h0
      omega
  · rcases List.mem_append.1 ht with ht | ht
    · exact h.called t ht
    · obtain ⟨n, hn, heq⟩ := List.mem_map.1 ht
      obtain ⟨ha, rfl⟩ := Prod.mk.inj heq
      have hm := mem_tickNodes.1 hn
      have hdn : n.due < 2 ^ 32 := by rw [← ha] at hd; exact hd
      have hp := (h.inv.placed.cascades h.inv.stored hm hdn).1
      have hdue : n.due = a.due := by rw [← ha]; rfl
      rw [hdue] at hp
      exact (exact_expiring hp.slot hp.le).symm.trans (h.cascades hd hm ha)

theorem Follows.create {a : Arming} {c : Prop} {w : Run α σ} (h : Follows a c w) (timer : α)
    (d p : Nat) : Follows a c (w.create timer d p) := by
  have hj : (w.create timer d p).tm.uJiffies = w.tm.uJiffies := by
    rw [Run.create_tm, addTimer_uJiffies]
  refine ⟨h.inv.create timer d p, ?_, fun s n hn ha => ?_, fun t ht => ?_⟩
  · rw [Run.create_armed]; exact List.mem_append_left _ h.armed
  · rw [Run.create_tm] at hn
    rw [hj]
    rcases mem_addTimer.1 hn with hn | ⟨rfl, _⟩
    · exact h.linked s n hn ha
    · exfalso
      have hlt := h.inv.node_lt a h.armed
      rw [← ha] at hlt
      exact Nat.lt_irrefl _ hlt
  · rw [Run.create_calls] at ht
    exact h.called t ht

/-- What is followed after a `create_timer` call is whether its delay is on time. -/
theorem follows_create {w : Run α σ} (h : WheelInv w) (timer : α) (d p : Nat)
    (hd : w.tm.uJiffies + d < 2 ^ 32) :
    Follows (newTimer w.tm w.nodes timer d p).arming (OnTime w.tm.uJiffies d)
      (w.create timer d p) := by
  have hj : (w.create timer d p).tm.uJiffies = w.tm.uJiffies := by
    rw [Run.create_tm, addTimer_uJiffies]
  have hdue : (newTimer w.tm w.nodes timer d p).due = w.tm.uJiffies + d := by
    simp only [newTimer]
  have hnode : (newTimer w.tm w.nodes timer d p).node = w.nodes := by simp only [newTimer]
  refine ⟨h.create timer d p, ?_, fun s n hn ha => ?_, fun t ht => ?_⟩
  · rw [Run.create_armed]; exact List.mem_append_right _ List.mem_cons_self
  · rw [Run.create_tm] at hn
    rw [hj]
    rcases mem_addTimer.1 hn with hn | ⟨rfl, hs⟩
    · exfalso
      have hlt : n.node = w.nodes := by
        have := congrArg Arming.node ha
        exact this.trans hnode
      have hdn : n.due < 2 ^ 32 := by
        have := congrArg Arming.due ha
        show n.arming.due < 2 ^ 32
        rw [this]
        show (newTimer w.tm w.nodes timer d p).due < 2 ^ 32
        rw [hdue]; exact hd
      have hp := h.placed s n hn hdn
      have hmem : s ∈ allSlots := by rw [hp.slot]; exact slotIn_mem _ _
      have := h.node_lt _ (h.linked_armed (mem_linked.2 ⟨s, hmem, hn⟩))
      have hnn : n.arming.node = n.node := rfl
      omega
    · rw [newTimer_stored, u32_of_lt (by rw [hdue]; exact hd)] at hs
      subst hs
      show Exact _ _ (newTimer w.tm w.nodes timer d p).due ↔ _
      rw [exact_pHead (by rw [hdue]; exact Nat.le_add_right _ _) (by rw [hdue]; exact hd), hdue,
        Nat.add_sub_cancel_left]
  · exfalso
    rw [Run.create_calls] at ht
    have hmem : (newTimer w.tm w.nodes timer d p).arming ∈ w.log.armed := by
      rw [← Multiset.mem_coe, h.conserved]
      exact Multiset.mem_add.2 (Or.inr (List.mem_map.2 ⟨_, ht, rfl⟩))
    have hlt := h.node_lt _ hmem
    have hnn : (newTimer w.tm w.nodes timer d p).arming.node = w.nodes := hnode
    omega

theorem Follows.steps {a : Arming} {c : Prop} {cb : α → σ → σ} {w w' : Run α σ}
    (h : Follows a c w) (h0 : a.round = 0) (hd : a.due < 2 ^ 32)
    (hs : (system cb).Steps w w') : Follows a c w' := by
  refine Trans.Sys.steps_invariant (fun u v hu hv => ?_) h hs
  rcases step_cases hv with ⟨timer, d, p, rfl⟩ | ⟨s, rfl⟩ | ⟨hj, rfl⟩
  · exact hu.create timer d p
  · exact ⟨hu.inv.setCb s, hu.armed, hu.linked, hu.called⟩
  · exact hu.tick h0 hd cb hj

/-- In every continuation, the call of a `create_timer` arming is exactly at its expiry if and only
if its delay was on time when it was armed. -/
theorem called_at_due_iff {cb : α → σ → σ} {w w' : Run α σ} (h : (system cb).Reach w) (timer : α)
    (d p : Nat) (hd : w.tm.uJiffies + d < 2 ^ 32)
    (hs : (system cb).Steps (w.create timer d p) w') {t : Nat}
    (ht : ((newTimer w.tm w.nodes timer d p).arming, t) ∈ w'.log.calls) :
    t = w.tm.uJiffies + d ↔ OnTime w.tm.uJiffies d :=
  ((follows_create (reach_inv h) timer d p hd).steps rfl hd hs).called t ht

/-- When the tick of its expiry comes, a timer that is not on time has been called. -/
theorem Follows.called_before {a : Arming} {c : Prop} {w : Run α σ} (h : Follows a c w)
    (hd : a.due < 2 ^ 32) (hj : w.tm.uJiffies = a.due) (hc : ¬ c) :
    ∃ t, (a, t) ∈ w.log.calls ∧ t < a.due := by
  by_cases hmem : a ∈ w.log.calls.map Prod.fst
  · obtain ⟨⟨b, t⟩, hbt, rfl⟩ := List.mem_map.1 hmem
    exact ⟨t, hbt, hj ▸ (h.inv.called b t hbt).1⟩
  · exfalso
    obtain ⟨s, _, hone, _⟩ := h.inv.linked_once h.armed hmem
    have hin : a ∈ (w.tm.arrListTimer s).map TimerNode.arming := List.count_pos_iff.1 (by omega)
    obtain ⟨n, hn, rfl⟩ := List.mem_map.1 hin
    have hp : Placed w.tm.uJiffies s n.due := h.inv.placed s n hn hd
    have hex := h.linked s n hn rfl
    rw [hj] at hp hex
    exact hc (hex.1 (exact_at_due hp))

/-- **Never early, exactly when.**  A `create_timer` call for a delay `d` at manager time `j`, with
`j + d` below `2^32`, is called before `j + d` in no continuation if and only if `OnTime j d`. -/
theorem neverEarly_iff {cb : α → σ → σ} {w : Run α σ} (h : (system cb).Reach w) (timer : α)
    (d p : Nat) (hd : w.tm.uJiffies + d < 2 ^ 32) :
    (∀ w', (system cb).Steps (w.create timer d p) w' →
      ∀ t, ((newTimer w.tm w.nodes timer d p).arming, t) ∈ w'.log.calls →
        w.tm.uJiffies + d ≤ t) ↔ OnTime w.tm.uJiffies d := by
  constructor
  · intro hnever
    by_contra hc
    have hd0 : 0 < d := by
      rcases Nat.eq_zero_or_pos d with rfl | hpos
      · exact absurd (by norm_num [OnTime]) hc
      · exact hpos
    have hj : (w.create timer d p).tm.uJiffies = w.tm.uJiffies := by
      rw [Run.create_tm, addTimer_uJiffies]
    obtain ⟨tm, L, _, hsteps, hmax⟩ := runTimer_steps cb (r := w.tm.uJiffies + d - 1) (by omega)
      (w.create timer d p)
    have hf := (follows_create (reach_inv h) timer d p hd).steps rfl hd hsteps
    obtain ⟨t, ht, hlt⟩ := hf.called_before hd (by
      show tm.uJiffies = w.tm.uJiffies + d
      rw [hmax, hj]; omega) hc
    exact absurd (hnever _ hsteps t ht) (Nat.not_le.2 hlt)
  · intro hc w' hs t ht
    exact le_of_eq ((called_at_due_iff h timer d p hd hs ht).2 hc).symm

/-! ## A timer that is not periodic -/

/-- `a` is the only arming its node has in the run. -/
structure OnlyArming (a : Arming) (w : Run α σ) : Prop where
  linked : ∀ n ∈ w.tm.linked, n.node = a.node → n.uPeriod = 0 ∧ n.arming = a
  called : ∀ b t, (b, t) ∈ w.log.calls → b.node = a.node → b = a
  node_lt : a.node < w.nodes

theorem onlyArming_create {w : Run α σ} (h : WheelInv w) (timer : α) (d : Nat) :
    OnlyArming (newTimer w.tm w.nodes timer d 0).arming (w.create timer d 0) := by
  have hnode : (newTimer w.tm w.nodes timer d 0).arming.node = w.nodes := by
    simp only [newTimer, TimerNode.arming]
  refine ⟨fun n hn heq => ?_, fun b t hb heq => ?_, ?_⟩
  · rw [Run.create_tm, addTimer_linked, Multiset.mem_cons] at hn
    rcases hn with rfl | hn
    · exact ⟨by simp only [newTimer], rfl⟩
    · exact absurd (heq.trans hnode) (Nat.ne_of_lt (h.node_lt _ (h.linked_armed hn)))
  · rw [Run.create_calls] at hb
    have hmem : b ∈ w.log.armed := by
      rw [← Multiset.mem_coe, h.conserved]
      exact Multiset.mem_add.2 (Or.inr (List.mem_map.2 ⟨_, hb, rfl⟩))
    exact absurd (heq.trans hnode) (Nat.ne_of_lt (h.node_lt _ hmem))
  · rw [Run.create_nodes, hnode]
    exact Nat.lt_succ_self _

theorem OnlyArming.step {a : Arming} {cb : α → σ → σ} {w w' : Run α σ} (h : OnlyArming a w)
    (hs : Step cb w w') : OnlyArming a w' := by
  rcases step_cases hs with ⟨timer, d, p, rfl⟩ | ⟨s, rfl⟩ | ⟨_, rfl⟩
  · refine ⟨fun n hn heq => ?_, fun b t hb heq => ?_, ?_⟩
    · rw [Run.create_tm, addTimer_linked, Multiset.mem_cons] at hn
      rcases hn with rfl | hn
      · have hnew : (newTimer w.tm w.nodes timer d p).node = w.nodes := by simp only [newTimer]
        exact absurd (heq.symm.trans hnew) (Nat.ne_of_lt h.node_lt)
      · exact h.linked n hn heq
    · rw [Run.create_calls] at hb
      exact h.called b t hb heq
    · rw [Run.create_nodes]
      exact Nat.lt_succ_of_lt h.node_lt
  · exact ⟨h.linked, h.called, h.node_lt⟩
  · obtain ⟨rest, hr, hr'⟩ := tickWheel_linked w.tm
    refine ⟨fun n hn heq => ?_, fun b t hb heq => ?_, h.node_lt⟩
    · have hn' : n ∈ (tickWheel w.tm).linked := hn
      rw [hr'] at hn'
      rcases Multiset.mem_add.1 hn' with hn' | hn'
      · exact h.linked n (by rw [hr]; exact Multiset.mem_add.2 (Or.inl hn')) heq
      · obtain ⟨m, hm, hp, rfl⟩ := mem_rearmed.1 (Multiset.mem_coe.1 hn')
        exact absurd (h.linked m (mem_linked_of_tickNodes hm) heq).1 hp
    · rcases List.mem_append.1 hb with hb | hb
      · exact h.called b t hb heq
      · obtain ⟨n, hn, heq'⟩ := List.mem_map.1 hb
        cases heq'
        exact (h.linked n (mem_linked_of_tickNodes hn) heq).2

/-- **A timer that is on time**: in every continuation each call of the node is at its expiry or
later. -/
theorem node_not_early {cb : α → σ → σ} {w w' : Run α σ} (h : (system cb).Reach w) (timer : α)
    (d : Nat) (hd : w.tm.uJiffies + d < 2 ^ 32) (hon : OnTime w.tm.uJiffies d)
    (hs : (system cb).Steps (w.create timer d 0) w') {b : Arming} {t : Nat}
    (hb : (b, t) ∈ w'.log.calls) (hnode : b.node = w.nodes) : w.tm.uJiffies + d ≤ t := by
  have honly := Trans.Sys.steps_invariant (fun u v (hu : OnlyArming _ u) hv => hu.step hv)
    (onlyArming_create (reach_inv h) timer d) hs
  have heq := honly.called b t hb (by simpa only [newTimer, TimerNode.arming] using hnode)
  rw [heq] at hb
  exact le_of_eq ((called_at_due_iff h timer d 0 hd hs hb).2 hon).symm

end ThreadSched.Wheel
