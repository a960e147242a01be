import ThreadSched.Timer.Wheel

/-!
# Where a timer is filed, and what one tick moves

* `gran arr`, `slots arr` — the granularity in milliseconds and the number of slots of an array.
* `pHead_spec` — `add_timer` files an expiry `e` under `(e / gran arr) % slots arr`, in the array
  `levelOf` picks from the remaining delay alone.
* `Cascading j s` — slot `s` is detached and filed again by the cascades of tick `j`.
* `mem_cascades`, `cascades_linked` — the cascades move exactly the timers of cascading slots, each to
  the slot `add_timer` chooses for it, and lose or duplicate none.
* `tickNodes`, `tickWheel`, `runTick_eq` — because callbacks do not touch the wheel, a tick is a
  function of the wheel, plus the callbacks of the detached timers run in order.
* `mem_tickWheel`, `tickWheel_linked` — what a tick does to the slots and to the linked timers.
-/

set_option autoImplicit false

namespace ThreadSched.Wheel

variable {α : Type}

/-! ## Slots -/

/-- Milliseconds covered by one slot of an array. -/
def gran : Fin 5 → Nat
  | 0 => 1
  | 1 => 2 ^ 8
  | 2 => 2 ^ 14
  | 3 => 2 ^ 20
  | 4 => 2 ^ 26

/-- Slots of an array. -/
def slots : Fin 5 → Nat
  | 0 => 256
  | _ => 64

/-- Delays from this one on do not go into the array. -/
def cap : Fin 5 → Nat
  | 0 => 2560
  | 1 => 163840
  | 2 => 10485760
  | 3 => 671088640
  | 4 => 2 ^ 32

theorem gran_pos (arr : Fin 5) : 0 < gran arr := by
  fin_cases arr <;> norm_num [gran]

theorem slots_pos (arr : Fin 5) : 0 < slots arr := by
  fin_cases arr <;> norm_num [slots]

/-- The array for a remaining delay. -/
def levelOf (d : Nat) : Fin 5 :=
  if d < 2560 then 0 else if d < 163840 then 1 else if d < 10485760 then 2
  else if d < 671088640 then 3 else 4

/-- The slots that exist. -/
def allSlots : Finset Slot :=
  Finset.univ.biUnion fun arr : Fin 5 => (Finset.range (slots arr)).image fun i => (arr, i)

theorem mem_allSlots {s : Slot} : s ∈ allSlots ↔ s.2 < slots s.1 := by
  obtain ⟨arr, i⟩ := s
  simp only [allSlots, Finset.mem_biUnion, Finset.mem_univ, true_and, Finset.mem_image,
    Finset.mem_range, Prod.mk.injEq]
  constructor
  · rintro ⟨a, k, hk, rfl, rfl⟩; exact hk
  · intro h; exact ⟨arr, i, h, rfl, rfl⟩

/-- Every linked timer, with multiplicity. -/
@[irreducible] def TimerManager.linked (tm : TimerManager α) : Multiset (TimerNode α) :=
  Buckets.all allSlots tm.arrListTimer

theorem mem_linked {tm : TimerManager α} {n : TimerNode α} :
    n ∈ tm.linked ↔ ∃ s ∈ allSlots, n ∈ tm.arrListTimer s := by
  unfold TimerManager.linked; exact Buckets.mem_all

theorem empty_linked (j : Nat) : (TimerManager.empty j : TimerManager α).linked = 0 := by
  simp [TimerManager.linked, TimerManager.empty, Buckets.all]

/-- The slot an expiry has in an array. -/
def slotIn (arr : Fin 5) (e : Nat) : Slot := (arr, e / gran arr % slots arr)

theorem slotIn_mem (arr : Fin 5) (e : Nat) : slotIn arr e ∈ allSlots :=
  mem_allSlots.2 (Nat.mod_lt _ (slots_pos arr))

theorem u32_lt (x : Nat) : u32 x < 2 ^ 32 := by
  unfold u32; exact Nat.mod_lt _ (by norm_num)

theorem u32_of_lt {x : Nat} (h : x < 2 ^ 32) : u32 x = x := by
  unfold u32; exact Nat.mod_eq_of_lt h

theorem and_TVR_MASK (x : Nat) : x &&& TVR_MASK = x % 256 :=
  Nat.and_two_pow_sub_one_eq_mod x 8

theorem and_TVN_MASK (x : Nat) : x &&& TVN_MASK = x % 64 :=
  Nat.and_two_pow_sub_one_eq_mod x 6

/-- `add_timer` looks at the remaining delay for the array and at the expiry for the slot. -/
theorem pHead_spec (j e : Nat) :
    pHead j e = slotIn (levelOf (u32 (e + 2 ^ 32 - j))) e := by
  have hlt : u32 (e + 2 ^ 32 - j) < 2 ^ 32 := u32_lt _
  generalize hd : u32 (e + 2 ^ 32 - j) = d at hlt
  unfold pHead
  simp only [hd, and_TVR_MASK, and_TVN_MASK, Nat.shiftRight_eq_div_pow, levelOf,
    TVR_SIZE, TVR_BITS, TVN_BITS, clockGranularity, Nat.one_shiftLeft]
  by_cases h0 : d < 2560
  · rw [if_pos (by omega), if_pos h0]; simp [slotIn, gran, slots]
  rw [if_neg (by omega), if_neg h0]
  by_cases h1 : d < 163840
  · rw [if_pos (by omega), if_pos h1]; simp [slotIn, gran, slots]
  rw [if_neg (by omega), if_neg h1]
  by_cases h2 : d < 10485760
  · rw [if_pos (by omega), if_pos h2]; simp [slotIn, gran, slots]
  rw [if_neg (by omega), if_neg h2]
  by_cases h3 : d < 671088640
  · rw [if_pos (by omega), if_pos h3]; simp [slotIn, gran, slots]
  rw [if_neg (by omega), if_neg h3, if_neg (by omega), if_neg (by omega)]
  simp [slotIn, gran, slots]

theorem pHead_mem (j e : Nat) : pHead j e ∈ allSlots := by
  rw [pHead_spec]; exact slotIn_mem _ _

/-- For an expiry that is not in the past the remaining delay is the difference. -/
theorem pHead_of_le {j e : Nat} (h : j ≤ e) (he : e < 2 ^ 32) :
    pHead j e = slotIn (levelOf (e - j)) e := by
  rw [pHead_spec]
  congr 2
  unfold u32
  omega

theorem levelOf_lt_cap {d : Nat} (hd : d < 2 ^ 32) : d < cap (levelOf d) := by
  unfold levelOf
  split_ifs <;> simp only [cap] <;> omega

/-- A delay that is filed above the first array spans at least ten of that array's slots. -/
theorem ten_gran_le {d : Nat} (h : levelOf d ≠ 0) : 10 * gran (levelOf d) ≤ d := by
  unfold levelOf at h ⊢
  split_ifs at h ⊢ <;> simp only [gran] <;> omega

/-! ## Adding timers -/

theorem addTimer_uJiffies (tm : TimerManager α) (n : TimerNode α) :
    (addTimer tm n).uJiffies = tm.uJiffies := by
  unfold addTimer listTimerInsertTail; rfl

theorem addTimer_uExitFlag (tm : TimerManager α) (n : TimerNode α) :
    (addTimer tm n).uExitFlag = tm.uExitFlag := by
  unfold addTimer listTimerInsertTail; rfl

theorem addTimer_linked (tm : TimerManager α) (n : TimerNode α) :
    (addTimer tm n).linked = n ::ₘ tm.linked := by
  unfold TimerManager.linked addTimer listTimerInsertTail
  exact Buckets.all_push tm.arrListTimer (pHead_mem tm.uJiffies n.uExpires) n

theorem mem_addTimer {tm : TimerManager α} {n m : TimerNode α} {s : Slot} :
    m ∈ (addTimer tm n).arrListTimer s ↔
      m ∈ tm.arrListTimer s ∨ (m = n ∧ s = pHead tm.uJiffies m.uExpires) := by
  unfold addTimer listTimerInsertTail
  by_cases hs : s = pHead tm.uJiffies n.uExpires
  · subst hs
    simp only [Function.update_self, List.mem_append, List.mem_singleton]
    refine or_congr_right ⟨fun h => ⟨h, by rw [h]⟩, And.left⟩
  · simp only [Function.update_of_ne hs]
    refine ⟨Or.inl, ?_⟩
    rintro (h | ⟨rfl, h⟩)
    · exact h
    · exact absurd h hs

theorem foldl_addTimer_uJiffies (l : List (TimerNode α)) (tm : TimerManager α) :
    (l.foldl addTimer tm).uJiffies = tm.uJiffies := by
  induction l generalizing tm with
  | nil => rfl
  | cons n l ih => rw [List.foldl_cons, ih, addTimer_uJiffies]

theorem foldl_addTimer_uExitFlag (l : List (TimerNode α)) (tm : TimerManager α) :
    (l.foldl addTimer tm).uExitFlag = tm.uExitFlag := by
  induction l generalizing tm with
  | nil => rfl
  | cons n l ih => rw [List.foldl_cons, ih, addTimer_uExitFlag]

theorem foldl_addTimer_linked (l : List (TimerNode α)) (tm : TimerManager α) :
    (l.foldl addTimer tm).linked = tm.linked + (l : Multiset (TimerNode α)) := by
  induction l generalizing tm with
  | nil => simp
  | cons n l ih =>
      rw [List.foldl_cons, ih, addTimer_linked, ← Multiset.cons_coe, Multiset.add_cons,
        Multiset.cons_add]

theorem mem_foldl_addTimer {l : List (TimerNode α)} {tm : TimerManager α} {m : TimerNode α}
    {s : Slot} :
    m ∈ (l.foldl addTimer tm).arrListTimer s ↔
      m ∈ tm.arrListTimer s ∨ (m ∈ l ∧ s = pHead tm.uJiffies m.uExpires) := by
  induction l generalizing tm with
  | nil => simp
  | cons n l ih =>
      rw [List.foldl_cons, ih, mem_addTimer, addTimer_uJiffies, List.mem_cons]
      tauto

theorem replaceInit_uJiffies (tm : TimerManager α) (s : Slot) :
    (listTimerReplaceInit tm s).uJiffies = tm.uJiffies := rfl

theorem replaceInit_uExitFlag (tm : TimerManager α) (s : Slot) :
    (listTimerReplaceInit tm s).uExitFlag = tm.uExitFlag := rfl

theorem replaceInit_linked (tm : TimerManager α) {s : Slot} (hs : s ∈ allSlots) :
    (listTimerReplaceInit tm s).linked + (tm.arrListTimer s : Multiset (TimerNode α)) =
      tm.linked := by
  unfold TimerManager.linked listTimerReplaceInit
  exact Buckets.all_take tm.arrListTimer hs

theorem mem_replaceInit {tm : TimerManager α} {s t : Slot} {m : TimerNode α} :
    m ∈ (listTimerReplaceInit tm t).arrListTimer s ↔ m ∈ tm.arrListTimer s ∧ s ≠ t := by
  unfold listTimerReplaceInit
  by_cases h : s = t
  · subst h; simp
  · simp [h]

/-! ## Cascades -/

theorem cascadeTimer_snd (tm : TimerManager α) (arr : Fin 5) (i : Nat) :
    (cascadeTimer tm arr i).2 = i := by
  unfold cascadeTimer; rfl

theorem cascadeTimer_uJiffies (tm : TimerManager α) (arr : Fin 5) (i : Nat) :
    (cascadeTimer tm arr i).1.uJiffies = tm.uJiffies := by
  unfold cascadeTimer
  rw [foldl_addTimer_uJiffies, replaceInit_uJiffies]

theorem cascadeTimer_uExitFlag (tm : TimerManager α) (arr : Fin 5) (i : Nat) :
    (cascadeTimer tm arr i).1.uExitFlag = tm.uExitFlag := by
  unfold cascadeTimer
  rw [foldl_addTimer_uExitFlag, replaceInit_uExitFlag]

theorem cascadeTimer_linked (tm : TimerManager α) {arr : Fin 5} {i : Nat} (h : i < slots arr) :
    (cascadeTimer tm arr i).1.linked = tm.linked := by
  unfold cascadeTimer
  rw [foldl_addTimer_linked, replaceInit_linked tm (mem_allSlots.2 h)]

theorem mem_cascadeTimer {tm : TimerManager α} {arr : Fin 5} {i : Nat} {m : TimerNode α}
    {s : Slot} :
    m ∈ (cascadeTimer tm arr i).1.arrListTimer s ↔
      (m ∈ tm.arrListTimer s ∧ s ≠ (arr, i)) ∨
        (m ∈ tm.arrListTimer (arr, i) ∧ s = pHead tm.uJiffies m.uExpires) := by
  unfold cascadeTimer
  rw [mem_foldl_addTimer, mem_replaceInit, replaceInit_uJiffies]

/-- The slots the cascades of tick `j` detach, in order. -/
def cascadeSlots (j : Nat) : List Slot :=
  if j % 2 ^ 8 = 0 then
    slotIn 1 j ::
      if j % 2 ^ 14 = 0 then
        slotIn 2 j ::
          if j % 2 ^ 20 = 0 then
            slotIn 3 j :: if j % 2 ^ 26 = 0 then [slotIn 4 j] else []
          else []
      else []
  else []

/-- Slot `s` is detached and filed again in tick `j`. -/
def Cascading (j : Nat) (s : Slot) : Prop := s.1 ≠ 0 ∧ j % gran s.1 = 0 ∧ s = slotIn s.1 j

theorem mem_cascadeSlots {j : Nat} {s : Slot} : s ∈ cascadeSlots j ↔ Cascading j s := by
  obtain ⟨arr, i⟩ := s
  have h14 : j % 2 ^ 14 = 0 → j % 2 ^ 8 = 0 := by omega
  have h20 : j % 2 ^ 20 = 0 → j % 2 ^ 14 = 0 := by omega
  have h26 : j % 2 ^ 26 = 0 → j % 2 ^ 20 = 0 := by omega
  unfold cascadeSlots Cascading slotIn
  fin_cases arr <;> simp only [gran, slots] <;> split_ifs <;> simp_all

theorem INDEX_eq (tm : TimerManager α) (N : Nat) :
    INDEX tm N = tm.uJiffies / 2 ^ (8 + N * 6) % 64 := by
  unfold INDEX
  rw [and_TVN_MASK, Nat.shiftRight_eq_div_pow]

/-- The chain of conditional cascades is a fold over the detached slots. -/
theorem cascades_eq (tm : TimerManager α) :
    cascades tm = (cascadeSlots tm.uJiffies).foldl (fun tm s => (cascadeTimer tm s.1 s.2).1) tm := by
  have key : ∀ (tm' : TimerManager α) (arr : Fin 5) (N : Nat), tm'.uJiffies = tm.uJiffies →
      gran arr = 2 ^ (8 + N * 6) → slots arr = 64 →
      (arr, INDEX tm' N) = slotIn arr tm.uJiffies := by
    intro tm' arr N hj hg hs
    rw [INDEX_eq, hj, slotIn, hg, hs]
  have k1 := key tm 1 0 rfl rfl rfl
  have hj1 : (cascadeTimer tm 1 (INDEX tm 0)).1.uJiffies = tm.uJiffies := cascadeTimer_uJiffies _ _ _
  generalize ht1 : (cascadeTimer tm 1 (INDEX tm 0)).1 = t1 at hj1
  have k2 := key t1 2 1 hj1 rfl rfl
  have hj2 : (cascadeTimer t1 2 (INDEX t1 1)).1.uJiffies = tm.uJiffies :=
    (cascadeTimer_uJiffies _ _ _).trans hj1
  generalize ht2 : (cascadeTimer t1 2 (INDEX t1 1)).1 = t2 at hj2
  have k3 := key t2 3 2 hj2 rfl rfl
  have hj3 : (cascadeTimer t2 3 (INDEX t2 2)).1.uJiffies = tm.uJiffies :=
    (cascadeTimer_uJiffies _ _ _).trans hj2
  generalize ht3 : (cascadeTimer t2 3 (INDEX t2 2)).1 = t3 at hj3
  have k4 := key t3 4 3 hj3 rfl rfl
  -- a returned index is zero exactly when the next array's granularity divides the tick
  have i0 : tm.uJiffies % 2 ^ 8 = 0 → (INDEX tm 0 = 0 ↔ tm.uJiffies % 2 ^ 14 = 0) := by
    intro h; rw [INDEX_eq]; omega
  have i1 : tm.uJiffies % 2 ^ 14 = 0 → (INDEX t1 1 = 0 ↔ tm.uJiffies % 2 ^ 20 = 0) := by
    intro h; rw [INDEX_eq, hj1]; omega
  have i2 : tm.uJiffies % 2 ^ 20 = 0 → (INDEX t2 2 = 0 ↔ tm.uJiffies % 2 ^ 26 = 0) := by
    intro h; rw [INDEX_eq, hj2]; omega
  unfold cascades cascadeSlots
  simp only [and_TVR_MASK, cascadeTimer_snd, ht1, ht2, ht3]
  by_cases h8 : tm.uJiffies % 2 ^ 8 = 0
  · rw [if_pos (show tm.uJiffies % 256 = 0 from h8), if_pos h8, List.foldl_cons, ← k1, ht1]
    by_cases h14 : tm.uJiffies % 2 ^ 14 = 0
    · rw [if_pos ((i0 h8).2 h14), if_pos h14, List.foldl_cons, ← k2, ht2]
      by_cases h20 : tm.uJiffies % 2 ^ 20 = 0
      · rw [if_pos ((i1 h14).2 h20), if_pos h20, List.foldl_cons, ← k3, ht3]
        by_cases h26 : tm.uJiffies % 2 ^ 26 = 0
        · rw [if_pos ((i2 h20).2 h26), if_pos h26, List.foldl_cons, List.foldl_nil, ← k4]
        · rw [if_neg (fun h => h26 ((i2 h20).1 h)), if_neg h26, List.foldl_nil]
      · rw [if_neg (fun h => h20 ((i1 h14).1 h)), if_neg h20, List.foldl_nil]
    · rw [if_neg (fun h => h14 ((i0 h8).1 h)), if_neg h14, List.foldl_nil]
  · rw [if_neg (show ¬ tm.uJiffies % 256 = 0 from h8), if_neg h8, List.foldl_nil]

theorem foldl_cascade_uJiffies (l : List Slot) (tm : TimerManager α) :
    (l.foldl (fun tm s => (cascadeTimer tm s.1 s.2).1) tm).uJiffies = tm.uJiffies := by
  induction l generalizing tm with
  | nil => rfl
  | cons s l ih => rw [List.foldl_cons, ih, cascadeTimer_uJiffies]

theorem foldl_cascade_uExitFlag (l : List Slot) (tm : TimerManager α) :
    (l.foldl (fun tm s => (cascadeTimer tm s.1 s.2).1) tm).uExitFlag = tm.uExitFlag := by
  induction l generalizing tm with
  | nil => rfl
  | cons s l ih => rw [List.foldl_cons, ih, cascadeTimer_uExitFlag]

theorem cascades_uJiffies (tm : TimerManager α) : (cascades tm).uJiffies = tm.uJiffies := by
  rw [cascades_eq, foldl_cascade_uJiffies]

theorem cascades_uExitFlag (tm : TimerManager α) : (cascades tm).uExitFlag = tm.uExitFlag := by
  rw [cascades_eq, foldl_cascade_uExitFlag]

/-- **The cascades lose and duplicate nothing.** -/
theorem cascades_linked (tm : TimerManager α) : (cascades tm).linked = tm.linked := by
  have hvalid : ∀ s ∈ cascadeSlots tm.uJiffies, s.2 < slots s.1 := fun s hs => by
    rw [(mem_cascadeSlots.1 hs).2.2]; exact mem_allSlots.1 (slotIn_mem _ _)
  rw [cascades_eq]
  generalize cascadeSlots tm.uJiffies = l at hvalid
  induction l generalizing tm with
  | nil => rfl
  | cons s l ih =>
      rw [List.foldl_cons, ih _ fun t ht => hvalid t (List.mem_cons_of_mem _ ht),
        cascadeTimer_linked _ (hvalid s List.mem_cons_self)]

theorem mem_foldl_cascade {l : List Slot} {tm : TimerManager α} {m : TimerNode α} {s : Slot}
    (h : m ∈ (l.foldl (fun tm s => (cascadeTimer tm s.1 s.2).1) tm).arrListTimer s) :
    (m ∈ tm.arrListTimer s ∧ s ∉ l) ∨
      (∃ s0 ∈ l, m ∈ tm.arrListTimer s0 ∧ s = pHead tm.uJiffies m.uExpires) := by
  induction l generalizing tm with
  | nil => exact Or.inl ⟨h, by simp⟩
  | cons t l ih =>
      rw [List.foldl_cons] at h
      rcases ih h with ⟨hm, hs⟩ | ⟨s0, hs0, hm, hs⟩
      · rcases mem_cascadeTimer.1 hm with ⟨hm, hne⟩ | ⟨hm, hs'⟩
        · exact Or.inl ⟨hm, by simp [hne, hs]⟩
        · exact Or.inr ⟨t, List.mem_cons_self, hm, hs'⟩
      · rw [cascadeTimer_uJiffies] at hs
        rcases mem_cascadeTimer.1 hm with ⟨hm, _⟩ | ⟨hm, _⟩
        · exact Or.inr ⟨s0, List.mem_cons_of_mem _ hs0, hm, hs⟩
        · exact Or.inr ⟨t, List.mem_cons_self, hm, hs⟩

/-- **What the cascades do**: a timer linked afterwards stayed in its slot, which is not cascading,
or came from a cascading slot and is where `add_timer` puts it. -/
theorem mem_cascades {tm : TimerManager α} {m : TimerNode α} {s : Slot}
    (h : m ∈ (cascades tm).arrListTimer s) :
    (m ∈ tm.arrListTimer s ∧ ¬ Cascading tm.uJiffies s) ∨
      (∃ s0, Cascading tm.uJiffies s0 ∧ m ∈ tm.arrListTimer s0 ∧
        s = pHead tm.uJiffies m.uExpires) := by
  rw [cascades_eq] at h
  rcases mem_foldl_cascade h with ⟨hm, hs⟩ | ⟨s0, hs0, hm, hs⟩
  · exact Or.inl ⟨hm, fun hc => hs (mem_cascadeSlots.2 hc)⟩
  · exact Or.inr ⟨s0, mem_cascadeSlots.1 hs0, hm, hs⟩

/-! ## One tick -/

/-- The timers a tick calls, in the order of the walk. -/
def tickNodes (tm : TimerManager α) : List (TimerNode α) :=
  (cascades tm).arrListTimer (0, tm.uJiffies &&& TVR_MASK)

/-- The timers of a walk that are armed again. -/
def rearmed (j : Nat) (l : List (TimerNode α)) : List (TimerNode α) :=
  (l.filter (·.uPeriod ≠ 0)).map (·.rearm j)

/-- The wheel after a tick. -/
def tickWheel (tm : TimerManager α) : TimerManager α :=
  let w := (rearmed tm.uJiffies (tickNodes tm)).foldl addTimer
    (listTimerReplaceInit (cascades tm) (0, tm.uJiffies &&& TVR_MASK))
  { w with uJiffies := u32 (tm.uJiffies + 1) }

variable {σ ε : Type}

theorem expireOne_eq (call : TimerNode α → Nat → σ → Except ε σ) (tm : TimerManager α) (s : σ)
    (n : TimerNode α) :
    expireOne call (tm, s) n = (call n tm.uJiffies s).map fun s' =>
      (if n.uPeriod = 0 then tm else addTimer tm (n.rearm tm.uJiffies), s') := by
  unfold expireOne
  cases call n tm.uJiffies s with
  | error e => rfl
  | ok s' => by_cases hp : n.uPeriod = 0 <;> simp [hp, bind, Except.bind, Except.map, pure, Except.pure]

theorem foldlM_expireOne (call : TimerNode α → Nat → σ → Except ε σ) (j : Nat)
    (l : List (TimerNode α)) (tm : TimerManager α) (s : σ) (hj : tm.uJiffies = j) :
    l.foldlM (expireOne call) (tm, s) =
      (l.foldlM (fun s n => call n j s) s).map fun s' => ((rearmed j l).foldl addTimer tm, s') := by
  induction l generalizing tm s with
  | nil => rfl
  | cons n l ih =>
      rw [List.foldlM_cons, List.foldlM_cons, expireOne_eq, hj]
      cases hc : call n j s with
      | error e => rfl
      | ok s' =>
          by_cases hp : n.uPeriod = 0
          · have hr : rearmed j (n :: l) = rearmed j l := by simp [rearmed, hp]
            rw [hr, if_pos hp]
            exact ih tm s' hj
          · have hr : rearmed j (n :: l) = n.rearm j :: rearmed j l := by simp [rearmed, hp]
            rw [hr, List.foldl_cons, if_neg hp]
            exact ih (addTimer tm (n.rearm j)) s' (by rw [addTimer_uJiffies, hj])

/-- **A tick is a function of the wheel**; the callbacks of the detached timers run in order on a
state of their own. -/
theorem runTick_eq (call : TimerNode α → Nat → σ → Except ε σ) (tm : TimerManager α) (s : σ) :
    runTick call (tm, s) =
      ((tickNodes tm).foldlM (fun s n => call n tm.uJiffies s) s).map fun s' =>
        (tickWheel tm, s') := by
  unfold runTick
  have hj : (listTimerReplaceInit (cascades tm) (0, tm.uJiffies &&& TVR_MASK)).uJiffies =
      tm.uJiffies := by rw [replaceInit_uJiffies, cascades_uJiffies]
  have h := foldlM_expireOne call tm.uJiffies (tickNodes tm) _ s hj
  simp only [tickNodes] at h
  simp only [h, tickNodes, tickWheel]
  cases List.foldlM (fun s n => call n tm.uJiffies s) s
      ((cascades tm).arrListTimer (0, tm.uJiffies &&& TVR_MASK)) with
  | error e => rfl
  | ok s' => simp [Except.map, bind, Except.bind, pure, Except.pure, foldl_addTimer_uJiffies, hj]

theorem tickWheel_uJiffies (tm : TimerManager α) :
    (tickWheel tm).uJiffies = u32 (tm.uJiffies + 1) := by
  unfold tickWheel; rfl

theorem tickWheel_uExitFlag (tm : TimerManager α) :
    (tickWheel tm).uExitFlag = tm.uExitFlag := by
  unfold tickWheel
  simp only [foldl_addTimer_uExitFlag, replaceInit_uExitFlag, cascades_uExitFlag]

/-- **What one tick does to the slots**: a timer linked afterwards was there before the expiry walk,
outside the expiring slot, or was armed again by the walk. -/
theorem mem_tickWheel {tm : TimerManager α} {m : TimerNode α} {s : Slot} :
    m ∈ (tickWheel tm).arrListTimer s ↔
      (m ∈ (cascades tm).arrListTimer s ∧ s ≠ (0, tm.uJiffies % 256)) ∨
        (m ∈ rearmed tm.uJiffies (tickNodes tm) ∧ s = pHead tm.uJiffies m.uExpires) := by
  unfold tickWheel
  simp only [mem_foldl_addTimer, mem_replaceInit, replaceInit_uJiffies, cascades_uJiffies,
    and_TVR_MASK]

theorem mem_tickNodes {tm : TimerManager α} {m : TimerNode α} :
    m ∈ tickNodes tm ↔ m ∈ (cascades tm).arrListTimer (0, tm.uJiffies % 256) := by
  unfold tickNodes; rw [and_TVR_MASK]

/-- **Conservation**: a tick takes the called timers out of the wheel and puts back exactly those
that are periodic, armed again; the rest stay linked. -/
theorem tickWheel_linked (tm : TimerManager α) :
    ∃ rest : Multiset (TimerNode α), tm.linked = rest + (tickNodes tm : Multiset (TimerNode α)) ∧
      (tickWheel tm).linked =
        rest + (rearmed tm.uJiffies (tickNodes tm) : Multiset (TimerNode α)) := by
  have hs : ((0 : Fin 5), tm.uJiffies &&& TVR_MASK) ∈ allSlots := by
    rw [mem_allSlots, and_TVR_MASK]; exact Nat.mod_lt _ (by norm_num)
  refine ⟨(listTimerReplaceInit (cascades tm) (0, tm.uJiffies &&& TVR_MASK)).linked, ?_, ?_⟩
  · have h := replaceInit_linked (cascades tm) hs
    rw [cascades_linked] at h
    exact h.symm
  · rw [← foldl_addTimer_linked]
    unfold tickWheel TimerManager.linked
    rfl

end ThreadSched.Wheel
