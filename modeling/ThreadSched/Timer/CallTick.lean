import ThreadSched.Timer.NeverEarly

/-!
# The tick of a timer's call

What the slots of a wheel say about a timer that hangs in it: the tick in which it will be called, if the
ticks are processed one by one.

* `callTick j s e` — the tick of the call of a timer with expiry `e` that hangs in slot `s` when tick `j` is
  the next one: `e`, less a multiple of 256 if the timer reaches the first array too early.
* `dueAt` — the same for a timer whose expiry wrapped: the stored expiry, which lies behind.
* `DueAt.tick` — a tick changes the slot, not the tick of the call; `DueAt.of_tickNodes` — what a tick calls
  is what it is the tick of; `exists_tickNodes` — the call comes.
-/

set_option autoImplicit false

namespace ThreadSched.Wheel

variable {α : Type}

/-- How much too early a timer with `r` milliseconds left is called that is filed now. -/
def lead (r : Nat) : Nat := if r < 2560 then r / 256 * 256 else 0

/-- How much too early a timer with expiry `e` is called that hangs in this array.  What counts is what is
left of `e` when the array's slot is cascaded for the last time. -/
def leadIn : Fin 5 → Nat → Nat
  | 0, _ => 0
  | 1, _ => 0
  | 2, e => lead (e % 2 ^ 14)
  | 3, e => if e % 2 ^ 20 < 163840 then lead (e % 2 ^ 20) else lead (e % 2 ^ 14)
  | 4, e =>
    if e % 2 ^ 26 < 163840 then lead (e % 2 ^ 26)
    else if e % 2 ^ 26 < 10485760 then lead (e % 2 ^ 14)
    else if e % 2 ^ 20 < 163840 then lead (e % 2 ^ 20)
    else lead (e % 2 ^ 14)

/-- The tick of the call; the slots of the first array come round every 256 ticks. -/
def callTick (j : Nat) (s : Slot) (e : Nat) : Nat :=
  if s.1 = 0 then j + (e - j) % 256 else e - leadIn s.1 e

variable {j e : Nat} {s : Slot}

theorem lead_le (r : Nat) : lead r ≤ r := by
  unfold lead
  split_ifs <;> omega

/-- The lead is taken from what is left in the array's slot. -/
theorem leadIn_le (arr : Fin 5) (e : Nat) : leadIn arr e ≤ e % gran arr := by
  match arr with
  | 0 => exact Nat.zero_le _
  | 1 => exact Nat.zero_le _
  | 2 => exact lead_le _
  | 3 =>
      have h₁ := lead_le (e % 2 ^ 20)
      have h₂ := lead_le (e % 2 ^ 14)
      simp only [leadIn, gran]
      split_ifs <;> omega
  | 4 =>
      have h₁ := lead_le (e % 2 ^ 26)
      have h₂ := lead_le (e % 2 ^ 20)
      have h₃ := lead_le (e % 2 ^ 14)
      simp only [leadIn, gran]
      split_ifs <;> omega

theorem callTick_le (hle : j ≤ e) : callTick j s e ≤ e := by
  unfold callTick
  split_ifs <;> omega

theorem Placed.le_callTick (h : Placed j s e) : j ≤ callTick j s e := by
  have hahead := h.ahead
  have hlead := leadIn_le s.1 e
  have hdm := Nat.div_add_mod e (gran s.1)
  rw [Nat.mul_comm] at hdm
  unfold callTick
  split_ifs <;> omega

/-- Filing decides by the remaining delay. -/
theorem callTick_pHead (h : j ≤ e) (he : e < 2 ^ 32) : callTick j (pHead j e) e =
    if e - j < 2560 then j + (e - j) % 256 else e - leadIn (levelOf (e - j)) e := by
  rw [pHead_of_le h he]
  simp only [callTick, slotIn, levelOf_eq_zero]

/-- A cascade changes the array, not the tick of the call. -/
theorem callTick_cascading (hp : Placed j s e) (hc : Cascading j s) (he : e < 2 ^ 32) :
    callTick j (pHead j e) e = callTick j s e := by
  obtain ⟨arr, i⟩ := s
  obtain ⟨h0, hmod, hslot⟩ := hc
  have hle := hp.le
  obtain ⟨hslot', hahead, hnear⟩ := hp
  have heq : e / gran arr % slots arr = j / gran arr % slots arr := by
    rw [hslot'] at hslot
    exact (Prod.mk.inj hslot).2
  rw [callTick_pHead hle he]
  unfold callTick levelOf
  rw [if_neg h0]
  clear hslot hslot'
  -- `e` and `j` agree in the bits above the array's granularity, or differ by a whole turn of it
  match arr, h0 with
  | 1, _ =>
      simp only [gran, slots, cap] at hmod hahead hnear heq
      simp only [show e - j < 163840 by omega, if_true]
      split_ifs
      · simp only [leadIn]
        omega
      · rfl
  | 2, _ =>
      simp only [gran, slots, cap] at hmod hahead hnear heq
      simp only [show e - j < 10485760 by omega, if_true]
      split_ifs <;> simp only [leadIn, lead] <;> split_ifs <;> omega
  | 3, _ =>
      simp only [gran, slots, cap] at hmod hahead hnear heq
      simp only [show e - j < 671088640 by omega, if_true]
      split_ifs <;> simp only [leadIn, lead] <;> split_ifs <;> omega
  | 4, _ =>
      simp only [gran, slots, cap] at hmod hahead hnear heq
      split_ifs <;> simp only [leadIn, lead] <;> split_ifs <;> omega

/-- Outside the slot that expires now, the tick of the call does not depend on the next tick. -/
theorem callTick_succ (hs : s = slotIn s.1 e) (hle : j ≤ e) (hne : s ≠ (0, j % 256)) :
    callTick (j + 1) s e = callTick j s e := by
  unfold callTick
  by_cases h0 : s.1 = 0
  · rw [if_pos h0, if_pos h0]
    rw [h0] at hs
    have hmod : e % 256 ≠ j % 256 := fun heq => hne (by rw [hs]; simp [slotIn, gran, slots, heq])
    omega
  · rw [if_neg h0, if_neg h0]

/-- In the slot that expires now, the tick of the call is this one. -/
theorem callTick_expiring (hs : ((0 : Fin 5), j % 256) = slotIn 0 e) (hle : j ≤ e) :
    callTick j (0, j % 256) e = j := by
  have hmod : j % 256 = e % 256 := by simpa [slotIn, gran, slots] using hs
  unfold callTick
  simp only [if_true]
  omega

/-! ## Timers in the wheel -/

/-- From this reading on, the timer is due. -/
def dueAt (j : Nat) (s : Slot) (e : Nat) : Nat := if e < j then e else callTick j s e

/-- In each slot in which the timer hangs, it is due from `τ` on. -/
def DueAt (tm : TimerManager α) (n : TimerNode α) (τ : Nat) : Prop :=
  ∀ s, n ∈ tm.arrListTimer s → dueAt tm.uJiffies s n.uExpires = τ

/-- Where an expiry that wrapped lies: it is less than `2^32` ahead of the clock of its time. -/
def Wrapped (tm : TimerManager α) : Prop :=
  ∀ s n, n ∈ tm.arrListTimer s → n.uPeriod < 2 ^ 32 ∧ (2 ^ 32 ≤ n.due → n.uExpires < tm.uJiffies)

/-- What `create_timer` and ticks keep of a wheel. -/
structure Sound (tm : TimerManager α) : Prop where
  exitFlag : tm.uExitFlag = 0
  jiffies : tm.uJiffies < 2 ^ 32
  stored : AllStored tm
  placed : AllPlaced tm
  wrapped : Wrapped tm

variable {tm : TimerManager α} {n : TimerNode α} {τ : Nat}

theorem dueAt_of_le (h : j ≤ e) : dueAt j s e = callTick j s e := if_neg (Nat.not_lt.2 h)

theorem dueAt_of_lt (h : e < j) : dueAt j s e = e := if_pos h

/-- A timer that did not wrap is placed by its expiry. -/
theorem Sound.expires (h : Sound tm) (hn : n ∈ tm.arrListTimer s) (hd : n.due < 2 ^ 32) :
    n.uExpires = n.due ∧ Placed tm.uJiffies s n.uExpires := by
  have hexp : n.uExpires = n.due := by rw [h.stored s n hn, u32_of_lt hd]
  exact ⟨hexp, hexp ▸ h.placed s n hn hd⟩

theorem dueAt_le (j : Nat) (s : Slot) (e : Nat) : dueAt j s e ≤ e := by
  by_cases hlt : e < j
  · rw [dueAt_of_lt hlt]
  · rw [dueAt_of_le (Nat.not_lt.1 hlt)]
    exact callTick_le (Nat.not_lt.1 hlt)

theorem mem_of_cascades (h : n ∈ (cascades tm).arrListTimer s) : ∃ s₀, n ∈ tm.arrListTimer s₀ := by
  rcases mem_cascades h with ⟨hm, -⟩ | ⟨s₀, -, hm, -⟩
  · exact ⟨s, hm⟩
  · exact ⟨s₀, hm⟩

/-- **A tick** keeps a wheel sound. -/
theorem Sound.tick (h : Sound tm) (hj : tm.uJiffies < 2 ^ 32 - 1) : Sound (tickWheel tm) := by
  have hj' : (tickWheel tm).uJiffies = tm.uJiffies + 1 := by
    rw [tickWheel_uJiffies, u32_of_lt (by omega)]
  refine ⟨(tickWheel_uExitFlag tm).trans h.exitFlag, by omega, h.stored.tick, h.placed.tick h.stored hj, ?_⟩
  intro s n hn
  rw [hj']
  rcases mem_tickWheel.1 hn with ⟨hm, -⟩ | ⟨hm, -⟩
  · obtain ⟨s₀, hn₀⟩ := mem_of_cascades hm
    obtain ⟨hperiod, hwrap⟩ := h.wrapped s₀ n hn₀
    exact ⟨hperiod, fun hd => (hwrap hd).trans (Nat.lt_succ_self _)⟩
  · obtain ⟨m, hm', -, rfl⟩ := mem_rearmed.1 hm
    obtain ⟨s₀, -, hm₀⟩ := mem_linked.1 (mem_linked_of_tickNodes hm')
    have hperiod := (h.wrapped s₀ m hm₀).1
    refine ⟨hperiod, fun hd => ?_⟩
    have hexp : (m.rearm tm.uJiffies).uExpires = u32 (m.rearm tm.uJiffies).due := rfl
    have hdue : (m.rearm tm.uJiffies).due = tm.uJiffies + m.uPeriod := rfl
    rw [hexp, hdue]
    rw [hdue] at hd
    unfold u32
    omega

/-- The new timer of `create_timer`. -/
theorem Sound.createTimer (h : Sound tm) (node : Nat) (timer : α) {d p : Nat} (hd : d < 2 ^ 32)
    (hp : p < 2 ^ 32) : Sound (createTimer tm node timer d p) := by
  have hj : (Wheel.createTimer tm node timer d p).uJiffies = tm.uJiffies := by
    unfold Wheel.createTimer
    rw [addTimer_uJiffies]
  refine ⟨?_, ?_, fun s n hn => ?_, fun s n hn hdue => ?_, fun s n hn => ?_⟩
  · unfold Wheel.createTimer
    rw [addTimer_uExitFlag]
    exact h.exitFlag
  · rw [hj]
    exact h.jiffies
  · rcases mem_addTimer.1 hn with hn | ⟨rfl, -⟩
    · exact h.stored s n hn
    · exact newTimer_stored _ _ _ _ _
  · rw [hj]
    rcases mem_addTimer.1 hn with hn | ⟨rfl, rfl⟩
    · exact h.placed s n hn hdue
    · rw [newTimer_stored, u32_of_lt hdue]
      exact placed_pHead (Nat.le_add_right _ _) hdue
  · rw [hj]
    rcases mem_addTimer.1 hn with hn | ⟨rfl, -⟩
    · exact h.wrapped s n hn
    · refine ⟨by simpa only [newTimer] using hp, fun hwrap => ?_⟩
      have hj32 := h.jiffies
      have hdue : (newTimer tm node timer d p).due = tm.uJiffies + d := by simp only [newTimer]
      rw [hdue] at hwrap
      rw [newTimer_stored, hdue]
      unfold u32
      omega

/-- A timer that a tick does not call stays in the wheel. -/
theorem mem_linked_tickWheel (hn : n ∈ tm.linked) (hnot : n ∉ tickNodes tm) : n ∈ (tickWheel tm).linked := by
  obtain ⟨rest, hbefore, hafter⟩ := tickWheel_linked tm
  rw [hbefore, Multiset.mem_add] at hn
  rw [hafter, Multiset.mem_add]
  exact Or.inl (hn.resolve_right hnot)

/-- **A tick does not change when a timer is due**, unless it is armed again. -/
theorem DueAt.tick (h : DueAt tm n τ) (hs : Sound tm) (hj : tm.uJiffies < 2 ^ 32 - 1)
    (hperiod : n.uPeriod = 0) : DueAt (tickWheel tm) n τ := by
  intro s hn
  rw [tickWheel_uJiffies, u32_of_lt (by omega)]
  rcases mem_tickWheel.1 hn with ⟨hm, hne⟩ | ⟨hm, -⟩
  · by_cases hd : n.due < 2 ^ 32
    · have hnext := ((hs.placed.cascades hs.stored hm hd).2 hne).le
      rcases mem_cascades hm with ⟨hm₀, -⟩ | ⟨s₀, hc, hm₀, rfl⟩
      · obtain ⟨hexp, hp⟩ := hs.expires hm₀ hd
        rw [← hexp] at hnext
        rw [← h s hm₀, dueAt_of_le hnext, dueAt_of_le hp.le, callTick_succ hp.slot hp.le hne]
      · obtain ⟨hexp, hp⟩ := hs.expires hm₀ hd
        rw [← hexp] at hnext hd
        rw [← h s₀ hm₀, dueAt_of_le hnext, dueAt_of_le hp.le,
          callTick_succ (placed_pHead hp.le hd).slot hp.le hne, callTick_cascading hp hc hd]
    · obtain ⟨s₀, hn₀⟩ := mem_of_cascades hm
      have hlt := (hs.wrapped s₀ n hn₀).2 (Nat.not_lt.1 hd)
      rw [← h s₀ hn₀, dueAt_of_lt hlt, dueAt_of_lt (hlt.trans (Nat.lt_succ_self _))]
  · obtain ⟨m, -, hrearm, rfl⟩ := mem_rearmed.1 hm
    exact absurd hperiod hrearm

/-- **What a tick calls is due in it**, or its expiry wrapped. -/
theorem DueAt.of_tickNodes (h : DueAt tm n τ) (hs : Sound tm) (hn : n ∈ tickNodes tm) :
    τ ≤ tm.uJiffies := by
  have hm := mem_tickNodes.1 hn
  by_cases hd : n.due < 2 ^ 32
  · have hplaced := (hs.placed.cascades hs.stored hm hd).1
    rcases mem_cascades hm with ⟨hm₀, -⟩ | ⟨s₀, hc, hm₀, hs₀⟩
    · obtain ⟨-, hp⟩ := hs.expires hm₀ hd
      rw [← h _ hm₀, dueAt_of_le hp.le, callTick_expiring hp.slot hp.le]
    · obtain ⟨hexp, hp⟩ := hs.expires hm₀ hd
      rw [← hexp] at hd
      rw [← h _ hm₀, dueAt_of_le hp.le, ← callTick_cascading hp hc hd, ← hs₀]
      rw [← hexp] at hplaced
      rw [callTick_expiring hplaced.slot hp.le]
  · obtain ⟨s₀, hn₀⟩ := mem_of_cascades hm
    have hlt := (hs.wrapped s₀ n hn₀).2 (Nat.not_lt.1 hd)
    rw [← h s₀ hn₀, dueAt_of_lt hlt]
    exact hlt.le

/-- A timer that hangs in the wheel is called in a tick that is still to come. -/
theorem DueAt.le (h : DueAt tm n τ) (hs : Sound tm) (hn : n ∈ tm.linked) (hd : n.due < 2 ^ 32) :
    tm.uJiffies ≤ τ := by
  obtain ⟨s, -, hm⟩ := mem_linked.1 hn
  obtain ⟨-, hp⟩ := hs.expires hm hd
  rw [← h s hm, dueAt_of_le hp.le]
  exact hp.le_callTick

/-- **The call comes**, in one of the ticks up to any `r` from which on the timer is due. -/
theorem exists_tickNodes (hs : Sound tm) (hn : n ∈ tm.linked) (hperiod : n.uPeriod = 0) (hd : n.due < 2 ^ 32)
    (h : DueAt tm n τ) {r : Nat} (hτ : τ ≤ r) (hr : r < 2 ^ 32 - 1) :
    ∃ i, tm.uJiffies + i ≤ r ∧ n ∈ tickNodes (tickWheel^[i] tm) := by
  have hle := h.le hs hn hd
  -- the clock comes nearer to `r`, and the timer is called before it passes
  induction hk : r - tm.uJiffies generalizing tm with
  | zero =>
      refine ⟨0, by omega, ?_⟩
      by_contra hnot
      have hj : tm.uJiffies < 2 ^ 32 - 1 := by omega
      have hlater := (h.tick hs hj hperiod).le (hs.tick hj) (mem_linked_tickWheel hn hnot) hd
      rw [tickWheel_uJiffies, u32_of_lt (by omega)] at hlater
      omega
  | succ k ih =>
      by_cases hnow : n ∈ tickNodes tm
      · exact ⟨0, by omega, hnow⟩
      · have hj : tm.uJiffies < 2 ^ 32 - 1 := by omega
        have hj' : (tickWheel tm).uJiffies = tm.uJiffies + 1 := by
          rw [tickWheel_uJiffies, u32_of_lt (by omega)]
        have hlinked := mem_linked_tickWheel hn hnow
        have htick := h.tick hs hj hperiod
        obtain ⟨i, hi, hmem⟩ := ih (hs.tick hj) hlinked htick (htick.le (hs.tick hj) hlinked hd) (by omega)
        exact ⟨i + 1, by omega, by rwa [Function.iterate_succ_apply]⟩

end ThreadSched.Wheel
