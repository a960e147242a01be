import ThreadSched.Timer.Placement

/-!
# `run_timer` catching up with the clock

`get_jiffies` returns milliseconds modulo `2^32` and `timer_manager->uJiffies` counts modulo `2^32`.
`TIME_AFTER_EQ` casts both to a 64-bit `long`, so it compares them as numbers and does not see that
one of them has wrapped.

* `Drains call r w js w'` — for the reading `r` the loop started in `w` ends in `w'`, and `js` are the
  ticks it has processed.  `drains_iff_runTimer`: that is what `run_timer` computes.
* `drains_cases`, `exists_drains` — where the loop ends, for all 32-bit numbers.
* `clockOk_iff` — the loop treats the reading as the serial number it is exactly when neither counter
  has wrapped past the other and the reading is not the last number, `2^32 - 1`.
-/

set_option autoImplicit false

namespace ThreadSched.Wheel

variable {α σ : Type}

/-- A callback that does not touch the wheel and returns. -/
abbrev returning (call : TimerNode α → Nat → σ → σ) (n : TimerNode α) (j : Nat) (s : σ) :
    Except Unit σ :=
  .ok (call n j s)

/-- The loop of `run_timer` for the reading `r`, as a relation: it has an instance exactly when the
loop ends. -/
inductive Drains (call : TimerNode α → Nat → σ → σ) (r : Nat) :
    TimerManager α × σ → List Nat → TimerManager α × σ → Prop
  | done {w : TimerManager α × σ} :
      ¬ TIME_AFTER_EQ r w.1.uJiffies → Drains call r w [] w
  | round {w w₁ w' : TimerManager α × σ} {js : List Nat} :
      TIME_AFTER_EQ r w.1.uJiffies → runTick (returning call) w = .ok w₁ →
      Drains call r w₁ js w' → Drains call r w (w.1.uJiffies :: js) w'

/-- The ticks from `j` to `r`, counted modulo `2^32`. -/
def ticksTo (j r : Nat) : List Nat :=
  (List.range (u32 (r + 2 ^ 32 - j) + 1)).map fun i => u32 (j + i)

/-- The reading is the manager's time or less than half the range ahead of it. -/
def Behind (j r : Nat) : Prop := u32 (r + 2 ^ 32 - j) < 2 ^ 31

/-- The manager's time is less than half the range ahead of the reading. -/
def Ahead (j r : Nat) : Prop := 1 ≤ u32 (j + 2 ^ 32 - r) ∧ u32 (j + 2 ^ 32 - r) < 2 ^ 31

/-- What a clock modulo `2^32` asks of the loop: ticks that are due are processed once each, in
order; a reading in the past does nothing. -/
structure ClockOk (call : TimerNode α → Nat → σ → σ) (r : Nat) (w : TimerManager α × σ) : Prop where
  catchesUp : Behind w.1.uJiffies r →
    ∃ w', Drains call r w (ticksTo w.1.uJiffies r) w' ∧ w'.1.uJiffies = u32 (r + 1)
  waits : Ahead w.1.uJiffies r → ∃ w', Drains call r w [] w' ∧ w'.1.uJiffies = w.1.uJiffies

/-- Neither of the two counters has wrapped past the other, and the loop is not asked to process the
last tick of the range. -/
def NoWrap (j r : Nat) : Prop :=
  if j ≤ r then r - j ≤ 2 ^ 31 ∧ (r = 2 ^ 32 - 1 → r - j = 2 ^ 31) else j - r ≤ 2 ^ 31

instance (j r : Nat) : Decidable (NoWrap j r) := by unfold NoWrap; infer_instance

/-! ## Where the loop ends -/

section loop

variable {call : TimerNode α → Nat → σ → σ} {r : Nat}

theorem foldlM_returning (j : Nat) (l : List (TimerNode α)) (s : σ) :
    l.foldlM (fun s n => returning call n j s) s = .ok (l.foldl (fun s n => call n j s) s) := by
  induction l generalizing s with
  | nil => rfl
  | cons n l ih => exact ih (call n j s)

/-- A round never fails, and moves the manager's time on by one, modulo `2^32`. -/
theorem runTick_returning (call : TimerNode α → Nat → σ → σ) (w : TimerManager α × σ) :
    ∃ w₁, runTick (returning call) w = .ok w₁ ∧ w₁.1.uJiffies = u32 (w.1.uJiffies + 1) := by
  obtain ⟨tm, s⟩ := w
  refine ⟨(tickWheel tm, (tickNodes tm).foldl (fun s n => call n tm.uJiffies s) s), ?_, ?_⟩
  · rw [runTick_eq, foldlM_returning]
    rfl
  · exact tickWheel_uJiffies tm

theorem time_after_eq_iff {a b : Nat} : TIME_AFTER_EQ a b ↔ b ≤ a := by
  unfold TIME_AFTER_EQ
  omega

/-- **Where the loop ends, if it does**: at once when the reading is the smaller number; otherwise
after the ticks up to the reading, and then the reading is not the last number. -/
theorem drains_cases {w w' : TimerManager α × σ} {js : List Nat} (h : Drains call r w js w')
    (hr : r < 2 ^ 32) (hj : w.1.uJiffies < 2 ^ 32) :
    (r < w.1.uJiffies ∧ js = [] ∧ w' = w) ∨
      (w.1.uJiffies ≤ r ∧ r < 2 ^ 32 - 1 ∧
        js = List.range' w.1.uJiffies (r + 1 - w.1.uJiffies) ∧ w'.1.uJiffies = r + 1) := by
  induction h with
  | done hlt =>
      rw [time_after_eq_iff] at hlt
      left
      exact ⟨by omega, rfl, rfl⟩
  | @round w w₁ w' js hle htick _ ih =>
      right
      rw [time_after_eq_iff] at hle
      obtain ⟨w₂, hw₂, hnext⟩ := runTick_returning call w
      rw [htick] at hw₂
      cases hw₂
      have hn := ih (by rw [hnext]; exact u32_lt _)
      -- at the last number the time becomes `0` and the loop would have to end past the reading again
      rcases Nat.lt_or_ge (w.1.uJiffies + 1) (2 ^ 32) with hlt | hge
      · rw [u32_of_lt hlt] at hnext
        rw [hnext] at hn
        have hcons : r + 1 - w.1.uJiffies = (r + 1 - (w.1.uJiffies + 1)) + 1 := by omega
        rcases hn with ⟨hlast, rfl, rfl⟩ | ⟨hle', hr', rfl, hend⟩
        · have hrj : r + 1 - w.1.uJiffies = 1 := by omega
          rw [hrj]
          exact ⟨hle, by omega, rfl, by rw [hnext]; omega⟩
        · rw [hcons, List.range'_succ]
          exact ⟨hle, hr', rfl, hend⟩
      · have hzero : u32 (w.1.uJiffies + 1) = 0 := by
          have heq : w.1.uJiffies + 1 = 2 ^ 32 := by omega
          rw [heq]
          unfold u32
          exact Nat.mod_self _
        rw [hnext, hzero] at hn
        rcases hn with ⟨hneg, _⟩ | ⟨_, hr', _⟩
        · omega
        · omega

/-- **The loop ends for every reading below the last number.** -/
theorem exists_drains (call : TimerNode α → Nat → σ → σ) (hr : r < 2 ^ 32 - 1)
    (w : TimerManager α × σ) :
    ∃ w', Drains call r w (List.range' w.1.uJiffies (r + 1 - w.1.uJiffies)) w' ∧
      w'.1.uJiffies = max w.1.uJiffies (r + 1) := by
  -- induction on the number of ticks that are due
  generalize hn : r + 1 - w.1.uJiffies = n
  induction n generalizing w with
  | zero =>
      refine ⟨w, Drains.done ?_, by omega⟩
      rw [time_after_eq_iff]
      omega
  | succ n ih =>
      obtain ⟨w₁, htick, hnext⟩ := runTick_returning call w
      rw [u32_of_lt (by omega)] at hnext
      obtain ⟨w', hrun, hend⟩ := ih w₁ (by omega)
      refine ⟨w', ?_, by omega⟩
      rw [List.range'_succ, ← hnext]
      apply Drains.round
      · rw [time_after_eq_iff]
        omega
      · exact htick
      · exact hrun

theorem Drains.runTimerLoop {w w' : TimerManager α × σ} {js : List Nat} {fuel : Nat}
    (h : Drains call r w js w') (hlen : js.length < fuel) :
    runTimerLoop (returning call) () r fuel w = .ok w' := by
  induction h generalizing fuel with
  | done hlt =>
      obtain ⟨fuel, rfl⟩ := Nat.exists_eq_add_of_lt hlen
      simp only [List.length_nil, Nat.zero_add]
      rw [Wheel.runTimerLoop, if_neg hlt]
  | round hle htick _ ih =>
      obtain ⟨fuel, rfl⟩ := Nat.exists_eq_add_of_lt hlen
      rw [Wheel.runTimerLoop, if_pos hle, htick]
      apply ih
      rw [List.length_cons]
      omega

theorem drains_of_runTimerLoop {w w' : TimerManager α × σ} {fuel : Nat}
    (h : runTimerLoop (returning call) () r fuel w = .ok w') : ∃ js, Drains call r w js w' := by
  induction fuel generalizing w with
  | zero => cases h
  | succ fuel ih =>
      rw [runTimerLoop] at h
      split at h
      · next hle =>
          obtain ⟨w₁, htick, _⟩ := runTick_returning call w
          rw [htick] at h
          obtain ⟨js, hjs⟩ := ih h
          exact ⟨_, Drains.round hle htick hjs⟩
      · next hlt =>
          cases h
          exact ⟨[], Drains.done hlt⟩

/-- The relation is what `run_timer` computes: a loop that ends does so within its fuel. -/
theorem drains_iff_runTimer {w w' : TimerManager α × σ} (hr : r < 2 ^ 32)
    (hj : w.1.uJiffies < 2 ^ 32) :
    (∃ js, Drains call r w js w') ↔ runTimer (returning call) () r w = .ok w' := by
  unfold runTimer
  constructor
  · rintro ⟨js, h⟩
    apply h.runTimerLoop
    rcases drains_cases h hr hj with ⟨_, rfl, _⟩ | ⟨_, hlt, rfl, _⟩
    · rw [List.length_nil]
      omega
    · rw [List.length_range']
      omega
  · exact drains_of_runTimerLoop

end loop

/-! ## The clock -/

/-- Some tick is always due when the reading is not behind the manager's time. -/
theorem ticksTo_ne_nil (j r : Nat) : ticksTo j r ≠ [] := by
  unfold ticksTo
  intro h
  rw [List.map_eq_nil_iff, List.range_eq_nil] at h
  exact Nat.succ_ne_zero _ h

theorem ticksTo_of_le {j r : Nat} (h : j ≤ r) (hr : r < 2 ^ 32) :
    ticksTo j r = List.range' j (r + 1 - j) := by
  unfold ticksTo
  have hdiff : u32 (r + 2 ^ 32 - j) = r - j := by
    unfold u32
    omega
  have hlen : r + 1 - j = r - j + 1 := by omega
  rw [hdiff, hlen, List.range'_eq_map_range]
  apply List.map_congr_left
  intro i hi
  rw [List.mem_range] at hi
  exact u32_of_lt (by omega)

theorem behind_iff {j r : Nat} (hj : j < 2 ^ 32) (hr : r < 2 ^ 32) :
    Behind j r ↔ (j ≤ r ∧ r - j < 2 ^ 31) ∨ (r < j ∧ 2 ^ 31 < j - r) := by
  unfold Behind u32
  omega

theorem ahead_iff {j r : Nat} (hj : j < 2 ^ 32) (hr : r < 2 ^ 32) :
    Ahead j r ↔ (r < j ∧ j - r < 2 ^ 31) ∨ (j ≤ r ∧ 2 ^ 31 < r - j) := by
  unfold Ahead u32
  omega

/-- Ticks that are due are processed exactly when the reading is the larger number and not the
last. -/
theorem catchesUp_iff (call : TimerNode α → Nat → σ → σ) {r : Nat} (w : TimerManager α × σ)
    (hj : w.1.uJiffies < 2 ^ 32) (hr : r < 2 ^ 32) :
    (∃ w', Drains call r w (ticksTo w.1.uJiffies r) w' ∧ w'.1.uJiffies = u32 (r + 1)) ↔
      w.1.uJiffies ≤ r ∧ r < 2 ^ 32 - 1 := by
  constructor
  · rintro ⟨w', h, _⟩
    rcases drains_cases h hr hj with ⟨_, hnil, _⟩ | ⟨hle, hlt, _⟩
    · exact absurd hnil (ticksTo_ne_nil _ _)
    · exact ⟨hle, hlt⟩
  · rintro ⟨hle, hlt⟩
    obtain ⟨w', h, hend⟩ := exists_drains call hlt w
    refine ⟨w', ?_, ?_⟩
    · rw [ticksTo_of_le hle hr]
      exact h
    · rw [hend, u32_of_lt (by omega)]
      omega

/-- A reading does nothing exactly when it is the smaller number. -/
theorem waits_iff (call : TimerNode α → Nat → σ → σ) {r : Nat} (w : TimerManager α × σ)
    (hj : w.1.uJiffies < 2 ^ 32) (hr : r < 2 ^ 32) :
    (∃ w', Drains call r w [] w' ∧ w'.1.uJiffies = w.1.uJiffies) ↔ r < w.1.uJiffies := by
  constructor
  · rintro ⟨w', h, hsame⟩
    rcases drains_cases h hr hj with ⟨hlt, _⟩ | ⟨hle, _, _, hend⟩
    · exact hlt
    · omega
  · intro hlt
    refine ⟨w, Drains.done ?_, rfl⟩
    rw [time_after_eq_iff]
    omega

/-- **`run_timer` follows the clock exactly when neither counter has wrapped past the other** and the
reading is not the last number of the range. -/
theorem clockOk_iff (call : TimerNode α → Nat → σ → σ) (r : Nat) (w : TimerManager α × σ)
    (hj : w.1.uJiffies < 2 ^ 32) (hr : r < 2 ^ 32) :
    ClockOk call r w ↔ NoWrap w.1.uJiffies r := by
  have hiff : ClockOk call r w ↔
      (Behind w.1.uJiffies r → w.1.uJiffies ≤ r ∧ r < 2 ^ 32 - 1) ∧
        (Ahead w.1.uJiffies r → r < w.1.uJiffies) := by
    rw [← catchesUp_iff call w hj hr, ← waits_iff call w hj hr]
    constructor
    · intro h
      exact ⟨h.catchesUp, h.waits⟩
    · intro h
      exact ⟨h.1, h.2⟩
  rw [hiff, behind_iff hj hr, ahead_iff hj hr]
  unfold NoWrap
  split
  · omega
  · omega

/-- At the manager time `0` and the reading `5` six ticks are due, and are processed. -/
theorem clockOk_iff_five :
    ClockOk (fun _ _ (s : Unit) => s) 5 ((TimerManager.empty 0 : TimerManager Unit), ()) :=
  (clockOk_iff (fun _ _ (s : Unit) => s) 5 ((TimerManager.empty 0 : TimerManager Unit), ())
    (by decide) (by decide)).mpr (by decide)

/-- After the clock has wrapped the loop processes nothing, and at the last number it never ends. -/
theorem clock_wrap_fails :
    ¬ ClockOk (fun _ _ (s : Unit) => s) 5
        ((TimerManager.empty (2 ^ 32 - 1) : TimerManager Unit), ()) ∧
      ¬ ClockOk (fun _ _ (s : Unit) => s) (2 ^ 32 - 1)
        ((TimerManager.empty (2 ^ 32 - 1) : TimerManager Unit), ()) := by
  constructor
  · intro h
    obtain ⟨w', hw', _⟩ := h.catchesUp (by unfold Behind u32; decide)
    rcases drains_cases hw' (by decide) (by decide) with ⟨_, hnil, _⟩ | ⟨hle, _⟩
    · exact ticksTo_ne_nil _ _ hnil
    · exact absurd hle (by decide)
  · intro h
    obtain ⟨w', hw', _⟩ := h.catchesUp (by unfold Behind u32; decide)
    rcases drains_cases hw' (by decide) (by decide) with ⟨hlt, _⟩ | ⟨_, hlt, _⟩
    · exact absurd hlt (by decide)
    · exact absurd hlt (by decide)

end ThreadSched.Wheel
