import ThreadSched.Kernel.Scan

/-!
# Runs of clear bits

`bitmap_scan` with `cnt ≥ 2`.  Its third loop makes as many rounds as there are bits from the first
clear one on, but begins one bit later, so its last round tests the bit after the bitmap.

* `scanRun_spec` — the loop over any sequence of bits: the first run it completes, or none.
* `FirstClear.bitmapScan_run` — what `bitmap_scan` returns and which bits it tests.
* `bitmapScan_runs_iff` — when it does what its header says: the bitmap has a run that the 32-bit
  counters reach, or none and `2^32` bits or more.
* `runInReach_iff` — below `2^31` bits this means that there is a run.
-/

set_option autoImplicit false

namespace ThreadSched

/-! ## The loop -/

/-- `cnt` positions from `s` on, all of them clear. -/
def IsRun (clear : Nat → Prop) (cnt s : Nat) : Prop := ∀ i, s ≤ i → i < s + cnt → clear i

/-- The loop from position `a` on, when the `count` positions before `a` are the longest clear run
that ends there. -/
structure Counting (clear : Nat → Prop) (cnt a count : Nat) : Prop where
  lt : count < cnt
  le : count ≤ a
  counted : ∀ i, a ≤ i + count → i < a → clear i
  longest : ∀ s, s ≤ a → (∀ i, s ≤ i → i < a → clear i) → a ≤ s + count
  before : ∀ s, s + cnt ≤ a → ¬ IsRun clear cnt s

/-- What the loop gives after `bitLeft` rounds from position `a` on: the first run and the bytes up
to its end, or `-1` and the bytes of all positions. -/
def LoopResult (clear : Nat → Prop) (cnt a bitLeft : Nat) (result : Int × List Nat) : Prop :=
  (∃ s, IsRun clear cnt s ∧ (∀ s', s' < s → ¬ IsRun clear cnt s') ∧
    a < s + cnt ∧ s + cnt ≤ a + bitLeft ∧ result.1 = int32 s ∧
    ∀ b ∈ result.2, ∃ i : Nat, a ≤ i ∧ i < s + cnt ∧ b = uint32 i / 8) ∨
  ((∀ s, s + cnt ≤ a + bitLeft → ¬ IsRun clear cnt s) ∧ result.1 = -1 ∧
    (∀ b ∈ result.2, ∃ i : Nat, a ≤ i ∧ i < a + bitLeft ∧ b = uint32 i / 8) ∧
    ∀ i : Nat, a ≤ i → i < a + bitLeft → uint32 i / 8 ∈ result.2)

namespace Counting

variable {clear : Nat → Prop} {cnt a count : Nat}

theorem clearBit (h : Counting clear cnt a count) (ha : clear a) (hne : count + 1 ≠ cnt) :
    Counting clear cnt (a + 1) (count + 1) := by
  have hlt := h.lt
  have hle := h.le
  refine ⟨by omega, by omega, ?_, ?_, ?_⟩
  · intro i hi hia
    by_cases heq : i = a
    · rw [heq]
      exact ha
    · exact h.counted i (by omega) (by omega)
  · intro s hs hall
    by_cases heq : s = a + 1
    · omega
    · have := h.longest s (by omega) (fun i hi hia => hall i hi (by omega))
      omega
  · intro s hs hrun
    by_cases heq : s + cnt = a + 1
    · have := h.longest s (by omega) (fun i hi hia => hrun i hi (by omega))
      omega
    · exact h.before s (by omega) hrun

theorem setBit (h : Counting clear cnt a count) (ha : ¬ clear a) :
    Counting clear cnt (a + 1) 0 := by
  have hlt := h.lt
  refine ⟨by omega, by omega, ?_, ?_, ?_⟩
  · intro i hi hia
    omega
  · intro s hs hall
    by_contra hlt'
    exact ha (hall a (by omega) (by omega))
  · intro s hs hrun
    by_cases heq : s + cnt = a + 1
    · exact ha (hrun a (by omega) (by omega))
    · exact h.before s (by omega) hrun

/-- The count is complete: the run that ends at `a` is the first one. -/
theorem complete (h : Counting clear cnt a count) (ha : clear a) (heq : count + 1 = cnt) :
    IsRun clear cnt (a - count) ∧ ∀ s, s < a - count → ¬ IsRun clear cnt s := by
  have hle := h.le
  constructor
  · intro i hi hi'
    by_cases hia : i = a
    · rw [hia]
      exact ha
    · exact h.counted i (by omega) (by omega)
  · intro s hs
    exact h.before s (by omega)

end Counting

variable {btmp : Bitmap} {cnt : Nat}

theorem uint32_add_one (a : Nat) : uint32 ((uint32 a : Int) + 1) = uint32 ((a + 1 : Nat) : Int) := by
  unfold uint32
  omega

/-- A round that completes no run. -/
theorem LoopResult.cons {clear : Nat → Prop} {a bitLeft : Nat} {result : Int × List Nat}
    (h : LoopResult clear cnt (a + 1) bitLeft result) :
    LoopResult clear cnt a (bitLeft + 1) (result.1, uint32 a / 8 :: result.2) := by
  rcases h with ⟨s, hrun, hfirst, hs, hs', hval, hreads⟩ | ⟨hnone, hval, hreads, hall⟩
  · refine Or.inl ⟨s, hrun, hfirst, by omega, by omega, hval, ?_⟩
    intro b hb
    rcases List.mem_cons.1 hb with rfl | hb
    · exact ⟨a, Nat.le_refl a, by omega, rfl⟩
    · obtain ⟨i, hi, hi', hb⟩ := hreads b hb
      exact ⟨i, by omega, hi', hb⟩
  · refine Or.inr ⟨fun s hs => hnone s (by omega), hval, ?_, ?_⟩
    · intro b hb
      rcases List.mem_cons.1 hb with rfl | hb
      · exact ⟨a, Nat.le_refl a, by omega, rfl⟩
      · obtain ⟨i, hi, hi', hb⟩ := hreads b hb
        exact ⟨i, by omega, by omega, hb⟩
    · intro i hi hi'
      by_cases heq : i = a
      · rw [heq]
        exact List.mem_cons_self
      · exact List.mem_cons_of_mem _ (hall i (by omega) (by omega))

/-- **The third loop** on positions `a`, `a + 1`, …, each tested as a 32-bit index. -/
theorem scanRun_spec {clear : Nat → Prop} (hcnt : cnt < 4294967296) (bitLeft a count : Nat)
    (htest : ∀ i : Nat, a ≤ i → i < a + bitLeft → (btmp.bit (uint32 i) = false ↔ clear i))
    (h : Counting clear cnt a count) :
    LoopResult clear cnt a bitLeft (scanRun btmp cnt bitLeft (uint32 a) count) := by
  induction bitLeft generalizing a count with
  | zero =>
      refine Or.inr ⟨fun s hs => h.before s (by omega), rfl, ?_, ?_⟩
      · intro b hb
        simp [scanRun] at hb
      · intro i hi hi'
        omega
  | succ bitLeft ih =>
      have hlt := h.lt
      have hle := h.le
      have hnext : ∀ i : Nat, a + 1 ≤ i → i < a + 1 + bitLeft →
          (btmp.bit (uint32 i) = false ↔ clear i) :=
        fun i hi hi' => htest i (by omega) (by omega)
      have hhere := htest a (Nat.le_refl a) (by omega)
      cases hbit : btmp.bit (uint32 a) with
      | false =>
          have hclear := hhere.1 hbit
          have hcount : uint32 ((count : Int) + 1) = count + 1 :=
            uint32_of_lt (n := count + 1) (by omega)
          by_cases heq : count + 1 = cnt
          · obtain ⟨hrun, hfirst⟩ := h.complete hclear heq
            have hval : scanRun btmp cnt (bitLeft + 1) (uint32 a) count =
                (int32 ((uint32 a : Int) - cnt + 1), [uint32 a / 8]) := by
              simp only [scanRun, bitmapScanTest_eq, hbit, hcount, heq, if_true,
                Bool.false_eq_true, if_false]
            rw [hval]
            refine Or.inl ⟨a - count, hrun, hfirst, by omega, by omega, ?_, ?_⟩
            · apply int32_congr
              rw [Int.add_emod, Int.sub_emod, uint32_eq_emod]
              omega
            · intro b hb
              exact ⟨a, Nat.le_refl a, by omega, List.mem_singleton.1 hb⟩
          · have hval : scanRun btmp cnt (bitLeft + 1) (uint32 a) count =
                ((scanRun btmp cnt bitLeft (uint32 ((a + 1 : Nat) : Int)) (count + 1)).1,
                  uint32 a / 8 ::
                    (scanRun btmp cnt bitLeft (uint32 ((a + 1 : Nat) : Int)) (count + 1)).2) := by
              simp only [scanRun, bitmapScanTest_eq, hbit, hcount, heq, Bool.false_eq_true,
                if_false, uint32_add_one]
            rw [hval]
            exact (ih (a + 1) (count + 1) hnext (h.clearBit hclear heq)).cons
      | true =>
          have hset : ¬ clear a := by
            intro hclear
            rw [hhere.2 hclear] at hbit
            cases hbit
          have hne : 0 ≠ cnt := by omega
          have hval : scanRun btmp cnt (bitLeft + 1) (uint32 a) count =
              ((scanRun btmp cnt bitLeft (uint32 ((a + 1 : Nat) : Int)) 0).1,
                uint32 a / 8 :: (scanRun btmp cnt bitLeft (uint32 ((a + 1 : Nat) : Int)) 0).2) := by
            simp only [scanRun, bitmapScanTest_eq, hbit, hne, if_true, if_false, uint32_add_one]
          rw [hval]
          exact (ih (a + 1) 0 hnext (h.setBit hset)).cons

/-! ## Bytes read -/

theorem bitmapScanTest_congr {other : Bitmap} {i : Nat}
    (h : other.bits (i / 8) = btmp.bits (i / 8)) :
    bitmapScanTest other i = bitmapScanTest btmp i := by
  unfold bitmapScanTest
  simp only [h]

theorem scanRun_congr {other : Bitmap} (bitLeft nextBit count : Nat)
    (h : ∀ b ∈ (scanRun btmp cnt bitLeft nextBit count).2, other.bits b = btmp.bits b) :
    scanRun other cnt bitLeft nextBit count = scanRun btmp cnt bitLeft nextBit count := by
  induction bitLeft generalizing nextBit count with
  | zero => rfl
  | succ bitLeft ih =>
      simp only [scanRun] at h ⊢
      generalize hc : (if bitmapScanTest btmp nextBit then 0 else uint32 (count + 1)) = c at h ⊢
      by_cases heq : c = cnt
      · simp only [if_pos heq] at h ⊢
        have hhead := bitmapScanTest_congr (h (nextBit / 8) List.mem_cons_self)
        rw [hhead, hc, if_pos heq]
      · simp only [if_neg heq] at h ⊢
        have hhead := bitmapScanTest_congr (h (nextBit / 8) List.mem_cons_self)
        rw [hhead, hc, if_neg heq, ih _ _ (fun b hb => h b (List.mem_cons_of_mem _ hb))]

/-! ## The scan -/

/-- A run of `cnt` clear bits inside the bitmap. -/
def ClearRun (btmp : Bitmap) (cnt s : Nat) : Prop :=
  s + cnt ≤ btmp.bitLen ∧ IsRun (fun i => btmp.bit i = false) cnt s

/-- The first of them. -/
def FirstRun (btmp : Bitmap) (cnt s : Nat) : Prop :=
  ClearRun btmp cnt s ∧ ∀ s', s' < s → ¬ ClearRun btmp cnt s'

/-- **What `bitmap_scan` is to do**: return the start of the first run, or `-1` when there is none,
from bytes of the bitmap only. -/
def RunsOk (btmp : Bitmap) (cnt : Nat) : Prop :=
  ∃ (r : Int) (reads : List Nat), bitmapScanReads btmp cnt = some (r, reads) ∧
    (∀ b ∈ reads, b < btmp.btmpBytesLen) ∧
    ((∃ s : Nat, r = s ∧ FirstRun btmp cnt s) ∨ r = -1 ∧ ∀ s, ¬ ClearRun btmp cnt s) ∧
    ∀ other : Bitmap, other.btmpBytesLen = btmp.btmpBytesLen →
      (∀ b, b < btmp.btmpBytesLen → other.bits b = btmp.bits b) →
      bitmapScan other cnt = some r

/-- The counters reach the run at `s`: its start is an `int`, its bits have 32-bit indices, and it
ends within the rounds of the loop, whose number is kept modulo `2^32`. -/
def InReach (btmp : Bitmap) (cnt s : Nat) : Prop :=
  s < 2 ^ 31 ∧ s + cnt ≤ 2 ^ 32 ∧
    ∃ p, FirstClear btmp p ∧ s + cnt ≤ p + (btmp.bitLen - p) % 2 ^ 32 + 1

/-- The bits the loop takes for clear: the first clear one, and those after it with a 32-bit index. -/
def Seen (btmp : Bitmap) (p i : Nat) : Prop :=
  i = p ∨ p < i ∧ i < 4294967296 ∧ btmp.bit i = false

namespace FirstClear

variable {p : Nat}

/-- The number of rounds. -/
theorem bitLeft_eq (h : FirstClear btmp p) :
    uint32 (uint32 (btmp.btmpBytesLen * 8) - int32 p) = (btmp.bitLen - p) % 4294967296 := by
  have hin := h.inside
  have h1 := uint32_eq_emod ((btmp.btmpBytesLen : Int) * 8)
  have h2 := int32_emod (p : Int)
  have h3 := uint32_eq_emod ((uint32 ((btmp.btmpBytesLen : Int) * 8) : Int) - int32 p)
  unfold Bitmap.bitLen
  omega

theorem nextBit_eq (p : Nat) : uint32 (int32 p + 1) = uint32 ((p + 1 : Nat) : Int) := by
  have h1 := int32_emod (p : Int)
  have h2 := uint32_eq_emod (int32 p + 1)
  have h3 := uint32_eq_emod ((p + 1 : Nat) : Int)
  omega

/-- A position from `2^32` on is tested at an index below the first clear bit. -/
theorem test_iff_seen (h : FirstClear btmp p) {i : Nat} (hi : p + 1 ≤ i)
    (hi' : i < p + 1 + (btmp.bitLen - p) % 4294967296) :
    btmp.bit (uint32 i) = false ↔ Seen btmp p i := by
  unfold Seen
  by_cases hlt : i < 4294967296
  · rw [uint32_of_lt hlt]
    constructor
    · intro hclear
      exact Or.inr ⟨by omega, hlt, hclear⟩
    · rintro (heq | ⟨_, _, hclear⟩)
      · omega
      · exact hclear
  · have hset : btmp.bit (uint32 i) = true := by
      apply h.set
      have hmod := uint32_eq_emod (i : Int)
      omega
    rw [hset]
    constructor
    · intro hclear
      cases hclear
    · rintro (heq | ⟨_, hlt', _⟩)
      · omega
      · exact absurd hlt' hlt

theorem counting (hcnt : 2 ≤ cnt) (p : Nat) : Counting (Seen btmp p) cnt (p + 1) 1 := by
  refine ⟨by omega, by omega, ?_, ?_, ?_⟩
  · intro i hi hi'
    exact Or.inl (by omega)
  · intro s hs hall
    by_contra hlt
    rcases hall s (Nat.le_refl s) (by omega) with heq | ⟨hlt', -⟩ <;> omega
  · intro s hs hrun
    rcases hrun s (Nat.le_refl s) (by omega) with heq | ⟨hlt, -⟩ <;> omega

/-- The third loop of this scan. -/
theorem loopResult (h : FirstClear btmp p) (hcnt : 2 ≤ cnt) (hcnt' : cnt < 4294967296) :
    LoopResult (Seen btmp p) cnt (p + 1) ((btmp.bitLen - p) % 4294967296)
      (scanRun btmp cnt ((btmp.bitLen - p) % 4294967296) (uint32 ((p + 1 : Nat) : Int)) 1) :=
  scanRun_spec hcnt' _ (p + 1) 1 (fun _ hi hi' => h.test_iff_seen hi hi') (counting hcnt p)

/-- What `bitmap_scan` returns for two bits or more, and the bytes it reads. -/
theorem bitmapScanReads_run (h : FirstClear btmp p) (hcnt : 2 ≤ cnt) :
    ∃ first : List Nat, (∀ b ∈ first, b < btmp.btmpBytesLen) ∧
      bitmapScanReads btmp cnt =
        some ((scanRun btmp cnt ((btmp.bitLen - p) % 4294967296) (uint32 ((p + 1 : Nat) : Int)) 1).1,
          first ++
            (scanRun btmp cnt ((btmp.bitLen - p) % 4294967296) (uint32 ((p + 1 : Nat) : Int)) 1).2) := by
  obtain ⟨reads, hreads, heq⟩ := h.bitmapScanReads_eq cnt
  rw [if_neg (by omega), h.bitLeft_eq, nextBit_eq] at heq
  exact ⟨reads, hreads, heq⟩

theorem isRun_seen_iff (h : FirstClear btmp p) (hcnt : 2 ≤ cnt) (s : Nat) :
    IsRun (Seen btmp p) cnt s ↔
      p ≤ s ∧ s + cnt ≤ 4294967296 ∧ IsRun (fun i => btmp.bit i = false) cnt s := by
  constructor
  · intro hrun
    have hfirst := hrun s (Nat.le_refl s) (by omega)
    have hlast := hrun (s + cnt - 1) (by omega) (by omega)
    unfold Seen at hfirst hlast
    refine ⟨by omega, by omega, ?_⟩
    intro i hi hi'
    rcases hrun i hi hi' with rfl | ⟨-, -, hclear⟩
    · exact h.clear
    · exact hclear
  · rintro ⟨hp, hle, hrun⟩ i hi hi'
    by_cases heq : i = p
    · exact Or.inl heq
    · exact Or.inr ⟨by omega, by omega, hrun i hi hi'⟩

theorem le_of_isRun (h : FirstClear btmp p) (hcnt : 2 ≤ cnt) {s : Nat}
    (hrun : IsRun (fun i => btmp.bit i = false) cnt s) : p ≤ s := by
  by_contra hlt
  have hclear := hrun s (Nat.le_refl s) (by omega)
  simp only [h.set s (by omega)] at hclear
  cases hclear

/-- The least clear bit depends on the bytes of the bitmap only. -/
theorem congr (h : FirstClear btmp p) {other : Bitmap}
    (hlen : other.btmpBytesLen = btmp.btmpBytesLen)
    (hbits : ∀ b, b < btmp.btmpBytesLen → other.bits b = btmp.bits b) : FirstClear other p := by
  have hin := h.inside
  have hbit : ∀ i, i ≤ p → other.bit i = btmp.bit i := by
    intro i hi
    unfold Bitmap.bit
    rw [hbits (i / 8) (by omega)]
  refine ⟨by rw [hlen]; exact hin, ?_, ?_⟩
  · rw [hbit p (Nat.le_refl p)]
    exact h.clear
  · intro m hm
    rw [hbit m (by omega)]
    exact h.set m hm

/-- When the loop reads bytes of the bitmap only, what follows them does not matter. -/
theorem bitmapScan_congr (h : FirstClear btmp p) (hcnt : 2 ≤ cnt) {other : Bitmap}
    (hlen : other.btmpBytesLen = btmp.btmpBytesLen)
    (hbits : ∀ b, b < btmp.btmpBytesLen → other.bits b = btmp.bits b)
    (hreads : ∀ b ∈ (scanRun btmp cnt ((btmp.bitLen - p) % 4294967296)
      (uint32 ((p + 1 : Nat) : Int)) 1).2, b < btmp.btmpBytesLen) :
    bitmapScan other cnt = bitmapScan btmp cnt := by
  obtain ⟨_, -, heq⟩ := h.bitmapScanReads_run hcnt
  obtain ⟨_, -, heq'⟩ := (h.congr hlen hbits).bitmapScanReads_run hcnt
  have hsame : other.bitLen = btmp.bitLen := by rw [Bitmap.bitLen, Bitmap.bitLen, hlen]
  rw [hsame, scanRun_congr _ _ _ (fun b hb => hbits b (hreads b hb))] at heq'
  unfold bitmapScan
  rw [heq, heq']
  rfl

/-- A first run in reach is found. -/
theorem runsOk_of_firstRun (h : FirstClear btmp p) (hcnt : 2 ≤ cnt) (hcnt' : cnt < 4294967296)
    {s : Nat} (hfirst : FirstRun btmp cnt s) (hreach : InReach btmp cnt s) : RunsOk btmp cnt := by
  obtain ⟨hs, hend, q, hq, hrounds⟩ := hreach
  obtain rfl := h.unique hq
  obtain ⟨⟨hin, hrun⟩, hleast⟩ := hfirst
  have hseen := (h.isRun_seen_iff hcnt s).2 ⟨h.le_of_isRun hcnt hrun, hend, hrun⟩
  obtain ⟨first, hfirstReads, heq⟩ := h.bitmapScanReads_run hcnt
  rcases h.loopResult hcnt hcnt' with ⟨s', hrun', hleast', ha, hb, hval, hreads⟩ | ⟨hnone, -⟩
  · have hs' : s' = s := by
      have hclear := ((h.isRun_seen_iff hcnt s').1 hrun').2.2
      by_contra hne
      rcases Nat.lt_or_gt_of_ne hne with hlt | hgt
      · exact hleast s' hlt ⟨by omega, hclear⟩
      · exact hleast' s hgt hseen
    subst hs'
    have hinside : ∀ b ∈ (scanRun btmp cnt ((btmp.bitLen - p) % 4294967296)
        (uint32 ((p + 1 : Nat) : Int)) 1).2, b < btmp.btmpBytesLen := by
      intro b hb
      obtain ⟨i, hi, hi', rfl⟩ := hreads b hb
      rw [uint32_of_lt (by omega)]
      unfold Bitmap.bitLen at hin
      omega
    rw [hval, int32_of_lt hs] at heq
    refine ⟨s', _, heq, ?_, Or.inl ⟨s', rfl, ⟨hin, hrun⟩, hleast⟩, ?_⟩
    · intro b hb
      rcases List.mem_append.1 hb with hb | hb
      · exact hfirstReads b hb
      · exact hinside b hb
    · intro other hlen hbits
      rw [h.bitmapScan_congr hcnt hlen hbits hinside]
      unfold bitmapScan
      rw [heq]
      rfl
  · exact absurd hseen (hnone s (by omega))

/-- In a bitmap of `2^32` bits or more without a run the loop reads bytes of the bitmap only. -/
theorem runsOk_of_none (h : FirstClear btmp p) (hcnt : 2 ≤ cnt) (hcnt' : cnt < 4294967296)
    (hnone : ∀ s, ¬ ClearRun btmp cnt s) (hlarge : 2 ^ 32 ≤ btmp.bitLen) : RunsOk btmp cnt := by
  obtain ⟨first, hfirstReads, heq⟩ := h.bitmapScanReads_run hcnt
  rcases h.loopResult hcnt hcnt' with ⟨s, hrun, -⟩ | ⟨-, hval, hreads, -⟩
  · obtain ⟨-, hend, hclear⟩ := (h.isRun_seen_iff hcnt s).1 hrun
    exact absurd ⟨by omega, hclear⟩ (hnone s)
  · have hinside : ∀ b ∈ (scanRun btmp cnt ((btmp.bitLen - p) % 4294967296)
        (uint32 ((p + 1 : Nat) : Int)) 1).2, b < btmp.btmpBytesLen := by
      intro b hb
      obtain ⟨i, -, -, rfl⟩ := hreads b hb
      have hlt := uint32_lt (i : Int)
      unfold Bitmap.bitLen at hlarge
      omega
    rw [hval] at heq
    refine ⟨-1, _, heq, ?_, Or.inr ⟨rfl, hnone⟩, ?_⟩
    · intro b hb
      rcases List.mem_append.1 hb with hb | hb
      · exact hfirstReads b hb
      · exact hinside b hb
    · intro other hlen hbits
      rw [h.bitmapScan_congr hcnt hlen hbits hinside]
      unfold bitmapScan
      rw [heq]
      rfl

/-- Otherwise the last round tests the bit after the bitmap, or a counter is too short. -/
theorem of_runsOk (h : FirstClear btmp p) (hcnt : 2 ≤ cnt) (hcnt' : cnt < 4294967296)
    (hok : RunsOk btmp cnt) :
    (∃ s, FirstRun btmp cnt s ∧ InReach btmp cnt s) ∨
      (∀ s, ¬ ClearRun btmp cnt s) ∧ 2 ^ 32 ≤ btmp.bitLen := by
  obtain ⟨r, reads, hscan, hinside, hresult, -⟩ := hok
  obtain ⟨first, -, heq⟩ := h.bitmapScanReads_run hcnt
  rw [heq, Option.some.injEq, Prod.mk.injEq] at hscan
  obtain ⟨rfl, rfl⟩ := hscan
  rcases h.loopResult hcnt hcnt' with ⟨s', hrun, -, ha, hb, hval, -⟩ | ⟨-, hval, -, hall⟩
  · obtain ⟨-, hend, -⟩ := (h.isRun_seen_iff hcnt s').1 hrun
    rw [hval] at hresult
    rcases hresult with ⟨s, hs, hfirst⟩ | ⟨hminus, -⟩
    · have hlt := lt_of_int32_nonneg (n := s') (by omega) (by omega)
      rw [int32_of_lt hlt] at hs
      obtain rfl := Int.ofNat.inj hs
      exact Or.inl ⟨s', hfirst, hlt, hend, p, h, by omega⟩
    · have hmod := int32_emod (s' : Int)
      rw [hminus] at hmod
      omega
  · rw [hval] at hresult
    rcases hresult with ⟨s, hs, -⟩ | ⟨-, hnone⟩
    · omega
    · refine Or.inr ⟨hnone, ?_⟩
      by_contra hsmall
      have hin := h.inside
      have hlast := hinside _ (List.mem_append_right first (hall btmp.bitLen
        (by unfold Bitmap.bitLen; omega) (by unfold Bitmap.bitLen at *; omega)))
      rw [uint32_of_lt (by omega)] at hlast
      unfold Bitmap.bitLen at hlast
      omega

end FirstClear

/-- Below `2^31` bits every run is in reach. -/
theorem firstRun_inReach_iff {p : Nat} (h : FirstClear btmp p) (hcnt : 2 ≤ cnt)
    (hsmall : btmp.bitLen < 2 ^ 31) :
    ((∃ s, FirstRun btmp cnt s ∧ InReach btmp cnt s) ∨
      (∀ s, ¬ ClearRun btmp cnt s) ∧ 2 ^ 32 ≤ btmp.bitLen) ↔ ∃ s, ClearRun btmp cnt s := by
  constructor
  · rintro (⟨s, hfirst, -⟩ | ⟨-, hlarge⟩)
    · exact ⟨s, hfirst.1⟩
    · omega
  · intro hex
    classical
    obtain ⟨hin, hrun⟩ := Nat.find_spec hex
    have hp := h.le_of_isRun hcnt hrun
    refine Or.inl ⟨Nat.find hex, ⟨⟨hin, hrun⟩, fun s' hs' => Nat.find_min hex hs'⟩, ?_⟩
    exact ⟨by omega, by omega, p, h, by omega⟩

/-- **`bitmap_scan` for two bits or more** does what its header says exactly when the bitmap has a
run and the counters reach it, or has none and at least `2^32` bits. -/
theorem bitmapScan_runs_iff (btmp : Bitmap) (cnt : Nat) (hcnt : 2 ≤ cnt) (hcnt' : cnt < 2 ^ 32)
    (hclear : ∃ n, n < btmp.bitLen ∧ btmp.bit n = false) :
    RunsOk btmp cnt ↔
      (∃ s, FirstRun btmp cnt s ∧ InReach btmp cnt s) ∨
        (∀ s, ¬ ClearRun btmp cnt s) ∧ 2 ^ 32 ≤ btmp.bitLen := by
  obtain ⟨n, hn, hbit⟩ := hclear
  obtain ⟨p, hp⟩ := exists_firstClear btmp (by unfold Bitmap.bitLen at hn; omega) hbit
  constructor
  · exact hp.of_runsOk hcnt hcnt'
  · rintro (⟨s, hfirst, hreach⟩ | ⟨hnone, hlarge⟩)
    · exact hp.runsOk_of_firstRun hcnt hcnt' hfirst hreach
    · exact hp.runsOk_of_none hcnt hcnt' hnone hlarge

theorem bitmapScan_runs_iff_byte :
    RunsOk ⟨1, fun _ => 0x3f⟩ 2 ↔
      (∃ s, FirstRun ⟨1, fun _ => 0x3f⟩ 2 s ∧ InReach ⟨1, fun _ => 0x3f⟩ 2 s) ∨
        (∀ s, ¬ ClearRun ⟨1, fun _ => 0x3f⟩ 2 s) ∧ 2 ^ 32 ≤ Bitmap.bitLen ⟨1, fun _ => 0x3f⟩ :=
  bitmapScan_runs_iff ⟨1, fun _ => 0x3f⟩ 2 (by decide) (by decide) ⟨6, by decide, by decide⟩

/-- One byte whose last bit is clear, and a clear byte after it: the scan for two bits tests bit `8`
and returns `7`. -/
theorem bitmapScan_reads_past_end :
    ¬ ∀ (btmp : Bitmap) (cnt : Nat), 2 ≤ cnt → cnt < 2 ^ 32 →
      (∃ n, n < btmp.bitLen ∧ btmp.bit n = false) → RunsOk btmp cnt := by
  intro hall
  have hscan : bitmapScanReads ⟨1, fun b => if b = 0 then 0x7f else 0⟩ 2 = some (7, [0, 0, 1]) := by
    decide +kernel
  obtain ⟨r, reads, heq, hinside, -⟩ := hall ⟨1, fun b => if b = 0 then 0x7f else 0⟩ 2 (by decide)
    (by decide) ⟨7, by decide, by decide⟩
  rw [hscan, Option.some.injEq, Prod.mk.injEq] at heq
  obtain ⟨rfl, rfl⟩ := heq
  exact absurd (hinside 1 (by decide)) (by decide)

end ThreadSched
