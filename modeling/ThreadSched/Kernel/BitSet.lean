import Mathlib
import ThreadSched.Kernel.Scan

/-!
# The bitmap as a set of numbers

`allocate_tid` and `release_tid` use a bitmap one bit at a time: scan for a clear bit and set it, or
clear a bit.

* `Bitmap.used` — the indices whose bit is set.
* `used_allocate`, `used_release` — what the two operations do to the set.
* `runOps_refines` — any sequence of them does to the set what it says: `allocate` inserts the least
  number that is missing, `release` erases one.
-/

set_option autoImplicit false

namespace ThreadSched

/-! ## The set and its operations -/

theorem exists_missing (s : Finset Nat) : ∃ n, n ∉ s := Infinite.exists_notMem_finset s

/-- The least number that is not in the set. -/
def leastMissing (s : Finset Nat) : Nat := Nat.find (exists_missing s)

theorem leastMissing_eq {s : Finset Nat} {n : Nat} (hn : n ∉ s) (hlt : ∀ m, m < n → m ∈ s) :
    leastMissing s = n := by
  apply (Nat.find_eq_iff _).2
  constructor
  · exact hn
  · intro m hm hmiss
    exact hmiss (hlt m hm)

/-- One use of a bitmap. -/
inductive BitOp
  | allocate
  | release (i : Nat)

/-- What it is for. -/
def BitOp.apply (s : Finset Nat) : BitOp → Finset Nat
  | .allocate => insert (leastMissing s) s
  | .release i => s.erase i

/-- When it may be used on a bitmap of `size` bits: there is a number left, or it is in range. -/
def BitOp.Enabled (size : Nat) (s : Finset Nat) : BitOp → Prop
  | .allocate => ∃ n, n < size ∧ n ∉ s
  | .release i => i < size

/-- A sequence of uses, each allowed when it comes. -/
def EnabledOps (size : Nat) : Finset Nat → List BitOp → Prop
  | _, [] => True
  | s, op :: ops => op.Enabled size s ∧ EnabledOps size (op.apply s) ops

/-! ## The bitmap -/

namespace Bitmap

/-- The indices in use, as `bitmap_scan_test` shows them. -/
def used (btmp : Bitmap) : Finset Nat :=
  (Finset.range btmp.bitLen).filter fun i => bitmapScanTest btmp i = true

theorem mem_used {btmp : Bitmap} {i : Nat} : i ∈ btmp.used ↔ i < btmp.bitLen ∧ btmp.bit i = true := by
  rw [used, Finset.mem_filter, Finset.mem_range, bitmapScanTest_eq]

end Bitmap

/-- A scan for one bit, and the bit set; or a bit cleared. -/
def BitOp.run (btmp : Bitmap) : BitOp → Option Bitmap
  | .allocate => do
    let bitIdx ← bitmapScan btmp 1
    pure (bitmapSet btmp (uint32 bitIdx) true)
  | .release i => pure (bitmapSet btmp i false)

/-- A sequence of uses. -/
def runOps (btmp : Bitmap) (ops : List BitOp) : Option Bitmap := ops.foldlM BitOp.run btmp

variable {btmp : Bitmap}

theorem used_bitmapSet_true {i : Nat} (hi : i < btmp.bitLen) :
    (bitmapSet btmp i true).used = insert i btmp.used := by
  ext j
  rw [Bitmap.mem_used, Finset.mem_insert, Bitmap.mem_used, bit_bitmapSet]
  by_cases heq : j = i
  · subst heq
    simp only [if_true, and_true, true_or, iff_true]
    exact hi
  · simp only [heq, if_false, false_or]
    rfl

theorem used_bitmapSet_false (i : Nat) : (bitmapSet btmp i false).used = btmp.used.erase i := by
  ext j
  rw [Bitmap.mem_used, Finset.mem_erase, Bitmap.mem_used, bit_bitmapSet]
  by_cases heq : j = i
  · simp [heq]
  · simp only [heq, if_false, ne_eq, not_false_eq_true, true_and]
    rfl

/-- The least clear bit is the least number missing. -/
theorem FirstClear.leastMissing_used {p : Nat} (h : FirstClear btmp p) :
    leastMissing btmp.used = p := by
  have hin := h.inside
  apply leastMissing_eq
  · intro hmem
    have hset := (Bitmap.mem_used.1 hmem).2
    rw [h.clear] at hset
    cases hset
  · intro m hm
    exact Bitmap.mem_used.2 ⟨by unfold Bitmap.bitLen; omega, h.set m hm⟩

theorem exists_firstClear_of_missing {n : Nat} (hn : n < btmp.bitLen) (hmiss : n ∉ btmp.used) :
    ∃ p, FirstClear btmp p := by
  have hclear : btmp.bit n = false := by
    cases hbit : btmp.bit n with
    | false => rfl
    | true => exact absurd (Bitmap.mem_used.2 ⟨hn, hbit⟩) hmiss
  exact exists_firstClear btmp (by unfold Bitmap.bitLen at hn; omega) hclear

/-- The scan takes the least number missing, reading bytes of the bitmap only. -/
theorem bitmapScanReads_one (hsize : btmp.bitLen < 2147483648) {n : Nat} (hn : n < btmp.bitLen)
    (hmiss : n ∉ btmp.used) :
    leastMissing btmp.used < btmp.bitLen ∧ ∃ reads,
      bitmapScanReads btmp 1 = some ((leastMissing btmp.used : Int), reads) ∧
      ∀ b ∈ reads, b < btmp.btmpBytesLen := by
  obtain ⟨p, hp⟩ := exists_firstClear_of_missing hn hmiss
  have hin := hp.inside
  unfold Bitmap.bitLen at hsize ⊢
  obtain ⟨reads, hreads, heq⟩ := hp.bitmapScanReads_eq 1
  rw [if_pos rfl, int32_of_lt (by omega)] at heq
  rw [hp.leastMissing_used]
  exact ⟨by omega, reads, heq, hreads⟩

/-- One use does to the set what it says. -/
theorem BitOp.run_refines (op : BitOp) (hsize : btmp.bitLen < 2147483648)
    (henabled : op.Enabled btmp.bitLen btmp.used) :
    ∃ btmp', op.run btmp = some btmp' ∧ btmp'.btmpBytesLen = btmp.btmpBytesLen ∧
      btmp'.used = op.apply btmp.used := by
  cases op with
  | allocate =>
      obtain ⟨n, hn, hmiss⟩ := henabled
      obtain ⟨hlt, reads, heq, -⟩ := bitmapScanReads_one hsize hn hmiss
      have hidx : uint32 (leastMissing btmp.used) = leastMissing btmp.used :=
        uint32_of_lt (by omega)
      refine ⟨bitmapSet btmp (leastMissing btmp.used) true, ?_, rfl, ?_⟩
      · simp only [BitOp.run, bitmapScan, heq, Option.map_some, Option.bind_eq_bind,
          Option.bind_some, hidx, Option.pure_def]
      · exact used_bitmapSet_true hlt
  | release i =>
      exact ⟨bitmapSet btmp i false, rfl, rfl, used_bitmapSet_false i⟩

/-- **Any sequence of uses refines the set.** -/
theorem runOps_refines (ops : List BitOp) (hsize : btmp.bitLen < 2147483648)
    (henabled : EnabledOps btmp.bitLen btmp.used ops) :
    ∃ btmp', runOps btmp ops = some btmp' ∧ btmp'.btmpBytesLen = btmp.btmpBytesLen ∧
      btmp'.used = ops.foldl BitOp.apply btmp.used := by
  induction ops generalizing btmp with
  | nil => exact ⟨btmp, rfl, rfl, rfl⟩
  | cons op ops ih =>
      obtain ⟨hop, hops⟩ := henabled
      obtain ⟨next, hrun, hlen, hused⟩ := op.run_refines hsize hop
      have hsame : next.bitLen = btmp.bitLen := by rw [Bitmap.bitLen, Bitmap.bitLen, hlen]
      rw [← hused, ← hsame] at hops
      obtain ⟨last, hlast, hlen', hused'⟩ := ih (hsame ▸ hsize) hops
      refine ⟨last, ?_, hlen'.trans hlen, ?_⟩
      · unfold runOps at hlast ⊢
        rw [List.foldlM_cons, hrun]
        exact hlast
      · rw [hused', hused, List.foldl_cons]

/-- **The bitmap refines a set of numbers.**  The scan for one bit returns the least clear one, and
reads bytes of the bitmap only; a write changes one index; and so does every sequence. -/
theorem bitmap_refines_set (btmp : Bitmap) (hsize : btmp.bitLen < 2147483648) :
    ((∃ n, n < btmp.bitLen ∧ bitmapScanTest btmp n = false) →
      ∃ (n : Nat) (reads : List Nat), bitmapScanReads btmp 1 = some ((n : Int), reads) ∧
        (∀ b ∈ reads, b < btmp.btmpBytesLen) ∧ n < btmp.bitLen ∧
        bitmapScanTest btmp n = false ∧ ∀ m, m < n → bitmapScanTest btmp m = true) ∧
    (∀ i, i < btmp.bitLen → ∀ (value : Bool) (j : Nat),
      bitmapScanTest (bitmapSet btmp i value) j =
        if j = i then value else bitmapScanTest btmp j) ∧
    (∀ ops, EnabledOps btmp.bitLen btmp.used ops →
      ∃ btmp', runOps btmp ops = some btmp' ∧ btmp'.btmpBytesLen = btmp.btmpBytesLen ∧
        btmp'.used = ops.foldl BitOp.apply btmp.used) := by
  have hlen : btmp.bitLen = btmp.btmpBytesLen * 8 := rfl
  refine ⟨?_, ?_, ?_⟩
  · rintro ⟨n, hn, hclear⟩
    rw [bitmapScanTest_eq] at hclear
    obtain ⟨p, hp⟩ := exists_firstClear btmp (by omega) hclear
    have hin := hp.inside
    obtain ⟨reads, hreads, heq⟩ := hp.bitmapScanReads_eq 1
    rw [if_pos rfl, int32_of_lt (by omega)] at heq
    refine ⟨p, reads, heq, hreads, by omega, ?_, ?_⟩
    · rw [bitmapScanTest_eq]
      exact hp.clear
    · intro m hm
      rw [bitmapScanTest_eq]
      exact hp.set m hm
  · intro i _ value j
    rw [bitmapScanTest_eq, bitmapScanTest_eq]
    exact bit_bitmapSet btmp i j value
  · intro ops henabled
    exact runOps_refines ops hsize henabled

theorem bitmap_refines_set_byte :
    (∃ (n : Nat) (reads : List Nat), bitmapScanReads ⟨1, fun _ => 0x7f⟩ 1 = some ((n : Int), reads) ∧
      (∀ b ∈ reads, b < 1) ∧ n < 8 ∧ bitmapScanTest ⟨1, fun _ => 0x7f⟩ n = false ∧
      ∀ m, m < n → bitmapScanTest ⟨1, fun _ => 0x7f⟩ m = true) ∧
    ∃ btmp', runOps ⟨1, fun _ => 0x7f⟩ [.release 3] = some btmp' ∧ btmp'.btmpBytesLen = 1 ∧
      btmp'.used = (Bitmap.used ⟨1, fun _ => 0x7f⟩).erase 3 :=
  ⟨(bitmap_refines_set ⟨1, fun _ => 0x7f⟩ (by decide)).1 ⟨7, by decide, by decide⟩,
    (bitmap_refines_set ⟨1, fun _ => 0x7f⟩ (by decide)).2.2 [.release 3] ⟨by
      show 3 < 1 * 8
      decide, trivial⟩⟩

end ThreadSched
