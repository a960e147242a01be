import ThreadSched.Kernel.Bitmap

/-!
# What `bitmap_scan` finds and `bitmap_set` changes

* `Bitmap.bit` — bit `i` of the memory at `bits`; `Bitmap.bitLen` of them are the bitmap's.
* `bit_bitmapSet` — setting a bit changes this bit only.
* `FirstClear.bitmapScanReads_eq` — what the scan computes from the least clear bit, and what it reads.
* `bitmapScan_spec` — the scan for one bit finds the lowest clear one; it fails only on a full bitmap.
-/

set_option autoImplicit false

namespace ThreadSched

/-- Bit `i`, counted from the start of `bits`. -/
def Bitmap.bit (btmp : Bitmap) (i : Nat) : Bool := (btmp.bits (i / 8)).getLsbD (i % 8)

/-- `btmp_bytes_len * 8`. -/
def Bitmap.bitLen (btmp : Bitmap) : Nat := btmp.btmpBytesLen * 8

variable (btmp : Bitmap)

/-! ## Masks -/

theorem mask_eq (k : Nat) : BITMAP_MASK <<< k = BitVec.twoPow 32 k := by
  rw [BitVec.twoPow_eq]
  rfl

theorem setWidth_mask (k : Nat) (hk : k < 8) :
    (BITMAP_MASK <<< k).setWidth 8 = BitVec.twoPow 8 k := by
  have hall : ∀ k : Fin 8, (BITMAP_MASK <<< k.val).setWidth 8 = BitVec.twoPow 8 k.val := by decide
  exact hall ⟨k, hk⟩

theorem twoPow_ne_zero {w k : Nat} (hk : k < w) : BitVec.twoPow w k ≠ 0#w := by
  intro heq
  have hbit := congrArg (fun x => x.getLsbD k) heq
  simp [hk] at hbit

theorem and_twoPow_ne_zero {w k : Nat} (x : BitVec w) (hk : k < w) :
    x &&& BitVec.twoPow w k ≠ 0 ↔ x.getLsbD k = true := by
  rw [BitVec.and_twoPow]
  split
  · rename_i hbit
    exact ⟨fun _ => hbit, fun _ => twoPow_ne_zero hk⟩
  · rename_i hbit
    exact ⟨fun h => absurd rfl h, fun h => absurd h hbit⟩

/-- The byte `0xff` is the one with every bit set. -/
theorem getLsbD_of_full {byte : BitVec 8} (h : byte = 0xff) {k : Nat} (hk : k < 8) :
    byte.getLsbD k = true := by
  have hbits : ∀ k : Fin 8, (0xff : BitVec 8).getLsbD k = true := by decide
  rw [h]
  exact hbits ⟨k, hk⟩

theorem full_of_getLsbD {byte : BitVec 8} (h : ∀ k, k < 8 → byte.getLsbD k = true) :
    byte = 0xff := by
  apply BitVec.eq_of_getLsbD_eq
  intro k hk
  rw [h k hk, getLsbD_of_full rfl hk]

theorem bitmapScanTest_eq (i : Nat) : bitmapScanTest btmp i = btmp.bit i := by
  have hk : i % 8 < 8 := Nat.mod_lt _ (by decide)
  have h := and_twoPow_ne_zero ((btmp.bits (i / 8)).setWidth 32) (k := i % 8) (by omega)
  rw [BitVec.getLsbD_setWidth, decide_eq_true (show i % 8 < 32 by omega), Bool.true_and] at h
  unfold bitmapScanTest Bitmap.bit
  rw [← mask_eq] at h
  rw [Bool.eq_iff_iff, decide_eq_true_iff]
  exact h

/-- **`bitmap_set`** writes one bit. -/
theorem bit_bitmapSet (i j : Nat) (value : Bool) :
    (bitmapSet btmp i value).bit j = if j = i then value else btmp.bit j := by
  have hi : i % 8 < 8 := Nat.mod_lt _ (by decide)
  have hj : j % 8 < 8 := Nat.mod_lt _ (by decide)
  have hj32 : j % 8 < 32 := by omega
  unfold bitmapSet Bitmap.bit
  by_cases hbyte : j / 8 = i / 8
  · have hiff : j = i ↔ i % 8 = j % 8 := by omega
    simp only [hbyte, Function.update_self, mask_eq, hiff]
    cases value
    · by_cases heq : i % 8 = j % 8
      · simp [heq, hj32]
      · simp [heq, Ne.symm heq, hj, hj32]
    · by_cases heq : i % 8 = j % 8
      · simp [heq, hj, hj32]
      · simp [heq, Ne.symm heq, hj, hj32]
  · have hne : j ≠ i := fun heq => hbyte (by rw [heq])
    simp [Function.update_of_ne hbyte, hne]

/-! ## Conversions -/

theorem uint32_of_lt {n : Nat} (h : n < 4294967296) : uint32 n = n := by
  unfold uint32
  omega

theorem uint32_lt (x : Int) : uint32 x < 4294967296 := by
  unfold uint32
  omega

theorem uint32_eq_emod (x : Int) : (uint32 x : Int) = x % 4294967296 := by
  unfold uint32
  omega

theorem int32_congr {x y : Int} (h : x % 4294967296 = y % 4294967296) : int32 x = int32 y := by
  simp only [int32, Int.bmod_def, Nat.cast_ofNat, h]

theorem int32_emod (x : Int) : int32 x % 4294967296 = x % 4294967296 := by
  unfold int32
  rw [Int.bmod_def]
  split <;> omega

theorem int32_of_lt {n : Nat} (h : n < 2147483648) : int32 n = n := by
  unfold int32
  rw [Int.bmod_def]
  split <;> omega

/-- A number below `2^32` that `int` shows as it is lies below `2^31`. -/
theorem lt_of_int32_nonneg {n : Nat} (hn : n < 4294967296) (h : 0 ≤ int32 n) : n < 2147483648 := by
  unfold int32 at h
  rw [Int.bmod_def] at h
  split at h <;> omega

/-! ## The scan -/

/-- `n` is the least clear bit. -/
structure FirstClear (n : Nat) : Prop where
  inside : n < 8 * btmp.btmpBytesLen
  clear : btmp.bit n = false
  set : ∀ m, m < n → btmp.bit m = true

theorem exists_firstClear {n : Nat} (hn : n < 8 * btmp.btmpBytesLen) (hclear : btmp.bit n = false) :
    ∃ p, FirstClear btmp p := by
  induction n using Nat.strongRecOn with
  | ind n ih =>
      by_cases hset : ∀ m, m < n → btmp.bit m = true
      · exact ⟨n, hn, hclear, hset⟩
      · push Not at hset
        obtain ⟨m, hm, hbit⟩ := hset
        exact ih m hm (by omega) (by simpa using hbit)

variable {btmp} {p : Nat}

theorem FirstClear.unique (h : FirstClear btmp p) {q : Nat} (h' : FirstClear btmp q) : p = q := by
  rcases Nat.lt_trichotomy p q with hlt | heq | hgt
  · exact absurd h.clear (by simp [h'.set p hlt])
  · exact heq
  · exact absurd h'.clear (by simp [h.set q hgt])

theorem FirstClear.byte_full (h : FirstClear btmp p) {b : Nat} (hb : b < p / 8) :
    btmp.bits b = 0xff := by
  apply full_of_getLsbD
  intro k hk
  have hbit := h.set (8 * b + k) (by omega)
  unfold Bitmap.bit at hbit
  rwa [show (8 * b + k) / 8 = b by omega, show (8 * b + k) % 8 = k by omega] at hbit

theorem FirstClear.byte_not_full (h : FirstClear btmp p) : btmp.bits (p / 8) ≠ 0xff := by
  intro hfull
  have hbit := h.clear
  unfold Bitmap.bit at hbit
  rw [getLsbD_of_full hfull (Nat.mod_lt _ (by decide))] at hbit
  cases hbit

/-- The first loop stops at the byte of the least clear bit, inside the bitmap. -/
theorem FirstClear.scanByte_eq (h : FirstClear btmp p) (fuel idx : Nat) (hidx : idx ≤ p / 8)
    (hfuel : btmp.btmpBytesLen < idx + fuel) :
    ∃ reads, scanByte btmp fuel idx = some (p / 8, reads) ∧ ∀ b ∈ reads, b < btmp.btmpBytesLen := by
  have hin := h.inside
  induction fuel generalizing idx with
  | zero => omega
  | succ fuel ih =>
      by_cases heq : idx = p / 8
      · subst heq
        refine ⟨[p / 8], ?_, ?_⟩
        · rw [scanByte, if_neg (fun hand => h.byte_not_full hand.1)]
          rfl
        · intro b hb
          rw [List.mem_singleton.1 hb]
          omega
      · obtain ⟨reads, hrest, hreads⟩ := ih (idx + 1) (by omega) (by omega)
        refine ⟨idx :: reads, ?_, ?_⟩
        · rw [scanByte, if_pos ⟨h.byte_full (by omega), by omega⟩, hrest]
          rfl
        · intro b hb
          rcases List.mem_cons.1 hb with rfl | hb
          · omega
          · exact hreads b hb

/-- The second loop stops at the least clear bit of its byte; that the byte is not `0xff` is why it
stops before the mask becomes `0`. -/
theorem FirstClear.scanBit_eq (h : FirstClear btmp p) (fuel idx : Nat) (hidx : idx ≤ p % 8)
    (hfuel : p % 8 < idx + fuel) : scanBit (btmp.bits (p / 8)) fuel idx = some (p % 8) := by
  induction fuel generalizing idx with
  | zero => omega
  | succ fuel ih =>
      have hmask := and_twoPow_ne_zero (btmp.bits (p / 8)) (k := idx) (by omega)
      rw [← setWidth_mask idx (by omega), BitVec.and_comm] at hmask
      by_cases heq : idx = p % 8
      · subst heq
        have hclear := h.clear
        unfold Bitmap.bit at hclear
        rw [scanBit, if_neg]
        · rfl
        · intro hset
          rw [hmask.1 hset] at hclear
          cases hclear
      · have hset := h.set (8 * (p / 8) + idx) (by omega)
        unfold Bitmap.bit at hset
        rw [show (8 * (p / 8) + idx) / 8 = p / 8 by omega,
          show (8 * (p / 8) + idx) % 8 = idx by omega] at hset
        rw [scanBit, if_pos (hmask.2 hset)]
        exact ih (idx + 1) (by omega) (by omega)

theorem bitIdxStart_eq (p : Nat) :
    int32 ((uint32 (((p / 8 : Nat) : Int) * 8) : Int) + ((p % 8 : Nat) : Int)) = int32 p := by
  apply int32_congr
  rw [uint32_eq_emod]
  omega

/-- What `bitmap_scan` computes from the least clear bit. -/
theorem FirstClear.bitmapScanReads_eq (h : FirstClear btmp p) (cnt : Nat) :
    ∃ reads, (∀ b ∈ reads, b < btmp.btmpBytesLen) ∧ bitmapScanReads btmp cnt =
      if cnt = 1 then some (int32 p, reads)
      else
        let run := scanRun btmp cnt
          (uint32 (uint32 (btmp.btmpBytesLen * 8) - int32 p)) (uint32 (int32 p + 1)) 1
        some (run.1, reads ++ run.2) := by
  have hin := h.inside
  obtain ⟨reads, hbyte, hreads⟩ := h.scanByte_eq (btmp.btmpBytesLen + 1) 0 (by omega) (by omega)
  have hbit := h.scanBit_eq 9 0 (by omega) (by omega)
  refine ⟨reads ++ [p / 8], ?_, ?_⟩
  · intro b hb
    rcases List.mem_append.1 hb with hb | hb
    · exact hreads b hb
    · rw [List.mem_singleton.1 hb]
      omega
  · unfold bitmapScanReads
    simp only [hbyte, hbit, Option.bind_eq_bind, Option.bind_some, Option.pure_def,
      if_pos (show p / 8 < btmp.btmpBytesLen by omega), bitIdxStart_eq]

/-- **`bitmap_scan`** for one bit returns the least clear bit. -/
theorem FirstClear.bitmapScan_one (h : FirstClear btmp p) : bitmapScan btmp 1 = some (int32 p) := by
  obtain ⟨reads, -, heq⟩ := h.bitmapScanReads_eq 1
  simp only [bitmapScan, heq, if_true, Option.map_some]

/-- A scan that returns has found a clear bit inside. -/
theorem firstClear_of_scanByte (fuel idx k : Nat) (reads : List Nat)
    (h : scanByte btmp fuel idx = some (k, reads)) (hk : k < btmp.btmpBytesLen) :
    btmp.bits k ≠ 0xff := by
  induction fuel generalizing idx reads with
  | zero => cases h
  | succ fuel ih =>
      rw [scanByte] at h
      split at h
      · obtain ⟨⟨found, rest⟩, hrest, heq⟩ := Option.bind_eq_some_iff.1 h
        cases heq
        exact ih (idx + 1) rest hrest
      · rename_i hstop
        cases h
        exact fun hfull => hstop ⟨hfull, hk⟩

theorem exists_clear_of_byte {b : Nat} (hb : btmp.bits b ≠ 0xff) :
    ∃ k, k < 8 ∧ btmp.bit (8 * b + k) = false := by
  by_contra hnone
  push Not at hnone
  apply hb
  apply full_of_getLsbD
  intro k hk
  have hbit := hnone k hk
  unfold Bitmap.bit at hbit
  rw [show (8 * b + k) / 8 = b by omega, show (8 * b + k) % 8 = k by omega] at hbit
  simpa using hbit

variable (btmp)

/-- A scan that returns a value has found the least clear bit. -/
theorem bitmapScan_spec {i : Int} (hsize : 8 * btmp.btmpBytesLen < 2147483648)
    (h : bitmapScan btmp 1 = some i) :
    ∃ n : Nat, i = n ∧ n < 8 * btmp.btmpBytesLen ∧ btmp.bit n = false ∧
      ∀ m, m < n → btmp.bit m = true := by
  have hclear : ∃ n, n < 8 * btmp.btmpBytesLen ∧ btmp.bit n = false := by
    unfold bitmapScan at h
    obtain ⟨⟨r, reads⟩, hscan, -⟩ := Option.map_eq_some_iff.1 h
    unfold bitmapScanReads at hscan
    obtain ⟨⟨k, reads'⟩, hbyte, hrest⟩ := Option.bind_eq_some_iff.1 hscan
    by_cases hk : k < btmp.btmpBytesLen
    · obtain ⟨j, hj, hbit⟩ := exists_clear_of_byte (firstClear_of_scanByte _ _ k reads' hbyte hk)
      exact ⟨8 * k + j, by omega, hbit⟩
    · simp only [if_neg hk] at hrest
      cases hrest
  obtain ⟨n, hn, hbit⟩ := hclear
  obtain ⟨p, hp⟩ := exists_firstClear btmp hn hbit
  have hin := hp.inside
  rw [hp.bitmapScan_one, int32_of_lt (by omega)] at h
  exact ⟨p, (Option.some.inj h).symm, hp.inside, hp.clear, hp.set⟩

/-- It fails on a full bitmap only. -/
theorem bitmapScan_some {n : Nat} (hn : n < 8 * btmp.btmpBytesLen) (hclear : btmp.bit n = false) :
    ∃ i, bitmapScan btmp 1 = some i := by
  obtain ⟨p, hp⟩ := exists_firstClear btmp hn hclear
  exact ⟨_, hp.bitmapScan_one⟩

theorem bit_bitmapInit {i : Nat} (h : i < 8 * btmp.btmpBytesLen) :
    (bitmapInit btmp).bit i = false := by
  have hbyte : i / 8 < btmp.btmpBytesLen := by omega
  simp [bitmapInit, Bitmap.bit, hbyte]

end ThreadSched
