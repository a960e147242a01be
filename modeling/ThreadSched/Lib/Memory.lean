import Mathlib

/-!
# Byte-addressed memory of a 64-bit machine

Addresses wrap.  Little-endian loads and stores of any number of bytes, and copies of a block.

* `Same m m' a n` — the `n` bytes at `a` are the same in both memories; `Apart a n b k` — the two blocks
  have no byte in common; `Inside a n b k` — the first lies in the second.
* `loadNat_store_self`, `Same.store`, `copy_at`, `Same.copy` — what a store or a copy changes, and what it
  leaves alone.
* `storeWords` — a block of words; `load64_storeWords` reads one of them back.
-/

set_option autoImplicit false

namespace Memory

abbrev Addr := BitVec 64

abbrev Mem := Addr → BitVec 8

/-- The address `i` bytes after `a`. -/
def off (a : Addr) (i : Nat) : Addr := a + BitVec.ofNat 64 i

/-- The `n` bytes at `a` are the same. -/
def Same (m m' : Mem) (a : Addr) (n : Nat) : Prop := ∀ i < n, m' (off a i) = m (off a i)

/-- The `n` bytes at `a` and the `k` bytes at `b` are different bytes. -/
def Apart (a : Addr) (n : Nat) (b : Addr) (k : Nat) : Prop := ∀ i < n, ∀ j < k, off a i ≠ off b j

/-- The `n` bytes at `a` are among the `k` bytes at `b`. -/
def Inside (a : Addr) (n : Nat) (b : Addr) (k : Nat) : Prop := ∃ p, a = off b p ∧ p + n ≤ k

/-- The `k` bytes at `a`, the lowest first. -/
def loadNat (m : Mem) (a : Addr) : Nat → Nat
  | 0 => 0
  | k + 1 => (m a).toNat + 256 * loadNat m (off a 1) k

/-- Write the `k` lowest bytes of `v` at `a`. -/
def store (k : Nat) (m : Mem) (a : Addr) (v : Nat) : Mem :=
  fun b => if (b - a).toNat < k then BitVec.ofNat 8 (v / 256 ^ (b - a).toNat) else m b

def load64 (m : Mem) (a : Addr) : BitVec 64 := BitVec.ofNat 64 (loadNat m a 8)

def load16 (m : Mem) (a : Addr) : BitVec 16 := BitVec.ofNat 16 (loadNat m a 2)

def store64 (m : Mem) (a : Addr) (v : BitVec 64) : Mem := store 8 m a v.toNat

def store16 (m : Mem) (a : Addr) (v : BitVec 16) : Mem := store 2 m a v.toNat

/-- Copy `n` bytes. -/
def copy (m : Mem) (dst src : Addr) (n : Nat) : Mem :=
  fun b => if (b - dst).toNat < n then m (src + (b - dst)) else m b

/-- Set `n` bytes to `v`. -/
def fill (m : Mem) (a : Addr) (v : BitVec 8) (n : Nat) : Mem := fun b => if (b - a).toNat < n then v else m b

/-- Store words into the block at `a`, each given with its index, in the order of the list. -/
def storeWords (m : Mem) (a : Addr) (ws : List (Nat × BitVec 64)) : Mem :=
  ws.foldl (fun m w => store64 m (off a (8 * w.1)) w.2) m

section

variable {m m' m'' : Mem} {a b dst src : Addr} {i j k l n p q v : Nat}

/-! ## Addresses -/

@[simp] theorem off_zero : off a 0 = a := by simp [off]

@[simp] theorem off_off : off (off a i) j = off a (i + j) := by
  unfold off
  rw [BitVec.add_assoc, ← BitVec.ofNat_add]

theorem off_sub (hi : i < 2 ^ 64) : (off a i - a).toNat = i := by
  have hcancel : off a i - a = BitVec.ofNat 64 i := by
    unfold off
    rw [BitVec.add_comm, BitVec.add_sub_cancel]
  rw [hcancel, BitVec.toNat_ofNat, Nat.mod_eq_of_lt hi]

theorem off_of_sub : off a (b - a).toNat = b := by
  unfold off
  rw [BitVec.ofNat_toNat, BitVec.setWidth_eq, BitVec.add_comm, BitVec.sub_add_cancel]

theorem add_sub_off : src + (off dst i - dst) = off src i := by
  have hcancel : off dst i - dst = BitVec.ofNat 64 i := by
    unfold off
    rw [BitVec.add_comm, BitVec.add_sub_cancel]
  rw [hcancel]
  rfl

/-! ## Blocks -/

theorem Same.refl : Same m m a n := fun _ _ => rfl

theorem Same.trans (h : Same m m' a n) (h' : Same m' m'' a n) : Same m m'' a n :=
  fun i hi => (h' i hi).trans (h i hi)

theorem Same.symm (h : Same m m' a n) : Same m' m a n := fun i hi => (h i hi).symm

theorem Same.sub (h : Same m m' a n) (hp : p + k ≤ n) : Same m m' (off a p) k := by
  intro i hi
  rw [off_off]
  exact h (p + i) (by omega)

theorem Apart.symm (h : Apart a n b k) : Apart b k a n := fun i hi j hj => (h j hj i hi).symm

theorem Apart.sub (h : Apart a n b k) (hp : p + l ≤ n) : Apart (off a p) l b k := by
  intro i hi j hj
  rw [off_off]
  exact h (p + i) (by omega) j hj

/-- Two parts of one block. -/
theorem Apart.within (h : p + l ≤ q ∨ q + k ≤ p) (hp : p + l ≤ 2 ^ 64) (hq : q + k ≤ 2 ^ 64) :
    Apart (off a p) l (off a q) k := by
  intro i hi j hj heq
  rw [off_off, off_off] at heq
  have hnat : (off a (p + i) - a).toNat = (off a (q + j) - a).toNat := by rw [heq]
  rw [off_sub (by omega), off_sub (by omega)] at hnat
  omega

theorem Apart.inside (h : Apart b k src n) (hi : Inside a l b k) : Apart a l src n := by
  obtain ⟨p, rfl, hp⟩ := hi
  exact h.sub hp

theorem Inside.refl : Inside a n a n := ⟨0, off_zero.symm, by omega⟩

theorem Inside.sub (h : Inside a n b k) (hp : p + l ≤ n) : Inside (off a p) l b k := by
  obtain ⟨q, rfl, hq⟩ := h
  exact ⟨q + p, off_off, by omega⟩

theorem Same.inside (h : Same m m' b k) (hi : Inside a n b k) : Same m m' a n := by
  obtain ⟨p, rfl, hp⟩ := hi
  exact h.sub hp

/-- Two blocks given by numbers. -/
theorem Apart.of_toNat (h : a.toNat + n ≤ b.toNat) (hb : b.toNat + k ≤ 2 ^ 64) : Apart a n b k := by
  intro i hi j hj heq
  have hnat := congrArg BitVec.toNat heq
  unfold off at hnat
  simp only [BitVec.toNat_add, BitVec.toNat_ofNat] at hnat
  omega

/-! ## Stores -/

theorem store_off (hi : i < k) (hk : k ≤ 2 ^ 64) :
    store k m a v (off a i) = BitVec.ofNat 8 (v / 256 ^ i) := by
  unfold store
  rw [off_sub (by omega), if_pos hi]

/-- A store leaves what is apart from it alone. -/
theorem Same.store (h : Apart a k b n) : Same m (store k m a v) b n := by
  intro i hi
  unfold Memory.store
  by_cases hlt : (off b i - a).toNat < k
  · exact absurd off_of_sub (h _ hlt i hi)
  · rw [if_neg hlt]

theorem loadNat_of_bytes (h : ∀ i < k, m (off a i) = BitVec.ofNat 8 (v / 256 ^ i)) :
    loadNat m a k = v % 256 ^ k := by
  induction k generalizing a v with
  | zero => simp [loadNat, Nat.mod_one]
  | succ k ih =>
      have hfirst := h 0 (by omega)
      rw [off_zero, pow_zero, Nat.div_one] at hfirst
      have hrest : loadNat m (off a 1) k = (v / 256) % 256 ^ k := by
        apply ih
        intro i hi
        rw [off_off, h (1 + i) (by omega), Nat.div_div_eq_div_mul, pow_add, pow_one]
      calc loadNat m a (k + 1)
          = v % 256 + 256 * (v / 256 % 256 ^ k) := by
            unfold loadNat
            rw [hfirst, hrest, BitVec.toNat_ofNat]
        _ = v % 256 ^ (k + 1) := by rw [pow_succ', Nat.mod_mul]

theorem loadNat_store_self (hk : k ≤ 2 ^ 64) : loadNat (store k m a v) a k = v % 256 ^ k :=
  loadNat_of_bytes fun _ hi => store_off hi hk

theorem Same.loadNat (h : Same m m' a k) : loadNat m' a k = Memory.loadNat m a k := by
  induction k generalizing a with
  | zero => rfl
  | succ k ih =>
      have hfirst := h 0 (by omega)
      rw [off_zero] at hfirst
      unfold Memory.loadNat
      rw [hfirst, ih (h.sub (by omega))]

theorem Same.load64 (h : Same m m' a 8) : load64 m' a = Memory.load64 m a := by
  unfold Memory.load64
  rw [h.loadNat]

theorem Same.load16 (h : Same m m' a 2) : load16 m' a = Memory.load16 m a := by
  unfold Memory.load16
  rw [h.loadNat]

@[simp] theorem load64_store64_self {w : BitVec 64} : load64 (store64 m a w) a = w := by
  unfold load64 store64
  rw [loadNat_store_self (by norm_num), Nat.mod_eq_of_lt (by have := w.isLt; omega), BitVec.ofNat_toNat,
    BitVec.setWidth_eq]

@[simp] theorem load16_store16_self {w : BitVec 16} : load16 (store16 m a w) a = w := by
  unfold load16 store16
  rw [loadNat_store_self (by norm_num), Nat.mod_eq_of_lt (by have := w.isLt; omega), BitVec.ofNat_toNat,
    BitVec.setWidth_eq]

theorem Same.store64 {w : BitVec 64} (h : Apart a 8 b n) : Same m (store64 m a w) b n := Same.store h

theorem Same.store16 {w : BitVec 16} (h : Apart a 2 b n) : Same m (store16 m a w) b n := Same.store h

/-! ## Copies -/

theorem copy_at (hi : i < n) (hn : n ≤ 2 ^ 64) : copy m dst src n (off dst i) = m (off src i) := by
  unfold copy
  rw [off_sub (by omega), if_pos hi, add_sub_off]

/-- A copy leaves what is apart from it alone. -/
theorem Same.copy (h : Apart dst n b k) : Same m (copy m dst src n) b k := by
  intro i hi
  unfold Memory.copy
  by_cases hlt : (off b i - dst).toNat < n
  · exact absurd off_of_sub (h _ hlt i hi)
  · rw [if_neg hlt]

theorem loadNat_copy (hp : p + k ≤ n) (hn : n ≤ 2 ^ 64) :
    loadNat (copy m dst src n) (off dst p) k = loadNat m (off src p) k := by
  induction k generalizing p with
  | zero => rfl
  | succ k ih =>
      unfold loadNat
      rw [copy_at (by omega) hn, off_off, off_off, ih (by omega)]

theorem load64_copy (hp : p + 8 ≤ n) (hn : n ≤ 2 ^ 64) :
    load64 (copy m dst src n) (off dst p) = load64 m (off src p) := by
  unfold load64
  rw [loadNat_copy hp hn]

theorem load16_copy (hp : p + 2 ≤ n) (hn : n ≤ 2 ^ 64) :
    load16 (copy m dst src n) (off dst p) = load16 m (off src p) := by
  unfold load16
  rw [loadNat_copy hp hn]

/-! ## Fills -/

theorem Same.fill {w : BitVec 8} (h : Apart a k b n) : Same m (fill m a w k) b n := by
  intro i hi
  unfold Memory.fill
  by_cases hlt : (off b i - a).toNat < k
  · exact absurd off_of_sub (h _ hlt i hi)
  · rw [if_neg hlt]

theorem loadNat_fill_zero (hp : p + k ≤ n) (hn : n ≤ 2 ^ 64) : loadNat (fill m a 0 n) (off a p) k = 0 := by
  have hbytes : ∀ i < k, fill m a 0 n (off (off a p) i) = BitVec.ofNat 8 (0 / 256 ^ i) := by
    intro i hi
    unfold fill
    rw [off_off, off_sub (by omega), if_pos (by omega), Nat.zero_div]
    rfl
  rw [loadNat_of_bytes hbytes, Nat.zero_mod]

theorem load64_fill_zero (hp : p + 8 ≤ n) (hn : n ≤ 2 ^ 64) : load64 (fill m a 0 n) (off a p) = 0 := by
  unfold load64
  rw [loadNat_fill_zero hp hn]
  rfl

/-! ## Blocks of words -/

section

variable {ws ws' : List (Nat × BitVec 64)} {w : BitVec 64}

@[simp] theorem storeWords_nil : storeWords m a [] = m := rfl

theorem storeWords_cons : storeWords m a ((i, w) :: ws) = storeWords (store64 m (off a (8 * i)) w) a ws := rfl

theorem storeWords_append : storeWords m a (ws ++ ws') = storeWords (storeWords m a ws) a ws' := by
  unfold storeWords
  exact List.foldl_append

theorem Same.storeWords (h : Apart a n b k) (hw : ∀ x ∈ ws, 8 * x.1 + 8 ≤ n) :
    Same m (storeWords m a ws) b k := by
  induction ws generalizing m with
  | nil => exact Same.refl
  | cons x ws ih =>
      have hfirst : Same m (Memory.store64 m (off a (8 * x.1)) x.2) b k :=
        Same.store64 (h.sub (hw x (by simp)))
      exact hfirst.trans (ih fun y hy => hw y (List.mem_cons_of_mem _ hy))

/-- The rest of the block. -/
theorem Same.storeWords_within (hw : ∀ x ∈ ws, 8 * x.1 + 8 ≤ p ∨ p + k ≤ 8 * x.1)
    (hb : ∀ x ∈ ws, 8 * x.1 + 8 ≤ 2 ^ 64) (hp : p + k ≤ 2 ^ 64) :
    Same m (Memory.storeWords m a ws) (off a p) k := by
  induction ws generalizing m with
  | nil => exact Same.refl
  | cons x ws ih =>
      have hfirst : Same m (Memory.store64 m (off a (8 * x.1)) x.2) (off a p) k :=
        Same.store64 (Apart.within (hw x (by simp)) (hb x (by simp)) hp)
      exact hfirst.trans (ih (fun y hy => hw y (List.mem_cons_of_mem _ hy))
        fun y hy => hb y (List.mem_cons_of_mem _ hy))

/-- Each index occurs once: what is read at an index is what was stored there. -/
theorem load64_storeWords (hnodup : (ws.map Prod.fst).Nodup) (hb : ∀ x ∈ ws, 8 * x.1 + 8 ≤ 2 ^ 64)
    (h : (i, w) ∈ ws) : load64 (storeWords m a ws) (off a (8 * i)) = w := by
  induction ws generalizing m with
  | nil => simp at h
  | cons x ws ih =>
      rw [List.map_cons, List.nodup_cons] at hnodup
      have hbs : ∀ y ∈ ws, 8 * y.1 + 8 ≤ 2 ^ 64 := fun y hy => hb y (List.mem_cons_of_mem _ hy)
      rcases List.mem_cons.mp h with rfl | htail
      · have hrest : Same (store64 m (off a (8 * i)) w)
            (storeWords (store64 m (off a (8 * i)) w) a ws) (off a (8 * i)) 8 := by
          refine Same.storeWords_within (fun y hy => ?_) hbs (hb _ h)
          have hne : y.1 ≠ i := by
            rintro heq
            exact hnodup.1 (List.mem_map.mpr ⟨y, hy, heq⟩)
          omega
        rw [storeWords_cons, hrest.load64, load64_store64_self]
      · exact ih hnodup.2 hbs htail

end

end

end Memory
