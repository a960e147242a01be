import Mathlib

/-!
# Buckets

A family of lists indexed by slots, read as one multiset.  Moving elements between slots conserves
the multiset; that conservation is what "nothing is lost and nothing is duplicated" means for any
structure that files its elements in slots.

* `all` — everything filed in the slots of a finite set.
* `exists_slot_of_count_one` — an element filed once is in exactly one slot.
* `all_update` — replacing one slot's list changes `all` by exactly the difference.
* `eq_of_mem` — in a family without duplicates an element names its slot.
* `all_insert`, `all_push`, `all_take`, `all_erase`, `all_move` — filing one more element (at the tail of
  a slot), emptying a slot, taking an element out of its slot, and filing it in another one.
-/

set_option autoImplicit false

namespace Buckets

variable {ι : Type*} {α : Type*}

/-- Everything filed in the slots of `S`. -/
@[irreducible] def all (S : Finset ι) (f : ι → List α) : Multiset α := ∑ s ∈ S, (f s : Multiset α)

theorem mem_all {S : Finset ι} {f : ι → List α} {a : α} : a ∈ all S f ↔ ∃ s ∈ S, a ∈ f s := by
  unfold all
  simp [Multiset.mem_sum]

theorem count_all [DecidableEq α] {S : Finset ι} {f : ι → List α} {a : α} :
    (all S f).count a = ∑ s ∈ S, (f s).count a := by
  unfold all
  rw [Multiset.count_sum']
  simp

theorem all_map {β : Type*} (S : Finset ι) (f : ι → List α) (g : α → β) :
    (all S f).map g = all S fun s => (f s).map g := by
  unfold all
  rw [← Multiset.coe_mapAddMonoidHom, map_sum]
  rfl

/-- An element filed once is in exactly one slot, once. -/
theorem exists_slot_of_count_one [DecidableEq α] {S : Finset ι} {f : ι → List α} {a : α}
    (h : (all S f).count a = 1) :
    ∃ s ∈ S, (f s).count a = 1 ∧ ∀ t ∈ S, t ≠ s → a ∉ f t := by
  classical
  rw [count_all] at h
  obtain ⟨s, hs, hpos⟩ : ∃ s ∈ S, 0 < (f s).count a := by
    by_contra hno
    push Not at hno
    rw [Finset.sum_eq_zero fun s hs => Nat.le_zero.1 (hno s hs)] at h
    exact Nat.zero_ne_one h
  rw [← Finset.add_sum_erase S _ hs] at h
  refine ⟨s, hs, by omega, fun t ht hne hmem => ?_⟩
  have hle : (f t).count a ≤ ∑ t ∈ S.erase s, (f t).count a :=
    Finset.single_le_sum (f := fun t => (f t).count a) (fun _ _ => Nat.zero_le _)
      (Finset.mem_erase.2 ⟨hne, ht⟩)
  have := List.count_pos_iff.2 hmem
  omega

/-- In a family without duplicates an element is in one slot only. -/
theorem eq_of_mem {S : Finset ι} {f : ι → List α} (hn : (all S f).Nodup) {a : α} {s t : ι}
    (hs : s ∈ S) (ht : t ∈ S) (has : a ∈ f s) (hat : a ∈ f t) : t = s := by
  classical
  have hcount : (all S f).count a = 1 :=
    Multiset.count_eq_one_of_mem hn (mem_all.2 ⟨s, hs, has⟩)
  obtain ⟨u, _, _, honly⟩ := exists_slot_of_count_one hcount
  have hsu : s = u := by
    by_contra hne
    exact honly s hs hne has
  by_contra hne
  rw [hsu] at hne
  exact honly t ht hne hat

theorem nodup_of_mem {S : Finset ι} {f : ι → List α} (hn : (all S f).Nodup) {s : ι} (hs : s ∈ S) :
    (f s).Nodup := by
  unfold all at hn
  rw [← Multiset.coe_nodup]
  exact Multiset.nodup_of_le (Finset.single_le_sum (f := fun t => (f t : Multiset α))
    (fun _ _ => Multiset.zero_le _) hs) hn

variable [DecidableEq ι]

/-- Replacing one slot's list. -/
theorem all_update {S : Finset ι} (f : ι → List α) {s : ι} (hs : s ∈ S) (l : List α) :
    all S (Function.update f s l) + (f s : Multiset α) = all S f + (l : Multiset α) := by
  unfold all
  have hrest : ∑ t ∈ S.erase s, (Function.update f s l t : Multiset α) =
      ∑ t ∈ S.erase s, (f t : Multiset α) := by
    refine Finset.sum_congr rfl fun t ht => ?_
    rw [Function.update_of_ne (Finset.ne_of_mem_erase ht)]
  rw [← Finset.add_sum_erase S _ hs, ← Finset.add_sum_erase S (fun t => (f t : Multiset α)) hs,
    hrest, Function.update_self]
  abel

/-- Filing one more element, anywhere in a slot's list. -/
theorem all_insert {S : Finset ι} (f : ι → List α) {s : ι} (hs : s ∈ S) {a : α} {l : List α}
    (hl : l.Perm (a :: f s)) : all S (Function.update f s l) = a ::ₘ all S f := by
  have h := all_update f hs l
  rw [Multiset.coe_eq_coe.2 hl, ← Multiset.cons_coe, ← Multiset.singleton_add, ← add_assoc] at h
  rw [add_right_cancel h, add_comm, Multiset.singleton_add]

/-- Filing one element at the tail of a slot. -/
theorem all_push {S : Finset ι} (f : ι → List α) {s : ι} (hs : s ∈ S) (a : α) :
    all S (Function.update f s (f s ++ [a])) = a ::ₘ all S f :=
  all_insert f hs (List.perm_append_singleton a (f s))

/-- Emptying a slot. -/
theorem all_take {S : Finset ι} (f : ι → List α) {s : ι} (hs : s ∈ S) :
    all S (Function.update f s []) + (f s : Multiset α) = all S f := by
  have h := all_update f hs []
  simpa using h

/-- Taking an element out of its slot. -/
theorem all_erase [DecidableEq α] {S : Finset ι} (f : ι → List α) {s : ι} (hs : s ∈ S) {a : α}
    (ha : a ∈ f s) : a ::ₘ all S (Function.update f s ((f s).erase a)) = all S f := by
  have h := all_update f hs ((f s).erase a)
  have hl : (f s : Multiset α) = {a} + ((f s).erase a : Multiset α) := by
    rw [Multiset.singleton_add, Multiset.cons_coe]
    exact Multiset.coe_eq_coe.2 (List.perm_cons_erase ha)
  rw [hl, ← add_assoc] at h
  rw [← add_right_cancel h, add_comm, Multiset.singleton_add]

/-- Moving an element from its slot to another one, anywhere in the other slot's list. -/
theorem all_move [DecidableEq α] {S : Finset ι} (f : ι → List α) {s t : ι} (hs : s ∈ S) (ht : t ∈ S)
    (hne : t ≠ s) {a : α} (ha : a ∈ f s) {l : List α} (hl : l.Perm (a :: f t)) :
    all S (Function.update (Function.update f s ((f s).erase a)) t l) = all S f := by
  rw [← all_erase f hs ha]
  apply all_insert _ ht
  rw [Function.update_of_ne hne]
  exact hl

end Buckets
