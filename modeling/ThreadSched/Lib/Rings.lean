import Mathlib

/-!
# Circular doubly-linked lists

Links in both directions between nodes of any type, and the three edits that circular lists with a
head are built from: put a node between two neighbours, take a node out, and let another head take a
list over.

* `Chain L l` — consecutive nodes of `l` are linked both ways.  `Ring L h l` — `h` is the head of the
  circular list of the nodes `l`.
* `Chain.insertBetween`, `Chain.unlink`, `Ring.replaceInit` — what an edit does to the list it is
  made in.
* `SameOff`, `Chain.frame` — an edit leaves every list alone whose nodes it does not write to.
-/

set_option autoImplicit false

namespace Rings

variable {P : Type*}

structure Links (P : Type*) where
  prev : P → P
  next : P → P

def Linked (L : Links P) (a b : P) : Prop := L.next a = b ∧ L.prev b = a

/-- Consecutive nodes are linked both ways. -/
def Chain (L : Links P) (l : List P) : Prop := l.IsChain (Linked L)

/-- The circular list with head `h` and the nodes `l`. -/
def Ring (L : Links P) (h : P) (l : List P) : Prop := Chain L (h :: (l ++ [h]))

/-- No node has two successors or two predecessors along the list; its two ends may coincide. -/
structure Simple (c : List P) : Prop where
  dropLast : c.dropLast.Nodup
  tail : c.tail.Nodup

theorem simple_ring {h : P} {l : List P} (hn : (h :: l).Nodup) : Simple (h :: (l ++ [h])) := by
  constructor
  · rw [← List.cons_append, List.dropLast_concat]
    exact hn
  · rw [List.tail_cons, List.nodup_append_comm]
    exact hn

/-- A list of distinct nodes that ends at a further one. -/
theorem simple_of_nodup {e : P} {l : List P} (hn : (e :: l).Nodup) : Simple (l ++ [e]) := by
  have hle : (l ++ [e]).Nodup := by
    rw [List.nodup_append_comm]
    exact hn
  constructor
  · rw [List.dropLast_concat]
    exact (List.nodup_cons.1 hn).2
  · exact hle.sublist (List.tail_sublist _)

/-! ## Reading -/

/-- A chain reads the forward links of all nodes but the last and the backward links of all nodes
but the first. -/
theorem Chain.congr {L L' : Links P} {l : List P} (h : Chain L l)
    (hnext : ∀ a ∈ l.dropLast, L'.next a = L.next a) (hprev : ∀ b ∈ l.tail, L'.prev b = L.prev b) :
    Chain L' l := by
  unfold Chain at *
  induction l with
  | nil => exact .nil
  | cons a l ih =>
      cases l with
      | nil => exact .singleton a
      | cons b l =>
          rw [List.isChain_cons_cons] at h ⊢
          rw [List.dropLast_cons_cons] at hnext
          rw [List.tail_cons] at hprev
          obtain ⟨⟨hab, hba⟩, hrest⟩ := h
          refine ⟨⟨?_, ?_⟩, ih hrest ?_ ?_⟩
          · rw [hnext a List.mem_cons_self, hab]
          · rw [hprev b List.mem_cons_self, hba]
          · intro c hc
            exact hnext c (List.mem_cons_of_mem _ hc)
          · intro c hc
            exact hprev c (List.mem_cons_of_mem _ hc)

/-- `L'` has the links of `L` outside `S`. -/
def SameOff (L L' : Links P) (S : List P) : Prop :=
  ∀ a, a ∉ S → L'.next a = L.next a ∧ L'.prev a = L.prev a

/-- **Frame rule.** -/
theorem Chain.frame {L L' : Links P} {l S : List P} (h : Chain L l) (hsame : SameOff L L' S)
    (hoff : ∀ a ∈ l, a ∉ S) : Chain L' l := by
  apply h.congr
  · intro a ha
    exact (hsame a (hoff a (List.mem_of_mem_dropLast ha))).1
  · intro b hb
    exact (hsame b (hoff b (List.mem_of_mem_tail hb))).2

theorem Ring.frame {L L' : Links P} {h : P} {l S : List P} (hr : Ring L h l)
    (hsame : SameOff L L' S) (hoff : ∀ a ∈ h :: l, a ∉ S) : Ring L' h l := by
  apply Chain.frame hr hsame
  intro a ha
  apply hoff a
  simp only [List.mem_cons, List.mem_append, List.not_mem_nil, or_false] at ha ⊢
  tauto

theorem Chain.next_head {L : Links P} {a b : P} {l : List P} (h : Chain L (a :: b :: l)) :
    L.next a = b := by
  unfold Chain at h
  rw [List.isChain_cons_cons] at h
  exact h.1.1

theorem Chain.of_cons {L : Links P} {a : P} {l : List P} (h : Chain L (a :: l)) : Chain L l :=
  List.IsChain.of_cons h

/-- The head's predecessor is the last node, or the head itself. -/
theorem Ring.prev_eq {L : Links P} {h q : P} {l l₁ : List P} (hr : Ring L h l)
    (hl : h :: l = l₁ ++ [q]) : L.prev h = q := by
  unfold Ring Chain at hr
  rw [← List.cons_append, hl, List.append_assoc] at hr
  have hseam := List.isChain_append_cons_cons.1 hr
  exact hseam.2.1.2

theorem Ring.prev_mem {L : Links P} {h : P} {l : List P} (hr : Ring L h l) :
    L.prev h ∈ h :: l := by
  obtain ⟨l₁, q, hl⟩ := List.eq_nil_or_concat (h :: l) |>.resolve_left (List.cons_ne_nil _ _)
  rw [List.concat_eq_append] at hl
  rw [hr.prev_eq hl, hl]
  exact List.mem_append_right _ List.mem_cons_self

theorem Ring.next_eq {L : Links P} {h : P} {l : List P} (hr : Ring L h l) :
    L.next h = (l ++ [h]).head (by simp) := by
  cases l with
  | nil => exact Chain.next_head hr
  | cons a l => exact Chain.next_head hr

theorem Ring.next_mem {L : Links P} {h : P} {l : List P} (hr : Ring L h l) :
    L.next h ∈ h :: l := by
  have hmem : L.next h ∈ l ++ [h] := by
    rw [hr.next_eq]
    exact List.head_mem _
  simp only [List.mem_cons, List.mem_append, List.not_mem_nil, or_false] at hmem ⊢
  tauto

/-- A ring with at least one node, cut at its head. -/
theorem ring_iff {L : Links P} {h : P} {l : List P} (hl : l ≠ []) :
    Ring L h l ↔ Linked L h (l.head hl) ∧ Chain L l ∧ Linked L (l.getLast hl) h := by
  unfold Ring Chain
  rw [List.isChain_cons, List.isChain_append]
  have hhead : (l ++ [h]).head? = some (l.head hl) := by
    rw [List.head?_append_of_ne_nil _ hl, List.head?_eq_some_head hl]
  have hlast : l.getLast? = some (l.getLast hl) := List.getLast?_eq_some_getLast hl
  rw [hhead, hlast]
  simp

theorem getLast_notMem_dropLast {l : List P} (hl : l ≠ []) (hn : l.Nodup) :
    l.getLast hl ∉ l.dropLast := by
  rw [← List.dropLast_append_getLast hl, List.nodup_append] at hn
  intro h
  exact hn.2.2 _ h _ List.mem_cons_self rfl

theorem head_notMem_tail {l : List P} (hl : l ≠ []) (hn : l.Nodup) : l.head hl ∉ l.tail := by
  rw [← List.cons_head_tail hl] at hn
  exact (List.nodup_cons.1 hn).1

/-! ## Taking a list apart -/

/-- What an edit between `a` and `b` may write without touching the rest of the list. -/
theorem Simple.apart {l₁ m l₂ : List P} {a b : P} (hs : Simple (l₁ ++ a :: (m ++ b :: l₂))) :
    (a ∉ l₁ ∧ a ∉ (b :: l₂).dropLast) ∧ (b ∉ (l₁ ++ [a]).tail ∧ b ∉ l₂) := by
  have hd := hs.dropLast
  rw [List.dropLast_append_of_ne_nil (List.cons_ne_nil _ _),
    List.dropLast_cons_of_ne_nil (by simp),
    List.dropLast_append_of_ne_nil (List.cons_ne_nil _ _)] at hd
  have ht := hs.tail
  have hsplit : l₁ ++ a :: (m ++ b :: l₂) = (l₁ ++ [a]) ++ (m ++ b :: l₂) := by simp
  rw [hsplit, List.tail_append_of_ne_nil (by simp)] at ht
  rw [List.nodup_append] at hd ht
  obtain ⟨_, hd₂, hd⟩ := hd
  obtain ⟨_, ht₂, ht⟩ := ht
  refine ⟨⟨?_, ?_⟩, ?_, ?_⟩
  · intro h
    exact hd a h a List.mem_cons_self rfl
  · intro h
    exact (List.nodup_cons.1 hd₂).1 (List.mem_append_right _ h)
  · intro h
    exact ht b h b (List.mem_append_right _ List.mem_cons_self) rfl
  · exact (List.nodup_cons.1 (List.nodup_append.1 ht₂).2.1).1

/-- Both halves of a chain survive an edit of the forward link at the end of the first and of the
backward link at the start of the second. -/
theorem Chain.halves {L N : Links P} {l₁ l₂ : List P} {a b : P} (hl : Chain L (l₁ ++ [a]))
    (hr : Chain L (b :: l₂))
    (hs : (a ∉ l₁ ∧ a ∉ (b :: l₂).dropLast) ∧ (b ∉ (l₁ ++ [a]).tail ∧ b ∉ l₂))
    (hnext : ∀ q ∈ l₁ ++ a :: b :: l₂, q ≠ a → N.next q = L.next q)
    (hprev : ∀ q ∈ l₁ ++ a :: b :: l₂, q ≠ b → N.prev q = L.prev q) :
    Chain N (l₁ ++ [a]) ∧ Chain N (b :: l₂) := by
  obtain ⟨⟨ha₁, ha₂⟩, hb₁, hb₂⟩ := hs
  constructor
  · apply hl.congr
    · intro q hq
      rw [List.dropLast_concat] at hq
      apply hnext q (by simp [hq])
      rintro rfl
      exact ha₁ hq
    · intro q hq
      have hmem := List.mem_of_mem_tail hq
      apply hprev q (by simp only [List.mem_append, List.mem_cons] at hmem ⊢; tauto)
      rintro rfl
      exact hb₁ hq
  · apply hr.congr
    · intro q hq
      have hmem := List.mem_of_mem_dropLast hq
      apply hnext q (by simp only [List.mem_append, List.mem_cons] at hmem ⊢; tauto)
      rintro rfl
      exact ha₂ hq
    · intro q hq
      rw [List.tail_cons] at hq
      apply hprev q (by simp [hq])
      rintro rfl
      exact hb₂ hq

/-- A node of a ring or of a chain has both its neighbours in it. -/
theorem exists_neighbours {c : List P} {l₁ l₂ : List P} {h e p : P}
    (hc : c = h :: (l₁ ++ p :: l₂ ++ [e])) :
    ∃ k₁ a b k₂, c = k₁ ++ a :: p :: b :: k₂ ∧ h :: (l₁ ++ l₂ ++ [e]) = k₁ ++ a :: b :: k₂ := by
  obtain ⟨k₁, a, ha⟩ := List.eq_nil_or_concat (h :: l₁) |>.resolve_left (List.cons_ne_nil _ _)
  rw [List.concat_eq_append] at ha
  obtain ⟨b, k₂, hb⟩ := List.exists_cons_of_ne_nil (l := l₂ ++ [e]) (by simp)
  refine ⟨k₁, a, b, k₂, ?_, ?_⟩
  · rw [hc, List.append_assoc, List.cons_append, hb, ← List.cons_append, ha]
    simp
  · rw [List.append_assoc, hb, ← List.cons_append, ha]
    simp

/-- Both neighbours of a node are in its list. -/
theorem Chain.neighbours_mem {L : Links P} {l₁ l₂ : List P} {h e p : P}
    (hc : Chain L (h :: (l₁ ++ p :: l₂ ++ [e]))) :
    L.prev p ∈ h :: (l₁ ++ p :: l₂ ++ [e]) ∧ L.next p ∈ h :: (l₁ ++ p :: l₂ ++ [e]) := by
  obtain ⟨k₁, a, b, k₂, hold, _⟩ := exists_neighbours (c := h :: (l₁ ++ p :: l₂ ++ [e])) rfl
  rw [hold] at hc ⊢
  unfold Chain at hc
  rw [List.isChain_append_cons_cons, List.isChain_cons_cons] at hc
  obtain ⟨_, ⟨_, hprev⟩, ⟨hnext, _⟩, _⟩ := hc
  rw [hprev, hnext]
  constructor
  · simp
  · simp

/-! ## Writing -/

variable [DecidableEq P]

def Links.setPrev (L : Links P) (p v : P) : Links P := { L with prev := Function.update L.prev p v }

def Links.setNext (L : Links P) (p v : P) : Links P := { L with next := Function.update L.next p v }

section fields

variable (L : Links P) (p v q : P)

@[simp] theorem Links.setPrev_next : (L.setPrev p v).next = L.next := rfl

@[simp] theorem Links.setNext_prev : (L.setNext p v).prev = L.prev := rfl

@[simp] theorem Links.setPrev_self : (L.setPrev p v).prev p = v := Function.update_self _ _ _

@[simp] theorem Links.setNext_self : (L.setNext p v).next p = v := Function.update_self _ _ _

variable {p q}

theorem Links.setPrev_of_ne (h : q ≠ p) : (L.setPrev p v).prev q = L.prev q :=
  Function.update_of_ne h _ _

theorem Links.setNext_of_ne (h : q ≠ p) : (L.setNext p v).next q = L.next q :=
  Function.update_of_ne h _ _

end fields

/-- Put `p` between the neighbours `a` and `b`. -/
def Links.insertBetween (L : Links P) (p a b : P) : Links P :=
  (((L.setPrev b p).setNext p b).setPrev p a).setNext a p

/-- Join the neighbours of `p`; its own links stay. -/
def Links.unlink (L : Links P) (p : P) : Links P :=
  let L₁ := L.setNext (L.prev p) (L.next p)
  L₁.setPrev (L₁.next p) (L₁.prev p)

/-- Let the head `new` take over the list of `old`, which becomes empty. -/
def Links.replaceInit (L : Links P) (old new : P) : Links P :=
  let L₁ := L.setNext new (L.next old)
  let L₂ := L₁.setPrev (L₁.next new) new
  let L₃ := L₂.setPrev new (L₂.prev old)
  let L₄ := L₃.setNext (L₃.prev new) new
  (L₄.setNext old old).setPrev old old

theorem insertBetween_sameOff (L : Links P) (p a b : P) :
    SameOff L (L.insertBetween p a b) [p, a, b] := by
  intro q hq
  simp only [List.mem_cons, List.not_mem_nil, or_false, not_or] at hq
  obtain ⟨hp, ha, hb⟩ := hq
  unfold Links.insertBetween
  constructor
  · rw [Links.setNext_of_ne _ _ ha, Links.setPrev_next, Links.setNext_of_ne _ _ hp,
      Links.setPrev_next]
  · rw [Links.setNext_prev, Links.setPrev_of_ne _ _ hp, Links.setNext_prev,
      Links.setPrev_of_ne _ _ hb]

theorem unlink_next_self (L : Links P) (p : P) :
    (L.setNext (L.prev p) (L.next p)).next p = L.next p := by
  by_cases h : p = L.prev p
  · rw [← h, Links.setNext_self]
  · rw [Links.setNext_of_ne _ _ h]

theorem unlink_sameOff (L : Links P) (p : P) : SameOff L (L.unlink p) [L.prev p, L.next p] := by
  intro q hq
  simp only [List.mem_cons, List.not_mem_nil, or_false, not_or] at hq
  unfold Links.unlink
  constructor
  · rw [Links.setPrev_next, Links.setNext_of_ne _ _ hq.1]
  · simp only [unlink_next_self]
    rw [Links.setPrev_of_ne _ _ hq.2, Links.setNext_prev]

/-- A node put between two neighbours of a chain. -/
theorem Chain.insertBetween {L : Links P} {l₁ l₂ : List P} {a b p : P}
    (h : Chain L (l₁ ++ a :: b :: l₂)) (hs : Simple (l₁ ++ a :: b :: l₂))
    (hp : p ∉ l₁ ++ a :: b :: l₂) :
    Chain (L.insertBetween p a b) (l₁ ++ a :: p :: b :: l₂) := by
  have ha : a ≠ p := by
    rintro rfl
    exact hp (by simp)
  have hb : b ≠ p := by
    rintro rfl
    exact hp (by simp)
  unfold Chain at h
  rw [List.isChain_append_cons_cons] at h
  have hhalves := Chain.halves (N := L.insertBetween p a b) h.1 h.2.2
    (@Simple.apart _ l₁ [] l₂ a b hs) ?_ ?_
  · unfold Chain
    rw [List.isChain_append_cons_cons, List.isChain_cons_cons]
    refine ⟨hhalves.1, ⟨?_, ?_⟩, ⟨?_, ?_⟩, hhalves.2⟩
    · unfold Links.insertBetween
      rw [Links.setNext_self]
    · unfold Links.insertBetween
      rw [Links.setNext_prev, Links.setPrev_self]
    · unfold Links.insertBetween
      rw [Links.setNext_of_ne _ _ ha.symm, Links.setPrev_next, Links.setNext_self]
    · unfold Links.insertBetween
      rw [Links.setNext_prev, Links.setPrev_of_ne _ _ hb, Links.setNext_prev, Links.setPrev_self]
  · intro q hq hqa
    have hqp : q ≠ p := by
      rintro rfl
      exact hp hq
    unfold Links.insertBetween
    rw [Links.setNext_of_ne _ _ hqa, Links.setPrev_next, Links.setNext_of_ne _ _ hqp,
      Links.setPrev_next]
  · intro q hq hqb
    have hqp : q ≠ p := by
      rintro rfl
      exact hp hq
    unfold Links.insertBetween
    rw [Links.setNext_prev, Links.setPrev_of_ne _ _ hqp, Links.setNext_prev,
      Links.setPrev_of_ne _ _ hqb]

/-- A node taken out of a chain. -/
theorem Chain.unlink {L : Links P} {l₁ l₂ : List P} {a b p : P}
    (h : Chain L (l₁ ++ a :: p :: b :: l₂)) (hs : Simple (l₁ ++ a :: p :: b :: l₂)) :
    Chain (L.unlink p) (l₁ ++ a :: b :: l₂) := by
  unfold Chain at h
  rw [List.isChain_append_cons_cons, List.isChain_cons_cons] at h
  obtain ⟨hl, ⟨_, hpa⟩, ⟨hpb, _⟩, hr⟩ := h
  have hnext : ∀ q, (L.unlink p).next q = (L.setNext a b).next q := by
    intro q
    unfold Links.unlink
    rw [Links.setPrev_next, hpa, hpb]
  have hprev : ∀ q, (L.unlink p).prev q = (L.setPrev b a).prev q := by
    intro q
    have hself := unlink_next_self L p
    rw [hpa, hpb] at hself
    unfold Links.unlink
    simp only [hpa, hpb, hself, Links.setNext_prev]
    rfl
  have hhalves := Chain.halves (N := L.unlink p) hl hr (@Simple.apart _ l₁ [p] l₂ a b hs) ?_ ?_
  · unfold Chain
    rw [List.isChain_append_cons_cons]
    refine ⟨hhalves.1, ⟨?_, ?_⟩, hhalves.2⟩
    · rw [hnext, Links.setNext_self]
    · rw [hprev, Links.setPrev_self]
  · intro q _ hqa
    rw [hnext, Links.setNext_of_ne _ _ hqa]
  · intro q _ hqb
    rw [hprev, Links.setPrev_of_ne _ _ hqb]

/-! ## Rings -/

/-- **Insertion at the tail.** -/
theorem Ring.insertTail {L : Links P} {h p : P} {l : List P} (hr : Ring L h l)
    (hn : (h :: l).Nodup) (hp : p ∉ h :: l) : Ring (L.insertBetween p (L.prev h) h) h (l ++ [p]) := by
  obtain ⟨l₁, q, hl⟩ := List.eq_nil_or_concat (h :: l) |>.resolve_left (List.cons_ne_nil _ _)
  rw [List.concat_eq_append] at hl
  rw [hr.prev_eq hl]
  have hs := simple_ring hn
  unfold Ring at hr ⊢
  have hold : h :: (l ++ [h]) = l₁ ++ q :: h :: [] := by
    rw [← List.cons_append, hl]
    simp
  have hnew : h :: ((l ++ [p]) ++ [h]) = l₁ ++ q :: p :: h :: [] := by
    rw [← List.cons_append, ← List.cons_append, hl]
    simp
  rw [hold] at hr hs
  rw [hnew]
  apply hr.insertBetween hs
  intro hmem
  apply hp
  rw [hl]
  simp only [List.mem_append, List.mem_cons, List.not_mem_nil, or_false] at hmem ⊢
  rcases hmem with hmem | rfl | rfl
  · exact Or.inl hmem
  · exact Or.inr rfl
  · rw [← List.mem_singleton, ← List.mem_append, ← hl]
    exact List.mem_cons_self

/-- **Deletion** from a list between two ends, which coincide for a ring. -/
theorem Chain.delete {L : Links P} {l₁ l₂ : List P} {h e p : P}
    (hc : Chain L (h :: (l₁ ++ p :: l₂ ++ [e]))) (hs : Simple (h :: (l₁ ++ p :: l₂ ++ [e]))) :
    Chain (L.unlink p) (h :: (l₁ ++ l₂ ++ [e])) := by
  obtain ⟨k₁, a, b, k₂, hold, hnew⟩ := exists_neighbours (c := h :: (l₁ ++ p :: l₂ ++ [e])) rfl
  rw [hold] at hc hs
  rw [hnew]
  exact hc.unlink hs

theorem replaceInit_eq {L : Links P} {old new x y : P} (hx : L.next old = x) (hy : L.prev old = y)
    (hne : old ≠ x) :
    L.replaceInit old new =
      ((((((L.setNext new x).setPrev x new).setPrev new y).setNext y new).setNext old old).setPrev
        old old) := by
  unfold Links.replaceInit
  simp only [hx, hy, Links.setNext_self, Links.setPrev_self, Links.setPrev_of_ne _ _ hne,
    Links.setNext_prev]

theorem replaceInit_sameOff (L : Links P) (old new : P) :
    SameOff L (L.replaceInit old new) [old, new, L.prev old, L.next old] := by
  intro q hq
  simp only [List.mem_cons, List.not_mem_nil, or_false, not_or] at hq
  obtain ⟨hold, hnew, hprev, hnext⟩ := hq
  by_cases hx : old = L.next old
  · -- an empty list: the old head's own links are the ones redirected
    unfold Links.replaceInit
    simp only [Links.setNext_self, Links.setPrev_self, ← hx]
    constructor
    · rw [Links.setPrev_next, Links.setNext_of_ne _ _ hold, Links.setNext_of_ne _ _ hnew,
        Links.setPrev_next, Links.setPrev_next, Links.setNext_of_ne _ _ hnew]
    · rw [Links.setPrev_of_ne _ _ hold, Links.setNext_prev, Links.setNext_prev,
        Links.setPrev_of_ne _ _ hnew, Links.setPrev_of_ne _ _ hold, Links.setNext_prev]
  · rw [replaceInit_eq rfl rfl hx]
    constructor
    · rw [Links.setPrev_next, Links.setNext_of_ne _ _ hold, Links.setNext_of_ne _ _ hprev,
        Links.setPrev_next, Links.setPrev_next, Links.setNext_of_ne _ _ hnew]
    · rw [Links.setPrev_of_ne _ _ hold, Links.setNext_prev, Links.setNext_prev,
        Links.setPrev_of_ne _ _ hnew, Links.setPrev_of_ne _ _ hnext, Links.setNext_prev]

/-- **Taking over**: the new head has the old head's list, and the old head an empty one. -/
theorem Ring.replaceInit {L : Links P} {old new : P} {l : List P} (hr : Ring L old l)
    (hn : (old :: l).Nodup) (hnew : new ∉ old :: l) :
    Ring (L.replaceInit old new) new l ∧ Ring (L.replaceInit old new) old [] := by
  rw [List.mem_cons, not_or] at hnew
  obtain ⟨hne, hnl⟩ := hnew
  have hold : Ring (L.replaceInit old new) old [] := by
    unfold Ring Chain Links.replaceInit
    rw [List.nil_append, List.isChain_pair]
    constructor
    · rw [Links.setPrev_next, Links.setNext_self]
    · rw [Links.setPrev_self]
  refine ⟨?_, hold⟩
  by_cases hl : l = []
  · -- an empty list: the links of the old head are redirected to the new head
    subst hl
    obtain ⟨hnext, hprev⟩ := List.isChain_pair.1 hr
    unfold Ring Chain Links.replaceInit
    rw [List.nil_append, List.isChain_pair]
    simp only [hnext, Links.setNext_self, Links.setPrev_self]
    constructor
    · rw [Links.setPrev_next, Links.setNext_of_ne _ _ hne, Links.setNext_self]
    · rw [Links.setPrev_of_ne _ _ hne, Links.setNext_prev, Links.setNext_prev, Links.setPrev_self]
  · obtain ⟨⟨hnext, _⟩, hchain, _, hprev⟩ := (ring_iff hl).1 hr
    have hfirst : l.head hl ∈ l := List.head_mem hl
    have hlast : l.getLast hl ∈ l := List.getLast_mem hl
    have hold' : ∀ q ∈ l, q ≠ old := by
      rintro q hq rfl
      exact (List.nodup_cons.1 hn).1 hq
    have hnew' : ∀ q ∈ l, q ≠ new := by
      rintro q hq rfl
      exact hnl hq
    rw [replaceInit_eq hnext hprev (hold' _ hfirst).symm]
    refine (ring_iff hl).2 ⟨⟨?_, ?_⟩, ?_, ?_, ?_⟩
    · rw [Links.setPrev_next, Links.setNext_of_ne _ _ hne,
        Links.setNext_of_ne _ _ (hnew' _ hlast).symm, Links.setPrev_next, Links.setPrev_next,
        Links.setNext_self]
    · rw [Links.setPrev_of_ne _ _ (hold' _ hfirst), Links.setNext_prev, Links.setNext_prev,
        Links.setPrev_of_ne _ _ (hnew' _ hfirst), Links.setPrev_self]
    · apply hchain.congr
      · intro q hq
        have hmem := List.mem_of_mem_dropLast hq
        have hqlast : q ≠ l.getLast hl := by
          rintro rfl
          exact getLast_notMem_dropLast hl (List.nodup_cons.1 hn).2 hq
        rw [Links.setPrev_next, Links.setNext_of_ne _ _ (hold' q hmem),
          Links.setNext_of_ne _ _ hqlast, Links.setPrev_next, Links.setPrev_next,
          Links.setNext_of_ne _ _ (hnew' q hmem)]
      · intro q hq
        have hmem := List.mem_of_mem_tail hq
        have hqfirst : q ≠ l.head hl := by
          rintro rfl
          exact head_notMem_tail hl (List.nodup_cons.1 hn).2 hq
        rw [Links.setPrev_of_ne _ _ (hold' q hmem), Links.setNext_prev, Links.setNext_prev,
          Links.setPrev_of_ne _ _ (hnew' q hmem), Links.setPrev_of_ne _ _ hqfirst,
          Links.setNext_prev]
    · rw [Links.setPrev_next, Links.setNext_of_ne _ _ (hold' _ hlast), Links.setNext_self]
    · rw [Links.setPrev_of_ne _ _ hne, Links.setNext_prev, Links.setNext_prev, Links.setPrev_self]

end Rings
