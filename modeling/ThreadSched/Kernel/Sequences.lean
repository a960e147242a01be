import ThreadSched.Kernel.List

/-!
# Intrusive lists as sequences

Any number of lists live in one heap.

* `Holds` — every list that has been initialised is well formed and holds its sequence of elements;
  no node is in two lists.
* `ListOp` — what a list is used for, and what each use is meant to do to the sequences.
* `ListOp.run_refines`, `runListOps_refines` — one use, and any sequence of them, does that, and
  leaves the other lists alone.
* `WellFormed.elemFind_eq`, `WellFormed.listTraversal_eq`, `WellFormed.listLen_eq` — what the walks
  return.
-/

set_option autoImplicit false

namespace ThreadSched.IntrusiveList

open Rings

variable {P ι : Type}

/-! ## Lists and their sequences -/

def Plist.nodes (plist : Plist P) (l : List P) : List P := plist.head :: (l ++ [plist.tail])

/-- The list holds `l`: neighbours point at each other, and the sentinels end in `NULL`. -/
structure WellFormed (null : P) (L : Links P) (plist : Plist P) (l : List P) : Prop where
  chain : Chain L (plist.nodes l)
  front : L.prev plist.head = null
  back : L.next plist.tail = null

/-- The nodes of a list; one that is not initialised has its sentinels only. -/
def nodesAt (ls : ι → Plist P) (seq : ι → Option (List P)) (i : ι) : List P :=
  (ls i).nodes ((seq i).getD [])

/-- **The heap holds the sequences.** -/
structure Holds (null : P) (ls : ι → Plist P) (seq : ι → Option (List P)) (L : Links P) : Prop where
  wellFormed : ∀ i l, seq i = some l → WellFormed null L (ls i) l
  nodup : ∀ i, (nodesAt ls seq i).Nodup
  notNull : ∀ i, null ∉ nodesAt ls seq i
  apart : ∀ i j, i ≠ j → ∀ p ∈ nodesAt ls seq i, p ∉ nodesAt ls seq j

/-- One use of a list. -/
inductive ListOp (P ι : Type)
  | init (i : ι)
  | push (i : ι) (elem : P)
  | append (i : ι) (elem : P)
  | remove (pelem : P)
  | pop (i : ι)

section

variable [DecidableEq P] [DecidableEq ι]

/-- What it is for. -/
def ListOp.apply (seq : ι → Option (List P)) : ListOp P ι → ι → Option (List P)
  | .init i => Function.update seq i (some [])
  | .push i elem => Function.update seq i ((seq i).map fun l => elem :: l)
  | .append i elem => Function.update seq i ((seq i).map fun l => l ++ [elem])
  | .remove pelem => fun j => (seq j).map fun l => l.erase pelem
  | .pop i => Function.update seq i ((seq i).map List.tail)

/-- When a list may be used: `init` at any time, the others on initialised lists, with a node of no
list or of some list, or on a list that is not empty. -/
def ListOp.Enabled (null : P) (ls : ι → Plist P) (seq : ι → Option (List P)) : ListOp P ι → Prop
  | .init _ => True
  | .push i elem => (∃ l, seq i = some l) ∧ elem ≠ null ∧ ∀ j, elem ∉ nodesAt ls seq j
  | .append i elem => (∃ l, seq i = some l) ∧ elem ≠ null ∧ ∀ j, elem ∉ nodesAt ls seq j
  | .remove pelem => ∃ i l, seq i = some l ∧ pelem ∈ l
  | .pop i => ∃ elem l, seq i = some (elem :: l)

/-- The list it is made on. -/
def ListOp.On (seq : ι → Option (List P)) : ListOp P ι → ι → Prop
  | .init i, j => j = i
  | .push i _, j => j = i
  | .append i _, j => j = i
  | .remove pelem, j => pelem ∈ (seq j).getD []
  | .pop i, j => j = i

def ListOp.run (null : P) (ls : ι → Plist P) (L : Links P) : ListOp P ι → Option (Links P)
  | .init i => some (listInit null (ls i) L)
  | .push i elem => listPush null (ls i) elem L
  | .append i elem => listAppend null (ls i) elem L
  | .remove pelem => listRemove null pelem L
  | .pop i => (listPop null (ls i) L).map Prod.snd

def runListOps (null : P) (ls : ι → Plist P) (L : Links P) (ops : List (ListOp P ι)) :
    Option (Links P) :=
  ops.foldlM (fun L op => op.run null ls L) L

/-- A sequence of uses, each allowed when it comes. -/
def EnabledListOps (null : P) (ls : ι → Plist P) :
    (ι → Option (List P)) → List (ListOp P ι) → Prop
  | _, [] => True
  | seq, op :: ops => op.Enabled null ls seq ∧ EnabledListOps null ls (op.apply seq) ops

end

/-! ## The edits -/

variable {null : P} {plist : Plist P} {L L' : Links P} {l : List P}

theorem WellFormed.linked {l₁ l₂ : List P} {a b : P} (h : WellFormed null L plist l)
    (hnodes : plist.nodes l = l₁ ++ a :: b :: l₂) : L.next a = b ∧ L.prev b = a := by
  have hchain := h.chain
  rw [hnodes, Chain, List.isChain_append_cons_cons] at hchain
  exact hchain.2.1

theorem WellFormed.frame (h : WellFormed null L plist l)
    (hsame : ∀ q ∈ plist.nodes l, L'.next q = L.next q ∧ L'.prev q = L.prev q) :
    WellFormed null L' plist l where
  chain := by
    apply h.chain.congr
    · intro q hq
      exact (hsame q (List.mem_of_mem_dropLast hq)).1
    · intro q hq
      exact (hsame q (List.mem_of_mem_tail hq)).2
  front := by
    rw [(hsame plist.head (by simp [Plist.nodes])).2]
    exact h.front
  back := by
    rw [(hsame plist.tail (by simp [Plist.nodes])).1]
    exact h.back

theorem simple_of_nodes {c : List P} (hn : c.Nodup) : Simple c :=
  ⟨hn.sublist (List.dropLast_sublist c), hn.sublist (List.tail_sublist c)⟩

/-- The first sentinel is not the right one of two nodes, nor the last one the left. -/
theorem sentinels_ne {l₁ m l₂ : List P} {a b : P} (hn : (plist.nodes l).Nodup)
    (hnodes : plist.nodes l = l₁ ++ a :: (m ++ b :: l₂)) : plist.head ≠ b ∧ plist.tail ≠ a := by
  have hs := simple_of_nodes hn
  rw [hnodes] at hs
  obtain ⟨⟨_, ha⟩, hb, _⟩ := hs.apart
  constructor
  · rintro rfl
    have htail : plist.head ∈ (plist.nodes l).tail := by
      rw [hnodes]
      cases l₁ with
      | nil => simp
      | cons c l₁ => simp
    exact (List.nodup_cons.1 hn).1 htail
  · rintro rfl
    have hlast : (plist.nodes l).getLast? = some plist.tail := by
      rw [Plist.nodes, ← List.cons_append, List.getLast?_concat]
    have hmem : plist.tail ∈ m ++ b :: l₂ := by
      apply List.mem_of_getLast?
      rw [hnodes, List.getLast?_append, List.getLast?_cons_of_ne_nil (by simp)] at hlast
      simpa using hlast
    rw [hnodes] at hn
    exact (List.nodup_cons.1 (List.nodup_append.1 hn).2.1).1 hmem

variable [DecidableEq P]

theorem listInit_sameOff (plist : Plist P) (L : Links P) :
    SameOff L (listInit null plist L) [plist.head, plist.tail] := by
  intro q hq
  simp only [List.mem_cons, List.not_mem_nil, or_false, not_or] at hq
  obtain ⟨hhead, htail⟩ := hq
  unfold listInit
  constructor
  · rw [Links.setNext_of_ne _ _ htail, Links.setPrev_next, Links.setNext_of_ne _ _ hhead,
      Links.setPrev_next]
  · rw [Links.setNext_prev, Links.setPrev_of_ne _ _ htail, Links.setNext_prev,
      Links.setPrev_of_ne _ _ hhead]

theorem wellFormed_listInit (hne : plist.head ≠ plist.tail) :
    WellFormed null (listInit null plist L) plist [] where
  chain := by
    unfold Plist.nodes Chain listInit
    rw [List.nil_append, List.isChain_pair]
    constructor
    · rw [Links.setNext_of_ne _ _ hne, Links.setPrev_next, Links.setNext_self]
    · rw [Links.setNext_prev, Links.setPrev_self]
  front := by
    unfold listInit
    rw [Links.setNext_prev, Links.setPrev_of_ne _ _ hne, Links.setNext_prev, Links.setPrev_self]
  back := by
    unfold listInit
    rw [Links.setNext_self]

theorem listInsertBefore_eq {before elem a : P} (ha : L.prev before = a) (hbefore : before ≠ null)
    (hanull : a ≠ null) (helem : elem ≠ null) (hea : elem ≠ a) (heb : elem ≠ before) :
    listInsertBefore null before elem L = some (L.insertBetween elem a before) := by
  have hnext : Function.update (Function.update L.next a elem) elem before =
      Function.update (Function.update L.next elem before) a elem := Function.update_comm hea.symm _ _ _
  have hprev : Function.update (Function.update L.prev elem a) before elem =
      Function.update (Function.update L.prev before elem) elem a := Function.update_comm heb _ _ _
  simp only [listInsertBefore, deref, if_neg hbefore, ha, if_neg hanull, if_neg helem,
    Links.setNext_prev, Option.bind_eq_bind, Option.bind_some, Option.pure_def, Option.some_inj]
  unfold Links.insertBetween Links.setNext Links.setPrev
  simp only [hnext, hprev]

/-- `list_remove` joins the neighbours. -/
theorem listRemove_eq {pelem a b : P} (ha : L.prev pelem = a) (hb : L.next pelem = b)
    (hne : pelem ≠ null) (hanull : a ≠ null) (hbnull : b ≠ null) :
    listRemove null pelem L = some (L.unlink pelem) := by
  have hself := unlink_next_self L pelem
  rw [ha, hb] at hself
  simp only [listRemove, deref, if_neg hne, ha, hb, if_neg hanull, hself, if_neg hbnull,
    Links.setNext_prev, Option.bind_eq_bind, Option.bind_some, Option.pure_def, Option.some_inj]
  unfold Links.unlink
  simp only [ha, hb, hself, Links.setNext_prev]

variable {l₁ l₂ : List P} {a b p : P}

/-- A new node between two neighbours of a list. -/
theorem WellFormed.insertBetween {new : List P} (h : WellFormed null L plist l)
    (hn : (plist.nodes l).Nodup) (hp : p ∉ plist.nodes l)
    (hnodes : plist.nodes l = l₁ ++ a :: b :: l₂)
    (hnew : plist.nodes new = l₁ ++ a :: p :: b :: l₂) :
    WellFormed null (L.insertBetween p a b) plist new := by
  obtain ⟨hhead, htail⟩ := @sentinels_ne _ _ _ l₁ [] l₂ a b hn hnodes
  have hphead : plist.head ≠ p := by
    rintro rfl
    exact hp (by simp [Plist.nodes])
  have hptail : plist.tail ≠ p := by
    rintro rfl
    exact hp (by simp [Plist.nodes])
  constructor
  · have hchain := h.chain
    have hs := simple_of_nodes hn
    rw [hnodes] at hchain hs hp
    rw [hnew]
    exact hchain.insertBetween hs hp
  · unfold Links.insertBetween
    rw [Links.setNext_prev, Links.setPrev_of_ne _ _ hphead, Links.setNext_prev,
      Links.setPrev_of_ne _ _ hhead]
    exact h.front
  · unfold Links.insertBetween
    rw [Links.setNext_of_ne _ _ htail, Links.setPrev_next, Links.setNext_of_ne _ _ hptail,
      Links.setPrev_next]
    exact h.back

/-- A node of a list taken out. -/
theorem WellFormed.unlink {new : List P} (h : WellFormed null L plist l)
    (hn : (plist.nodes l).Nodup) (hnodes : plist.nodes l = l₁ ++ a :: p :: b :: l₂)
    (hnew : plist.nodes new = l₁ ++ a :: b :: l₂) : WellFormed null (L.unlink p) plist new := by
  obtain ⟨hhead, htail⟩ := @sentinels_ne _ _ _ l₁ [p] l₂ a b hn hnodes
  have hprev := (h.linked hnodes).2
  have hnext := (@WellFormed.linked _ _ _ _ _ (l₁ ++ [a]) l₂ p b h (by simp [hnodes])).1
  have hself := unlink_next_self L p
  rw [hprev, hnext] at hself
  constructor
  · have hchain := h.chain
    have hs := simple_of_nodes hn
    rw [hnodes] at hchain hs
    rw [hnew]
    exact hchain.unlink hs
  · unfold Links.unlink
    simp only [hprev, hnext, hself, Links.setNext_prev]
    rw [Links.setPrev_of_ne _ _ hhead, Links.setNext_prev]
    exact h.front
  · unfold Links.unlink
    simp only [hprev, hnext, Links.setPrev_next]
    rw [Links.setNext_of_ne _ _ htail]
    exact h.back

/-! ## The heap -/

variable {ls : ι → Plist P} {seq : ι → Option (List P)} {i : ι} {new : List P}

omit [DecidableEq P] in
theorem nodesAt_eq (hseq : seq i = some l) : nodesAt ls seq i = (ls i).nodes l := by
  rw [nodesAt, hseq, Option.getD_some]

/-- The list `i` holds `new` after an edit that wrote to no node of another list. -/
structure Edit (null : P) (ls : ι → Plist P) (seq : ι → Option (List P)) (L : Links P) (i : ι)
    (new : List P) (L' : Links P) : Prop where
  wellFormed : WellFormed null L' (ls i) new
  nodup : ((ls i).nodes new).Nodup
  notNull : null ∉ (ls i).nodes new
  apart : ∀ j, j ≠ i → ∀ q ∈ (ls i).nodes new, q ∉ nodesAt ls seq j
  frame : ∀ j, j ≠ i → ∀ q ∈ nodesAt ls seq j, L'.next q = L.next q ∧ L'.prev q = L.prev q

omit [DecidableEq P] in
/-- **Separation.**  An edit of one list keeps the heap well formed. -/
theorem Edit.holds [DecidableEq ι] (he : Edit null ls seq L i new L') (h : Holds null ls seq L) :
    Holds null ls (Function.update seq i (some new)) L' := by
  have hself : nodesAt ls (Function.update seq i (some new)) i = (ls i).nodes new :=
    nodesAt_eq (Function.update_self _ _ _)
  have hother : ∀ j, j ≠ i →
      nodesAt ls (Function.update seq i (some new)) j = nodesAt ls seq j := by
    intro j hj
    rw [nodesAt, Function.update_of_ne hj, nodesAt]
  constructor
  · intro j l hl
    by_cases hj : j = i
    · subst hj
      rw [Function.update_self, Option.some_inj] at hl
      exact hl ▸ he.wellFormed
    · rw [Function.update_of_ne hj] at hl
      apply (h.wellFormed j l hl).frame
      rw [← nodesAt_eq hl]
      exact he.frame j hj
  · intro j
    by_cases hj : j = i
    · rw [hj, hself]
      exact he.nodup
    · rw [hother j hj]
      exact h.nodup j
  · intro j
    by_cases hj : j = i
    · rw [hj, hself]
      exact he.notNull
    · rw [hother j hj]
      exact h.notNull j
  · intro j k hjk q hq
    by_cases hj : j = i
    · subst hj
      rw [hself] at hq
      rw [hother k (Ne.symm hjk)]
      exact he.apart k (Ne.symm hjk) q hq
    · rw [hother j hj] at hq
      by_cases hk : k = i
      · subst hk
        rw [hself]
        intro hmem
        exact he.apart j hj q hmem hq
      · rw [hother k hk]
        exact h.apart j k hjk q hq

omit [DecidableEq P] in
/-- A list whose nodes are among the old ones, after an edit of the old ones. -/
theorem Holds.edit_of_subset {S : List P} (h : Holds null ls seq L)
    (hwf : WellFormed null L' (ls i) new) (hnodup : ((ls i).nodes new).Nodup)
    (hsub : ∀ q ∈ (ls i).nodes new, q ∈ nodesAt ls seq i) (hsame : SameOff L L' S)
    (hS : ∀ q ∈ S, q ∈ nodesAt ls seq i) : Edit null ls seq L i new L' where
  wellFormed := hwf
  nodup := hnodup
  notNull := by
    intro hmem
    exact h.notNull i (hsub null hmem)
  apart := by
    intro j hj q hq
    exact h.apart i j (Ne.symm hj) q (hsub q hq)
  frame := by
    intro j hj q hq
    apply hsame
    intro hmem
    exact h.apart j i hj q hq (hS q hmem)

/-- `list_init`. -/
theorem Holds.init (h : Holds null ls seq L) (i : ι) :
    Edit null ls seq L i [] (listInit null (ls i) L) := by
  have hn := h.nodup i
  have hsub : ∀ q ∈ (ls i).nodes [], q ∈ nodesAt ls seq i := by
    intro q hq
    simp only [Plist.nodes, nodesAt, List.nil_append, List.mem_cons, List.not_mem_nil, or_false,
      List.mem_append] at hq ⊢
    tauto
  have hne : (ls i).head ≠ (ls i).tail := by
    intro heq
    apply (List.nodup_cons.1 hn).1
    rw [heq]
    simp
  refine h.edit_of_subset (wellFormed_listInit hne) ?_ hsub (listInit_sameOff (ls i) L) hsub
  simpa [Plist.nodes] using hne

/-- A node of no list, put between two neighbours. -/
theorem Holds.insert (h : Holds null ls seq L) (hseq : seq i = some l) (hp : p ≠ null)
    (hfree : ∀ j, p ∉ nodesAt ls seq j) (hnodes : (ls i).nodes l = l₁ ++ a :: b :: l₂)
    (hnew : (ls i).nodes new = l₁ ++ a :: p :: b :: l₂) :
    ∃ L', listInsertBefore null b p L = some L' ∧ Edit null ls seq L i new L' := by
  have hwf := h.wellFormed i l hseq
  have hn := h.nodup i
  have hnull := h.notNull i
  have hpi := hfree i
  have hapart := h.apart i
  rw [nodesAt_eq hseq] at hn hnull hpi hapart
  have hmem : ∀ q, q ∈ (ls i).nodes new ↔ q = p ∨ q ∈ (ls i).nodes l := by
    intro q
    rw [hnew, hnodes]
    simp only [List.mem_append, List.mem_cons]
    tauto
  have ha : a ∈ (ls i).nodes l := by simp [hnodes]
  have hb : b ∈ (ls i).nodes l := by simp [hnodes]
  have hne : ∀ q ∈ (ls i).nodes l, q ≠ null ∧ p ≠ q := by
    intro q hq
    constructor
    · rintro rfl
      exact hnull hq
    · rintro rfl
      exact hpi hq
  refine ⟨L.insertBetween p a b, ?_, ?_⟩
  · exact listInsertBefore_eq (hwf.linked hnodes).2 (hne b hb).1 (hne a ha).1 hp (hne a ha).2
      (hne b hb).2
  · constructor
    · exact hwf.insertBetween hn hpi hnodes hnew
    · rw [hnodes] at hn hpi
      rw [hnew, List.append_cons, List.nodup_middle, List.nodup_cons, ← List.append_cons]
      exact ⟨hpi, hn⟩
    · rw [hmem]
      rintro (heq | hmem)
      · exact hp heq.symm
      · exact hnull hmem
    · intro j hj q hq
      rcases (hmem q).1 hq with rfl | hq
      · exact hfree j
      · exact hapart j (Ne.symm hj) q hq
    · intro j hj q hq
      apply insertBetween_sameOff
      simp only [List.mem_cons, List.not_mem_nil, or_false, not_or]
      refine ⟨?_, ?_, ?_⟩
      · rintro rfl
        exact hfree j hq
      · rintro rfl
        exact hapart j (Ne.symm hj) q ha hq
      · rintro rfl
        exact hapart j (Ne.symm hj) q hb hq

/-- `list_remove` of a linked node. -/
theorem Holds.remove (h : Holds null ls seq L) (hseq : seq i = some (l₁ ++ p :: l₂)) :
    ∃ L', listRemove null p L = some L' ∧ Edit null ls seq L i (l₁ ++ l₂) L' := by
  have hwf := h.wellFormed i _ hseq
  have hn := h.nodup i
  have hnull := h.notNull i
  rw [nodesAt_eq hseq] at hn hnull
  obtain ⟨k₁, a, b, k₂, hnodes, hnew⟩ := @exists_neighbours _ _ l₁ l₂ (ls i).head (ls i).tail p rfl
  have hnodes : (ls i).nodes (l₁ ++ p :: l₂) = k₁ ++ a :: p :: b :: k₂ := hnodes
  have hnew : (ls i).nodes (l₁ ++ l₂) = k₁ ++ a :: b :: k₂ := hnew
  have hprev := (hwf.linked hnodes).2
  have hnext := (@WellFormed.linked _ _ _ _ _ (k₁ ++ [a]) k₂ p b hwf (by simp [hnodes])).1
  have hmem : ∀ q, q ∈ [a, p, b] → q ∈ (ls i).nodes (l₁ ++ p :: l₂) := by
    intro q hq
    rw [hnodes]
    simp only [List.mem_cons, List.not_mem_nil, or_false, List.mem_append] at hq ⊢
    tauto
  have hne : ∀ q, q ∈ [a, p, b] → q ≠ null := by
    rintro q hq rfl
    exact hnull (hmem q hq)
  refine ⟨L.unlink p, ?_, ?_⟩
  · exact listRemove_eq hprev hnext (hne p (by simp)) (hne a (by simp)) (hne b (by simp))
  · refine h.edit_of_subset (hwf.unlink hn hnodes hnew) ?_ ?_ (unlink_sameOff L p) ?_
    · refine List.Nodup.sublist ?_ hn
      rw [hnodes, hnew]
      simp
    · intro q hq
      rw [nodesAt_eq hseq, hnodes]
      rw [hnew] at hq
      simp only [List.mem_cons, List.mem_append] at hq ⊢
      tauto
    · rw [hprev, hnext, nodesAt_eq hseq]
      intro q hq
      apply hmem
      simp only [List.mem_cons, List.not_mem_nil, or_false] at hq ⊢
      tauto

/-! ## One use -/

theorem listPush_eq {rest : List P} (h : WellFormed null L plist l)
    (hnodes : plist.nodes l = plist.head :: b :: rest) :
    listPush null plist p L = listInsertBefore null b p L := by
  rw [listPush, (@WellFormed.linked _ _ _ _ _ [] rest plist.head b h hnodes).1]

/-- A use that is allowed edits the list it is made on. -/
theorem ListOp.exists_edit [DecidableEq ι] (op : ListOp P ι) (h : Holds null ls seq L)
    (henabled : op.Enabled null ls seq) :
    ∃ i new L', op.On seq i ∧ op.run null ls L = some L' ∧
      op.apply seq = Function.update seq i (some new) ∧ Edit null ls seq L i new L' := by
  cases op with
  | init i => exact ⟨i, [], _, rfl, rfl, rfl, h.init i⟩
  | push i elem =>
      obtain ⟨⟨l, hseq⟩, helem, hfree⟩ := henabled
      obtain ⟨b, rest, hb⟩ := List.exists_cons_of_ne_nil (l := l ++ [(ls i).tail]) (by simp)
      have hnodes : (ls i).nodes l = (ls i).head :: b :: rest := by rw [Plist.nodes, hb]
      have hnew : (ls i).nodes (elem :: l) = (ls i).head :: elem :: b :: rest := by
        rw [Plist.nodes, List.cons_append, hb]
      obtain ⟨L', hrun, hedit⟩ :=
        @Holds.insert _ _ _ _ _ _ [] rest (ls i).head b elem _ _ i _ h hseq helem hfree hnodes hnew
      refine ⟨i, elem :: l, L', rfl, ?_, ?_, hedit⟩
      · rw [ListOp.run, listPush_eq (h.wellFormed i l hseq) hnodes, hrun]
      · rw [ListOp.apply, hseq, Option.map_some]
  | append i elem =>
      obtain ⟨⟨l, hseq⟩, helem, hfree⟩ := henabled
      obtain ⟨k, a, ha⟩ := List.eq_nil_or_concat ((ls i).head :: l) |>.resolve_left
        (List.cons_ne_nil _ _)
      rw [List.concat_eq_append] at ha
      have hnodes : (ls i).nodes l = k ++ a :: (ls i).tail :: [] := by
        rw [Plist.nodes, ← List.cons_append, ha]
        simp
      have hnew : (ls i).nodes (l ++ [elem]) = k ++ a :: elem :: (ls i).tail :: [] := by
        rw [Plist.nodes, ← List.cons_append, ← List.cons_append, ha]
        simp
      obtain ⟨L', hrun, hedit⟩ := h.insert hseq helem hfree hnodes hnew
      refine ⟨i, l ++ [elem], L', rfl, hrun, ?_, hedit⟩
      rw [ListOp.apply, hseq, Option.map_some]
  | remove pelem =>
      obtain ⟨i, l, hseq, hmem⟩ := henabled
      obtain ⟨l₁, l₂, _, hl, herase⟩ := List.exists_erase_eq hmem
      subst hl
      obtain ⟨L', hrun, hedit⟩ := h.remove hseq
      refine ⟨i, l₁ ++ l₂, L', ?_, hrun, ?_, hedit⟩
      · rw [ListOp.On, hseq]
        exact hmem
      · funext j
        change (seq j).map (fun l => l.erase pelem) = _
        by_cases hj : j = i
        · rw [hj, hseq, Function.update_self, Option.map_some, herase]
        · -- the node is in no other list
          rw [Function.update_of_ne hj]
          cases hl : seq j with
          | none => rfl
          | some l =>
              have hin : pelem ∈ nodesAt ls seq i := by
                rw [nodesAt_eq hseq]
                simp [Plist.nodes]
              have hout := h.apart i j (Ne.symm hj) pelem hin
              rw [nodesAt_eq hl] at hout
              rw [Option.map_some, List.erase_of_not_mem]
              intro hmem
              exact hout (by simp [Plist.nodes, hmem])
  | pop i =>
      obtain ⟨elem, l, hseq⟩ := henabled
      obtain ⟨L', hrun, hedit⟩ := @Holds.remove _ _ _ _ _ [] l elem _ _ i h hseq
      have hfirst := (@WellFormed.linked _ _ _ _ _ [] (l ++ [(ls i).tail]) (ls i).head elem
        (h.wellFormed i _ hseq) rfl).1
      refine ⟨i, l, L', rfl, ?_, ?_, hedit⟩
      · simp only [ListOp.run, listPop, hfirst, hrun, Option.bind_eq_bind, Option.bind_some,
          Option.pure_def, Option.map_some]
      · rw [ListOp.apply, hseq, Option.map_some, List.tail_cons]

/-- **One use** does to the sequences what it says, and leaves the other lists alone. -/
theorem ListOp.run_refines [DecidableEq ι] (op : ListOp P ι) (h : Holds null ls seq L)
    (henabled : op.Enabled null ls seq) :
    ∃ L', op.run null ls L = some L' ∧ Holds null ls (op.apply seq) L' ∧
      ∀ j, ¬ op.On seq j → op.apply seq j = seq j ∧
        ∀ q ∈ nodesAt ls seq j, L'.next q = L.next q ∧ L'.prev q = L.prev q := by
  obtain ⟨i, new, L', hon, hrun, happly, hedit⟩ := op.exists_edit h henabled
  refine ⟨L', hrun, ?_, ?_⟩
  · rw [happly]
    exact hedit.holds h
  · intro j hj
    have hji : j ≠ i := by
      rintro rfl
      exact hj hon
    constructor
    · rw [happly, Function.update_of_ne hji]
    · exact hedit.frame j hji

/-- **Any sequence of uses.** -/
theorem runListOps_refines [DecidableEq ι] (ops : List (ListOp P ι)) (h : Holds null ls seq L)
    (henabled : EnabledListOps null ls seq ops) :
    ∃ L', runListOps null ls L ops = some L' ∧ Holds null ls (ops.foldl ListOp.apply seq) L' := by
  induction ops generalizing seq L with
  | nil => exact ⟨L, rfl, h⟩
  | cons op ops ih =>
      obtain ⟨hop, hops⟩ := henabled
      obtain ⟨next, hrun, hnext, -⟩ := op.run_refines h hop
      obtain ⟨last, hlast, hholds⟩ := ih hnext hops
      refine ⟨last, ?_, hholds⟩
      unfold runListOps at hlast ⊢
      rw [List.foldlM_cons, hrun]
      exact hlast

/-! ## What the lists are read for -/

omit [DecidableEq P] in
/-- The first node after the first sentinel. -/
theorem WellFormed.first (h : WellFormed null L plist l) :
    (l ++ [plist.tail]).head? = some (L.next plist.head) := by
  obtain ⟨b, rest, hb⟩ := List.exists_cons_of_ne_nil (l := l ++ [plist.tail]) (by simp)
  have hnodes : plist.nodes l = plist.head :: b :: rest := by rw [Plist.nodes, hb]
  rw [hb, List.head?_cons, (@WellFormed.linked _ _ _ _ _ [] rest plist.head b h hnodes).1]

omit [DecidableEq P] in
/-- The node after an element. -/
theorem next_of_chain {x tail : P} (hc : Chain L (x :: (l ++ [tail]))) :
    Chain L (l ++ [tail]) ∧ (l ++ [tail]).head? = some (L.next x) := by
  refine ⟨hc.of_cons, ?_⟩
  obtain ⟨b, rest, hb⟩ := List.exists_cons_of_ne_nil (l := l ++ [tail]) (by simp)
  rw [hb] at hc ⊢
  rw [List.head?_cons, hc.next_head]

section walks

variable {tail elem : P} {fuel : Nat}

/-- The three walks go along what is left of the list. -/
theorem elemFindFrom_eq (obj : P) (hc : Chain L (l ++ [tail])) (htail : tail ∉ l) (hnull : null ∉ l)
    (hstart : (l ++ [tail]).head? = some elem) (hfuel : l.length < fuel) :
    elemFindFrom null L tail obj fuel elem = some (decide (obj ∈ l)) := by
  induction l generalizing elem fuel with
  | nil =>
      obtain ⟨fuel, rfl⟩ := Nat.exists_eq_succ_of_ne_zero (Nat.ne_of_gt hfuel)
      rw [List.nil_append, List.head?_cons, Option.some_inj] at hstart
      simp [elemFindFrom, hstart]
  | cons x l ih =>
      obtain ⟨fuel, rfl⟩ := Nat.exists_eq_succ_of_ne_zero (Nat.ne_of_gt (Nat.zero_lt_of_lt hfuel))
      rw [List.cons_append, List.head?_cons, Option.some_inj] at hstart
      subst hstart
      rw [List.mem_cons, not_or] at htail hnull
      obtain ⟨hrest, hnext⟩ := next_of_chain hc
      rw [elemFindFrom, if_neg (Ne.symm htail.1)]
      by_cases hobj : x = obj
      · rw [if_pos hobj]
        simp [hobj]
      · rw [if_neg hobj, deref, if_neg (Ne.symm hnull.1), Option.bind_eq_bind, Option.bind_some,
          ih hrest htail.2 hnull.2 hnext (Nat.lt_of_succ_lt_succ hfuel)]
        simp [Ne.symm hobj]

theorem listTraversalFrom_eq (func : P → Int → Bool) (arg : Int) (hc : Chain L (l ++ [tail]))
    (htail : tail ∉ l) (hnull : null ∉ l) (hstart : (l ++ [tail]).head? = some elem)
    (hfuel : l.length < fuel) :
    listTraversalFrom null L tail func arg fuel elem =
      some ((l.find? fun x => func x arg).getD null) := by
  induction l generalizing elem fuel with
  | nil =>
      obtain ⟨fuel, rfl⟩ := Nat.exists_eq_succ_of_ne_zero (Nat.ne_of_gt hfuel)
      rw [List.nil_append, List.head?_cons, Option.some_inj] at hstart
      simp [listTraversalFrom, hstart]
  | cons x l ih =>
      obtain ⟨fuel, rfl⟩ := Nat.exists_eq_succ_of_ne_zero (Nat.ne_of_gt (Nat.zero_lt_of_lt hfuel))
      rw [List.cons_append, List.head?_cons, Option.some_inj] at hstart
      subst hstart
      rw [List.mem_cons, not_or] at htail hnull
      obtain ⟨hrest, hnext⟩ := next_of_chain hc
      rw [listTraversalFrom, if_neg (Ne.symm htail.1)]
      cases hfunc : func x arg with
      | true => simp [hfunc]
      | false =>
          rw [if_neg Bool.false_ne_true, deref, if_neg (Ne.symm hnull.1), Option.bind_eq_bind,
            Option.bind_some, ih hrest htail.2 hnull.2 hnext (Nat.lt_of_succ_lt_succ hfuel),
            List.find?_cons_of_neg (by simp [hfunc])]

/-- The counter is a `uint32_t`. -/
theorem listLenFrom_eq {length : Int} (hc : Chain L (l ++ [tail])) (htail : tail ∉ l)
    (hnull : null ∉ l) (hstart : (l ++ [tail]).head? = some elem) (hfuel : l.length < fuel) :
    listLenFrom null L tail fuel (uint32 length) elem = some (uint32 (length + l.length)) := by
  induction l generalizing elem fuel length with
  | nil =>
      obtain ⟨fuel, rfl⟩ := Nat.exists_eq_succ_of_ne_zero (Nat.ne_of_gt hfuel)
      rw [List.nil_append, List.head?_cons, Option.some_inj] at hstart
      simp [listLenFrom, hstart]
  | cons x l ih =>
      obtain ⟨fuel, rfl⟩ := Nat.exists_eq_succ_of_ne_zero (Nat.ne_of_gt (Nat.zero_lt_of_lt hfuel))
      rw [List.cons_append, List.head?_cons, Option.some_inj] at hstart
      subst hstart
      rw [List.mem_cons, not_or] at htail hnull
      obtain ⟨hrest, hnext⟩ := next_of_chain hc
      have hsucc : uint32 (uint32 length + 1) = uint32 (length + 1) := by
        unfold uint32
        omega
      rw [listLenFrom, if_neg (Ne.symm htail.1), deref, if_neg (Ne.symm hnull.1),
        Option.bind_eq_bind, Option.bind_some, hsucc,
        ih hrest htail.2 hnull.2 hnext (Nat.lt_of_succ_lt_succ hfuel), List.length_cons,
        Nat.cast_add, Nat.cast_one, Int.add_right_comm, Int.add_assoc]

end walks

variable {fuel : Nat}

omit [DecidableEq P] in
theorem notMem_of_nodes (hn : (plist.nodes l).Nodup) (hnull : null ∉ plist.nodes l) :
    plist.tail ∉ l ∧ null ∉ l := by
  constructor
  · intro hmem
    have hparts := List.nodup_append.1 (List.nodup_cons.1 hn).2
    exact hparts.2.2 _ hmem _ List.mem_cons_self rfl
  · intro hmem
    exact hnull (by simp [Plist.nodes, hmem])

theorem Holds.elemFind_eq (h : Holds null ls seq L) (hseq : seq i = some l) (obj : P)
    (hfuel : l.length < fuel) : elemFind null fuel (ls i) obj L = some (decide (obj ∈ l)) := by
  have hwf := h.wellFormed i l hseq
  obtain ⟨htail, hnull⟩ :=
    notMem_of_nodes (nodesAt_eq hseq ▸ h.nodup i) (nodesAt_eq hseq ▸ h.notNull i)
  exact elemFindFrom_eq obj hwf.chain.of_cons htail hnull hwf.first hfuel

theorem Holds.listEmpty_eq (h : Holds null ls seq L) (hseq : seq i = some l) :
    listEmpty (ls i) L = l.isEmpty := by
  have hwf := h.wellFormed i l hseq
  have hfirst := hwf.first
  obtain ⟨htail, _⟩ :=
    notMem_of_nodes (nodesAt_eq hseq ▸ h.nodup i) (nodesAt_eq hseq ▸ h.notNull i)
  cases l with
  | nil =>
      rw [List.nil_append, List.head?_cons, Option.some_inj] at hfirst
      simp [listEmpty, ← hfirst]
  | cons x l =>
      rw [List.cons_append, List.head?_cons, Option.some_inj] at hfirst
      have hne : x ≠ (ls i).tail := by
        rintro rfl
        exact htail List.mem_cons_self
      simp [listEmpty, ← hfirst, hne]

theorem Holds.listTraversal_eq (h : Holds null ls seq L) (hseq : seq i = some l)
    (func : P → Int → Bool) (arg : Int) (hfuel : l.length < fuel) :
    listTraversal null fuel (ls i) func arg L =
      some ((l.find? fun x => func x arg).getD null) := by
  have hwf := h.wellFormed i l hseq
  obtain ⟨htail, hnull⟩ :=
    notMem_of_nodes (nodesAt_eq hseq ▸ h.nodup i) (nodesAt_eq hseq ▸ h.notNull i)
  rw [listTraversal, h.listEmpty_eq hseq]
  cases hl : l with
  | nil => rfl
  | cons x rest =>
      rw [← hl, hl, List.isEmpty_cons, if_neg Bool.false_ne_true, ← hl]
      exact listTraversalFrom_eq func arg hwf.chain.of_cons htail hnull hwf.first hfuel

theorem Holds.listLen_eq (h : Holds null ls seq L) (hseq : seq i = some l)
    (hfuel : l.length < fuel) : listLen null fuel (ls i) L = some (l.length % 4294967296) := by
  have hwf := h.wellFormed i l hseq
  obtain ⟨htail, hnull⟩ :=
    notMem_of_nodes (nodesAt_eq hseq ▸ h.nodup i) (nodesAt_eq hseq ▸ h.notNull i)
  have hcount : uint32 (0 + (l.length : Int)) = l.length % 4294967296 := by
    unfold uint32
    omega
  rw [← hcount]
  exact @listLenFrom_eq _ null L l _ (ls i).tail _ fuel 0 hwf.chain.of_cons htail hnull hwf.first
    hfuel

/-- `list_pop` returns the first element. -/
theorem Holds.listPop_eq {elem : P} (h : Holds null ls seq L) (hseq : seq i = some (elem :: l)) :
    ∃ L', listPop null (ls i) L = some (elem, L') := by
  obtain ⟨L', hrun, _⟩ := @Holds.remove _ _ _ _ _ [] l elem _ _ i h hseq
  have hfirst := (@WellFormed.linked _ _ _ _ _ [] (l ++ [(ls i).tail]) (ls i).head elem
    (h.wellFormed i _ hseq) rfl).1
  refine ⟨L', ?_⟩
  simp only [listPop, hfirst, hrun, Option.bind_eq_bind, Option.bind_some, Option.pure_def]

/-- **Intrusive lists refine sequences.**  `list_len` counts in a `uint32_t`. -/
theorem lists_refine_sequences [DecidableEq ι] (null : P) (ls : ι → Plist P)
    (seq : ι → Option (List P)) (L : Links P) (h : Holds null ls seq L) :
    (∀ op : ListOp P ι, op.Enabled null ls seq →
      ∃ L', op.run null ls L = some L' ∧ Holds null ls (op.apply seq) L' ∧
        ∀ j, ¬ op.On seq j → op.apply seq j = seq j ∧
          ∀ q ∈ nodesAt ls seq j, L'.next q = L.next q ∧ L'.prev q = L.prev q) ∧
    (∀ ops, EnabledListOps null ls seq ops →
      ∃ L', runListOps null ls L ops = some L' ∧ Holds null ls (ops.foldl ListOp.apply seq) L') ∧
    ∀ i l, seq i = some l →
      (∀ elem rest, l = elem :: rest → ∃ L', listPop null (ls i) L = some (elem, L')) ∧
      listEmpty (ls i) L = l.isEmpty ∧
      ∀ fuel, l.length < fuel →
        (∀ obj, elemFind null fuel (ls i) obj L = some (decide (obj ∈ l))) ∧
        (∀ func arg, listTraversal null fuel (ls i) func arg L =
          some ((l.find? fun x => func x arg).getD null)) ∧
        listLen null fuel (ls i) L = some (l.length % 4294967296) := by
  refine ⟨?_, ?_, ?_⟩
  · intro op henabled
    exact op.run_refines h henabled
  · intro ops henabled
    exact runListOps_refines ops h henabled
  · intro i l hseq
    refine ⟨?_, h.listEmpty_eq hseq, ?_⟩
    · intro elem rest hl
      subst hl
      exact h.listPop_eq hseq
    · intro fuel hfuel
      refine ⟨?_, ?_, h.listLen_eq hseq hfuel⟩
      · intro obj
        exact h.elemFind_eq hseq obj hfuel
      · intro func arg
        exact h.listTraversal_eq hseq func arg hfuel

/-- Two lists before their `list_init`. -/
theorem holds_uninitialised (L : Links Nat) :
    Holds 0 (fun b : Bool => if b then ⟨1, 2⟩ else ⟨3, 4⟩) (fun _ => none) L where
  wellFormed := by
    intro i l hseq
    cases hseq
  nodup := by decide
  notNull := by decide
  apart := by
    intro i j hij
    revert i j
    decide

/-- A node is removed from one list and put into another. -/
theorem lists_refine_sequences_two :
    ∃ L', runListOps 0 (fun b : Bool => if b then ⟨1, 2⟩ else ⟨3, 4⟩) ⟨fun _ => 0, fun _ => 0⟩
        [.init true, .push true 10, .append true 11, .init false, .remove 10, .push false 10,
          .pop true] = some L' ∧
      Holds 0 (fun b : Bool => if b then ⟨1, 2⟩ else ⟨3, 4⟩)
        (fun b => if b then some [] else some [10]) L' := by
  obtain ⟨L', hrun, hholds⟩ := (lists_refine_sequences 0 _ _ _ (holds_uninitialised _)).2.1
    [.init true, .push true 10, .append true 11, .init false, .remove 10, .push false 10, .pop true]
    ⟨trivial, ⟨⟨[], rfl⟩, by decide, by decide⟩, ⟨⟨[10], rfl⟩, by decide, by decide⟩, trivial,
      ⟨true, [10, 11], rfl, by decide⟩, ⟨⟨[], rfl⟩, by decide, by decide⟩, ⟨11, [], rfl⟩, trivial⟩
  refine ⟨L', hrun, ?_⟩
  convert hholds using 1
  funext b
  cases b with
  | false => rfl
  | true => rfl

/-- Nodes `1` to `n + 2`, in order. -/
def counting (n : Nat) : Links Nat where
  next := fun a => if a = n + 2 then 0 else a + 1
  prev := fun a => a - 1

theorem holds_counting (n : Nat) :
    Holds 0 (fun _ : Unit => ⟨1, n + 2⟩) (fun _ => some (List.range' 2 n)) (counting n) := by
  have hnodes : Plist.nodes ⟨1, n + 2⟩ (List.range' 2 n) = List.range' 1 (n + 2) := by
    have hlast : List.range' 2 (n + 1) = List.range' 2 n ++ [n + 2] := by
      rw [List.range'_concat, Nat.one_mul, Nat.add_comm 2 n]
    rw [Plist.nodes, ← hlast]
    exact (@List.range'_succ 1 (n + 1) 1).symm
  have hall : nodesAt (fun _ : Unit => ⟨1, n + 2⟩) (fun _ => some (List.range' 2 n)) () =
      List.range' 1 (n + 2) := hnodes
  constructor
  · rintro ⟨⟩ l hl
    rw [Option.some_inj] at hl
    subst hl
    refine ⟨?_, rfl, if_pos rfl⟩
    rw [hnodes, Chain, List.isChain_iff_getElem]
    intro k hk
    rw [List.length_range'] at hk
    simp only [List.getElem_range', Linked, counting]
    constructor
    · rw [if_neg (by omega)]
      omega
    · omega
  · rintro ⟨⟩
    rw [hall]
    exact List.nodup_range'
  · rintro ⟨⟩
    rw [hall, List.mem_range'_1]
    omega
  · rintro ⟨⟩ ⟨⟩ hij
    exact absurd rfl hij

/-- A list of `2^32` elements has length zero. -/
theorem listLen_wraps :
    ¬ ∀ (null : Nat) (ls : Unit → Plist Nat) (seq : Unit → Option (List Nat)) (L : Links Nat),
      Holds null ls seq L → ∀ i l, seq i = some l →
        ∀ fuel, l.length < fuel → listLen null fuel (ls i) L = some l.length := by
  intro hclaim
  have hholds := holds_counting 4294967296
  have hlen := hclaim _ _ _ _ hholds () _ rfl _ (Nat.lt_succ_self _)
  have hzero := hholds.listLen_eq (i := ()) rfl (Nat.lt_succ_self _)
  rw [hzero, List.length_range', Option.some_inj] at hlen
  omega

end ThreadSched.IntrusiveList
