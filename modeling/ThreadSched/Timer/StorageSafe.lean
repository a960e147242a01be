import ThreadSched.Timer.Storage

/-!
# No timer storage is used after it is freed

* `Shape h nodes` — every slot's pointers form a ring of the nodes filed in it, the detached list is
  a chain that ends at the head on the stack, and the allocated nodes are exactly those filed
  somewhere, each once.
* `Shape.addTimer`, `Shape.free`, `Shape.delete`, `Shape.takeSlot`, `Shape.pick`, `Shape.alloc` — what
  the operations do to it: each keeps the shape, with a node filed elsewhere.
* `Inv`, `inv_step` — the invariant of a run, and that a careful step keeps it.
* `storage_safe` — in a run of careful steps nothing is used or freed that is not allocated, and
  nothing is left when the manager has been freed.
-/

set_option autoImplicit false

namespace ThreadSched.Storage

open Wheel Rings

/-! ## Accesses that succeed -/

section access

variable {h : Heap}

@[simp] theorem Heap.valid_links (h : Heap) (L : Links Ptr) (p : Ptr) :
    ({ h with links := L } : Heap).valid p = h.valid p := by
  cases p <;> rfl

theorem Heap.check_ok {p : Ptr} (hp : h.valid p = true) : h.check p = .ok () := by
  unfold Heap.check
  rw [if_pos hp]

theorem Heap.checkManager_ok (hm : h.manager = true) : h.checkManager = .ok () := by
  unfold Heap.checkManager
  rw [if_pos hm]

theorem Heap.getNext_ok {p : Ptr} (hp : h.valid p = true) : h.getNext p = .ok (h.links.next p) := by
  unfold Heap.getNext
  rw [Heap.check_ok hp]
  rfl

theorem Heap.getPrev_ok {p : Ptr} (hp : h.valid p = true) : h.getPrev p = .ok (h.links.prev p) := by
  unfold Heap.getPrev
  rw [Heap.check_ok hp]
  rfl

theorem Heap.setNext_ok {p : Ptr} (hp : h.valid p = true) (v : Ptr) :
    h.setNext p v = .ok { h with links := h.links.setNext p v } := by
  unfold Heap.setNext
  rw [Heap.check_ok hp]
  rfl

theorem Heap.setPrev_ok {p : Ptr} (hp : h.valid p = true) (v : Ptr) :
    h.setPrev p v = .ok { h with links := h.links.setPrev p v } := by
  unfold Heap.setPrev
  rw [Heap.check_ok hp]
  rfl

theorem bind_ok {β γ : Type} (x : β) (f : β → Except Fault γ) :
    ((.ok x : Except Fault β) >>= f) = f x := rfl

theorem Heap.listTimerInsert_ok {p a b : Ptr} (hp : h.valid p = true) (ha : h.valid a = true)
    (hb : h.valid b = true) :
    h.listTimerInsert p a b = .ok { h with links := h.links.insertBetween p a b } := by
  unfold Heap.listTimerInsert
  rw [Heap.setPrev_ok hb, bind_ok, Heap.setNext_ok (by simpa using hp), bind_ok,
    Heap.setPrev_ok (by simpa using hp), bind_ok, Heap.setNext_ok (by simpa using ha)]
  rfl

theorem Heap.listTimerReplaceInit_ok {old new : Ptr} (hold : h.valid old = true)
    (hnew : h.valid new = true) (hnext : h.valid (h.links.next old) = true)
    (hprev : h.valid (h.links.prev old) = true) :
    h.listTimerReplaceInit old new = .ok { h with links := h.links.replaceInit old new } := by
  -- the last node is the old head's predecessor, or the new head when the list is empty
  have hlast : h.valid (((h.links.setNext new (h.links.next old)).setPrev (h.links.next old)
      new).prev old) = true := by
    by_cases hx : old = h.links.next old
    · rw [← hx, Links.setPrev_self]
      exact hnew
    · rw [Links.setPrev_of_ne _ _ hx]
      exact hprev
  unfold Heap.listTimerReplaceInit Heap.listTimerReplace
  rw [Heap.getNext_ok hold, bind_ok, Heap.setNext_ok hnew, bind_ok,
    Heap.getNext_ok (by simpa using hnew), bind_ok]
  simp only [Links.setNext_self]
  rw [Heap.setPrev_ok (by simpa using hnext), bind_ok, Heap.getPrev_ok (by simpa using hold), bind_ok,
    Heap.setPrev_ok (by simpa using hnew), bind_ok, Heap.getPrev_ok (by simpa using hnew), bind_ok]
  simp only [Links.setPrev_self]
  rw [Heap.setNext_ok (by simpa using hlast), bind_ok, Heap.setNext_ok (by simpa using hold), bind_ok,
    Heap.setPrev_ok (by simpa using hold)]
  unfold Links.replaceInit
  simp only [Links.setNext_self, Links.setPrev_self]

theorem Heap.deleteNode_eq {n : Nat} (hn : h.live n = true)
    (hprev : h.valid (h.links.prev (.node n)) = true)
    (hnext : h.valid (h.links.next (.node n)) = true) :
    h.deleteNode n = ({ h with links := h.links.unlink (.node n) } : Heap).free n := by
  have hv : h.valid (.node n) = true := hn
  have hself := unlink_next_self h.links (.node n)
  unfold Heap.deleteNode
  simp only
  rw [Heap.getPrev_ok hv, bind_ok, Heap.getNext_ok hv, bind_ok, Heap.setNext_ok hprev, bind_ok,
    Heap.getNext_ok (by simpa using hv), bind_ok, Heap.getPrev_ok (by simpa using hv), bind_ok]
  simp only [hself]
  rw [Heap.setPrev_ok (by simpa using hnext), bind_ok]
  unfold Links.unlink
  simp only [hself]

end access

/-! ## The shape of the lists -/

/-- Where a node can be filed: in a slot, in the list that has been taken off a slot, or in no list
while it is being created, called or deleted. -/
inductive Key where
  | slot (s : Slot)
  | detached
  | limbo
  deriving DecidableEq

@[irreducible] def keys : Finset Key :=
  insert .limbo (insert .detached (allSlots.image .slot))

theorem limbo_mem : Key.limbo ∈ keys := by
  unfold keys
  exact Finset.mem_insert_self _ _

theorem detached_mem : Key.detached ∈ keys := by
  unfold keys
  exact Finset.mem_insert_of_mem (Finset.mem_insert_self _ _)

theorem slot_mem {s : Slot} : Key.slot s ∈ keys ↔ s ∈ allSlots := by
  unfold keys
  simp

/-- The pointers of a key's list, with its head. -/
def owned (nodes : Key → List Nat) : Key → List Ptr
  | .slot s => .head s :: (nodes (.slot s)).map .node
  | .detached => .list :: (nodes .detached).map .node
  | .limbo => (nodes .limbo).map .node

/-- What the pointers of a key's list look like. -/
def Good (L : Links Ptr) : Key → List Nat → Prop
  | .slot s, l => Ring L (.head s) (l.map .node)
  | .detached, l => Chain L (l.map .node ++ [.list])
  | .limbo, _ => True

/-- The pointer to the first node of the detached list. -/
def first : List Nat → Ptr
  | [] => .list
  | n :: _ => .node n

structure Shape (h : Heap) (nodes : Key → List Nat) : Prop where
  outside : ∀ k, k ∉ keys → nodes k = []
  once : ∀ n, (Buckets.all keys nodes).count n ≤ 1
  live : ∀ n, h.live n = true ↔ n ∈ Buckets.all keys nodes
  linked : ∀ k, Good h.links k (nodes k)
  manager : h.manager = true

theorem mem_owned_node {nodes : Key → List Nat} {k : Key} {n : Nat} :
    Ptr.node n ∈ owned nodes k ↔ n ∈ nodes k := by
  cases k <;> simp [owned]

theorem Good.frame {L L' : Links Ptr} {nodes : Key → List Nat} {k : Key} {S : List Ptr}
    (hg : Good L k (nodes k)) (hsame : SameOff L L' S) (hoff : ∀ p ∈ owned nodes k, p ∉ S) :
    Good L' k (nodes k) := by
  cases k with
  | slot s => exact Ring.frame hg hsame hoff
  | detached =>
      apply Chain.frame hg hsame
      intro p hp
      apply hoff p
      unfold owned
      simp only [List.mem_append, List.mem_cons, List.not_mem_nil, or_false] at hp ⊢
      tauto
  | limbo => trivial

namespace Shape

variable {h : Heap} {nodes : Key → List Nat}

theorem mem_keys (hs : Shape h nodes) {k : Key} {n : Nat} (hn : n ∈ nodes k) : k ∈ keys := by
  by_contra hk
  rw [hs.outside k hk] at hn
  cases hn

theorem live_iff (hs : Shape h nodes) {n : Nat} : h.live n = true ↔ ∃ k, n ∈ nodes k := by
  rw [hs.live n, Buckets.mem_all]
  constructor
  · rintro ⟨k, _, hn⟩
    exact ⟨k, hn⟩
  · rintro ⟨k, hn⟩
    exact ⟨k, hs.mem_keys hn, hn⟩

theorem key_eq (hs : Shape h nodes) {k k' : Key} {n : Nat} (hk : n ∈ nodes k) (hk' : n ∈ nodes k') :
    k' = k :=
  Buckets.eq_of_mem (Multiset.nodup_iff_count_le_one.2 hs.once) (hs.mem_keys hk) (hs.mem_keys hk') hk hk'

theorem nodup (hs : Shape h nodes) (k : Key) : (nodes k).Nodup := by
  by_cases hk : k ∈ keys
  · exact Buckets.nodup_of_mem (Multiset.nodup_iff_count_le_one.2 hs.once) hk
  · rw [hs.outside k hk]
    exact List.nodup_nil

theorem nodup_owned (hs : Shape h nodes) (k : Key) : (owned nodes k).Nodup := by
  have hmap : ((nodes k).map Ptr.node).Nodup := (hs.nodup k).map fun _ _ heq => Ptr.node.inj heq
  cases k with
  | slot s =>
      refine List.nodup_cons.2 ⟨?_, hmap⟩
      simp
  | detached =>
      refine List.nodup_cons.2 ⟨?_, hmap⟩
      simp
  | limbo => exact hmap

/-- Two lists have no pointer in common. -/
theorem owned_disjoint (hs : Shape h nodes) {k k' : Key} {p : Ptr} (hp : p ∈ owned nodes k)
    (hp' : p ∈ owned nodes k') : k' = k := by
  cases p with
  | node n => exact hs.key_eq (mem_owned_node.1 hp) (mem_owned_node.1 hp')
  | head s => cases k <;> cases k' <;> simp_all [owned]
  | list => cases k <;> cases k' <;> simp_all [owned]

theorem valid (hs : Shape h nodes) {k : Key} (hk : k ∈ keys) {p : Ptr} (hp : p ∈ owned nodes k) :
    h.valid p = true := by
  cases p with
  | node n => exact hs.live_iff.2 ⟨k, mem_owned_node.1 hp⟩
  | head s =>
      cases k with
      | slot s' =>
          have hss : s = s' := by simpa [owned] using hp
          subst hss
          show (h.manager && decide (s.2 < slots s.1)) = true
          rw [hs.manager, Bool.true_and, decide_eq_true_iff, ← mem_allSlots]
          exact slot_mem.1 hk
      | detached => simp [owned] at hp
      | limbo => simp [owned] at hp
  | list => rfl

/-- An edit of the links of some lists leaves the others as they are. -/
theorem frame (hs : Shape h nodes) {L' : Links Ptr} {S : List Ptr} {T : List Key}
    (hsame : SameOff h.links L' S) (hS : ∀ p ∈ S, ∃ k ∈ T, p ∈ owned nodes k) {k : Key} (hk : k ∉ T) :
    Good L' k (nodes k) := by
  apply (hs.linked k).frame hsame
  intro p hp hpS
  obtain ⟨k', hk', hp'⟩ := hS p hpS
  rw [hs.owned_disjoint hp hp'] at hk'
  exact hk hk'

end Shape

/-! ## Filing -/

/-- `n` goes from `k`'s list into no list. -/
def toLimbo (nodes : Key → List Nat) (k : Key) (n : Nat) : Key → List Nat :=
  Function.update (Function.update nodes k ((nodes k).erase n)) .limbo (n :: nodes .limbo)

/-- `n` goes to the tail of slot `s`. -/
def file (nodes : Key → List Nat) (n : Nat) (s : Slot) : Key → List Nat :=
  Function.update (Function.update nodes .limbo ((nodes .limbo).erase n)) (.slot s)
    (nodes (.slot s) ++ [n])

/-- `n`, which is in no list, is gone. -/
def drop (nodes : Key → List Nat) (n : Nat) : Key → List Nat :=
  Function.update nodes .limbo ((nodes .limbo).erase n)

/-- The list of slot `s` is detached. -/
def takeSlot (nodes : Key → List Nat) (s : Slot) : Key → List Nat :=
  Function.update (Function.update nodes (.slot s) []) .detached (nodes (.slot s))

namespace Shape

variable {h : Heap} {nodes : Key → List Nat}

/-- A shape with the same nodes, filed in another way. -/
theorem refile (hs : Shape h nodes) {h' : Heap} {nodes' : Key → List Nat} (hlive : h'.live = h.live)
    (hmanager : h'.manager = h.manager) (hall : Buckets.all keys nodes' = Buckets.all keys nodes)
    (houtside : ∀ k, k ∉ keys → nodes' k = nodes k) (hlinked : ∀ k, Good h'.links k (nodes' k)) :
    Shape h' nodes' where
  outside k hk := by rw [houtside k hk, hs.outside k hk]
  once := by rw [hall]; exact hs.once
  live := by rw [hlive, hall]; exact hs.live
  linked := hlinked
  manager := by rw [hmanager]; exact hs.manager

/-- `add_timer` of a node that is in no list. -/
theorem addTimer (hs : Shape h nodes) {n : Nat} (hn : n ∈ nodes .limbo) :
    ∃ h', h.addTimer n = .ok h' ∧ Shape h' (file nodes n (pHead h.uJiffies (h.uExpires n))) := by
  have hslot := pHead_mem h.uJiffies (h.uExpires n)
  generalize hsl : pHead h.uJiffies (h.uExpires n) = s at hslot
  have hk : Key.slot s ∈ keys := slot_mem.2 hslot
  have hlive : h.valid (.node n) = true := hs.valid limbo_mem (mem_owned_node.2 hn)
  have hhead : Ptr.head s ∈ owned nodes (.slot s) := List.mem_cons_self
  have hring : Ring h.links (.head s) ((nodes (.slot s)).map .node) := hs.linked (.slot s)
  have hprev : h.links.prev (.head s) ∈ owned nodes (.slot s) := hring.prev_mem
  have hnew : Ptr.node n ∉ owned nodes (.slot s) := by
    intro hmem
    cases hs.owned_disjoint (mem_owned_node.2 hn) hmem
  refine ⟨{ h with links := h.links.insertBetween (.node n) (h.links.prev (.head s)) (.head s) }, ?_, ?_⟩
  · unfold Heap.addTimer Heap.listTimerInsertTail
    rw [Heap.check_ok hlive, bind_ok, Heap.checkManager_ok hs.manager, bind_ok, hsl,
      Heap.getPrev_ok (hs.valid hk hhead), bind_ok]
    exact Heap.listTimerInsert_ok hlive (hs.valid hk hprev) (hs.valid hk hhead)
  · refine hs.refile ?_ ?_ ?_ ?_ ?_
    · rfl
    · rfl
    · unfold file
      apply Buckets.all_move nodes limbo_mem hk nofun hn
      exact List.perm_append_singleton n _
    · intro k hk'
      unfold file
      rw [Function.update_of_ne, Function.update_of_ne]
      · rintro rfl
        exact hk' limbo_mem
      · rintro rfl
        exact hk' hk
    · intro k
      by_cases hks : k = .slot s
      · subst hks
        unfold file
        rw [Function.update_self]
        show Ring _ _ ((nodes (.slot s) ++ [n]).map Ptr.node)
        rw [List.map_append]
        exact hring.insertTail (hs.nodup_owned (.slot s)) hnew
      · by_cases hkl : k = .limbo
        · subst hkl
          trivial
        · unfold file
          rw [Function.update_of_ne hks, Function.update_of_ne hkl]
          apply @frame _ _ hs _ _ [.limbo, .slot s] (insertBetween_sameOff _ _ _ _)
          · intro p hp
            simp only [List.mem_cons, List.not_mem_nil, or_false] at hp
            rcases hp with rfl | rfl | rfl
            · exact ⟨.limbo, by simp, mem_owned_node.2 hn⟩
            · exact ⟨.slot s, by simp, hprev⟩
            · exact ⟨.slot s, by simp, hhead⟩
          · simp [hks, hkl]

/-- `free` of a node that is in no list. -/
theorem free (hs : Shape h nodes) {n : Nat} (hn : n ∈ nodes .limbo) :
    ∃ h', h.free n = .ok h' ∧ Shape h' (drop nodes n) := by
  have hall : n ::ₘ Buckets.all keys (drop nodes n) = Buckets.all keys nodes :=
    Buckets.all_erase nodes limbo_mem hn
  have hgone : n ∉ Buckets.all keys (drop nodes n) := by
    have honce := hs.once n
    rw [← hall, Multiset.count_cons_self] at honce
    rw [← Multiset.count_eq_zero]
    omega
  refine ⟨{ h with live := Function.update h.live n false }, ?_, ?_, ?_, ?_, ?_, hs.manager⟩
  · unfold Heap.free
    rw [if_pos (hs.live_iff.2 ⟨_, hn⟩)]
  · intro k hk
    unfold drop
    rw [Function.update_of_ne, hs.outside k hk]
    rintro rfl
    exact hk limbo_mem
  · intro m
    have honce := hs.once m
    rw [← hall] at honce
    exact (Multiset.count_le_count_cons m n _).trans honce
  · intro m
    by_cases hm : m = n
    · subst hm
      simp [hgone]
    · have hlive := hs.live m
      rw [← hall, Multiset.mem_cons] at hlive
      show Function.update h.live n false m = true ↔ _
      rw [Function.update_of_ne hm, hlive]
      simp [hm]
  · intro k
    by_cases hk : k = .limbo
    · subst hk
      trivial
    · unfold drop
      rw [Function.update_of_ne hk]
      exact hs.linked k

/-- `malloc` of a node. -/
theorem alloc (hs : Shape h nodes) {n : Nat} (hn : h.live n = false) {h' : Heap}
    (hlive : h'.live = Function.update h.live n true) (hlinks : h'.links = h.links)
    (hmanager : h'.manager = h.manager) :
    Shape h' (Function.update nodes .limbo (n :: nodes .limbo)) := by
  have hall : Buckets.all keys (Function.update nodes .limbo (n :: nodes .limbo)) =
      n ::ₘ Buckets.all keys nodes := Buckets.all_insert nodes limbo_mem (List.Perm.refl _)
  have hnot : n ∉ Buckets.all keys nodes := by
    rw [← hs.live n, hn]
    exact Bool.false_ne_true
  refine ⟨?_, ?_, ?_, ?_, ?_⟩
  · intro k hk
    rw [Function.update_of_ne, hs.outside k hk]
    rintro rfl
    exact hk limbo_mem
  · intro m
    rw [hall]
    by_cases hm : m = n
    · subst hm
      rw [Multiset.count_cons_self, Multiset.count_eq_zero.2 hnot]
    · rw [Multiset.count_cons_of_ne hm]
      exact hs.once m
  · intro m
    rw [hall, hlive, Multiset.mem_cons, ← hs.live m]
    by_cases hm : m = n
    · subst hm
      simp
    · rw [Function.update_of_ne hm]
      simp [hm]
  · intro k
    rw [hlinks]
    by_cases hk : k = .limbo
    · subst hk
      trivial
    · rw [Function.update_of_ne hk]
      exact hs.linked k
  · rw [hmanager]
    exact hs.manager

/-- `list_timer_replace_init` of slot `s` by the head on the stack. -/
theorem takeSlot (hs : Shape h nodes) {s : Slot} (hslot : s ∈ allSlots) (hd : nodes .detached = []) :
    ∃ h', h.listTimerReplaceInit (.head s) .list = .ok h' ∧ h'.uJiffies = h.uJiffies ∧
      h'.getNext .list = .ok (first (nodes (.slot s))) ∧ Shape h' (Storage.takeSlot nodes s) := by
  have hk : Key.slot s ∈ keys := slot_mem.2 hslot
  have hring : Ring h.links (.head s) ((nodes (.slot s)).map .node) := hs.linked (.slot s)
  have hlist : Ptr.list ∉ owned nodes (.slot s) := by simp [owned]
  have hheadv : h.valid (.head s) = true := hs.valid hk List.mem_cons_self
  obtain ⟨hnew, hold⟩ := hring.replaceInit (hs.nodup_owned (.slot s)) hlist
  have hnext : (h.links.replaceInit (.head s) .list).next .list = first (nodes (.slot s)) := by
    rw [hnew.next_eq]
    cases nodes (.slot s) with
    | nil => rfl
    | cons n l => rfl
  refine ⟨{ h with links := h.links.replaceInit (.head s) .list }, ?_, rfl, ?_, ?_⟩
  · exact Heap.listTimerReplaceInit_ok hheadv rfl (hs.valid hk hring.next_mem)
      (hs.valid hk hring.prev_mem)
  · rw [Heap.getNext_ok rfl, hnext]
  · refine hs.refile ?_ ?_ ?_ ?_ ?_
    · rfl
    · rfl
    · have hput := Buckets.all_update (Function.update nodes (.slot s) []) detached_mem
        (nodes (.slot s))
      have hempty : Function.update nodes (.slot s) [] .detached = [] := by
        rw [Function.update_of_ne (show Key.detached ≠ .slot s from nofun), hd]
      rw [hempty, Buckets.all_take nodes hk] at hput
      unfold Storage.takeSlot
      simpa using hput
    · intro k hk'
      unfold Storage.takeSlot
      rw [Function.update_of_ne, Function.update_of_ne]
      · rintro rfl
        exact hk' hk
      · rintro rfl
        exact hk' detached_mem
    · intro k
      unfold Storage.takeSlot
      by_cases hkd : k = .detached
      · subst hkd
        rw [Function.update_self]
        exact Chain.of_cons hnew
      · rw [Function.update_of_ne hkd]
        by_cases hks : k = .slot s
        · subst hks
          rw [Function.update_self]
          exact hold
        · rw [Function.update_of_ne hks]
          apply @frame _ _ hs _ _ [.slot s, .detached] (replaceInit_sameOff _ _ _)
          · intro p hp
            simp only [List.mem_cons, List.not_mem_nil, or_false] at hp
            rcases hp with rfl | rfl | rfl | rfl
            · exact ⟨.slot s, by simp, List.mem_cons_self⟩
            · exact ⟨.detached, by simp, List.mem_cons_self⟩
            · exact ⟨.slot s, by simp, hring.prev_mem⟩
            · exact ⟨.slot s, by simp, hring.next_mem⟩
          · simp [hks, hkd]

/-- The walk goes on to the next node of the detached list. -/
theorem pick (hs : Shape h nodes) {n : Nat} {l : List Nat} (hd : nodes .detached = n :: l) :
    h.getNext (.node n) = .ok (first l) ∧ Shape h (toLimbo nodes .detached n) := by
  have hchain : Chain h.links (.node n :: (l.map .node ++ [.list])) := by
    have hg : Chain h.links ((nodes .detached).map .node ++ [.list]) := hs.linked .detached
    rw [hd] at hg
    exact hg
  have hmem : n ∈ nodes .detached := by
    rw [hd]
    exact List.mem_cons_self
  constructor
  · rw [Heap.getNext_ok (hs.valid detached_mem (mem_owned_node.2 hmem))]
    cases l with
    | nil => rw [hchain.next_head]; rfl
    | cons m l => rw [hchain.next_head]; rfl
  · refine hs.refile rfl rfl ?_ ?_ ?_
    · unfold toLimbo
      apply Buckets.all_move nodes detached_mem limbo_mem nofun hmem
      exact List.Perm.refl _
    · intro k hk
      unfold toLimbo
      rw [Function.update_of_ne, Function.update_of_ne]
      · rintro rfl
        exact hk detached_mem
      · rintro rfl
        exact hk limbo_mem
    · intro k
      unfold toLimbo
      by_cases hkl : k = .limbo
      · subst hkl
        trivial
      · rw [Function.update_of_ne hkl]
        by_cases hkd : k = .detached
        · subst hkd
          rw [Function.update_self, hd, List.erase_cons_head]
          exact hchain.of_cons
        · rw [Function.update_of_ne hkd]
          exact hs.linked k

/-- `delete_timer` of a node inside the list of `k`, between the ends `a` and `e`. -/
theorem delete (hs : Shape h nodes) {k : Key} {n : Nat} {a e : Ptr} {l₁ l₂ : List Ptr}
    (hn : n ∈ nodes k) (hkl : k ≠ .limbo)
    (hchain : Chain h.links (a :: (l₁ ++ .node n :: l₂ ++ [e])))
    (hsimple : Simple (a :: (l₁ ++ .node n :: l₂ ++ [e])))
    (hown : ∀ p ∈ a :: (l₁ ++ .node n :: l₂ ++ [e]), p ∈ owned nodes k)
    (hgood : ∀ L, Chain L (a :: (l₁ ++ l₂ ++ [e])) → Good L k ((nodes k).erase n)) :
    ∃ h', h.deleteNode n = .ok h' ∧ Shape h' (drop (toLimbo nodes k n) n) := by
  have hk := hs.mem_keys hn
  obtain ⟨hprev, hnext⟩ := hchain.neighbours_mem
  have hunlinked : Shape { h with links := h.links.unlink (.node n) } (toLimbo nodes k n) := by
    refine hs.refile ?_ ?_ ?_ ?_ ?_
    · rfl
    · rfl
    · unfold toLimbo
      apply Buckets.all_move nodes hk limbo_mem hkl.symm hn
      exact List.Perm.refl _
    · intro k' hk'
      unfold toLimbo
      rw [Function.update_of_ne, Function.update_of_ne]
      · rintro rfl
        exact hk' hk
      · rintro rfl
        exact hk' limbo_mem
    · intro k'
      unfold toLimbo
      by_cases hk'l : k' = .limbo
      · subst hk'l
        trivial
      · rw [Function.update_of_ne hk'l]
        by_cases hkk : k' = k
        · subst hkk
          rw [Function.update_self]
          exact hgood _ (hchain.delete hsimple)
        · rw [Function.update_of_ne hkk]
          apply @frame _ _ hs _ _ [k] (unlink_sameOff _ _)
          · intro p hp
            simp only [List.mem_cons, List.not_mem_nil, or_false] at hp
            rcases hp with rfl | rfl
            · exact ⟨k, by simp, hown _ hprev⟩
            · exact ⟨k, by simp, hown _ hnext⟩
          · simpa using hkk
  have hlimbo : n ∈ toLimbo nodes k n .limbo := by
    unfold toLimbo
    rw [Function.update_self]
    exact List.mem_cons_self
  obtain ⟨h', hfree, hshape⟩ := hunlinked.free hlimbo
  refine ⟨h', ?_, hshape⟩
  rw [Heap.deleteNode_eq (hs.live_iff.2 ⟨k, hn⟩) (hs.valid hk (hown _ hprev))
    (hs.valid hk (hown _ hnext)), hfree]

/-- `delete_timer` of a node filed in a slot. -/
theorem deleteSlotNode (hs : Shape h nodes) {s : Slot} {n : Nat} (hn : n ∈ nodes (.slot s)) :
    ∃ h', h.deleteNode n = .ok h' ∧ Shape h' (drop (toLimbo nodes (.slot s) n) n) := by
  obtain ⟨l₁, l₂, hl⟩ := List.append_of_mem hn
  have hnodup := hs.nodup (.slot s)
  rw [hl] at hnodup
  have hn₁ : n ∉ l₁ := by
    intro hmem
    exact (List.nodup_append.1 hnodup).2.2 n hmem n List.mem_cons_self rfl
  have hring : Ring h.links (.head s) ((nodes (.slot s)).map .node) := hs.linked (.slot s)
  have hnd : (Ptr.head s :: (nodes (.slot s)).map .node).Nodup := hs.nodup_owned (.slot s)
  unfold Rings.Ring at hring
  rw [hl, List.map_append, List.map_cons] at hring hnd
  apply hs.delete hn nofun hring (simple_ring hnd)
  · intro p hp
    show p ∈ Ptr.head s :: (nodes (.slot s)).map .node
    rw [hl, List.map_append, List.map_cons]
    simp only [List.mem_cons, List.mem_append, List.not_mem_nil, or_false] at hp ⊢
    tauto
  · intro L hL
    rw [hl, List.erase_append_right _ hn₁, List.erase_cons_head]
    show Ring L (.head s) ((l₁ ++ l₂).map .node)
    rw [List.map_append]
    exact hL

/-- `delete_timer`, in a callback, of a node of the detached list that is not the next one. -/
theorem deleteDetachedNode (hs : Shape h nodes) {m n : Nat} {l : List Nat}
    (hd : nodes .detached = m :: l) (hn : n ∈ l) :
    ∃ h', h.deleteNode n = .ok h' ∧ Shape h' (drop (toLimbo nodes .detached n) n) ∧
      (nodes .detached).erase n = m :: l.erase n := by
  obtain ⟨l₁, l₂, hl⟩ := List.append_of_mem hn
  have hnodup := hs.nodup .detached
  rw [hd] at hnodup
  have hmn : m ≠ n := by
    rintro rfl
    exact (List.nodup_cons.1 hnodup).1 hn
  have hn₁ : n ∉ l₁ := by
    intro hmem
    have hnodup' := (List.nodup_cons.1 hnodup).2
    rw [hl] at hnodup'
    exact (List.nodup_append.1 hnodup').2.2 n hmem n List.mem_cons_self rfl
  have herase : (nodes .detached).erase n = m :: (l₁ ++ l₂) := by
    rw [hd, List.erase_cons_tail (by simpa using hmn), hl, List.erase_append_right _ hn₁,
      List.erase_cons_head]
  have hchain : Chain h.links ((nodes .detached).map .node ++ [.list]) := hs.linked .detached
  have hnd : (Ptr.list :: (nodes .detached).map .node).Nodup := hs.nodup_owned .detached
  rw [hd, hl, List.map_cons, List.map_append, List.map_cons] at hchain hnd
  have hmem : n ∈ nodes .detached := by
    rw [hd]
    exact List.mem_cons_of_mem _ hn
  have hown : ∀ p ∈ Ptr.node m :: (l₁.map .node ++ .node n :: l₂.map .node ++ [.list]),
      p ∈ owned nodes .detached := by
    intro p hp
    show p ∈ Ptr.list :: (nodes .detached).map .node
    rw [hd, hl, List.map_cons, List.map_append, List.map_cons]
    simp only [List.mem_cons, List.mem_append, List.not_mem_nil, or_false] at hp ⊢
    tauto
  have hgood : ∀ L, Chain L (.node m :: (l₁.map .node ++ l₂.map .node ++ [.list])) →
      Good L .detached ((nodes .detached).erase n) := by
    intro L hL
    rw [herase]
    show Chain L ((m :: (l₁ ++ l₂)).map .node ++ [.list])
    rw [List.map_cons, List.map_append]
    exact hL
  obtain ⟨h', hdel, hshape⟩ := hs.delete hmem nofun hchain (simple_of_nodup hnd) hown hgood
  refine ⟨h', hdel, hshape, ?_⟩
  rw [herase, hl, List.erase_append_right _ hn₁, List.erase_cons_head]

end Shape

/-! ## Runs -/

/-- The manager has been freed. -/
def St.Destroyed (s : St) : Prop := s.timerManager = true ∧ s.heap.manager = false

/-- What `malloc` returns is not allocated. -/
def Fresh (s : St) (malloc : Option Nat) : Prop := ∀ n ∈ malloc, s.heap.live n = false

/-- The code outside the timer code's loops is running, or a callback. -/
def Pc.atCall : Pc → Prop
  | .out | .callback _ _ _ => True
  | _ => False

/-- When an event can happen: calls outside the timer code and in callbacks, `delete_timer` for a timer
that is still pending. -/
def Enabled (s : St) : Ev → Prop
  | .createTimer _ _ _ malloc => s.pc.atCall ∧ Fresh s malloc
  | .deleteTimer lpTimer => s.pc.atCall ∧ ∀ n ∈ lpTimer, s.heap.live n = true
  | .destroyTimerManager => s.pc = .out
  | .setExitFlag _ => s.pc = .out ∧ s.timerManager = true
  | .handler _ => s.pc = .out
  | .finish sleep => s.pc = .tail ∧ ∀ a ∈ sleep, Fresh s a.2
  | .next => s.pc ≠ .out ∧ s.pc ≠ .tail

/-- The condition: a freed manager is not asked for anything, and a callback deletes neither the timer
it is called for nor the one `run_timer` has saved as the next. -/
def Careful (s : St) : Ev → Prop
  | .createTimer timerFn _ _ _ => timerFn = true → ¬ s.Destroyed
  | .deleteTimer lpTimer =>
      ∀ n r t p, lpTimer = some n → s.pc = .callback r t p → n ≠ t ∧ p ≠ .node n
  | .destroyTimerManager => ¬ s.Destroyed
  | .setExitFlag _ => ¬ s.Destroyed
  | .handler _ => ¬ s.Destroyed
  | .finish sleep => sleep.isSome = true → ¬ s.Destroyed
  | .next => True

/-- The runs from `timer_init` whose steps all meet a condition; a step that faults ends the run. -/
def system (cond : St → Ev → Prop) : Trans.Sys (Except Fault St) where
  init o := ∃ r manager malloc, o = timerInit r manager malloc
  step o o' := ∃ s e, o = .ok s ∧ Enabled s e ∧ cond s e ∧ o' = s.step e

/-- What the place in the code says about the lists. -/
def At (nodes : Key → List Nat) : Pc → Prop
  | .out | .tail | .loop _ => nodes .detached = [] ∧ nodes .limbo = []
  | .cascade _ _ _ p | .expire _ p => p = first (nodes .detached) ∧ nodes .limbo = []
  | .callback _ t p => p = first (nodes .detached) ∧ nodes .limbo = [t]
  | .delete todo p _ =>
      p = first (nodes .detached) ∧ nodes .limbo = [] ∧ (∀ s ∈ todo, s ∈ allSlots) ∧
        ∀ s ∈ allSlots, s ∉ todo → nodes (.slot s) = []

/-- The invariant: before the manager exists and after it has been freed nothing is allocated; in
between the lists have their shape. -/
inductive Inv (s : St) : Prop
  | null : s.timerManager = false → (∀ n, s.heap.live n = false) → s.pc = .out ∨ s.pc = .tail → Inv s
  | destroyed : s.Destroyed → (∀ n, s.heap.live n = false) → s.pc = .out ∨ s.pc = .tail → Inv s
  | running (nodes : Key → List Nat) :
      s.timerManager = true → Shape s.heap nodes → At nodes s.pc → Inv s

theorem Inv.run {h : Heap} {nodes : Key → List Nat} {pc : Pc} (hs : Shape h nodes) (hat : At nodes pc) :
    Inv ⟨h, true, pc⟩ :=
  Inv.running nodes rfl hs hat

section lookups

variable (nodes : Key → List Nat) (k : Key) (n : Nat) (s : Slot)

@[simp] theorem drop_limbo : drop nodes n .limbo = (nodes .limbo).erase n := Function.update_self _ _ _

@[simp] theorem drop_detached : drop nodes n .detached = nodes .detached :=
  Function.update_of_ne (show Key.detached ≠ .limbo from nofun) _ _

@[simp] theorem drop_slot : drop nodes n (.slot s) = nodes (.slot s) :=
  Function.update_of_ne (show Key.slot s ≠ .limbo from nofun) _ _

@[simp] theorem toLimbo_limbo : toLimbo nodes k n .limbo = n :: nodes .limbo :=
  Function.update_self _ _ _

@[simp] theorem toLimbo_detached_self :
    toLimbo nodes .detached n .detached = (nodes .detached).erase n := by
  unfold toLimbo
  rw [Function.update_of_ne (show Key.detached ≠ .limbo from nofun), Function.update_self]

@[simp] theorem toLimbo_detached_slot : toLimbo nodes .detached n (.slot s) = nodes (.slot s) := by
  unfold toLimbo
  rw [Function.update_of_ne (show Key.slot s ≠ .limbo from nofun),
    Function.update_of_ne (show Key.slot s ≠ .detached from nofun)]

@[simp] theorem toLimbo_slot_detached : toLimbo nodes (.slot s) n .detached = nodes .detached := by
  unfold toLimbo
  rw [Function.update_of_ne (show Key.detached ≠ .limbo from nofun),
    Function.update_of_ne (show Key.detached ≠ .slot s from nofun)]

@[simp] theorem file_limbo : file nodes n s .limbo = (nodes .limbo).erase n := by
  unfold file
  rw [Function.update_of_ne (show Key.limbo ≠ .slot s from nofun), Function.update_self]

@[simp] theorem file_detached : file nodes n s .detached = nodes .detached := by
  unfold file
  rw [Function.update_of_ne (show Key.detached ≠ .slot s from nofun),
    Function.update_of_ne (show Key.detached ≠ .limbo from nofun)]

@[simp] theorem takeSlot_detached : takeSlot nodes s .detached = nodes (.slot s) :=
  Function.update_self _ _ _

@[simp] theorem takeSlot_limbo : takeSlot nodes s .limbo = nodes .limbo := by
  unfold takeSlot
  rw [Function.update_of_ne (show Key.limbo ≠ .detached from nofun),
    Function.update_of_ne (show Key.limbo ≠ .slot s from nofun)]

theorem takeSlot_slot (t : Slot) :
    takeSlot nodes s (.slot t) = if t = s then [] else nodes (.slot t) := by
  unfold takeSlot
  rw [Function.update_of_ne (show Key.slot t ≠ .detached from nofun)]
  split
  · next h => rw [h, Function.update_self]
  · next h => rw [Function.update_of_ne (by simpa using h)]

end lookups

/-- A pointer to the first node of an empty list is the head's. -/
theorem first_eq_list {l : List Nat} : first l = .list ↔ l = [] := by
  cases l <;> simp [first]

/-- The allocated and filled-in node that `create_timer` adds. -/
def created (h : Heap) (uDueTime uPeriod n : Nat) : Heap :=
  { h with
    live := Function.update h.live n true
    uPeriod := Function.update h.uPeriod n uPeriod
    uExpires := Function.update h.uExpires n (u32 (h.uJiffies + uDueTime)) }

theorem createTimer_eq {h : Heap} {pc : Pc} (hm : h.manager = true) (uDueTime uPeriod n : Nat) :
    St.createTimer ⟨h, true, pc⟩ true uDueTime uPeriod (some n) =
      ((created h uDueTime uPeriod n).addTimer n >>= fun h' => .ok ⟨h', true, pc⟩) := by
  unfold St.createTimer
  have hok : ({ h with
      live := Function.update h.live n true
      uPeriod := Function.update h.uPeriod n uPeriod } : Heap).checkManager = .ok () :=
    Heap.checkManager_ok hm
  simp only [Bool.not_true, Bool.or_self, Bool.false_eq_true, if_false]
  rw [hok, bind_ok]
  rfl

/-- `create_timer`, while the manager is allocated. -/
theorem createTimer_shape {h : Heap} {pc : Pc} {nodes : Key → List Nat} (hs : Shape h nodes)
    (timerFn : Bool) (uDueTime uPeriod : Nat) {malloc : Option Nat}
    (hfresh : ∀ n ∈ malloc, h.live n = false) :
    ∃ h' nodes', St.createTimer ⟨h, true, pc⟩ timerFn uDueTime uPeriod malloc = .ok ⟨h', true, pc⟩ ∧
      Shape h' nodes' ∧ nodes' .detached = nodes .detached ∧ nodes' .limbo = nodes .limbo := by
  cases timerFn with
  | false => exact ⟨h, nodes, rfl, hs, rfl, rfl⟩
  | true =>
      cases malloc with
      | none => exact ⟨h, nodes, rfl, hs, rfl, rfl⟩
      | some n =>
          have halloc : Shape (created h uDueTime uPeriod n)
              (Function.update nodes .limbo (n :: nodes .limbo)) :=
            hs.alloc (hfresh n rfl) rfl rfl rfl
          have hlimbo : Function.update nodes .limbo (n :: nodes .limbo) .limbo =
              n :: nodes .limbo := Function.update_self _ _ _
          obtain ⟨h', hadd, hshape⟩ := @Shape.addTimer _ _ halloc n (by simp)
          refine ⟨h', _, ?_, hshape, ?_, ?_⟩
          · rw [createTimer_eq hs.manager, hadd, bind_ok]
          · rw [file_detached, Function.update_of_ne (show Key.detached ≠ .limbo from nofun)]
          · rw [file_limbo, hlimbo, List.erase_cons_head]

/-- `delete_timer`, while the manager is allocated, of a node that is neither being called nor the
next of a walk. -/
theorem deleteTimer_shape {h : Heap} {pc : Pc} {nodes : Key → List Nat} (hs : Shape h nodes) {n : Nat}
    (hn : h.live n = true) (hlimbo : n ∉ nodes .limbo) (hfirst : first (nodes .detached) ≠ .node n) :
    ∃ h' nodes', St.deleteTimer ⟨h, true, pc⟩ (some n) = .ok ⟨h', true, pc⟩ ∧ Shape h' nodes' ∧
      first (nodes' .detached) = first (nodes .detached) ∧ nodes' .limbo = nodes .limbo := by
  have hdel : ∃ h' nodes', h.deleteNode n = .ok h' ∧ Shape h' nodes' ∧
      first (nodes' .detached) = first (nodes .detached) ∧ nodes' .limbo = nodes .limbo := by
    obtain ⟨k, hk⟩ := hs.live_iff.1 hn
    cases k with
    | slot s =>
        obtain ⟨h', hok, hshape⟩ := hs.deleteSlotNode hk
        refine ⟨h', _, hok, hshape, ?_, ?_⟩
        · rw [drop_detached, toLimbo_slot_detached]
        · rw [drop_limbo, toLimbo_limbo, List.erase_cons_head]
    | detached =>
        cases hd : nodes .detached with
        | nil =>
            rw [hd] at hk
            cases hk
        | cons m l =>
            rw [hd] at hk hfirst
            have hnl : n ∈ l := by
              rcases List.mem_cons.1 hk with rfl | hnl
              · exact absurd rfl hfirst
              · exact hnl
            obtain ⟨h', hok, hshape, herase⟩ := hs.deleteDetachedNode hd hnl
            refine ⟨h', _, hok, hshape, ?_, ?_⟩
            · rw [drop_detached, toLimbo_detached_self, herase]
              rfl
            · rw [drop_limbo, toLimbo_limbo, List.erase_cons_head]
    | limbo => exact absurd hk hlimbo
  obtain ⟨h', nodes', hok, hshape, hd, hl⟩ := hdel
  refine ⟨h', nodes', ?_, hshape, hd, hl⟩
  unfold St.deleteTimer
  simp only
  rw [Heap.checkManager_ok hs.manager, bind_ok, hok]
  rfl

/-- `run_timer` or `cascade_timer` detaches a slot. -/
theorem take_shape {h : Heap} {nodes : Key → List Nat} (hs : Shape h nodes) {s : Slot}
    (hslot : s ∈ allSlots) (hd : nodes .detached = []) (hl : nodes .limbo = []) :
    ∃ h' nodes', h.listTimerReplaceInit (.head s) .list = .ok h' ∧
      h'.getNext .list = .ok (first (nodes' .detached)) ∧ Shape h' nodes' ∧ nodes' .limbo = [] ∧
      nodes' = takeSlot nodes s := by
  obtain ⟨h', hok, _, hnext, hshape⟩ := hs.takeSlot hslot hd
  refine ⟨h', _, hok, ?_, hshape, ?_, rfl⟩
  · rw [hnext, takeSlot_detached]
  · rw [takeSlot_limbo, hl]

/-- The node at the head of the detached list goes back into a slot. -/
theorem refile_shape {h : Heap} {nodes : Key → List Nat} (hs : Shape h nodes) {n : Nat} {l : List Nat}
    (hd : nodes .detached = n :: l) (hl : nodes .limbo = []) :
    ∃ h' nodes', h.addTimer n = .ok h' ∧ Shape h' nodes' ∧ nodes' .detached = l ∧
      nodes' .limbo = [] := by
  obtain ⟨_, hpick⟩ := hs.pick hd
  obtain ⟨h', hadd, hshape⟩ := @Shape.addTimer _ _ hpick n (by simp)
  refine ⟨h', _, hadd, hshape, ?_, ?_⟩
  · rw [file_detached, toLimbo_detached_self, hd, List.erase_cons_head]
  · rw [file_limbo, toLimbo_limbo, List.erase_cons_head, hl]

/-- The fields that say when a node expires do not matter for the shape. -/
theorem Shape.congr {h h' : Heap} {nodes : Key → List Nat} (hs : Shape h nodes)
    (hlinks : h'.links = h.links) (hlive : h'.live = h.live) (hmanager : h'.manager = h.manager) :
    Shape h' nodes := by
  apply hs.refile hlive hmanager rfl
  · intro k _
    rfl
  · rw [hlinks]
    exact hs.linked

/-! ## Steps -/

section steps

variable {h : Heap} {nodes : Key → List Nat}

theorem detach_inv (hs : Shape h nodes) (hd : nodes .detached = []) (hl : nodes .limbo = []) (pc : Pc)
    (r : Nat) : ∃ s', St.detach ⟨h, true, pc⟩ r = .ok s' ∧ Inv s' := by
  have hslot : ((0 : Fin 5), h.uJiffies &&& TVR_MASK) ∈ allSlots := by
    rw [mem_allSlots, and_TVR_MASK]
    exact Nat.mod_lt _ (by norm_num)
  obtain ⟨h', nodes', hok, hnext, hshape, hlimbo, _⟩ := take_shape hs hslot hd hl
  refine ⟨⟨h', true, .expire r (first (nodes' .detached))⟩, ?_, Inv.run hshape ⟨rfl, hlimbo⟩⟩
  unfold St.detach
  simp only
  rw [hok, bind_ok, hnext]
  rfl

theorem slots_ge {arr : Fin 5} (harr : arr ≠ 0) : 64 ≤ slots arr := by
  fin_cases arr
  · exact absurd rfl harr
  all_goals exact le_refl 64

theorem cascadeTimer_inv (hs : Shape h nodes) (hd : nodes .detached = []) (hl : nodes .limbo = [])
    (pc : Pc) (r : Nat) {arr : Fin 5} (harr : arr ≠ 0) :
    ∃ s', St.cascadeTimer ⟨h, true, pc⟩ r arr = .ok s' ∧ Inv s' := by
  have hslot : (arr, St.INDEX h.uJiffies (arr.val - 1)) ∈ allSlots := by
    rw [mem_allSlots]
    unfold St.INDEX
    rw [and_TVN_MASK]
    exact (Nat.mod_lt _ (by norm_num)).trans_le (slots_ge harr)
  obtain ⟨h', nodes', hok, hnext, hshape, hlimbo, _⟩ := take_shape hs hslot hd hl
  refine ⟨⟨h', true, .cascade r arr (St.INDEX h.uJiffies (arr.val - 1)) (first (nodes' .detached))⟩,
    ?_, Inv.run hshape ⟨rfl, hlimbo⟩⟩
  unfold St.cascadeTimer
  simp only
  rw [hok, bind_ok, hnext]
  rfl

/-- Behind the last slot the manager is freed: no node is left. -/
theorem deleteSlots_nil (hs : Shape h nodes) (hd : nodes .detached = []) (hl : nodes .limbo = [])
    (pc : Pc) (inHandler : Bool) (hdone : ∀ s ∈ allSlots, nodes (.slot s) = []) :
    ∃ s', St.deleteSlots ⟨h, true, pc⟩ [] inHandler = .ok s' ∧ s'.Destroyed ∧ Inv s' := by
  have hnone : ∀ n, h.live n = false := by
    intro n
    rw [← Bool.not_eq_true, hs.live_iff]
    rintro ⟨k, hk⟩
    cases k with
    | slot s =>
        rw [hdone s (slot_mem.1 (hs.mem_keys hk))] at hk
        cases hk
    | detached =>
        rw [hd] at hk
        cases hk
    | limbo =>
        rw [hl] at hk
        cases hk
  refine ⟨⟨{ h with manager := false }, true, if inHandler then .tail else .out⟩, ?_, ⟨rfl, rfl⟩,
    Inv.destroyed ⟨rfl, rfl⟩ hnone ?_⟩
  · unfold St.deleteSlots
    simp only
    rw [if_pos hs.manager]
  · cases inHandler with
    | true => exact Or.inr rfl
    | false => exact Or.inl rfl

/-- The next slot is taken up. -/
theorem deleteSlots_cons (hs : Shape h nodes) (hd : nodes .detached = []) (hl : nodes .limbo = [])
    (pc : Pc) {idx : Slot} {todo : List Slot} (inHandler : Bool)
    (htodo : ∀ s ∈ idx :: todo, s ∈ allSlots)
    (hdone : ∀ s ∈ allSlots, s ∉ idx :: todo → nodes (.slot s) = []) :
    ∃ h' nodes' p, St.deleteSlots ⟨h, true, pc⟩ (idx :: todo) inHandler =
        .ok ⟨h', true, .delete todo p inHandler⟩ ∧
      Shape h' nodes' ∧ At nodes' (.delete todo p inHandler) := by
  obtain ⟨h', nodes', hok, hnext, hshape, hlimbo, rfl⟩ :=
    take_shape hs (htodo idx List.mem_cons_self) hd hl
  refine ⟨h', _, first (takeSlot nodes idx .detached), ?_, hshape, rfl, hlimbo, ?_, ?_⟩
  · unfold St.deleteSlots
    simp only
    rw [hok, bind_ok, hnext]
    rfl
  · intro s hs'
    exact htodo s (List.mem_cons_of_mem _ hs')
  · intro s hmem hnot
    rw [takeSlot_slot]
    split
    · rfl
    · next hne =>
        apply hdone s hmem
        rw [List.mem_cons, not_or]
        exact ⟨hne, hnot⟩

theorem deleteSlots_inv (hs : Shape h nodes) (hd : nodes .detached = []) (hl : nodes .limbo = [])
    (pc : Pc) {todo : List Slot} (inHandler : Bool) (htodo : ∀ s ∈ todo, s ∈ allSlots)
    (hdone : ∀ s ∈ allSlots, s ∉ todo → nodes (.slot s) = []) :
    ∃ s', St.deleteSlots ⟨h, true, pc⟩ todo inHandler = .ok s' ∧ Inv s' := by
  cases todo with
  | nil =>
      obtain ⟨s', hok, _, hinv⟩ :=
        deleteSlots_nil hs hd hl pc inHandler fun s hmem => hdone s hmem List.not_mem_nil
      exact ⟨s', hok, hinv⟩
  | cons idx todo =>
      obtain ⟨h', nodes', p, hok, hshape, hat⟩ := deleteSlots_cons hs hd hl pc inHandler htodo hdone
      exact ⟨_, hok, Inv.run hshape hat⟩

/-- A node of the detached list is freed. -/
theorem next_delete_node (hs : Shape h nodes) {n : Nat} {l : List Nat} {todo : List Slot}
    {inHandler : Bool} (hd : nodes .detached = n :: l)
    (hat : At nodes (.delete todo (.node n) inHandler)) :
    ∃ h' nodes', St.next ⟨h, true, .delete todo (.node n) inHandler⟩ =
        .ok ⟨h', true, .delete todo (first l) inHandler⟩ ∧
      Shape h' nodes' ∧ nodes' .detached = l ∧ At nodes' (.delete todo (first l) inHandler) := by
  obtain ⟨_, hl, htodo, hdone⟩ := hat
  obtain ⟨hnext, hpick⟩ := hs.pick hd
  obtain ⟨h', hfree, hshape⟩ := @Shape.free _ _ hpick n (by simp)
  have hrest : drop (toLimbo nodes .detached n) n .detached = l := by
    rw [drop_detached, toLimbo_detached_self, hd, List.erase_cons_head]
  refine ⟨h', _, ?_, hshape, hrest, ?_, ?_, htodo, ?_⟩
  · unfold St.next
    simp only
    rw [hnext, bind_ok, hfree]
    rfl
  · rw [hrest]
  · rw [drop_limbo, toLimbo_limbo, List.erase_cons_head, hl]
  · intro s hmem hnot
    rw [drop_slot, toLimbo_detached_slot]
    exact hdone s hmem hnot

theorem mem_slotList {s : Slot} : s ∈ St.slotList ↔ s ∈ allSlots := by
  obtain ⟨arr, i⟩ := s
  unfold St.slotList
  rw [mem_allSlots]
  simp [List.mem_flatMap]

theorem destroyTimerManager_inv (hs : Shape h nodes) (hd : nodes .detached = [])
    (hl : nodes .limbo = []) (pc : Pc) (inHandler : Bool) :
    ∃ s', St.destroyTimerManager ⟨h, true, pc⟩ inHandler = .ok s' ∧ Inv s' := by
  have hs' : Shape { h with uExitFlag := 1 } nodes := hs.congr rfl rfl rfl
  obtain ⟨s', hok, hinv⟩ := deleteSlots_inv hs' hd hl pc inHandler
    (fun s => mem_slotList.1) (fun s hmem hnot => absurd (mem_slotList.2 hmem) hnot)
  refine ⟨s', ?_, hinv⟩
  unfold St.destroyTimerManager
  simp only [Bool.not_true, Bool.false_eq_true, if_false]
  rw [Heap.checkManager_ok hs.manager, bind_ok]
  exact hok

/-- **Running on** inside a loop. -/
theorem next_inv {pc : Pc} (hs : Shape h nodes) (hat : At nodes pc) :
    ∃ s', St.next ⟨h, true, pc⟩ = .ok s' ∧ Inv s' := by
  unfold St.next
  cases pc with
  | out => exact ⟨_, rfl, Inv.run hs hat⟩
  | tail => exact ⟨_, rfl, Inv.run hs hat⟩
  | loop r =>
      obtain ⟨hd, hl⟩ := hat
      simp only
      rw [Heap.checkManager_ok hs.manager, bind_ok]
      split
      · split
        · exact cascadeTimer_inv hs hd hl _ r (by decide)
        · exact detach_inv hs hd hl _ r
      · exact ⟨_, rfl, Inv.run hs ⟨hd, hl⟩⟩
  | cascade r arr idx p =>
      obtain ⟨rfl, hl⟩ := hat
      simp only
      cases hd : nodes .detached with
      | nil =>
          simp only [first]
          split
          · next hcascade =>
              apply cascadeTimer_inv hs hd hl
              obtain ⟨_, hne⟩ := hcascade
              revert hne
              fin_cases arr <;> decide
          · exact detach_inv hs hd hl _ r
      | cons n l =>
          simp only [first]
          obtain ⟨hnext, _⟩ := hs.pick hd
          obtain ⟨h', nodes', hadd, hshape, hd', hl'⟩ := refile_shape hs hd hl
          rw [hnext, bind_ok, hadd, bind_ok]
          refine ⟨_, rfl, Inv.run hshape ⟨?_, hl'⟩⟩
          rw [hd']
  | expire r p =>
      obtain ⟨rfl, hl⟩ := hat
      simp only
      cases hd : nodes .detached with
      | nil =>
          simp only [first]
          rw [Heap.checkManager_ok hs.manager, bind_ok]
          have hs' : Shape { h with uJiffies := u32 (h.uJiffies + 1) } nodes := hs.congr rfl rfl rfl
          exact ⟨_, rfl, Inv.run hs' ⟨hd, hl⟩⟩
      | cons n l =>
          simp only [first]
          obtain ⟨hnext, hshape⟩ := hs.pick hd
          rw [hnext, bind_ok]
          refine ⟨_, rfl, Inv.run hshape ⟨?_, ?_⟩⟩
          · rw [toLimbo_detached_self, hd, List.erase_cons_head]
          · rw [toLimbo_limbo, hl]
  | callback r t p =>
      obtain ⟨rfl, hl⟩ := hat
      have ht : t ∈ nodes .limbo := by
        rw [hl]
        exact List.mem_cons_self
      simp only
      rw [Heap.check_ok (hs.valid limbo_mem (mem_owned_node.2 ht)), bind_ok]
      split
      · rw [Heap.checkManager_ok hs.manager, bind_ok]
        have hs' : Shape { h with
            uExpires := Function.update h.uExpires t (u32 (h.uJiffies + h.uPeriod t)) } nodes :=
          hs.congr rfl rfl rfl
        obtain ⟨h', hadd, hshape⟩ := hs'.addTimer ht
        rw [hadd, bind_ok]
        refine ⟨_, rfl, Inv.run hshape ⟨?_, ?_⟩⟩
        · rw [file_detached]
        · rw [file_limbo, hl, List.erase_cons_head]
      · obtain ⟨h', hfree, hshape⟩ := hs.free ht
        rw [hfree, bind_ok]
        refine ⟨_, rfl, Inv.run hshape ⟨?_, ?_⟩⟩
        · rw [drop_detached]
        · rw [drop_limbo, hl, List.erase_cons_head]
  | delete todo p inHandler =>
      obtain ⟨rfl, hl, htodo, hdone⟩ := hat
      simp only
      cases hd : nodes .detached with
      | nil =>
          simp only [first]
          exact deleteSlots_inv hs hd hl _ inHandler htodo hdone
      | cons n l =>
          have hat : At nodes (.delete todo (.node n) inHandler) := ⟨by rw [hd]; rfl, hl, htodo, hdone⟩
          obtain ⟨h', nodes', hok, hshape, _, hat'⟩ := next_delete_node hs hd hat
          exact ⟨_, hok, Inv.run hshape hat'⟩

end steps

theorem St.createTimer_null {s : St} (hm : s.timerManager = false) (timerFn : Bool)
    (uDueTime uPeriod : Nat) (malloc : Option Nat) :
    s.createTimer timerFn uDueTime uPeriod malloc = .ok s := by
  unfold St.createTimer
  rw [hm, Bool.not_false, Bool.or_true, if_pos rfl]

/-- With no manager every call takes the branch of its check for it. -/
theorem step_null {s : St} (hm : s.timerManager = false) (hlive : ∀ n, s.heap.live n = false)
    (hpc : s.pc = .out ∨ s.pc = .tail) {e : Ev} (he : Enabled s e) :
    ∃ s', s.step e = .ok s' ∧ Inv s' := by
  have hinv : Inv s := Inv.null hm hlive hpc
  have hout : Inv { s with pc := .out } := Inv.null hm hlive (Or.inl rfl)
  cases e with
  | createTimer f d p m => exact ⟨s, St.createTimer_null hm f d p m, hinv⟩
  | deleteTimer n =>
      refine ⟨s, ?_, hinv⟩
      unfold St.step St.deleteTimer
      rw [hm]
  | destroyTimerManager =>
      refine ⟨{ s with pc := .out }, ?_, hout⟩
      unfold St.step St.destroyTimerManager
      simp [hm]
  | setExitFlag v =>
      rw [he.2] at hm
      cases hm
  | handler r =>
      refine ⟨{ s with pc := .tail }, ?_, Inv.null hm hlive (Or.inr rfl)⟩
      unfold St.step St.handler
      simp [hm]
  | finish sleep =>
      refine ⟨{ s with pc := .out }, ?_, hout⟩
      cases sleep with
      | none => rfl
      | some a => exact @St.createTimer_null { s with pc := .out } hm _ _ _ _
  | next =>
      rcases hpc with hpc | hpc
      · exact absurd hpc he.1
      · exact absurd hpc he.2

/-- Once the manager is freed, the careful calls are those that do not get as far as using it. -/
theorem step_destroyed {s : St} (hdes : s.Destroyed) (hlive : ∀ n, s.heap.live n = false)
    (hpc : s.pc = .out ∨ s.pc = .tail) {e : Ev} (he : Enabled s e) (hc : Careful s e) :
    ∃ s', s.step e = .ok s' ∧ Inv s' := by
  have hinv : Inv s := Inv.destroyed hdes hlive hpc
  cases e with
  | createTimer f d p m =>
      cases f with
      | false => exact ⟨s, rfl, hinv⟩
      | true => exact absurd hdes (hc rfl)
  | deleteTimer n =>
      cases n with
      | none =>
          refine ⟨s, ?_, hinv⟩
          unfold St.step St.deleteTimer
          rw [hdes.1]
      | some n =>
          have hn : s.heap.live n = true := he.2 n rfl
          rw [hlive n] at hn
          cases hn
  | destroyTimerManager => exact absurd hdes hc
  | setExitFlag v => exact absurd hdes hc
  | handler r => exact absurd hdes hc
  | finish sleep =>
      cases sleep with
      | none => exact ⟨_, rfl, Inv.destroyed hdes hlive (Or.inl rfl)⟩
      | some a => exact absurd hdes (hc rfl)
  | next =>
      rcases hpc with hpc | hpc
      · exact absurd hpc he.1
      · exact absurd hpc he.2

theorem Pc.atCall.cases {pc : Pc} (h : pc.atCall) : pc = .out ∨ ∃ r t p, pc = .callback r t p := by
  cases pc with
  | out => exact Or.inl rfl
  | callback r t p => exact Or.inr ⟨r, t, p, rfl⟩
  | _ => exact absurd h id

/-- A call changes the detached list behind its first node only. -/
theorem At.atCall {nodes nodes' : Key → List Nat} {pc : Pc} (hat : At nodes pc)
    (hpc : pc.atCall) (hd : first (nodes' .detached) = first (nodes .detached))
    (hl : nodes' .limbo = nodes .limbo) : At nodes' pc := by
  rcases hpc.cases with rfl | ⟨r, t, p, rfl⟩
  · obtain ⟨hd₀, hl₀⟩ := hat
    refine ⟨?_, by rw [hl, hl₀]⟩
    rw [hd₀] at hd
    exact first_eq_list.1 hd
  · obtain ⟨hp, hl₀⟩ := hat
    exact ⟨by rw [hp, hd], by rw [hl, hl₀]⟩

theorem step_running {h : Heap} {pc : Pc} {nodes : Key → List Nat} (hs : Shape h nodes)
    (hat : At nodes pc) {e : Ev} (he : Enabled ⟨h, true, pc⟩ e) (hc : Careful ⟨h, true, pc⟩ e) :
    ∃ s', St.step ⟨h, true, pc⟩ e = .ok s' ∧ Inv s' := by
  cases e with
  | createTimer f d p m =>
      obtain ⟨hpc, hfresh⟩ := he
      obtain ⟨h', nodes', hok, hshape, hd, hl⟩ := createTimer_shape hs f d p hfresh
      exact ⟨_, hok, Inv.run hshape (hat.atCall hpc (by rw [hd]) hl)⟩
  | deleteTimer n =>
      cases n with
      | none => exact ⟨_, rfl, Inv.run hs hat⟩
      | some n =>
          obtain ⟨hpc, hlive⟩ := he
          have hother : n ∉ nodes .limbo ∧ first (nodes .detached) ≠ .node n := by
            rcases Pc.atCall.cases hpc with hpc | ⟨r, t, p, hpc⟩
            · have hpc' : pc = .out := hpc
              subst hpc'
              rw [hat.1, hat.2]
              exact ⟨List.not_mem_nil, nofun⟩
            · obtain ⟨hnt, hnp⟩ := hc n r t p rfl hpc
              have hpc' : pc = .callback r t p := hpc
              subst hpc'
              obtain ⟨rfl, hl⟩ := hat
              rw [hl, List.mem_singleton]
              exact ⟨hnt, hnp⟩
          obtain ⟨h', nodes', hok, hshape, hd, hl⟩ :=
            deleteTimer_shape hs (hlive n rfl) hother.1 hother.2
          exact ⟨_, hok, Inv.run hshape (hat.atCall hpc hd hl)⟩
  | destroyTimerManager =>
      have hpc : pc = .out := he
      subst hpc
      exact destroyTimerManager_inv hs hat.1 hat.2 _ false
  | setExitFlag v =>
      refine ⟨⟨{ h with uExitFlag := v }, true, pc⟩, ?_, Inv.run (hs.congr rfl rfl rfl) hat⟩
      show (h.checkManager >>= _) = _
      rw [Heap.checkManager_ok hs.manager]
      rfl
  | handler r =>
      have hpc : pc = .out := he
      subst hpc
      unfold St.step St.handler
      simp only [if_true]
      rw [Heap.checkManager_ok hs.manager, bind_ok]
      split
      · exact ⟨_, rfl, Inv.run hs ⟨hat.1, hat.2⟩⟩
      · exact destroyTimerManager_inv hs hat.1 hat.2 _ true
  | finish sleep =>
      obtain ⟨hpc, hfresh⟩ := he
      have hpc' : pc = .tail := hpc
      subst hpc'
      cases sleep with
      | none => exact ⟨⟨h, true, .out⟩, rfl, Inv.run hs ⟨hat.1, hat.2⟩⟩
      | some a =>
          obtain ⟨ms, malloc⟩ := a
          obtain ⟨h', nodes', hok, hshape, hd, hl⟩ :=
            @createTimer_shape h .out nodes hs true ms 0 malloc (hfresh (ms, malloc) rfl)
          refine ⟨_, hok, Inv.run hshape ⟨?_, ?_⟩⟩
          · rw [hd, hat.1]
          · rw [hl, hat.2]
  | next => exact next_inv hs hat

/-- **A careful step does not fault** and keeps the invariant. -/
theorem inv_step {s : St} (hi : Inv s) {e : Ev} (he : Enabled s e) (hc : Careful s e) :
    ∃ s', s.step e = .ok s' ∧ Inv s' := by
  cases hi with
  | null hm hlive hpc => exact step_null hm hlive hpc he
  | destroyed hdes hlive hpc => exact step_destroyed hdes hlive hpc he hc
  | running nodes hm hs hat =>
      obtain ⟨h, m, pc⟩ := s
      have hm' : m = true := hm
      subst hm'
      exact step_running hs hat he hc

/-- The lists of a new manager. -/
theorem shape_empty (r : Nat) :
    Shape ⟨⟨id, id⟩, fun _ => 0, fun _ => 0, fun _ => false, true, 0, r⟩ fun _ => [] := by
  have hempty : Buckets.all keys (fun _ : Key => ([] : List Nat)) = 0 := by
    rw [Multiset.eq_zero_iff_forall_notMem]
    intro n hn
    obtain ⟨k, _, hk⟩ := Buckets.mem_all.1 hn
    cases hk
  refine ⟨fun _ _ => rfl, ?_, ?_, ?_, rfl⟩
  · intro n
    rw [hempty]
    exact Nat.zero_le _
  · intro n
    rw [hempty]
    simp
  · intro k
    cases k with
    | slot s => exact List.isChain_pair.2 ⟨rfl, rfl⟩
    | detached => exact List.isChain_singleton _
    | limbo => trivial

/-- `timer_init` leaves empty slots, with one timer in them. -/
theorem inv_timerInit (r : Nat) (manager : Bool) (malloc : Option Nat) :
    ∃ s, timerInit r manager malloc = .ok s ∧ Inv s ∧ s.pc = .out ∧ ¬ s.Destroyed := by
  cases manager with
  | false => exact ⟨_, rfl, Inv.null rfl (fun _ => rfl) (Or.inl rfl), rfl, fun h => nomatch h.1⟩
  | true =>
      obtain ⟨h', nodes', hok, hshape, hd, hl⟩ :=
        @createTimer_shape _ .out _ (shape_empty r) true 150000 150000 malloc (fun _ _ => rfl)
      refine ⟨_, hok, Inv.run hshape ⟨hd, hl⟩, rfl, ?_⟩
      intro hdes
      have hm : h'.manager = false := hdes.2
      rw [hshape.manager] at hm
      cases hm

theorem careful_inv {o : Except Fault St} (h : (system Careful).Reach o) : ∃ s, o = .ok s ∧ Inv s := by
  refine @Trans.Sys.invariant _ (system Careful) (fun o => ∃ s, o = .ok s ∧ Inv s) ?_ ?_ _ h
  · rintro o ⟨r, manager, malloc, rfl⟩
    obtain ⟨s, hs, hi, _⟩ := inv_timerInit r manager malloc
    exact ⟨s, hs, hi⟩
  · rintro o o' ⟨s, rfl, hi⟩ ⟨s', e, hs', he, hc, rfl⟩
    cases hs'
    exact inv_step hi he hc

/-- One round of `delete_array_list_timer`'s loop is a careful step. -/
theorem steps_delete {s s' : St} {todo : List Slot} {p : Ptr} {inHandler : Bool}
    (hpc : s.pc = .delete todo p inHandler) (hnext : s.next = .ok s') :
    (system Careful).Steps (.ok s) (.ok s') := by
  have henabled : Enabled s .next := by
    unfold Enabled
    rw [hpc]
    exact ⟨nofun, nofun⟩
  exact (Trans.Sys.Steps.refl _ _).tail ⟨s, .next, rfl, henabled, trivial, hnext.symm⟩

/-- `delete_array_list_timer` empties the list it has taken over. -/
theorem delete_list_ends {h : Heap} {nodes : Key → List Nat} {todo : List Slot} {p : Ptr}
    {inHandler : Bool} (hs : Shape h nodes) (hat : At nodes (.delete todo p inHandler)) :
    ∃ h' nodes', (system Careful).Steps (.ok ⟨h, true, .delete todo p inHandler⟩)
        (.ok ⟨h', true, .delete todo .list inHandler⟩) ∧
      Shape h' nodes' ∧ nodes' .detached = [] ∧ At nodes' (.delete todo .list inHandler) := by
  generalize hd : nodes .detached = l
  induction l generalizing h nodes p with
  | nil =>
      obtain rfl : p = .list := hat.1.trans (first_eq_list.2 hd)
      exact ⟨h, nodes, Trans.Sys.Steps.refl _ _, hs, hd, hat⟩
  | cons n l ih =>
      obtain rfl : p = .node n := by rw [hat.1, hd]; rfl
      obtain ⟨h', nodes', hok, hshape, hrest, hat'⟩ := next_delete_node hs hd hat
      obtain ⟨h'', nodes'', hsteps, hend⟩ := ih hshape hat' hrest
      exact ⟨h'', nodes'', (steps_delete rfl hok).trans hsteps, hend⟩

/-- **`destroy_timer_manager` ends**, by induction on the slots to come. -/
theorem delete_ends {h : Heap} {nodes : Key → List Nat} {todo : List Slot} {p : Ptr} {inHandler : Bool}
    (hs : Shape h nodes) (hat : At nodes (.delete todo p inHandler)) :
    ∃ s', (system Careful).Steps (.ok ⟨h, true, .delete todo p inHandler⟩) (.ok s') ∧ s'.Destroyed := by
  induction todo generalizing h nodes p with
  | nil =>
      obtain ⟨h', nodes', hlist, hs', hd, _, hl, _, hdone⟩ := delete_list_ends hs hat
      obtain ⟨s', hok, hdes, _⟩ := deleteSlots_nil hs' hd hl (.delete [] .list inHandler) inHandler
        fun s hmem => hdone s hmem List.not_mem_nil
      exact ⟨s', hlist.trans (steps_delete rfl hok), hdes⟩
  | cons idx todo ih =>
      obtain ⟨h', nodes', hlist, hs', hd, _, hl, htodo, hdone⟩ := delete_list_ends hs hat
      obtain ⟨h'', nodes'', p', hok, hshape, hat'⟩ :=
        deleteSlots_cons hs' hd hl (.delete (idx :: todo) .list inHandler) inHandler htodo hdone
      have hslot := steps_delete (s := ⟨h', true, .delete (idx :: todo) .list inHandler⟩) rfl hok
      obtain ⟨s', hsteps, hdes⟩ := ih hshape hat'
      exact ⟨s', (hlist.trans hslot).trans hsteps, hdes⟩

/-- `destroy_timer_manager` called outside the timer code runs until the manager is freed. -/
theorem destroy_ends {s : St} (hi : Inv s) (hpc : s.pc = .out) (hm : s.timerManager = true) :
    ∃ s', (system Careful).Steps (.ok s) (.ok s') ∧ s'.Destroyed := by
  cases hi with
  | null hnull => exact absurd (hnull.symm.trans hm) nofun
  | destroyed hdes => exact ⟨s, Trans.Sys.Steps.refl _ _, hdes⟩
  | running nodes _ hs hat =>
      obtain ⟨h, m, pc⟩ := s
      obtain rfl : pc = .out := hpc
      obtain rfl : m = true := hm
      obtain ⟨hd, hl⟩ := hat
      have hs' : Shape { h with uExitFlag := 1 } nodes := hs.congr rfl rfl rfl
      have hcall : St.step ⟨h, true, .out⟩ .destroyTimerManager =
          St.deleteSlots ⟨{ h with uExitFlag := 1 }, true, .out⟩ ((0, 0) :: St.slotList.tail) false := by
        unfold St.step St.destroyTimerManager
        simp only [Bool.not_true, Bool.false_eq_true, if_false]
        rw [Heap.checkManager_ok hs.manager, bind_ok]
        rfl
      have hslots : ∀ s, s ∈ (0, 0) :: St.slotList.tail ↔ s ∈ allSlots := fun _ => mem_slotList
      obtain ⟨h', nodes', p, hok, hshape, hat'⟩ := deleteSlots_cons hs' hd hl .out false
        (fun s => (hslots s).1) (fun s hmem hnot => absurd ((hslots s).2 hmem) hnot)
      have hlive : ¬ St.Destroyed ⟨h, true, .out⟩ := fun hdes => absurd (hs.manager.symm.trans hdes.2) nofun
      have hstep : (system Careful).step (.ok ⟨h, true, .out⟩) (.ok ⟨h', true, .delete _ p false⟩) :=
        ⟨_, .destroyTimerManager, rfl, rfl, hlive, (hcall.trans hok).symm⟩
      obtain ⟨s', hsteps, hdes⟩ := delete_ends hshape hat'
      exact ⟨s', ((Trans.Sys.Steps.refl _ _).tail hstep).trans hsteps, hdes⟩

/-- **Timer storage is safe in every run of careful steps**: no operation uses or frees storage that
is not allocated, and once the manager is freed so is every node. -/
theorem storage_safe {o : Except Fault St} (h : (system Careful).Reach o) :
    ∃ s, o = .ok s ∧ (s.Destroyed → ∀ n, s.heap.live n = false) := by
  obtain ⟨s, rfl, hi⟩ := careful_inv h
  refine ⟨s, rfl, ?_⟩
  intro hdes
  cases hi with
  | null hm _ _ =>
      rw [hdes.1] at hm
      cases hm
  | destroyed _ hlive _ => exact hlive
  | running nodes _ hs _ =>
      have hm := hs.manager
      rw [hdes.2] at hm
      cases hm

/-! ## Runs that are evaluated -/

instance (s : St) (malloc : Option Nat) : Decidable (Fresh s malloc) := by
  unfold Fresh; infer_instance

instance (pc : Pc) : Decidable pc.atCall := by
  cases pc <;> (unfold Pc.atCall; infer_instance)

instance (s : St) (e : Ev) : Decidable (Enabled s e) := by
  cases e <;> (unfold Enabled; infer_instance)

/-- A callback that deletes a timer looks at the timer it is called for and at the saved pointer. -/
def Pc.mayDelete (n : Nat) : Pc → Prop
  | .callback _ t p => n ≠ t ∧ p ≠ .node n
  | _ => True

instance (n : Nat) (pc : Pc) : Decidable (pc.mayDelete n) := by
  cases pc <;> (unfold Pc.mayDelete; infer_instance)

theorem Pc.mayDelete_iff {n : Nat} {pc : Pc} :
    pc.mayDelete n ↔ ∀ r t p, pc = .callback r t p → n ≠ t ∧ p ≠ .node n := by
  cases pc with
  | callback r t p =>
      constructor
      · rintro h _ _ _ ⟨⟩
        exact h
      · intro h
        exact h r t p rfl
  | _ => exact ⟨fun _ => nofun, fun _ => trivial⟩

instance (s : St) : Decidable s.Destroyed := inferInstanceAs (Decidable (_ ∧ _))

instance (s : St) : (e : Ev) → Decidable (Careful s e)
  | .createTimer _ _ _ _ => inferInstanceAs (Decidable (_ → ¬ s.Destroyed))
  | .deleteTimer none => .isTrue nofun
  | .deleteTimer (some n) => decidable_of_iff (s.pc.mayDelete n) <| Pc.mayDelete_iff.trans
      ⟨fun h _ r t p heq => Option.some.inj heq ▸ h r t p, fun h r t p => h n r t p rfl⟩
  | .destroyTimerManager => inferInstanceAs (Decidable (¬ s.Destroyed))
  | .setExitFlag _ => inferInstanceAs (Decidable (¬ s.Destroyed))
  | .handler _ => inferInstanceAs (Decidable (¬ s.Destroyed))
  | .finish _ => inferInstanceAs (Decidable (_ → ¬ s.Destroyed))
  | .next => .isTrue trivial

/-- The step for an event, if that can happen and meets the condition. -/
def nextIf (cond : St → Ev → Prop) [∀ s e, Decidable (cond s e)] (o : Except Fault St) (e : Ev) :
    Option (Except Fault St) :=
  match o with
  | .error _ => none
  | .ok s => if Enabled s e ∧ cond s e then some (s.step e) else none

theorem step_nextIf {cond : St → Ev → Prop} [∀ s e, Decidable (cond s e)] (o : Except Fault St) (e : Ev)
    (o' : Except Fault St) (h : nextIf cond o e = some o') : (system cond).step o o' := by
  cases o with
  | error f => cases h
  | ok s =>
      obtain ⟨hc, heq⟩ := Option.ite_none_right_eq_some.1 h
      exact ⟨s, e, rfl, hc.1, hc.2, (Option.some.inj heq).symm⟩

/-- The state a run has come to. -/
def ended : Option (Except Fault St) → Option St
  | some (.ok s) => some s
  | _ => none

/-- A timer expires whose callback deletes a third one, then the next expires. -/
def deletingRun : List Ev :=
  [.createTimer true 1 0 (some 1), .createTimer true 1 0 (some 2), .createTimer true 5 0 (some 3),
    .createTimer true 700 700 (some 4), .handler 2,
    -- tick 1, then tick 2 with its two timers
    .next, .next, .next, .next, .deleteTimer (some 3), .next, .next, .next, .next, .next, .finish none]

/-- After that run the timer of `clean_dead_task` and the periodic one are pending; the manager is
destroyed, and they are freed. -/
theorem storage_safe_destroyed :
    ∃ s s', (system Careful).Reach (.ok s) ∧
      [0, 1, 2, 3, 4].map s.heap.live = [true, false, false, false, true] ∧
      (system Careful).Steps (.ok s) (.ok s') ∧ s'.Destroyed ∧ ∀ n, s'.heap.live n = false := by
  have hinit : (system Careful).Reach (timerInit 1 true (some 0)) := .init ⟨1, true, some 0, rfl⟩
  have hrun : (ended (deletingRun.foldlM (nextIf Careful) (timerInit 1 true (some 0)))).map
      (fun s => (s.pc, s.timerManager, [0, 1, 2, 3, 4].map s.heap.live)) =
        some (.out, true, [true, false, false, false, true]) := by
    decide +kernel
  generalize hend : deletingRun.foldlM (nextIf Careful) (timerInit 1 true (some 0)) = o at hrun
  match o, hrun with
  | some (.ok s), hrun =>
      have hreach := hinit.foldlM step_nextIf hend
      obtain ⟨hpc, hm, hlive⟩ : s.pc = .out ∧ s.timerManager = true ∧
          [0, 1, 2, 3, 4].map s.heap.live = [true, false, false, false, true] := by
        simpa [ended] using hrun
      obtain ⟨_, hs, hi⟩ := careful_inv hreach
      cases hs
      obtain ⟨s', hsteps, hdes⟩ := destroy_ends hi hpc hm
      obtain ⟨_, hs', hfreed⟩ := storage_safe (hreach.steps hsteps)
      cases hs'
      exact ⟨s, s', hreach, hlive, hsteps, hdes, hfreed hdes⟩

/-! ## Runs that are not careful -/

/-- The freed manager passes every check for `NULL`, and is used. -/
theorem destroyed_faults {s : St} (hdes : s.Destroyed) :
    (∀ r, s.handler r = .error .access) ∧ (∀ b, s.destroyTimerManager b = .error .access) ∧
      ∀ d p n, s.createTimer true d p (some n) = .error .access := by
  obtain ⟨h, m, pc⟩ := s
  obtain ⟨hm, hfreed⟩ := hdes
  have hm' : m = true := hm
  have hfreed' : h.manager = false := hfreed
  subst hm'
  have hcheck : ∀ h' : Heap, h'.manager = h.manager → h'.checkManager = .error .access := by
    intro h' heq
    unfold Heap.checkManager
    rw [heq, hfreed']
    rfl
  refine ⟨?_, ?_, ?_⟩
  · intro r
    unfold St.handler
    simp only [if_true]
    rw [hcheck h rfl]
    rfl
  · intro b
    unfold St.destroyTimerManager
    simp only [Bool.not_true, Bool.false_eq_true, if_false]
    rw [hcheck h rfl]
    rfl
  · intro d p n
    unfold St.createTimer
    have hused : ({ h with
        live := Function.update h.live n true
        uPeriod := Function.update h.uPeriod n p } : Heap).checkManager = .error .access :=
      hcheck _ rfl
    simp only [Bool.not_true, Bool.or_self, Bool.false_eq_true, if_false]
    rw [hused]
    rfl

/-- The run ends in a fault. -/
def faulty : Option (Except Fault St) → Bool
  | some (.error _) => true
  | _ => false

/-- Two timers are due in the same tick, and the callback of the first deletes the second: `run_timer`
goes on to a node that has been freed. -/
theorem storage_faults : ∃ f, (system fun _ _ => True).Reach (.error f) := by
  have hinit : (system fun _ _ => True).Reach (timerInit 1 true (some 0)) := .init ⟨1, true, some 0, rfl⟩
  have hrun : faulty (List.foldlM (nextIf fun _ _ => True) (timerInit 1 true (some 0))
      [.createTimer true 1 0 (some 1), .createTimer true 1 0 (some 2), .handler 2, .next, .next,
        .next, .next, .deleteTimer (some 2), .next, .next]) = true := by decide +kernel
  generalize hend : List.foldlM (nextIf fun _ _ => True) (timerInit 1 true (some 0)) _ = o at hrun
  match o, hrun with
  | some (.error f), _ => exact ⟨f, hinit.foldlM step_nextIf hend⟩

end ThreadSched.Storage
