import ThreadSched.Timer.StorageSafe

/-!
# `cascade_timer` on the pointers

* `Slotted h nodes` — every slot's pointers form a ring of its nodes, and no node is in two slots.
* `Walking h nodes rest` — the nodes that `cascade_timer` has not moved yet hang on the head on its
  stack.
* `Walking.step` — one round of the loop: the node is the next one, and `add_timer` puts it behind the
  nodes of the slot it chooses, even when that is the slot that was emptied.
* `cascadeLoop_eq` — the whole walk.
* `cascadeLoop_iterate` — the loop is what the steps of `St.next` do.
-/

set_option autoImplicit false

namespace ThreadSched.Storage

open Wheel Rings

/-- The loop of `cascade_timer`, and the nodes it goes through; `none` when the fuel runs out. -/
def Heap.cascadeLoop : Nat → Heap → Ptr → Except Fault (Option (Heap × List Nat))
  | 0, _, _ => .ok none
  | _ + 1, h, .list => .ok (some (h, []))
  | fuel + 1, h, .node pTmr => do
      let pListTimer ← h.getNext (.node pTmr)
      let h ← h.addTimer pTmr
      let r ← cascadeLoop fuel h pListTimer
      pure (r.map fun r => (r.1, pTmr :: r.2))
  | _ + 1, _, .head _ => .error .access

/-- `cascade_timer`, with the nodes its loop goes through and the index it returns. -/
def Heap.cascadeTimer (h : Heap) (arrListTimer : Fin 5) (idx fuel : Nat) :
    Except Fault (Option (Heap × List Nat × Nat)) := do
  let h ← h.listTimerReplaceInit (.head (arrListTimer, idx)) .list
  let pListTimer ← h.getNext .list
  let r ← Heap.cascadeLoop fuel h pListTimer
  pure (r.map fun r => (r.1, r.2, idx))

theorem exists_of_bind {β γ : Type} {m : Except Fault β} {f : β → Except Fault γ} {c : γ}
    (hm : m >>= f = .ok c) : ∃ b, m = .ok b ∧ f b = .ok c := by
  cases m with
  | error e => cases hm
  | ok b => exact ⟨b, rfl, hm⟩

/-- The loop is what the steps of the run do, one round a step. -/
theorem cascadeLoop_iterate {fuel : Nat} {h h' : Heap} {p : Ptr} {visited : List Nat} (m : Bool)
    (r : Nat) (arr : Fin 5) (idx : Nat)
    (hloop : Heap.cascadeLoop fuel h p = .ok (some (h', visited))) :
    (fun o : Except Fault St => o >>= St.next)^[visited.length] (.ok ⟨h, m, .cascade r arr idx p⟩) =
      .ok ⟨h', m, .cascade r arr idx .list⟩ := by
  induction fuel generalizing h p visited with
  | zero => cases hloop
  | succ fuel ih =>
      cases p with
      | list =>
          cases hloop
          rfl
      | head s => cases hloop
      | node n =>
          obtain ⟨q, hnext, hloop⟩ := exists_of_bind hloop
          obtain ⟨h₁, hadd, hloop⟩ := exists_of_bind hloop
          obtain ⟨o, hrest, hloop⟩ := exists_of_bind hloop
          cases o with
          | none => cases hloop
          | some o =>
              cases hloop
              have hround : St.next ⟨h, m, .cascade r arr idx (.node n)⟩ =
                  .ok ⟨h₁, m, .cascade r arr idx q⟩ := by
                unfold St.next
                simp only
                rw [hnext, bind_ok, hadd, bind_ok]
                rfl
              rw [List.length_cons, Function.iterate_succ_apply, bind_ok, hround]
              exact ih hrest

/-! ## The slots -/

/-- The slots hold their nodes. -/
structure Slotted (h : Heap) (nodes : Slot → List Nat) : Prop where
  ring : ∀ s ∈ allSlots, Rings.Ring h.links (.head s) ((nodes s).map .node)
  nodup : ∀ s ∈ allSlots, (nodes s).Nodup
  apart : ∀ s ∈ allSlots, ∀ t ∈ allSlots, s ≠ t → ∀ n ∈ nodes s, n ∉ nodes t
  live : ∀ s ∈ allSlots, ∀ n ∈ nodes s, h.live n = true
  manager : h.manager = true

/-- The nodes of `rest` hang on the head on the stack, and are in no slot. -/
structure Walking (h : Heap) (nodes : Slot → List Nat) (rest : List Nat) : Prop where
  slotted : Slotted h nodes
  chain : Chain h.links (rest.map .node ++ [.list])
  nodup : rest.Nodup
  free : ∀ n ∈ rest, ∀ s ∈ allSlots, n ∉ nodes s
  live : ∀ n ∈ rest, h.live n = true

/-- One more node at the tail of a slot. -/
def append (nodes : Slot → List Nat) (s : Slot) (n : Nat) : Slot → List Nat :=
  Function.update nodes s (nodes s ++ [n])

variable {h : Heap} {nodes : Slot → List Nat} {s : Slot} {n : Nat} {rest : List Nat}

theorem mem_append_iff {t : Slot} {m : Nat} :
    m ∈ append nodes s n t ↔ m ∈ nodes t ∨ t = s ∧ m = n := by
  unfold append
  by_cases ht : t = s
  · subst ht
    rw [Function.update_self]
    simp
  · rw [Function.update_of_ne ht]
    simp [ht]

namespace Slotted

theorem nodup_ring (hw : Slotted h nodes) (hs : s ∈ allSlots) :
    (Ptr.head s :: (nodes s).map Ptr.node).Nodup := by
  rw [List.nodup_cons]
  constructor
  · simp
  · exact (hw.nodup s hs).map fun _ _ heq => Ptr.node.inj heq

/-- Two slots have no pointer in common. -/
theorem disjoint (hw : Slotted h nodes) {t : Slot} (hs : s ∈ allSlots) (ht : t ∈ allSlots)
    (hne : t ≠ s) {p : Ptr} (hp : p ∈ Ptr.head s :: (nodes s).map Ptr.node) :
    p ∉ Ptr.head t :: (nodes t).map Ptr.node := by
  intro hmem
  cases p with
  | list => simp at hp
  | head u =>
      have hus : u = s := by simpa using hp
      have hut : u = t := by simpa using hmem
      exact hne (hut.symm.trans hus)
  | node m =>
      have hms : m ∈ nodes s := by simpa using hp
      have hmt : m ∈ nodes t := by simpa using hmem
      exact hw.apart s hs t ht (Ne.symm hne) m hms hmt

theorem valid (hw : Slotted h nodes) (hs : s ∈ allSlots) {p : Ptr}
    (hp : p ∈ Ptr.head s :: (nodes s).map Ptr.node) : h.valid p = true := by
  cases p with
  | list => rfl
  | head u =>
      have hus : u = s := by simpa using hp
      subst hus
      show (h.manager && decide (u.2 < slots u.1)) = true
      rw [hw.manager, Bool.true_and, decide_eq_true_iff]
      exact mem_allSlots.1 hs
  | node m =>
      have hm : m ∈ nodes s := by simpa using hp
      exact hw.live s hs m hm

/-- No pointer of a slot leads to the head on the stack. -/
theorem ne_list (hw : Slotted h nodes) (hs : s ∈ allSlots) {p : Ptr}
    (hp : p ∈ Ptr.head s :: (nodes s).map Ptr.node) :
    h.links.next p ≠ .list ∧ h.links.prev p ≠ .list := by
  have hring := hw.ring s hs
  have hmem : h.links.next p ∈ Ptr.head s :: (nodes s).map Ptr.node ∧
      h.links.prev p ∈ Ptr.head s :: (nodes s).map Ptr.node := by
    rw [List.mem_cons] at hp
    rcases hp with rfl | hp
    · exact ⟨hring.next_mem, hring.prev_mem⟩
    · obtain ⟨l₁, l₂, hl⟩ := List.append_of_mem hp
      have hends : ∀ q ∈ Ptr.head s :: (l₁ ++ p :: l₂ ++ [.head s]),
          q ∈ Ptr.head s :: (l₁ ++ p :: l₂) := by
        intro q hq
        rw [List.mem_cons, List.mem_append, List.mem_singleton] at hq
        rcases hq with rfl | hq | rfl
        · exact List.mem_cons_self
        · exact List.mem_cons_of_mem _ hq
        · exact List.mem_cons_self
      unfold Rings.Ring at hring
      rw [hl] at hring ⊢
      obtain ⟨hprev, hnext⟩ := hring.neighbours_mem
      exact ⟨hends _ hnext, hends _ hprev⟩
  constructor
  · intro heq
    rw [heq] at hmem
    simp at hmem
  · intro heq
    rw [heq] at hmem
    simp at hmem

/-- `list_timer_replace_init` of a slot by the head on the stack. -/
theorem takeSlot (hw : Slotted h nodes) (hs : s ∈ allSlots) :
    ∃ h', h.listTimerReplaceInit (.head s) .list = .ok h' ∧
      h' = { h with links := h'.links } ∧
      Rings.Ring h'.links .list ((nodes s).map .node) ∧ Rings.Ring h'.links (.head s) [] ∧
      Walking h' (Function.update nodes s []) (nodes s) := by
  have hring := hw.ring s hs
  have hlist : Ptr.list ∉ Ptr.head s :: (nodes s).map Ptr.node := by simp
  obtain ⟨hnew, hold⟩ := hring.replaceInit (hw.nodup_ring hs) hlist
  have hself : Ptr.head s ∈ Ptr.head s :: (nodes s).map Ptr.node := List.mem_cons_self
  refine ⟨{ h with links := h.links.replaceInit (.head s) .list }, ?_, rfl, hnew, hold, ?_⟩
  · exact Heap.listTimerReplaceInit_ok (hw.valid hs hself) rfl (hw.valid hs hring.next_mem)
      (hw.valid hs hring.prev_mem)
  · have hsub : ∀ t m, m ∈ Function.update nodes s [] t → t ≠ s ∧ m ∈ nodes t := by
      intro t m hm
      by_cases ht : t = s
      · subst ht
        rw [Function.update_self] at hm
        cases hm
      · rw [Function.update_of_ne ht] at hm
        exact ⟨ht, hm⟩
    refine ⟨⟨?_, ?_, ?_, ?_, hw.manager⟩, Chain.of_cons hnew, hw.nodup s hs, ?_, hw.live s hs⟩
    · intro t ht
      by_cases hts : t = s
      · subst hts
        rw [Function.update_self]
        exact hold
      · rw [Function.update_of_ne hts]
        apply (hw.ring t ht).frame (replaceInit_sameOff _ _ _)
        intro p hp
        simp only [List.mem_cons, List.not_mem_nil, or_false, not_or]
        have hoff : ∀ q ∈ Ptr.head s :: (nodes s).map Ptr.node, p ≠ q := by
          rintro q hq rfl
          exact hw.disjoint hs ht hts hq hp
        refine ⟨hoff _ hself, ?_, hoff _ hring.prev_mem, hoff _ hring.next_mem⟩
        rintro rfl
        simp at hp
    · intro t ht
      by_cases hts : t = s
      · subst hts
        rw [Function.update_self]
        exact List.nodup_nil
      · rw [Function.update_of_ne hts]
        exact hw.nodup t ht
    · intro t ht u hu htu m hm hm'
      exact hw.apart t ht u hu htu m (hsub t m hm).2 (hsub u m hm').2
    · intro t ht m hm
      exact hw.live t ht m (hsub t m hm).2
    · intro m hm t ht hm'
      obtain ⟨hts, hm'⟩ := hsub t m hm'
      exact hw.apart t ht s hs hts m hm' hm

end Slotted

/-! ## The walk -/

/-- **One round of the loop.** -/
theorem Walking.step (hw : Walking h nodes (n :: rest)) :
    h.getNext (.node n) = .ok (first rest) ∧
    ∃ h', h.addTimer n = .ok h' ∧ h' = { h with links := h'.links } ∧
      Walking h' (append nodes (pHead h.uJiffies (h.uExpires n)) n) rest := by
  have hs := pHead_mem h.uJiffies (h.uExpires n)
  generalize hsl : pHead h.uJiffies (h.uExpires n) = s at hs
  have hlive : h.valid (.node n) = true := hw.live n List.mem_cons_self
  have hring := hw.slotted.ring s hs
  have hself : Ptr.head s ∈ Ptr.head s :: (nodes s).map Ptr.node := List.mem_cons_self
  have hnew : ∀ t ∈ allSlots, Ptr.node n ∉ Ptr.head t :: (nodes t).map Ptr.node := by
    intro t ht hmem
    exact hw.free n List.mem_cons_self t ht (by simpa using hmem)
  have hchain := hw.chain
  rw [List.map_cons, List.cons_append] at hchain
  constructor
  · rw [Heap.getNext_ok hlive]
    cases rest with
    | nil => rw [hchain.next_head]; rfl
    | cons m rest => rw [hchain.next_head]; rfl
  · refine ⟨{ h with links := h.links.insertBetween (.node n) (h.links.prev (.head s)) (.head s) },
      ?_, rfl, ?_⟩
    · unfold Heap.addTimer Heap.listTimerInsertTail
      rw [Heap.check_ok hlive, bind_ok, Heap.checkManager_ok hw.slotted.manager, bind_ok, hsl,
        Heap.getPrev_ok (hw.slotted.valid hs hself), bind_ok]
      exact Heap.listTimerInsert_ok hlive (hw.slotted.valid hs hring.prev_mem)
        (hw.slotted.valid hs hself)
    · -- the writes go to the node, to the head and to the node before it
      have hsame := insertBetween_sameOff h.links (.node n) (h.links.prev (.head s)) (.head s)
      have hother : ∀ t ∈ allSlots, t ≠ s → ∀ p ∈ Ptr.head t :: (nodes t).map Ptr.node,
          p ∉ [Ptr.node n, h.links.prev (.head s), .head s] := by
        intro t ht hts p hp
        simp only [List.mem_cons, List.not_mem_nil, or_false, not_or]
        refine ⟨?_, ?_, ?_⟩
        · rintro rfl
          exact hnew t ht hp
        · rintro rfl
          exact hw.slotted.disjoint hs ht hts hring.prev_mem hp
        · rintro rfl
          exact hw.slotted.disjoint hs ht hts hself hp
      have hnodup := List.nodup_cons.1 hw.nodup
      have hrest : ∀ p ∈ rest.map Ptr.node ++ [.list],
          p ∉ [Ptr.node n, h.links.prev (.head s), .head s] := by
        intro p hp
        have hprev := hring.prev_mem
        cases p with
        | head u => simp at hp
        | list =>
            simp only [List.mem_cons, List.not_mem_nil, or_false, not_or]
            refine ⟨nofun, ?_, nofun⟩
            intro heq
            rw [← heq] at hprev
            simp at hprev
        | node m =>
            have hm : m ∈ rest := by simpa using hp
            simp only [List.mem_cons, List.not_mem_nil, or_false, not_or]
            refine ⟨?_, ?_, nofun⟩
            · rintro ⟨⟩
              exact hnodup.1 hm
            · intro heq
              rw [← heq] at hprev
              exact hw.free m (List.mem_cons_of_mem _ hm) s hs (by simpa using hprev)
      refine ⟨⟨?_, ?_, ?_, ?_, hw.slotted.manager⟩, ?_, hnodup.2, ?_, ?_⟩
      · intro t ht
        unfold append
        by_cases hts : t = s
        · subst hts
          rw [Function.update_self, List.map_append]
          exact hring.insertTail (hw.slotted.nodup_ring hs) (hnew t hs)
        · rw [Function.update_of_ne hts]
          exact (hw.slotted.ring t ht).frame hsame (hother t ht hts)
      · intro t ht
        unfold append
        by_cases hts : t = s
        · subst hts
          rw [Function.update_self, List.nodup_append_comm]
          exact List.nodup_cons.2 ⟨hw.free n List.mem_cons_self t ht, hw.slotted.nodup t ht⟩
        · rw [Function.update_of_ne hts]
          exact hw.slotted.nodup t ht
      · intro t ht u hu htu m hm hm'
        rw [mem_append_iff] at hm hm'
        rcases hm with hm | ⟨rfl, rfl⟩
        · rcases hm' with hm' | ⟨rfl, rfl⟩
          · exact hw.slotted.apart t ht u hu htu m hm hm'
          · exact hw.free m List.mem_cons_self t ht hm
        · rcases hm' with hm' | ⟨hut, _⟩
          · exact hw.free m List.mem_cons_self u hu hm'
          · exact htu hut.symm
      · intro t ht m hm
        rw [mem_append_iff] at hm
        rcases hm with hm | ⟨_, rfl⟩
        · exact hw.slotted.live t ht m hm
        · exact hw.live m List.mem_cons_self
      · exact hchain.of_cons.frame hsame hrest
      · intro m hm t ht hm'
        rw [mem_append_iff] at hm'
        rcases hm' with hm' | ⟨_, rfl⟩
        · exact hw.free m (List.mem_cons_of_mem _ hm) t ht hm'
        · exact hnodup.1 hm
      · intro m hm
        exact hw.live m (List.mem_cons_of_mem _ hm)

/-- The slots after `add_timer` of the nodes of `l`, one after another. -/
def filed (h : Heap) (l : List Nat) (nodes : Slot → List Nat) : Slot → List Nat :=
  fun s => nodes s ++ l.filter fun n => decide (pHead h.uJiffies (h.uExpires n) = s)

theorem filed_cons (h : Heap) (n : Nat) (l : List Nat) (nodes : Slot → List Nat) :
    filed h (n :: l) nodes = filed h l (append nodes (pHead h.uJiffies (h.uExpires n)) n) := by
  funext s
  unfold filed append
  by_cases hs : s = pHead h.uJiffies (h.uExpires n)
  · rw [hs, Function.update_self, List.filter_cons_of_pos (by simp), List.append_assoc]
    rfl
  · rw [Function.update_of_ne hs, List.filter_cons_of_neg (by simpa using Ne.symm hs)]

/-- **The walk** goes through the nodes once each, in order, and files them. -/
theorem Walking.cascadeLoop_eq {fuel : Nat} (hw : Walking h nodes rest) (hfuel : rest.length < fuel) :
    ∃ h', Heap.cascadeLoop fuel h (first rest) = .ok (some (h', rest)) ∧
      h' = { h with links := h'.links } ∧ Slotted h' (filed h rest nodes) := by
  induction rest generalizing h nodes fuel with
  | nil =>
      obtain ⟨fuel, rfl⟩ := Nat.exists_eq_succ_of_ne_zero (Nat.ne_of_gt hfuel)
      refine ⟨h, rfl, rfl, ?_⟩
      have hsame : filed h [] nodes = nodes := by
        funext s
        exact List.append_nil _
      rw [hsame]
      exact hw.slotted
  | cons n rest ih =>
      obtain ⟨fuel, rfl⟩ := Nat.exists_eq_succ_of_ne_zero (Nat.ne_of_gt (Nat.zero_lt_of_lt hfuel))
      obtain ⟨hnext, h₁, hadd, hheap₁, hw₁⟩ := hw.step
      obtain ⟨h₂, hloop, hheap₂, hslots⟩ := ih hw₁ (Nat.lt_of_succ_lt_succ hfuel)
      refine ⟨h₂, ?_, ?_, ?_⟩
      · show Heap.cascadeLoop (fuel + 1) h (.node n) = _
        unfold Heap.cascadeLoop
        rw [hnext, bind_ok, hadd, bind_ok, hloop, bind_ok]
        rfl
      · rw [hheap₂, hheap₁]
      · rw [filed_cons]
        have hsame : filed h₁ rest = filed h rest := by rw [hheap₁]; rfl
        rw [← hsame]
        exact hslots

/-- **`cascade_timer`** takes the whole slot, goes through its nodes once each, in order, and files
every one at the tail of the slot `add_timer` chooses; the other nodes stay where they are, and
nothing is left that points at the head on its stack. -/
theorem cascadeTimer_spec (h : Heap) (nodes : Slot → List Nat) (hw : Slotted h nodes)
    (arr : Fin 5) (idx : Nat) (hidx : idx < slots arr) :
    (∃ h', h.listTimerReplaceInit (.head (arr, idx)) .list = .ok h' ∧
      Rings.Ring h'.links .list ((nodes (arr, idx)).map .node) ∧
      Rings.Ring h'.links (.head (arr, idx)) [] ∧
      Slotted h' (Function.update nodes (arr, idx) [])) ∧
    ∀ fuel, (nodes (arr, idx)).length < fuel →
      ∃ h', h.cascadeTimer arr idx fuel = .ok (some (h', nodes (arr, idx), idx)) ∧
        h' = { h with links := h'.links } ∧
        Slotted h' (filed h (nodes (arr, idx)) (Function.update nodes (arr, idx) [])) ∧
        ∀ s ∈ allSlots, ∀ p ∈ Ptr.head s ::
            (filed h (nodes (arr, idx)) (Function.update nodes (arr, idx) []) s).map Ptr.node,
          h'.links.next p ≠ .list ∧ h'.links.prev p ≠ .list := by
  have hs : (arr, idx) ∈ allSlots := mem_allSlots.2 hidx
  obtain ⟨h₁, htake, hheap₁, hnew, hold, hwalk⟩ := hw.takeSlot hs
  refine ⟨⟨h₁, htake, hnew, hold, hwalk.slotted⟩, ?_⟩
  intro fuel hfuel
  obtain ⟨h₂, hloop, hheap₂, hslots⟩ := hwalk.cascadeLoop_eq hfuel
  have hfirst : h₁.getNext .list = .ok (first (nodes (arr, idx))) := by
    rw [Heap.getNext_ok rfl, hnew.next_eq]
    cases nodes (arr, idx) with
    | nil => rfl
    | cons n l => rfl
  have hsame : filed h₁ (nodes (arr, idx)) = filed h (nodes (arr, idx)) := by rw [hheap₁]; rfl
  rw [hsame] at hslots
  refine ⟨h₂, ?_, ?_, hslots, ?_⟩
  · unfold Heap.cascadeTimer
    rw [htake, bind_ok, hfirst, bind_ok, hloop, bind_ok]
    rfl
  · rw [hheap₂, hheap₁]
  · intro s hs p hp
    exact hslots.ne_list hs hp

/-- One timer, in slot 11 of `arrListTimer2`, which is not due for a long time. -/
def oneTimer : Heap where
  links := ⟨Equiv.swap (.node 0) (.head (1, 11)), Equiv.swap (.node 0) (.head (1, 11))⟩
  uExpires := fun _ => 2816
  uPeriod := fun _ => 0
  live := fun n => n = 0
  manager := true
  uExitFlag := 0
  uJiffies := 0

theorem slotted_oneTimer : Slotted oneTimer fun s => if s = (1, 11) then [0] else [] := by
  constructor
  · intro s _
    by_cases hs : s = (1, 11)
    · subst hs
      simp [Rings.Ring, Chain, Linked, oneTimer]
    · have hswap : Equiv.swap (Ptr.node 0) (.head (1, 11)) (.head s) = .head s := by
        apply Equiv.swap_apply_of_ne_of_ne
        · nofun
        · rintro ⟨⟩
          exact hs rfl
      simp [Rings.Ring, Chain, Linked, oneTimer, hs, hswap]
  · intro s _
    by_cases hs : s = (1, 11) <;> simp [hs]
  · intro s _ t _ hst n hn hn'
    by_cases hs : s = (1, 11)
    · by_cases ht : t = (1, 11)
      · exact hst (hs.trans ht.symm)
      · simp [ht] at hn'
    · simp [hs] at hn
  · intro s _ n hn
    by_cases hs : s = (1, 11)
    · simpa [hs, oneTimer] using hn
    · simp [hs] at hn
  · rfl

/-- It goes back into the slot it comes from. -/
theorem cascadeTimer_spec_oneTimer :
    ∃ h', oneTimer.cascadeTimer 1 11 2 = .ok (some (h', [0], 11)) ∧
      Rings.Ring h'.links (.head (1, 11)) [.node 0] := by
  obtain ⟨h', hrun, -, hslots, -⟩ :=
    (cascadeTimer_spec oneTimer _ slotted_oneTimer 1 11 (by decide)).2 2 (by decide)
  refine ⟨h', hrun, ?_⟩
  have hring := hslots.ring (1, 11) (mem_allSlots.2 (by decide))
  have hback : pHead oneTimer.uJiffies (oneTimer.uExpires 0) = (1, 11) := by decide +kernel
  simpa [filed, hback] using hring

end ThreadSched.Storage
