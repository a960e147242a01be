import ThreadSched.Lib.Returns
import ThreadSched.Timer.StorageSafe

/-!
# The pointers refine the wheel

The circular lists of pointers, with their detached lists and their loops that stop at every round, do what the
model of the wheel does with sequences of nodes.

* `Mirror` — the lists of the slots hold timers with the same expiry and period, in the same order.
* `Mirror.cascadeLoop`, `Mirror.expireLoop`, `Mirror.tick`, `Mirror.runTimerLoop` — the loops, inside out.
* `storage_refines_wheel` — in every run of both by the same calls.
-/

set_option autoImplicit false

namespace ThreadSched.Storage

open Wheel (TimerManager TimerNode allSlots pHead tickWheel tickNodes rearmed cascades Slot)
open Rings

/-! ## What the pointer operations leave alone -/

/-- The fields of the timers and of the manager. -/
structure Kept (h h' : Heap) : Prop where
  uExpires : h'.uExpires = h.uExpires
  uPeriod : h'.uPeriod = h.uPeriod
  uExitFlag : h'.uExitFlag = h.uExitFlag
  uJiffies : h'.uJiffies = h.uJiffies

section kept

variable {h : Heap}

theorem Kept.trans {h' h'' : Heap} (hk : Kept h h') (hk' : Kept h' h'') : Kept h h'' :=
  ⟨hk'.uExpires.trans hk.uExpires, hk'.uPeriod.trans hk.uPeriod, hk'.uExitFlag.trans hk.uExitFlag,
    hk'.uJiffies.trans hk.uJiffies⟩

theorem returns_true {ε α : Type} (m : Except ε α) : Returns m fun _ => True := fun _ _ => trivial

theorem kept_setNext (h : Heap) (p v : Ptr) : Returns (h.setNext p v) (Kept h) :=
  (returns_true _).bind fun _ _ => Returns.pure ⟨rfl, rfl, rfl, rfl⟩

theorem kept_setPrev (h : Heap) (p v : Ptr) : Returns (h.setPrev p v) (Kept h) :=
  (returns_true _).bind fun _ _ => Returns.pure ⟨rfl, rfl, rfl, rfl⟩

/-- One more write. -/
theorem kept_bind {m : Except Fault Heap} {f : Heap → Except Fault Heap} (hm : Returns m (Kept h))
    (hf : ∀ h', Returns (f h') (Kept h')) : Returns (m >>= f) (Kept h) :=
  hm.bind fun h' hk => (hf h').imp fun _ hk' => hk.trans hk'

theorem kept_addTimer (h : Heap) (n : Nat) : Returns (h.addTimer n) (Kept h) := by
  refine (returns_true _).bind fun _ _ => (returns_true _).bind fun _ _ => (returns_true _).bind fun _ _ => ?_
  refine kept_bind (kept_setPrev _ _ _) fun h' => kept_bind (kept_setNext _ _ _) fun h' =>
    kept_bind (kept_setPrev _ _ _) fun h' => kept_setNext _ _ _

theorem kept_listTimerReplaceInit (h : Heap) (old new : Ptr) :
    Returns (h.listTimerReplaceInit old new) (Kept h) := by
  refine kept_bind ?_ fun h' => kept_bind (kept_setNext _ _ _) fun h' => kept_setPrev _ _ _
  refine (returns_true _).bind fun _ _ => kept_bind (kept_setNext _ _ _) fun h' => ?_
  refine (returns_true _).bind fun _ _ => kept_bind (kept_setPrev _ _ _) fun h' => ?_
  refine (returns_true _).bind fun _ _ => kept_bind (kept_setPrev _ _ _) fun h' => ?_
  exact (returns_true _).bind fun _ _ => kept_setNext _ _ _

theorem kept_free (h : Heap) (n : Nat) : Returns (h.free n) (Kept h) :=
  Returns.ite (fun _ => Returns.ok ⟨rfl, rfl, rfl, rfl⟩) fun _ => Returns.error

end kept

/-! ## The relation -/

section mirror

variable {α : Type} {h h' : Heap} {nodes : Key → List Nat} {tm : TimerManager α} {n : TimerNode α}
  {l : List (TimerNode α)} {r : Nat} {arr : Fin 5} {idx a : Nat}

/-- When a timer expires and its period. -/
def times (n : TimerNode α) : Nat × Nat := (n.uExpires, n.uPeriod)

def Heap.times (h : Heap) (a : Nat) : Nat × Nat := (h.uExpires a, h.uPeriod a)

theorem Kept.times (hk : Kept h h') : h'.times = h.times := by
  funext a
  unfold Heap.times
  rw [hk.uExpires, hk.uPeriod]

/-- The nodes filed in the slots are the timers of the wheel, those of the detached list are `l`. -/
structure Mirror (h : Heap) (nodes : Key → List Nat) (tm : TimerManager α) (l : List (TimerNode α)) :
    Prop where
  shape : Shape h nodes
  uExitFlag : h.uExitFlag = tm.uExitFlag
  uJiffies : h.uJiffies = tm.uJiffies
  slots : ∀ s, (nodes (.slot s)).map h.times = (tm.arrListTimer s).map times
  detached : (nodes .detached).map h.times = l.map times

/-- The code runs on. -/
def Runs : St → St → Prop := Relation.ReflTransGen fun s s' => s.next = .ok s'

/-- `add_timer` of a node that is in no list. -/
theorem Mirror.addTimer (hm : Mirror h nodes tm l) (ha : a ∈ nodes .limbo) (hn : h.times a = times n) :
    ∃ h' s, h.addTimer a = .ok h' ∧ Mirror h' (file nodes a s) (Wheel.addTimer tm n) l := by
  obtain ⟨h', hok, hshape⟩ := hm.shape.addTimer ha
  have hk := kept_addTimer h a h' hok
  have hslot : pHead h.uJiffies (h.uExpires a) = pHead tm.uJiffies n.uExpires := by
    rw [hm.uJiffies, show h.uExpires a = n.uExpires from congrArg Prod.fst hn]
  refine ⟨h', _, hok, hshape, ?_, ?_, fun s => ?_, ?_⟩
  · rw [hk.uExitFlag, hm.uExitFlag, Wheel.addTimer_uExitFlag]
  · rw [hk.uJiffies, hm.uJiffies, Wheel.addTimer_uJiffies]
  · rw [hk.times, hslot]
    unfold file Wheel.addTimer Wheel.listTimerInsertTail
    generalize pHead tm.uJiffies n.uExpires = t
    by_cases hst : s = t
    · subst hst
      rw [Function.update_self]
      simp only [Function.update_self, List.map_append, List.map_cons, List.map_nil, hm.slots s, hn]
    · rw [Function.update_of_ne (by simpa using hst), Function.update_of_ne (by simp)]
      simp only [Function.update_of_ne hst]
      exact hm.slots s
  · rw [hk.times, file_detached, hm.detached]

/-- The walk takes the next node off the detached list. -/
theorem Mirror.pick (hm : Mirror h nodes tm (n :: l)) :
    ∃ a as, nodes .detached = a :: as ∧ h.times a = times n ∧ h.getNext (.node a) = .ok (first as) ∧
      Mirror h (toLimbo nodes .detached a) tm l := by
  have hd := hm.detached
  cases hnodes : nodes .detached with
  | nil =>
      rw [hnodes] at hd
      cases hd
  | cons a as =>
      rw [hnodes, List.map_cons, List.map_cons, List.cons.injEq] at hd
      obtain ⟨hnext, hshape⟩ := hm.shape.pick hnodes
      refine ⟨a, as, rfl, hd.1, hnext, hshape, hm.uExitFlag, hm.uJiffies, fun s => ?_, ?_⟩
      · rw [toLimbo_detached_slot]
        exact hm.slots s
      · rw [toLimbo_detached_self, hnodes, List.erase_cons_head]
        exact hd.2

/-- A slot is detached. -/
theorem Mirror.takeSlot (hm : Mirror h nodes tm []) {s : Slot} (hs : s ∈ allSlots) :
    ∃ h', h.listTimerReplaceInit (.head s) .list = .ok h' ∧
      h'.getNext .list = .ok (first (nodes (.slot s))) ∧
        Mirror h' (takeSlot nodes s) (Wheel.listTimerReplaceInit tm s) (tm.arrListTimer s) := by
  have hd : nodes .detached = [] := List.map_eq_nil_iff.1 hm.detached
  obtain ⟨h', hok, -, hnext, hshape⟩ := hm.shape.takeSlot hs hd
  have hk := kept_listTimerReplaceInit h _ _ h' hok
  refine ⟨h', hok, hnext, hshape, hk.uExitFlag.trans hm.uExitFlag, hk.uJiffies.trans hm.uJiffies,
    fun t => ?_, ?_⟩
  · rw [hk.times, takeSlot_slot]
    unfold Wheel.listTimerReplaceInit
    by_cases hts : t = s
    · subst hts
      rw [if_pos rfl]
      simp
    · rw [if_neg hts]
      simp only [Function.update_of_ne hts]
      exact hm.slots t
  · rw [hk.times, takeSlot_detached]
    exact hm.slots s

/-! ## The loops -/

/-- **The loop of `cascade_timer`**. -/
theorem Mirror.cascadeLoop (hm : Mirror h nodes tm l) (hl : nodes .limbo = []) (r : Nat) (arr : Fin 5)
    (idx : Nat) : ∃ h' nodes',
      Runs ⟨h, true, .cascade r arr idx (first (nodes .detached))⟩ ⟨h', true, .cascade r arr idx .list⟩ ∧
      Mirror h' nodes' (l.foldl Wheel.addTimer tm) [] ∧ nodes' .limbo = [] := by
  induction l generalizing h nodes tm with
  | nil =>
      have hd : nodes .detached = [] := List.map_eq_nil_iff.1 hm.detached
      rw [hd]
      exact ⟨h, nodes, .refl, hm, hl⟩
  | cons n l ih =>
      obtain ⟨a, as, hd, hn, hnext, hm'⟩ := hm.pick
      obtain ⟨h₁, s, hadd, hm₁⟩ := hm'.addTimer (by simp) hn
      have hdet : file (toLimbo nodes .detached a) a s .detached = as := by
        rw [file_detached, toLimbo_detached_self, hd, List.erase_cons_head]
      obtain ⟨h', nodes', hruns, hm₂, hl'⟩ := ih hm₁ (by
        rw [file_limbo, toLimbo_limbo, List.erase_cons_head, hl])
      refine ⟨h', nodes', .head ?_ hruns, hm₂, hl'⟩
      rw [hd, hdet]
      show (h.getNext (.node a) >>= _) = _
      rw [hnext, bind_ok, hadd, bind_ok]
      rfl

/-- A timer in no list gets another expiry. -/
theorem Mirror.setExpires (hm : Mirror h nodes tm l) (ha : a ∈ nodes .limbo) (e : Nat) :
    Mirror { h with uExpires := Function.update h.uExpires a e } nodes tm l := by
  have hsame : ∀ k, k ≠ Key.limbo →
      (nodes k).map ({ h with uExpires := Function.update h.uExpires a e } : Heap).times =
        (nodes k).map h.times := by
    intro k hk
    refine List.map_congr_left fun b hb => ?_
    have hne : b ≠ a := by
      rintro rfl
      exact hk (hm.shape.key_eq ha hb)
    unfold Heap.times
    simp only [Function.update_of_ne hne]
  exact ⟨hm.shape.congr rfl rfl rfl, hm.uExitFlag, hm.uJiffies,
    fun s => (hsame (.slot s) nofun).trans (hm.slots s), (hsame .detached nofun).trans hm.detached⟩

/-- `free` of a node that is in no list. -/
theorem Mirror.free (hm : Mirror h nodes tm l) (ha : a ∈ nodes .limbo) :
    ∃ h', h.free a = .ok h' ∧ Mirror h' (drop nodes a) tm l := by
  obtain ⟨h', hok, hshape⟩ := hm.shape.free ha
  have hk := kept_free h a h' hok
  refine ⟨h', hok, hshape, hk.uExitFlag.trans hm.uExitFlag, hk.uJiffies.trans hm.uJiffies, fun s => ?_, ?_⟩
  · rw [hk.times, drop_slot]
    exact hm.slots s
  · rw [hk.times, drop_detached]
    exact hm.detached

/-- What `run_timer` does with a timer it has called. -/
def handled (n : TimerNode α) (tm : TimerManager α) : TimerManager α :=
  if n.uPeriod = 0 then tm else Wheel.addTimer tm (n.rearm tm.uJiffies)

theorem Mirror.callback (hm : Mirror h nodes tm l) (ha : nodes .limbo = [a]) (hn : h.times a = times n)
    (p : Ptr) : ∃ h' nodes', St.next ⟨h, true, .callback r a p⟩ = .ok ⟨h', true, .expire r p⟩ ∧
      Mirror h' nodes' (handled n tm) l ∧ nodes' .detached = nodes .detached ∧ nodes' .limbo = [] := by
  have hmem : a ∈ nodes .limbo := by
    rw [ha]
    exact List.mem_cons_self
  have hperiod : h.uPeriod a = n.uPeriod := congrArg Prod.snd hn
  have hcheck : h.check (.node a) = .ok () :=
    Heap.check_ok (hm.shape.valid limbo_mem (mem_owned_node.2 hmem))
  unfold handled
  by_cases hp : n.uPeriod = 0
  · obtain ⟨h', hok, hm'⟩ := hm.free hmem
    refine ⟨h', drop nodes a, ?_, ?_, drop_detached .., ?_⟩
    · show (h.check (.node a) >>= _) = _
      rw [hcheck, bind_ok, if_neg (by simpa [hperiod] using hp), hok]
      rfl
    · rw [if_pos hp]
      exact hm'
    · rw [drop_limbo, ha, List.erase_cons_head]
  · have hset := hm.setExpires hmem (u32 (h.uJiffies + h.uPeriod a))
    have htimes : ({ h with
        uExpires := Function.update h.uExpires a (u32 (h.uJiffies + h.uPeriod a)) } : Heap).times a =
        times (n.rearm tm.uJiffies) := by
      unfold Heap.times times TimerNode.rearm
      simp only [Function.update_self, hperiod, hm.uJiffies]
    obtain ⟨h', s, hok, hm'⟩ := hset.addTimer hmem htimes
    refine ⟨h', file nodes a s, ?_, ?_, file_detached .., ?_⟩
    · show (h.check (.node a) >>= _) = _
      rw [hcheck, bind_ok, if_pos (by simpa [hperiod] using hp), Heap.checkManager_ok hm.shape.manager, bind_ok]
      show (Heap.addTimer _ a >>= _) = _
      rw [hok]
      rfl
    · rw [if_neg hp]
      exact hm'
    · rw [file_limbo, ha, List.erase_cons_head]

/-- **The expiry walk**. -/
theorem Mirror.expireLoop (hm : Mirror h nodes tm l) (hl : nodes .limbo = []) :
    ∃ h' nodes', Runs ⟨h, true, .expire r (first (nodes .detached))⟩ ⟨h', true, .expire r .list⟩ ∧
      Mirror h' nodes' ((rearmed tm.uJiffies l).foldl Wheel.addTimer tm) [] ∧ nodes' .limbo = [] := by
  induction l generalizing h nodes tm with
  | nil =>
      have hd : nodes .detached = [] := List.map_eq_nil_iff.1 hm.detached
      rw [hd]
      exact ⟨h, nodes, .refl, hm, hl⟩
  | cons n l ih =>
      obtain ⟨a, as, hd, hn, hnext, hm'⟩ := hm.pick
      have hlimbo : toLimbo nodes .detached a .limbo = [a] := by
        rw [toLimbo_limbo, hl]
      obtain ⟨h₁, nodes₁, hcall, hm₁, hd₁, hl₁⟩ := hm'.callback (r := r) hlimbo hn (first as)
      have hdet : nodes₁ .detached = as := by
        rw [hd₁, toLimbo_detached_self, hd, List.erase_cons_head]
      obtain ⟨h', nodes', hruns, hm₂, hl'⟩ := ih hm₁ hl₁
      have hj : (handled n tm).uJiffies = tm.uJiffies := by
        unfold handled
        split
        · rfl
        · exact Wheel.addTimer_uJiffies _ _
      have hwheel : (rearmed (handled n tm).uJiffies l).foldl Wheel.addTimer (handled n tm) =
          (rearmed tm.uJiffies (n :: l)).foldl Wheel.addTimer tm := by
        rw [hj]
        unfold handled
        by_cases hp : n.uPeriod = 0
        · rw [if_pos hp, show rearmed tm.uJiffies (n :: l) = rearmed tm.uJiffies l by simp [rearmed, hp]]
        · rw [if_neg hp, show rearmed tm.uJiffies (n :: l) = n.rearm tm.uJiffies :: rearmed tm.uJiffies l by
            simp [rearmed, hp], List.foldl_cons]
      rw [hdet] at hruns
      rw [hwheel] at hm₂
      refine ⟨h', nodes', .head ?_ (.head hcall hruns), hm₂, hl'⟩
      rw [hd]
      show (h.getNext (.node a) >>= _) = _
      rw [hnext, bind_ok]
      rfl

/-! ## The cascades -/

/-- The code comes from `s₀` to a place where it goes on with `f`, and the lists mirror `tm`. -/
def Reaches (s₀ : St) (f : St → Except Fault St) (tm : TimerManager α) : Prop :=
  ∃ h nodes pc, Mirror h nodes tm [] ∧ nodes .limbo = [] ∧ ∀ s, f ⟨h, true, pc⟩ = .ok s → Runs s₀ s

/-- **One call of `cascade_timer`**. -/
theorem Reaches.level {s₀ : St} {N : Nat} (arr : Fin 5) (harr : arr.val = N + 1)
    (h : Reaches s₀ (fun s => s.cascadeTimer r arr) tm) :
    Reaches s₀
      (fun s => if Wheel.INDEX tm N = 0 ∧ arr ≠ 4 then s.cascadeTimer r (arr + 1) else s.detach r)
      (Wheel.cascadeTimer tm arr (Wheel.INDEX tm N)).1 := by
  obtain ⟨h, nodes, pc, hm, hl, hruns⟩ := h
  have hidx : St.INDEX h.uJiffies (arr.val - 1) = Wheel.INDEX tm N := by
    unfold St.INDEX Wheel.INDEX
    rw [hm.uJiffies, harr, Nat.add_sub_cancel]
  have hslot : (arr, Wheel.INDEX tm N) ∈ allSlots := by
    have hne : arr ≠ 0 := by
      rintro rfl
      cases harr
    rw [Wheel.mem_allSlots]
    unfold Wheel.INDEX
    rw [Wheel.and_TVN_MASK]
    exact (Nat.mod_lt _ (by norm_num)).trans_le (slots_ge hne)
  obtain ⟨h₁, hok, hnext, hm₁⟩ := hm.takeSlot hslot
  have hl₁ : takeSlot nodes (arr, Wheel.INDEX tm N) .limbo = [] := by
    rw [takeSlot_limbo, hl]
  have hcall : St.cascadeTimer ⟨h, true, pc⟩ r arr = .ok ⟨h₁, true, .cascade r arr (Wheel.INDEX tm N)
      (first (nodes (.slot (arr, Wheel.INDEX tm N))))⟩ := by
    unfold St.cascadeTimer
    simp only
    rw [hidx, hok, bind_ok, hnext]
    rfl
  obtain ⟨h', nodes', hloop, hm', hl'⟩ := hm₁.cascadeLoop hl₁ r arr (Wheel.INDEX tm N)
  rw [takeSlot_detached] at hloop
  exact ⟨h', nodes', .cascade r arr (Wheel.INDEX tm N) .list, hm', hl',
    fun s hs => ((hruns _ hcall).trans hloop).tail hs⟩

section branches

variable {s₀ : St} {c : Prop} [Decidable c] {f g : St → Except Fault St}

theorem Reaches.pos (h : Reaches s₀ (fun s => if c then f s else g s) tm) (hc : c) :
    Reaches s₀ f tm := by
  simpa only [if_pos hc] using h

theorem Reaches.neg (h : Reaches s₀ (fun s => if c then f s else g s) tm) (hc : ¬ c) :
    Reaches s₀ g tm := by
  simpa only [if_neg hc] using h

end branches

/-- **The cascades of a tick**. -/
theorem Mirror.cascades (hm : Mirror h nodes tm []) (hl : nodes .limbo = [])
    (hr : Wheel.TIME_AFTER_EQ r tm.uJiffies) : Reaches ⟨h, true, .loop r⟩ (fun s => s.detach r) (cascades tm) := by
  have hnext : St.next ⟨h, true, .loop r⟩ =
      if tm.uJiffies &&& Wheel.TVR_MASK = 0 then St.cascadeTimer ⟨h, true, .loop r⟩ r 1
      else St.detach ⟨h, true, .loop r⟩ r := by
    show (h.checkManager >>= _) = _
    rw [Heap.checkManager_ok hm.shape.manager, bind_ok, if_pos (by rw [hm.uJiffies]; exact hr), hm.uJiffies]
  unfold Wheel.cascades
  by_cases hmask : tm.uJiffies &&& Wheel.TVR_MASK = 0
  · have h₀ : Reaches ⟨h, true, .loop r⟩ (fun s => s.cascadeTimer r 1) tm :=
      ⟨h, nodes, .loop r, hm, hl, fun s hs => .single (by rw [hnext, if_pos hmask]; exact hs)⟩
    have h₁ := Reaches.level 1 rfl h₀
    rw [if_pos hmask]
    dsimp only
    generalize ht₁ : (Wheel.cascadeTimer tm 1 (Wheel.INDEX tm 0)).1 = tm₁ at h₁ ⊢
    by_cases i₁ : Wheel.INDEX tm 0 = 0
    · have h₂ := Reaches.level 2 rfl (h₁.pos ⟨i₁, by decide⟩)
      rw [if_pos (show (Wheel.cascadeTimer tm 1 (Wheel.INDEX tm 0)).2 = 0 from i₁)]
      generalize ht₂ : (Wheel.cascadeTimer tm₁ 2 (Wheel.INDEX tm₁ 1)).1 = tm₂ at h₂ ⊢
      by_cases i₂ : Wheel.INDEX tm₁ 1 = 0
      · have h₃ := Reaches.level 3 rfl (h₂.pos ⟨i₂, by decide⟩)
        rw [if_pos (show (Wheel.cascadeTimer tm₁ 2 (Wheel.INDEX tm₁ 1)).2 = 0 from i₂)]
        generalize ht₃ : (Wheel.cascadeTimer tm₂ 3 (Wheel.INDEX tm₂ 2)).1 = tm₃ at h₃ ⊢
        by_cases i₃ : Wheel.INDEX tm₂ 2 = 0
        · have h₄ := Reaches.level 4 rfl (h₃.pos ⟨i₃, by decide⟩)
          rw [if_pos (show (Wheel.cascadeTimer tm₂ 3 (Wheel.INDEX tm₂ 2)).2 = 0 from i₃)]
          exact h₄.neg fun h => h.2 rfl
        · rw [if_neg (show ¬ (Wheel.cascadeTimer tm₂ 3 (Wheel.INDEX tm₂ 2)).2 = 0 from i₃)]
          exact h₃.neg fun h => i₃ h.1
      · rw [if_neg (show ¬ (Wheel.cascadeTimer tm₁ 2 (Wheel.INDEX tm₁ 1)).2 = 0 from i₂)]
        exact h₂.neg fun h => i₂ h.1
    · rw [if_neg (show ¬ (Wheel.cascadeTimer tm 1 (Wheel.INDEX tm 0)).2 = 0 from i₁)]
      exact h₁.neg fun h => i₁ h.1
  · rw [if_neg hmask]
    exact ⟨h, nodes, .loop r, hm, hl, fun s hs => .single (by rw [hnext, if_neg hmask]; exact hs)⟩

/-! ## Ticks -/

/-- **A tick**. -/
theorem Mirror.tick (hm : Mirror h nodes tm []) (hl : nodes .limbo = [])
    (hr : Wheel.TIME_AFTER_EQ r tm.uJiffies) : ∃ h' nodes',
      Runs ⟨h, true, .loop r⟩ ⟨h', true, .loop r⟩ ∧ Mirror h' nodes' (tickWheel tm) [] ∧
        nodes' .limbo = [] := by
  obtain ⟨h₁, nodes₁, pc, hm₁, hl₁, hruns⟩ := hm.cascades hl hr
  have hj : h₁.uJiffies = tm.uJiffies := hm₁.uJiffies.trans (Wheel.cascades_uJiffies tm)
  have hslot : ((0 : Fin 5), tm.uJiffies &&& Wheel.TVR_MASK) ∈ allSlots := by
    rw [Wheel.mem_allSlots, Wheel.and_TVR_MASK]
    exact Nat.mod_lt _ (by norm_num)
  obtain ⟨h₂, hok, hnext, hm₂⟩ := hm₁.takeSlot hslot
  have hdetach : St.detach ⟨h₁, true, pc⟩ r =
      .ok ⟨h₂, true, .expire r (first (nodes₁ (.slot (0, tm.uJiffies &&& Wheel.TVR_MASK))))⟩ := by
    unfold St.detach
    simp only
    rw [hj, hok, bind_ok, hnext]
    rfl
  obtain ⟨h₃, nodes₃, hloop, hm₃, hl₃⟩ := hm₂.expireLoop (r := r) (by rw [takeSlot_limbo, hl₁])
  rw [takeSlot_detached] at hloop
  have hj₂ : (Wheel.listTimerReplaceInit (Wheel.cascades tm) (0, tm.uJiffies &&& Wheel.TVR_MASK)).uJiffies =
      tm.uJiffies := by
    rw [Wheel.replaceInit_uJiffies, Wheel.cascades_uJiffies]
  rw [hj₂] at hm₃
  have hj₃ : h₃.uJiffies = tm.uJiffies := by
    rw [hm₃.uJiffies, Wheel.foldl_addTimer_uJiffies, hj₂]
  have hlast : St.next ⟨h₃, true, .expire r .list⟩ =
      .ok ⟨{ h₃ with uJiffies := u32 (tm.uJiffies + 1) }, true, .loop r⟩ := by
    show (h₃.checkManager >>= _) = _
    rw [Heap.checkManager_ok hm₃.shape.manager, bind_ok, hj₃]
    rfl
  refine ⟨_, nodes₃, ((hruns _ hdetach).trans hloop).tail hlast, ?_, hl₃⟩
  exact ⟨hm₃.shape.congr rfl rfl rfl, hm₃.uExitFlag, rfl, hm₃.slots, hm₃.detached⟩

/-- **The loop of `run_timer`**. -/
theorem Mirror.runTimerLoop {σ ε : Type} {call : TimerNode α → Nat → σ → Except ε σ} {hang : ε}
    {fuel : Nat} {x : σ} {w : TimerManager α × σ} (hm : Mirror h nodes tm []) (hl : nodes .limbo = [])
    (hrun : Wheel.runTimerLoop call hang r fuel (tm, x) = .ok w) :
    ∃ h' nodes', Runs ⟨h, true, .loop r⟩ ⟨h', true, .tail⟩ ∧ Mirror h' nodes' w.1 [] ∧ nodes' .limbo = [] ∧
      w.1.uExitFlag = tm.uExitFlag := by
  induction fuel generalizing h nodes tm x with
  | zero => cases hrun
  | succ fuel ih =>
      unfold Wheel.runTimerLoop at hrun
      by_cases hr : Wheel.TIME_AFTER_EQ r tm.uJiffies
      · rw [if_pos hr, Wheel.runTick_eq] at hrun
        cases hf : (tickNodes tm).foldlM (fun s n => call n tm.uJiffies s) x with
        | error e =>
            rw [hf] at hrun
            cases hrun
        | ok x' =>
            rw [hf] at hrun
            obtain ⟨h₁, nodes₁, htick, hm₁, hl₁⟩ := hm.tick hl hr
            obtain ⟨h', nodes', hruns, hm', hl', hexit⟩ := ih hm₁ hl₁ hrun
            exact ⟨h', nodes', htick.trans hruns, hm', hl', hexit.trans (Wheel.tickWheel_uExitFlag tm)⟩
      · rw [if_neg hr] at hrun
        cases hrun
        refine ⟨h, nodes, .single ?_, hm, hl, rfl⟩
        show (h.checkManager >>= _) = _
        rw [Heap.checkManager_ok hm.shape.manager, bind_ok, if_neg (by rw [hm.uJiffies]; exact hr)]
        rfl

/-- **`create_timer`**. -/
theorem Mirror.createTimer (hm : Mirror h nodes tm []) (hl : nodes .limbo = []) (hfresh : h.live a = false)
    (pc : Pc) (timer : α) (node d p : Nat) :
    ∃ h' nodes', St.createTimer ⟨h, true, pc⟩ true d p (some a) = .ok ⟨h', true, pc⟩ ∧
      Mirror h' nodes' (Wheel.createTimer tm node timer d p) [] ∧ nodes' .limbo = [] := by
  have hsame : ∀ k, (nodes k).map (created h d p a).times = (nodes k).map h.times := by
    intro k
    refine List.map_congr_left fun b hb => ?_
    have hne : b ≠ a := by
      rintro rfl
      rw [hm.shape.live_iff.2 ⟨k, hb⟩] at hfresh
      cases hfresh
    unfold Heap.times created
    simp only [Function.update_of_ne hne]
  have hother : ∀ k, k ≠ Key.limbo → Function.update nodes .limbo (a :: nodes .limbo) k = nodes k :=
    fun k hk => Function.update_of_ne hk ..
  have hlimbo : Function.update nodes .limbo (a :: nodes .limbo) .limbo = [a] := by
    rw [Function.update_self, hl]
  have hcreated : Mirror (created h d p a) (Function.update nodes .limbo (a :: nodes .limbo)) tm [] := by
    refine ⟨hm.shape.alloc hfresh rfl rfl rfl, hm.uExitFlag, hm.uJiffies, fun s => ?_, ?_⟩
    · rw [hother (.slot s) nofun, hsame]
      exact hm.slots s
    · rw [hother .detached nofun, hsame]
      exact hm.detached
  have htimes : (created h d p a).times a = times (Wheel.newTimer tm node timer d p) := by
    unfold Heap.times created times Wheel.newTimer
    simp only [Function.update_self, hm.uJiffies]
  obtain ⟨h', s, hok, hm'⟩ := hcreated.addTimer (by rw [hlimbo]; exact List.mem_cons_self) htimes
  refine ⟨h', _, ?_, hm', ?_⟩
  · rw [createTimer_eq hm.shape.manager, hok, bind_ok]
  · rw [file_limbo, hlimbo, List.erase_cons_head]

end mirror

/-! ## Runs -/

section runs

variable {α : Type} {s x y : St}

/-- The pointers and the wheel. -/
structure Both (α : Type) where
  store : St
  wheel : TimerManager α

/-- Both, by the same call.  The callbacks leave the timers alone, and nothing calls `delete_timer`. -/
inductive Both.Step (b : Both α) : Both α → Prop
  | create {s : St} (timer : α) (node uDueTime uPeriod pTmr : Nat)
      (hfresh : b.store.heap.live pTmr = false)
      (hstore : b.store.createTimer true uDueTime uPeriod (some pTmr) = .ok s) :
      Both.Step b ⟨s, Wheel.createTimer b.wheel node timer uDueTime uPeriod⟩
  | handler {σ ε : Type} {call : TimerNode α → Nat → σ → Except ε σ} {hang : ε} {z : σ}
      {w : TimerManager α × σ} {s₁ s₂ : St} (r : Nat) (hstore : b.store.handler r = .ok s₁)
      (hruns : Runs s₁ s₂) (htail : s₂.pc = .tail)
      (hwheel : Wheel.runTimer call hang r (b.wheel, z) = .ok w) :
      Both.Step b ⟨{ s₂ with pc := .out }, w.1⟩

/-- The two after `timer_init`. -/
def Both.Init (b : Both α) : Prop :=
  ∃ (j node pTmr : Nat) (timer : α) (s : St), timerInit j true (some pTmr) = .ok s ∧
    b = ⟨s, Wheel.createTimer (.empty j) node timer 150000 150000⟩

def bothRuns (α : Type) : Trans.Sys (Both α) := ⟨Both.Init, Both.Step⟩

/-- Outside the timer code, the lists of pointers hold the timers of the wheel. -/
structure Mirrors (b : Both α) : Prop where
  pc : b.store.pc = .out
  timerManager : b.store.timerManager = true
  exitFlag : b.wheel.uExitFlag = 0
  lists : ∃ nodes, Mirror b.store.heap nodes b.wheel [] ∧ nodes .limbo = []

/-- The code runs to one place behind the timer code only. -/
theorem Runs.tail_unique (hx : Runs s x) (hy : Runs s y) (hxt : x.pc = .tail) (hyt : y.pc = .tail) : x = y := by
  have hstays : ∀ {x y : St}, Runs x y → x.pc = .tail → y = x := by
    intro x y h hpc
    induction h with
    | refl => rfl
    | tail _ hstep ih =>
        subst ih
        unfold St.next at hstep
        rw [hpc] at hstep
        cases hstep
        rfl
  have hdet : Relator.RightUnique fun s s' : St => s.next = .ok s' := by
    intro a b c hb hc
    rw [hb] at hc
    cases hc
    rfl
  rcases Relation.ReflTransGen.total_of_right_unique hdet hx hy with h | h
  · exact (hstays h hxt).symm
  · exact hstays h hyt

theorem Mirrors.init {b : Both α} (h : Both.Init b) : Mirrors b := by
  obtain ⟨j, node, pTmr, timer, s, hs, rfl⟩ := h
  have hempty : Mirror ⟨⟨id, id⟩, fun _ => 0, fun _ => 0, fun _ => false, true, 0, j⟩ (fun _ => [])
      (TimerManager.empty j : TimerManager α) [] := ⟨shape_empty j, rfl, rfl, fun _ => rfl, rfl⟩
  obtain ⟨h', nodes', hok, hm, hl⟩ := hempty.createTimer (a := pTmr) rfl rfl .out timer node 150000 150000
  have hs' : (Except.ok ⟨h', true, .out⟩ : Except Fault St) = .ok s := hok.symm.trans hs
  cases hs'
  exact ⟨rfl, rfl, Wheel.addTimer_uExitFlag _ _, nodes', hm, hl⟩

/-- What `create_timer` does to both. -/
theorem Mirrors.create {b : Both α} (hb : Mirrors b) {a : Nat} (hfresh : b.store.heap.live a = false)
    (timer : α) (node d p : Nat) : ∃ s, b.store.createTimer true d p (some a) = .ok s ∧
      Mirrors ⟨s, Wheel.createTimer b.wheel node timer d p⟩ := by
  obtain ⟨⟨h, manager, pc⟩, tm⟩ := b
  obtain ⟨rfl, rfl, hexit, nodes, hm, hl⟩ := hb
  obtain ⟨h', nodes', hok, hm', hl'⟩ := hm.createTimer hl hfresh .out timer node d p
  exact ⟨_, hok, rfl, rfl, (Wheel.addTimer_uExitFlag _ _).trans hexit, nodes', hm', hl'⟩

/-- What the handler does to both. -/
theorem Mirrors.handler {b : Both α} (hb : Mirrors b) {σ ε : Type}
    {call : TimerNode α → Nat → σ → Except ε σ} {hang : ε} {z : σ} {w : TimerManager α × σ} {r : Nat}
    (hwheel : Wheel.runTimer call hang r (b.wheel, z) = .ok w) :
    ∃ s₁ s₂, b.store.handler r = .ok s₁ ∧ Runs s₁ s₂ ∧ s₂.pc = .tail ∧ Mirrors ⟨{ s₂ with pc := .out }, w.1⟩ := by
  obtain ⟨⟨h, manager, pc⟩, tm⟩ := b
  obtain ⟨rfl, rfl, hexit, nodes, hm, hl⟩ := hb
  obtain ⟨h', nodes', hruns, hm', hl', hexit'⟩ := hm.runTimerLoop hl hwheel
  refine ⟨⟨h, true, .loop r⟩, ⟨h', true, .tail⟩, ?_, hruns, rfl, rfl, rfl, hexit'.trans hexit, nodes', hm', hl'⟩
  show (h.checkManager >>= _) = _
  rw [Heap.checkManager_ok hm.shape.manager, bind_ok, if_pos (hm.uExitFlag.trans hexit)]
  rfl

theorem Mirrors.step {b b' : Both α} (hb : Mirrors b) (h : Both.Step b b') : Mirrors b' := by
  cases h with
  | create timer node d p a hfresh hstore =>
      obtain ⟨s, hs, hmirrors⟩ := hb.create hfresh timer node d p
      rw [hstore] at hs
      cases hs
      exact hmirrors
  | handler r hstore hruns htail hwheel =>
      obtain ⟨s₁, s₂, hs, hruns', htail', hmirrors⟩ := hb.handler hwheel
      rw [hstore] at hs
      cases hs
      rw [hruns.tail_unique hruns' htail htail']
      exact hmirrors

/-- **The pointers refine the wheel.**  In every run of both by the same calls, whatever `malloc` returns,
the lists hold the timers of the wheel, slot by slot and in the same order; and when the wheel's `run_timer`
returns, the code gets through its loops. -/
theorem storage_refines_wheel {b : Both α} (h : (bothRuns α).Reach b) : Mirrors b ∧
    ∀ {σ ε : Type} {call : TimerNode α → Nat → σ → Except ε σ} {hang : ε} {z : σ} {w : TimerManager α × σ}
      {r : Nat}, Wheel.runTimer call hang r (b.wheel, z) = .ok w →
        ∃ s₁ s₂, b.store.handler r = .ok s₁ ∧ Runs s₁ s₂ ∧ s₂.pc = .tail := by
  have hmirrors : Mirrors b := (bothRuns α).invariant (fun _ => Mirrors.init) (fun _ _ => Mirrors.step) h
  refine ⟨hmirrors, fun hwheel => ?_⟩
  obtain ⟨s₁, s₂, hs, hruns, htail, -⟩ := hmirrors.handler hwheel
  exact ⟨s₁, s₂, hs, hruns, htail⟩

end runs

/-- The code runs on for so many places. -/
def runOn : Nat → St → Except Fault St
  | 0, s => .ok s
  | n + 1, s => s.next >>= runOn n

theorem runs_runOn {n : Nat} {s s' : St} (h : runOn n s = .ok s') : Runs s s' := by
  induction n generalizing s with
  | zero =>
      cases h
      exact .refl
  | succ n ih =>
      unfold runOn at h
      cases hnext : s.next with
      | error f =>
          rw [hnext] at h
          cases h
      | ok t =>
          rw [hnext] at h
          exact .head hnext (ih h)

/-- A timer is created at address 8 and fires in the second tick, after a tick in which the four upper
levels are cascaded. -/
theorem storage_refines_wheel_fires : ∃ b b' : Both Unit, (bothRuns Unit).Reach b ∧ Mirrors b ∧
    b.store.heap.live 8 = true ∧ (b.wheel.arrListTimer (0, 1)).map (·.node) = [1] ∧
    b.Step b' ∧ Mirrors b' ∧ b'.store.heap.live 7 = true ∧ b'.store.heap.live 8 = false ∧
    b'.wheel.arrListTimer (0, 1) = [] := by
  obtain ⟨s₁, h₁, -⟩ := inv_timerInit 0 true (some 7)
  have hreach₁ : (bothRuns Unit).Reach ⟨s₁, Wheel.createTimer (.empty 0) 0 () 150000 150000⟩ :=
    .init ⟨0, 0, 7, (), s₁, h₁, rfl⟩
  have hlive₁ : (timerInit 0 true (some 7)).toOption.map (·.heap.live 8) = some false := by
    decide +kernel
  rw [h₁] at hlive₁
  obtain ⟨s₂, h₂, -⟩ := (storage_refines_wheel hreach₁).1.create (Option.some.inj hlive₁) () 1 1 0
  have hreach := hreach₁.step (.create () 1 1 0 8 (Option.some.inj hlive₁) h₂)
  have hlive₂ : (timerInit 0 true (some 7) >>= fun s => s.createTimer true 1 0 (some 8)).toOption.map
      (·.heap.live 8) = some true := by decide +kernel
  rw [h₁, bind_ok, h₂] at hlive₂
  have hfiled : ((Wheel.createTimer (Wheel.createTimer (.empty 0) 0 () 150000 150000 : TimerManager Unit)
      1 () 1 0).arrListTimer (0, 1)).map (·.node) = [1] := by decide +kernel
  -- the handler call, on the wheel and then on the pointers
  let call : TimerNode Unit → Nat → Unit → Except Unit Unit := fun _ _ _ => .ok ()
  have hfires : (Wheel.runTimer call () 1 (Wheel.createTimer
      (Wheel.createTimer (.empty 0) 0 () 150000 150000) 1 () 1 0, ())).toOption.map
        (fun w => (w.1.arrListTimer (0, 1)).length) = some 0 := by
    decide +kernel
  cases hwheel : Wheel.runTimer call () 1 (Wheel.createTimer
      (Wheel.createTimer (.empty 0) 0 () 150000 150000) 1 () 1 0, ()) with
  | error e =>
      rw [hwheel] at hfires
      cases hfires
  | ok w =>
      rw [hwheel] at hfires
      obtain ⟨s₃, s₄, h₃, hruns, htail⟩ := (storage_refines_wheel hreach).2 hwheel
      have hstep : Both.Step _ _ := .handler 1 h₃ hruns htail hwheel
      have hend : (timerInit 0 true (some 7) >>= fun s => s.createTimer true 1 0 (some 8) >>= fun s =>
          s.handler 1 >>= runOn 20).toOption.map
            (fun s => (s.pc, s.heap.live 7, s.heap.live 8)) = some (.tail, true, false) := by
        decide +kernel
      rw [h₁, bind_ok, h₂, bind_ok, h₃, bind_ok] at hend
      cases hrun : runOn 20 s₃ with
      | error f =>
          rw [hrun] at hend
          cases hend
      | ok s₅ =>
          rw [hrun] at hend
          obtain ⟨hpc, h7, h8⟩ : s₅.pc = .tail ∧ s₅.heap.live 7 = true ∧ s₅.heap.live 8 = false := by
            simpa [Except.toOption] using hend
          obtain rfl := (runs_runOn hrun).tail_unique hruns hpc htail
          exact ⟨_, _, hreach, (storage_refines_wheel hreach).1, Option.some.inj hlive₂, hfiled, hstep,
             (storage_refines_wheel (hreach.step hstep)).1, h7, h8,
            List.eq_nil_of_length_eq_zero (Option.some.inj hfires)⟩

end ThreadSched.Storage
