import Mathlib

/-!
# Rotation with quanta

Round-robin scheduling in general: a turntable whose first element is served, with a number of services that
each element has left.  One that has none left is refilled and goes behind the others.

* `Turntable.step`, `Turntable.served` — one service, and who is served in a number of them;
* `Turntable.turn` — the first element uses up what it has left and goes behind the others;
* `Turntable.rounds` — after a first round in which everybody uses up what it has left, everybody is served its
  quantum in every round, and each round ends in the order in which it began.
-/

set_option autoImplicit false

namespace Rotation

universe u

variable {α : Type u}

@[ext] structure Turntable (α : Type u) where
  ring : List α
  left : α → Nat

namespace Turntable

/-- The services of a list of elements that use up what they have. -/
def shares (l : List α) (left : α → Nat) : List α := l.flatMap fun a => List.replicate (left a + 1) a

/-- How many services these are. -/
def cost (l : List α) (left : α → Nat) : Nat := (l.map fun a => left a + 1).sum

section

variable {l : List α} {left left' : α → Nat}

theorem cost_congr (h : ∀ b ∈ l, left b = left' b) : cost l left = cost l left' := by
  unfold cost
  rw [List.map_congr_left]
  intro b hb
  rw [h b hb]

theorem shares_congr (h : ∀ b ∈ l, left b = left' b) : shares l left = shares l left' := by
  unfold shares
  rw [List.flatMap_congr]
  intro b hb
  rw [h b hb]

end

variable [DecidableEq α]

/-- The first one is served; it is refilled when this was its last service. -/
def step (quantum : α → Nat) (s : Turntable α) : Turntable α :=
  match s.ring with
  | [] => s
  | a :: rest =>
    if s.left a = 0 then ⟨rest ++ [a], Function.update s.left a (quantum a)⟩
    else ⟨a :: rest, Function.update s.left a (s.left a - 1)⟩

/-- Who is served in the next services. -/
def served (quantum : α → Nat) : Nat → Turntable α → List α
  | 0, _ => []
  | n + 1, s => s.ring.head?.toList ++ served quantum n (s.step quantum)

/-- The elements of `l` are refilled. -/
def refill (quantum : α → Nat) (l : List α) (left : α → Nat) (a : α) : Nat :=
  if a ∈ l then quantum a else left a

variable {quantum : α → Nat} {s : Turntable α} {a : α} {l : List α} {left : α → Nat} {m n k : Nat}

theorem mem_step {b : α} : b ∈ (s.step quantum).ring ↔ b ∈ s.ring := by
  obtain ⟨ring, left⟩ := s
  cases ring with
  | nil => rfl
  | cons a rest =>
      show b ∈ (if left a = 0 then _ else _ : Turntable α).ring ↔ b ∈ a :: rest
      split
      · simp [or_comm]
      · rfl

theorem served_add :
    served quantum (m + n) s = served quantum m s ++ served quantum n ((step quantum)^[m] s) := by
  induction m generalizing s with
  | zero => rw [Nat.zero_add]; rfl
  | succ m ih =>
      rw [Nat.succ_add, served, ih, served, List.append_assoc]
      rfl

/-- The first one uses up what it has left. -/
theorem turn (quantum : α → Nat) (rest : List α) (left : α → Nat) (hleft : left a = k) :
    (step quantum)^[k + 1] ⟨a :: rest, left⟩ = ⟨rest ++ [a], Function.update left a (quantum a)⟩ ∧
      served quantum (k + 1) ⟨a :: rest, left⟩ = List.replicate (k + 1) a := by
  induction k generalizing left with
  | zero =>
      have hstep : step quantum ⟨a :: rest, left⟩ = ⟨rest ++ [a], Function.update left a (quantum a)⟩ :=
        if_pos hleft
      exact ⟨hstep, rfl⟩
  | succ k ih =>
      have hstep : step quantum ⟨a :: rest, left⟩ = ⟨a :: rest, Function.update left a k⟩ := by
        show (if left a = 0 then _ else _) = _
        rw [if_neg (by omega), show left a - 1 = k by omega]
      obtain ⟨hend, hserved⟩ := ih (Function.update left a k) (Function.update_self ..)
      constructor
      · rw [Function.iterate_succ_apply, hstep, hend, Function.update_idem]
      · rw [served, hstep, hserved]
        rfl

/-- The elements of `l` use up what they have left, one after the other. -/
theorem round_of_prefix (quantum : α → Nat) (rest : List α) (left : α → Nat) (hnodup : (l ++ rest).Nodup) :
    (step quantum)^[cost l left] ⟨l ++ rest, left⟩ = ⟨rest ++ l, refill quantum l left⟩ ∧
      served quantum (cost l left) ⟨l ++ rest, left⟩ = shares l left := by
  induction l generalizing rest left with
  | nil =>
      constructor
      · show (⟨rest, left⟩ : Turntable α) = ⟨rest ++ [], refill quantum [] left⟩
        rw [List.append_nil]
        rfl
      · rfl
  | cons a l ih =>
      obtain ⟨hend, hserved⟩ := turn quantum (l ++ rest) left (a := a) rfl
      have hnot : a ∉ l := fun hmem => (List.nodup_cons.1 hnodup).1 (List.mem_append_left _ hmem)
      have hnodup' : (l ++ (rest ++ [a])).Nodup := by
        rw [← List.append_assoc]
        exact (List.perm_append_singleton a (l ++ rest)).nodup_iff.2 hnodup
      have hothers : ∀ b ∈ l, Function.update left a (quantum a) b = left b := by
        rintro b hb
        refine Function.update_of_ne ?_ ..
        rintro rfl
        exact hnot hb
      have hcost : cost (a :: l) left = (left a + 1) + cost l (Function.update left a (quantum a)) := by
        rw [cost_congr hothers]
        rfl
      have hshares : shares (a :: l) left =
          List.replicate (left a + 1) a ++ shares l (Function.update left a (quantum a)) := by
        rw [shares_congr hothers]
        rfl
      obtain ⟨hend', hserved'⟩ := ih (rest ++ [a]) (Function.update left a (quantum a)) hnodup'
      rw [← List.append_assoc] at hend' hserved'
      constructor
      · rw [hcost, Nat.add_comm, Function.iterate_add_apply, List.cons_append, hend, hend']
        congr 1
        · rw [List.append_assoc]
          rfl
        · funext b
          unfold refill
          by_cases hb : b = a
          · subst hb
            simp [hnot]
          · simp [hb]
      · rw [hcost, served_add, List.cons_append, hserved, hend, hserved', hshares]

/-- **The first round.** -/
theorem first_round (quantum : α → Nat) (hnodup : s.ring.Nodup) :
    (step quantum)^[cost s.ring s.left] s = ⟨s.ring, refill quantum s.ring s.left⟩ ∧
      served quantum (cost s.ring s.left) s = shares s.ring s.left := by
  have hround := round_of_prefix quantum [] s.left (l := s.ring) (by rwa [List.append_nil])
  rwa [List.append_nil, List.nil_append] at hround

theorem refill_mem (ha : a ∈ l) : refill quantum l left a = quantum a := if_pos ha

theorem refill_refill : refill quantum l (refill quantum l left) = refill quantum l left := by
  funext b
  unfold refill
  split <;> rfl

/-- Full rounds. -/
theorem full_rounds (quantum left : α → Nat) (hnodup : l.Nodup) (k : Nat) :
    (step quantum)^[k * cost l quantum] ⟨l, refill quantum l left⟩ = ⟨l, refill quantum l left⟩ ∧
      served quantum (k * cost l quantum) ⟨l, refill quantum l left⟩ =
        (List.replicate k (shares l quantum)).flatten := by
  induction k with
  | zero =>
      rw [Nat.zero_mul]
      exact ⟨rfl, rfl⟩
  | succ k ih =>
      obtain ⟨hend, hserved⟩ := first_round quantum (s := ⟨l, refill quantum l left⟩) hnodup
      have hcost : cost l (refill quantum l left) = cost l quantum := cost_congr fun b => refill_mem
      have hshares : shares l (refill quantum l left) = shares l quantum := shares_congr fun b => refill_mem
      rw [hcost, refill_refill] at hend
      rw [hcost, hshares] at hserved
      rw [Nat.succ_mul, Nat.add_comm]
      constructor
      · rw [Nat.add_comm, Function.iterate_add_apply, hend, ih.1]
      · rw [served_add, hserved, hend, ih.2, List.replicate_succ, List.flatten_cons]

/-- **Rounds.** -/
theorem rounds (quantum : α → Nat) (hnodup : s.ring.Nodup) (k : Nat) :
    (step quantum)^[cost s.ring s.left + k * cost s.ring quantum] s = ⟨s.ring, refill quantum s.ring s.left⟩ ∧
      served quantum (cost s.ring s.left + k * cost s.ring quantum) s =
        shares s.ring s.left ++ (List.replicate k (shares s.ring quantum)).flatten := by
  obtain ⟨hend, hserved⟩ := first_round quantum hnodup
  obtain ⟨hend', hserved'⟩ := full_rounds quantum s.left hnodup k
  constructor
  · rw [Nat.add_comm, Function.iterate_add_apply, hend, hend']
  · rw [served_add, hserved, hend, hserved']

end Turntable

end Rotation
