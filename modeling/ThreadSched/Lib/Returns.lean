import Mathlib.Logic.Basic

/-!
# Postconditions of computations that may fail

`Returns m Q` says that whatever `m : Except ε α` returns satisfies `Q`; a failure satisfies
everything.  The rules follow the structure of a program: `pure`, `throw`, sequencing, branching and
walking over a list.
-/

set_option autoImplicit false

universe u v w

variable {ε : Type u} {α β : Type v}

/-- Whatever `m` returns satisfies `Q`. -/
def Returns (m : Except ε α) (Q : α → Prop) : Prop := ∀ a, m = .ok a → Q a

namespace Returns

variable {m : Except ε α} {f : α → Except ε β} {P Q : α → Prop} {R : β → Prop}

theorem ok {a : α} (h : Q a) : Returns (.ok a : Except ε α) Q := by
  rintro b ⟨⟩
  exact h

theorem pure {a : α} (h : Q a) : Returns (Pure.pure a : Except ε α) Q := ok h

theorem error {e : ε} : Returns (.error e : Except ε α) Q := by
  rintro b ⟨⟩

/-- Sequencing: the intermediate result satisfies `P`. -/
theorem bind (hm : Returns m P) (hf : ∀ a, P a → Returns (f a) R) : Returns (m >>= f) R := by
  cases m with
  | error e => exact error
  | ok a => exact hf a (hm a rfl)

theorem imp (hm : Returns m P) (h : ∀ a, P a → Q a) : Returns m Q := fun a ha => h a (hm a ha)

theorem and (hP : Returns m P) (hQ : Returns m Q) : Returns m fun a => P a ∧ Q a :=
  fun a ha => ⟨hP a ha, hQ a ha⟩

theorem ite {c : Prop} [Decidable c] {m' : Except ε α} (ht : c → Returns m Q)
    (he : ¬ c → Returns m' Q) : Returns (if c then m else m') Q := by
  by_cases h : c
  · rw [if_pos h]; exact ht h
  · rw [if_neg h]; exact he h

end Returns

theorem exists_ok_of_isOk {m : Except ε α} (h : m.isOk = true) : ∃ a, m = .ok a := by
  cases m with
  | error e => cases h
  | ok a => exact ⟨a, rfl⟩

/-- A walk over a list: `I` holds with what is left of the list. -/
theorem Returns.foldlM {γ : Type w} {f : α → γ → Except ε α} {I : List γ → α → Prop}
    (hstep : ∀ c l a, I (c :: l) a → Returns (f a c) (I l)) :
    ∀ (l : List γ) (a : α), I l a → Returns (l.foldlM f a) (I [])
  | [], _, h => Returns.pure h
  | c :: l, a, h => by
      rw [List.foldlM_cons]
      exact (hstep c l a h).bind fun b hb => Returns.foldlM hstep l b hb

/-- A walk over two lists, one after the other. -/
theorem foldlM_append_eq_ok {γ : Type w} {f : α → γ → Except ε α} {l l' : List γ} {a b : α} :
    (l ++ l').foldlM f a = .ok b ↔ ∃ m, l.foldlM f a = .ok m ∧ l'.foldlM f m = .ok b := by
  rw [List.foldlM_append]
  cases l.foldlM f a with
  | error e =>
      constructor
      · intro h
        cases h
      · rintro ⟨m, hm, _⟩
        cases hm
  | ok m =>
      show l'.foldlM f m = .ok b ↔ _
      constructor
      · intro h
        exact ⟨m, rfl, h⟩
      · rintro ⟨m', hm, h⟩
        cases hm
        exact h

/-- The last step of a walk. -/
theorem foldlM_concat_eq_ok {γ : Type w} {f : α → γ → Except ε α} {l : List γ} {c : γ} {a b : α} :
    (l ++ [c]).foldlM f a = .ok b ↔ ∃ m, l.foldlM f a = .ok m ∧ f m c = .ok b := by
  simp only [foldlM_append_eq_ok, List.foldlM_cons, List.foldlM_nil, bind_pure]
