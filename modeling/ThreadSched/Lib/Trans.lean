import Mathlib.Logic.Relation

/-!
# Transition systems

States, initial states and a step relation, with the two rules every safety proof of this
development ends in:

* `Sys.invariant` — what holds initially and is kept by every step holds of every reachable state;
  `Sys.invariant_of` is the same with an invariant that is already known.
* `Sys.steps_invariant` — the rule for what happens after a given state.
* `Sys.simulates_steps` — a step-by-step simulation carries runs over to the abstract system.
* `Sys.Reach.foldlM` — runs that are evaluated.
-/

set_option autoImplicit false

namespace Trans

universe u v w

variable {σ : Type u} {τ : Type v}

/-- A transition system. -/
structure Sys (σ : Type u) where
  init : σ → Prop
  step : σ → σ → Prop

namespace Sys

/-- The reachable states. -/
inductive Reach (M : Sys σ) : σ → Prop
  | init {s : σ} : M.init s → Reach M s
  | step {s s' : σ} : Reach M s → M.step s s' → Reach M s'

/-- Any number of steps. -/
def Steps (M : Sys σ) : σ → σ → Prop := Relation.ReflTransGen M.step

theorem Steps.refl (M : Sys σ) (s : σ) : M.Steps s s := Relation.ReflTransGen.refl

theorem Steps.tail {M : Sys σ} {s t u : σ} (h : M.Steps s t) (ht : M.step t u) : M.Steps s u :=
  Relation.ReflTransGen.tail h ht

theorem Steps.trans {M : Sys σ} {s t u : σ} (h : M.Steps s t) (ht : M.Steps t u) : M.Steps s u :=
  Relation.ReflTransGen.trans h ht

theorem Reach.steps {M : Sys σ} {s t : σ} (hs : M.Reach s) (h : M.Steps s t) : M.Reach t := by
  induction h with
  | refl => exact hs
  | tail _ ht ih => exact ih.step ht

/-- **Invariant rule.** -/
theorem invariant (M : Sys σ) {I : σ → Prop} (hinit : ∀ s, M.init s → I s)
    (hstep : ∀ s s', I s → M.step s s' → I s') {s : σ} (h : M.Reach s) : I s := by
  induction h with
  | init h => exact hinit _ h
  | step _ ht ih => exact hstep _ _ ih ht

/-- The invariant rule relative to an invariant `J` that is known to hold of reachable states. -/
theorem invariant_of (M : Sys σ) {I J : σ → Prop} (hJ : ∀ s, M.Reach s → J s)
    (hinit : ∀ s, M.init s → I s) (hstep : ∀ s s', J s → I s → M.step s s' → I s')
    {s : σ} (h : M.Reach s) : I s := by
  induction h with
  | init h => exact hinit _ h
  | step hr ht ih => exact hstep _ _ (hJ _ hr) ih ht

/-- The rule for the states after a given one. -/
theorem steps_invariant {M : Sys σ} {I : σ → Prop} (hstep : ∀ s s', I s → M.step s s' → I s')
    {s t : σ} (hs : I s) (h : M.Steps s t) : I t := by
  induction h with
  | refl => exact hs
  | tail _ ht ih => exact hstep _ _ ih ht

/-- **Simulation rule** for runs from a matched pair. -/
theorem simulates_steps {M : Sys σ} {A : Sys τ} {R : σ → τ → Prop}
    (hstep : ∀ s s' a, R s a → M.step s s' → ∃ a', A.Steps a a' ∧ R s' a')
    {s s' : σ} {a : τ} (hR : R s a) (h : M.Steps s s') : ∃ a', A.Steps a a' ∧ R s' a' := by
  induction h with
  | refl => exact ⟨a, Steps.refl A a, hR⟩
  | tail _ ht ih =>
      obtain ⟨b, hs, hb⟩ := ih
      obtain ⟨c, hs', hc⟩ := hstep _ _ b hb ht
      exact ⟨c, hs.trans hs', hc⟩

/-- The state after a list of labels, by a function whose results are steps. -/
theorem Reach.foldlM {α : Type w} {M : Sys σ} {next : σ → α → Option σ}
    (hnext : ∀ s a s', next s a = some s' → M.step s s') {as : List α} {s s' : σ} (hs : M.Reach s)
    (h : as.foldlM next s = some s') : M.Reach s' := by
  induction as generalizing s with
  | nil =>
      cases h
      exact hs
  | cons a as ih =>
      rw [List.foldlM_cons] at h
      obtain ⟨t, ht, hrest⟩ := Option.bind_eq_some_iff.1 h
      exact ih (hs.step (hnext s a t ht)) hrest

end Sys

end Trans
