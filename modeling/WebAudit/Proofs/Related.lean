import Mathlib.Data.List.Forall2

/-!
# Computations side by side

Two computations are related if they fail with the same error, or if both succeed and their results
are related. One that goes through a list succeeds if it does at every element, and else fails as it does
at one of them.
-/

namespace WebAudit

inductive Related {ε α β : Type} (R : α → β → Prop) : Except ε α → Except ε β → Prop
  | error (e : ε) : Related R (.error e) (.error e)
  | ok {a : α} {b : β} (h : R a b) : Related R (.ok a) (.ok b)

namespace Related

variable {ε ε' α β γ δ : Type} {R : α → β → Prop} {S : γ → δ → Prop}

theorem refl {R : α → α → Prop} {x : Except ε α} (h : ∀ a, x = .ok a → R a a) : Related R x x := by
  cases x with
  | error e => exact .error e
  | ok a => exact .ok (h a rfl)

theorem bind {x : Except ε α} {y : Except ε β} {f : α → Except ε γ} {g : β → Except ε δ}
    (h : Related R x y) (hNext : ∀ a b, R a b → Related S (f a) (g b)) :
    Related S (x >>= f) (y >>= g) := by
  cases h with
  | error e => exact .error e
  | ok hR => exact hNext _ _ hR

theorem mapError {x : Except ε α} {y : Except ε β} (f : ε → ε') (h : Related R x y) :
    Related R (x.mapError f) (y.mapError f) := by
  cases h with
  | error e => exact .error (f e)
  | ok hR => exact .ok hR

/-- Two computations are related exactly if they fail alike or succeed with related results. -/
theorem iff_exists {x : Except ε α} {y : Except ε β} :
    Related R x y ↔ (∃ e, x = .error e ∧ y = .error e) ∨ ∃ a b, x = .ok a ∧ y = .ok b ∧ R a b := by
  constructor
  · intro h
    cases h with
    | error e => exact .inl ⟨e, rfl, rfl⟩
    | ok hR => exact .inr ⟨_, _, rfl, rfl, hR⟩
  · rintro (⟨e, rfl, rfl⟩ | ⟨a, b, rfl, rfl, hR⟩)
    · exact .error e
    · exact .ok hR

end Related

theorem bind_eq_ok {ε α β : Type} {x : Except ε α} {f : α → Except ε β} {b : β} :
    x >>= f = .ok b ↔ ∃ a, x = .ok a ∧ f a = .ok b := by
  cases x with
  | error e => simp [bind, Except.bind]
  | ok a => simp [bind, Except.bind]

theorem mapM_cases {ε α β : Type} (f : α → Except ε β) (xs : List α) :
    (∃ ys, xs.mapM f = .ok ys ∧ List.Forall₂ (fun x y => f x = .ok y) xs ys) ∨
    ∃ x ∈ xs, ∃ e, f x = .error e ∧ xs.mapM f = .error e := by
  induction xs with
  | nil => exact .inl ⟨[], rfl, .nil⟩
  | cons x xs ih =>
    rw [List.mapM_cons]
    cases hHead : f x with
    | error e => exact .inr ⟨x, List.mem_cons_self, e, hHead, rfl⟩
    | ok y =>
      rcases ih with ⟨ys, hRest, hAll⟩ | ⟨x', hx', e, hError, hRest⟩
      · exact .inl ⟨y :: ys, by rw [hRest]; rfl, .cons hHead hAll⟩
      · exact .inr ⟨x', List.mem_cons_of_mem x hx', e, hError, by rw [hRest]; rfl⟩

end WebAudit
