import Mathlib.Data.List.Forall2
import UnifiAlerts.Lib.Comp

/-!
# Two runs of a fallible computation

`Paired Q x y`: the two raise the same exception, or both return and `Q`
relates what they return. `Paired.bind` takes a pair of sequences apart
at a pair of steps, so that a proof about two runs of one program
follows the program.

The exceptions are part of the relation: two runs that fail differently
are not paired. That is what a comparison of two programs needs, since
what the caller does next depends on the exception, and what
`Paired.map` and `Paired.mapError` carry over a change of the result or
of the exceptions. A run is paired with itself under equality
(`rfl_eq`), which closes the steps at which the two do the same.
-/

namespace Lib

variable {ε ε' α α' β β' : Type}

def Paired (Q : α → β → Prop) : Except ε α → Except ε β → Prop
  | .ok a, .ok b => Q a b
  | .error e, .error e' => e = e'
  | _, _ => False

namespace Paired

variable {Q : α → β → Prop}

@[simp] theorem ok_iff {a : α} {b : β} :
    Paired Q (.ok a : Except ε α) (.ok b) ↔ Q a b := Iff.rfl

@[simp] theorem error_iff {e e' : ε} : Paired Q (.error e) (.error e') ↔ e = e' := Iff.rfl

theorem rfl_eq (x : Except ε α) : Paired Eq x x := by
  cases x <;> exact rfl

theorem cases {x : Except ε α} {y : Except ε β} (h : Paired Q x y) :
    (∃ e, x = .error e ∧ y = .error e) ∨ ∃ a b, x = .ok a ∧ y = .ok b ∧ Q a b := by
  cases x with
  | error e =>
      cases y with
      | error e' => exact Or.inl ⟨e, rfl, congrArg _ (error_iff.mp h).symm⟩
      | ok b => exact h.elim
  | ok a =>
      cases y with
      | error e' => exact h.elim
      | ok b => exact Or.inr ⟨a, b, rfl, rfl, h⟩

theorem bind {R : α' → β' → Prop} {x : Except ε α} {y : Except ε β} {f : α → Except ε α'}
    {g : β → Except ε β'} (h : Paired Q x y) (hfg : ∀ a b, Q a b → Paired R (f a) (g b)) :
    Paired R (x >>= f) (y >>= g) := by
  rcases h.cases with ⟨e, rfl, rfl⟩ | ⟨a, b, rfl, rfl, hab⟩
  · exact rfl
  · exact hfg a b hab

theorem map {R : α' → β' → Prop} {f : α → α'} {g : β → β'} {x : Except ε α} {y : Except ε β}
    (h : Paired Q x y) (hfg : ∀ a b, Q a b → R (f a) (g b)) : Paired R (x.map f) (y.map g) := by
  rcases h.cases with ⟨e, rfl, rfl⟩ | ⟨a, b, rfl, rfl, hab⟩
  · exact rfl
  · exact hfg a b hab

theorem mapError {f : ε → ε'} {x : Except ε α} {y : Except ε β} (h : Paired Q x y) :
    Paired Q (x.mapError f) (y.mapError f) := by
  rcases h.cases with ⟨e, rfl, rfl⟩ | ⟨a, b, rfl, rfl, hab⟩
  · exact rfl
  · exact hab

end Paired

end Lib
