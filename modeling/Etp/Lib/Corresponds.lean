import Etp.Lib.Result

/-!
# Two implementations of one computation

Two fallible computations that make the same checks in the same order, on their own data
and with their own errors, correspond: both succeed with related results, or both fail
with related errors.  The rules go through two programs side by side, one check at a
time, so that every check is compared with its counterpart only.
-/

namespace Etp

universe u v w

variable {ε : Type u} {ε' : Type v} {α β γ δ : Type w}

inductive Corresponds (E : ε → ε' → Prop) (R : α → β → Prop) : Except ε α → Except ε' β → Prop
  | ok {a : α} {b : β} (h : R a b) : Corresponds E R (.ok a) (.ok b)
  | error {e : ε} {e' : ε'} (h : E e e') : Corresponds E R (.error e) (.error e')

section Rules

variable {E : ε → ε' → Prop} {R : α → β → Prop} {S : γ → δ → Prop} {x : Except ε α}
  {y : Except ε' β}

theorem Corresponds.bind {f : α → Except ε γ} {g : β → Except ε' δ} (h : Corresponds E R x y)
    (hrest : ∀ a b, R a b → Corresponds E S (f a) (g b)) :
    Corresponds E S (x >>= f) (y >>= g) := by
  cases h with
  | ok h => exact hrest _ _ h
  | error h => exact .error h

theorem Corresponds.map {f : α → γ} {g : β → δ} (h : Corresponds E R x y)
    (hrel : ∀ a b, R a b → S (f a) (g b)) : Corresponds E S (x.map f) (y.map g) := by
  cases h with
  | ok h => exact .ok (hrel _ _ h)
  | error h => exact .error h

/-- The same check on both sides, and what follows it. -/
theorem corresponds_reject {c c' : Prop} [Decidable c] [Decidable c'] {e : ε} {e' : ε'}
    {f : PUnit.{w + 1} → Except ε α} {g : PUnit.{w + 1} → Except ε' β} (hc : c ↔ c') (he : E e e')
    (hrest : ¬c → Corresponds E R (f ⟨⟩) (g ⟨⟩)) :
    Corresponds E R (rejectIf c e >>= f) (rejectIf c' e' >>= g) := by
  by_cases h : c
  · rw [rejectIf_true h, rejectIf_true (hc.mp h)]
    exact .error he
  · rw [rejectIf_false h, rejectIf_false (mt hc.mpr h)]
    exact hrest h

/-- Values that both sides have or both lack, and what follows them. -/
theorem corresponds_okOr {o : Option γ} {o' : Option δ} {e : ε} {e' : ε'}
    {f : γ → Except ε α} {g : δ → Except ε' β} (ho : Option.Rel S o o') (he : E e e')
    (hrest : ∀ a b, o = some a → o' = some b → S a b → Corresponds E R (f a) (g b)) :
    Corresponds E R (okOr o e >>= f) (okOr o' e' >>= g) := by
  cases ho with
  | some h => exact hrest _ _ rfl rfl h
  | none => exact .error he

end Rules

end Etp
