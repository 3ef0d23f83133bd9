import Mathlib

/-!
# Early returns

A Rust function of type `Result<T, E>` leaves early at every `?` and at every
`return Err(e)`.  The first is the bind of `Except`; the second is `rejectIf`,
and `ok_or` is `okOr`.  The lemmas below turn "this chain of checks returned
`Ok`" into the conjunction of the checks, so that no later proof splits an
`if`.
-/

namespace Etp

universe u v w

variable {ε : Type u} {ε' : Type v} {α β : Type w}

/-- `if c { return Err(e) }` -/
def rejectIf (c : Prop) [Decidable c] (e : ε) : Except ε PUnit.{w + 1} :=
  if c then .error e else .ok ⟨⟩

/-- `Option::ok_or` -/
def okOr (x : Option α) (e : ε) : Except ε α :=
  match x with
  | some a => .ok a
  | none => .error e

/-- `Option::transpose` for a fallible decoder applied to an optional row. -/
def transposeMap {γ : Type*} (f : γ → Except ε α) : Option γ → Except ε (Option α)
  | none => .ok none
  | some c => (f c).map some

section Ok

variable {c : Prop} [Decidable c] {e : ε} {a : α} {b : β} {x : Except ε α}

@[simp] theorem rejectIf_eq_ok {u : PUnit.{w + 1}} : rejectIf c e = .ok u ↔ ¬c := by
  unfold rejectIf
  split <;> simp [*]

theorem rejectIf_eq_error {e' : ε} :
    (rejectIf c e : Except ε PUnit.{w + 1}) = .error e' ↔ c ∧ e = e' := by
  unfold rejectIf
  split <;> simp [*]

@[simp] theorem rejectIf_true (h : c) : (rejectIf c e : Except ε PUnit.{w + 1}) = .error e :=
  if_pos h

@[simp] theorem rejectIf_false (h : ¬c) : (rejectIf c e : Except ε PUnit.{w + 1}) = .ok ⟨⟩ :=
  if_neg h

@[simp] theorem okOr_eq_ok {o : Option α} : okOr o e = .ok a ↔ o = some a := by
  cases o <;> simp [okOr]

@[simp] theorem okOr_some : okOr (some a) e = .ok a := rfl

@[simp] theorem okOr_none : okOr (none : Option α) e = .error e := rfl

@[simp] theorem ok_bind {f : α → Except ε β} : ((Except.ok a : Except ε α) >>= f) = f a := rfl

@[simp] theorem error_bind {f : α → Except ε β} :
    ((Except.error e : Except ε α) >>= f) = .error e := rfl

/-- The whole computation returns `Ok` exactly when its first step does and the
rest does from there. -/
@[simp] theorem bind_eq_ok {f : α → Except ε β} :
    (x >>= f) = .ok b ↔ ∃ a, x = .ok a ∧ f a = .ok b := by
  cases x <;> simp [bind, Except.bind]

/-- It fails where its first step does, or where the rest does from there. -/
theorem bind_eq_error {f : α → Except ε β} :
    (x >>= f) = .error e ↔ x = .error e ∨ ∃ a, x = .ok a ∧ f a = .error e := by
  cases x <;> simp [bind, Except.bind]

theorem okOr_eq_error {o : Option α} {e' : ε} :
    okOr o e = .error e' ↔ o = none ∧ e = e' := by
  cases o <;> simp [okOr]

@[simp] theorem pure_eq_ok {a' : α} : (pure a : Except ε α) = .ok a' ↔ a = a' := by
  simp [pure, Except.pure]

@[simp] theorem throw_ne_ok : (throw e : Except ε α) ≠ .ok a := by
  simp [throw, throwThe, MonadExceptOf.throw]

@[simp] theorem mapError_eq_ok {f : ε → ε'} : x.mapError f = .ok a ↔ x = .ok a := by
  cases x <;> simp [Except.mapError]

@[simp] theorem map_eq_ok {f : α → β} : x.map f = .ok b ↔ ∃ a, x = .ok a ∧ f a = b := by
  cases x <;> simp [Except.map]

@[simp] theorem transposeMap_eq_ok_some {γ : Type*} {f : γ → Except ε α} {o : Option γ} :
    transposeMap f o = .ok (some a) ↔ ∃ c, o = some c ∧ f c = .ok a := by
  cases o <;> simp [transposeMap]

@[simp] theorem transposeMap_eq_ok_none {γ : Type*} {f : γ → Except ε α} {o : Option γ} :
    transposeMap f o = .ok none ↔ o = none := by
  cases o <;> simp [transposeMap]

end Ok

end Etp
