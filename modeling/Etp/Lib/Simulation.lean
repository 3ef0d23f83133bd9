import Etp.Lib.Machine

/-!
# Following a run in a more abstract system

The abstract system is a step relation on its own states.  `Follows` says that it can
accompany a run of a machine: it passes a related state for each state of the run, and
gets from one to the next in any number of its own steps.

`follows_of_along` is the rule that proves it, one step of the machine at a time, and
`Follows.split` what is left of it at one step in the middle of the run.
-/

namespace Etp.Machine

open Relation

variable {σ ι α : Type*} {next : σ → ι → σ} {Step : α → α → Prop} {R : σ → α → Prop}

/-- From the state `a` on, the abstract system follows the run. -/
def Follows (next : σ → ι → σ) (Step : α → α → Prop) (R : σ → α → Prop) : σ → List ι → α → Prop
  | s, [], a => R s a
  | s, i :: is, a => R s a ∧ ∃ b, ReflTransGen Step a b ∧ Follows next Step R (next s i) is b

theorem Follows.related {s : σ} {is : List ι} {a : α} (h : Follows next Step R s is a) : R s a := by
  cases is with
  | nil => exact h
  | cons i is => exact h.1

/-- A simulation under a condition follows the runs that meet the condition. -/
theorem follows_of_along {cond : σ → ι → Prop}
    (hstep : ∀ s i a, cond s i → R s a → ∃ b, ReflTransGen Step a b ∧ R (next s i) b) {s : σ}
    {is : List ι} {a : α} (ha : Along next cond s is) (h : R s a) :
    Follows next Step R s is a := by
  induction is generalizing s a with
  | nil => exact h
  | cons i is ih =>
      obtain ⟨b, hab, hb⟩ := hstep s i a ha.1 h
      exact ⟨h, b, hab, ih ha.2 hb⟩

/-- The abstract system at one step of the run. -/
theorem Follows.split {s : σ} {is js : List ι} {i : ι} {a : α}
    (h : Follows next Step R s (is ++ i :: js) a) :
    ∃ b c, ReflTransGen Step a b ∧ R (run next s is) b ∧ ReflTransGen Step b c ∧
      R (run next s (is ++ [i])) c := by
  induction is generalizing s a with
  | nil =>
      obtain ⟨hs, b, hab, hb⟩ := h
      exact ⟨a, b, .refl, hs, hab, hb.related⟩
  | cons j is ih =>
      obtain ⟨-, b, hab, hb⟩ := h
      obtain ⟨c, d, hbc, hc, hcd, hd⟩ := ih hb
      exact ⟨c, d, hab.trans hbc, hc, hcd, hd⟩

end Etp.Machine
