import Mathlib

/-!
# Runs of a deterministic machine

A machine is a step function `σ → ι → σ`.  Whatever chooses the inputs, a run is
the fold of the step over the list of them, so a statement over every order of
calls from any number of clients is a statement over every list.

`events` is the history of a run.  `run_invariant` turns "true at first and kept by a
step" into "true in every run", `Along` says that a condition holds of every step of a
run in the state that step starts from, and `Along.run_invariant` is the induction under
it.  `run_mono` is the rule for relations between an earlier and a later state.
-/

namespace Etp.Machine

variable {σ ι : Type*} (next : σ → ι → σ)

def run (s : σ) (inputs : List ι) : σ := inputs.foldl next s

/-- Every step of the run from `s` meets `cond` in the state it starts from. -/
def Along (cond : σ → ι → Prop) : σ → List ι → Prop
  | _, [] => True
  | s, i :: is => cond s i ∧ Along cond (next s i) is

/-- The inputs of a run, each with the state it met. -/
def events (s : σ) : List ι → List (σ × ι)
  | [] => []
  | i :: is => (s, i) :: events (next s i) is

variable {next}

@[simp] theorem run_nil (s : σ) : run next s [] = s := rfl

@[simp] theorem run_cons (s : σ) (i : ι) (is : List ι) :
    run next s (i :: is) = run next (next s i) is := rfl

theorem run_append (s : σ) (is js : List ι) :
    run next s (is ++ js) = run next (run next s is) js := List.foldl_append

theorem run_concat (s : σ) (is : List ι) (i : ι) :
    run next s (is ++ [i]) = next (run next s is) i := by simp [run_append]

theorem events_append (s : σ) (is js : List ι) :
    events next s (is ++ js) = events next s is ++ events next (run next s is) js := by
  induction is generalizing s with
  | nil => rfl
  | cons i is ih => exact congrArg ((s, i) :: ·) (ih (next s i))

theorem events_concat (s : σ) (is : List ι) (i : ι) :
    events next s (is ++ [i]) = events next s is ++ [(run next s is, i)] := events_append s is [i]

/-! ## Invariants -/

theorem run_invariant {P : σ → Prop} (hstep : ∀ s i, P s → P (next s i)) {s : σ} (h : P s)
    (is : List ι) : P (run next s is) := by
  induction is generalizing s with
  | nil => exact h
  | cons i is ih => exact ih (hstep s i h)

/-- A reflexive, transitive relation that every step from an `Inv` state obeys
holds between the ends of every run. -/
theorem run_mono {Inv : σ → Prop} {R : σ → σ → Prop} (hrefl : ∀ s, R s s)
    (htrans : ∀ {s t u}, R s t → R t u → R s u) (hinv : ∀ s i, Inv s → Inv (next s i))
    (hstep : ∀ s i, Inv s → R s (next s i)) {s : σ} (h : Inv s) (is : List ι) :
    R s (run next s is) := by
  induction is generalizing s with
  | nil => exact hrefl s
  | cons i is ih => exact htrans (hstep s i h) (ih (hinv s i h))

/-! ## Runs that respect a condition -/

section Along

variable {cond : σ → ι → Prop}

theorem along_append {s : σ} {is js : List ι} :
    Along next cond s (is ++ js) ↔
      Along next cond s is ∧ Along next cond (run next s is) js := by
  induction is generalizing s with
  | nil => simp [Along]
  | cons i is ih => simp [Along, ih, and_assoc]

/-- The steps of a run are what its inputs do after the ones before them. -/
theorem along_iff {s : σ} {is : List ι} : Along next cond s is ↔
    ∀ before i after, is = before ++ i :: after → cond (run next s before) i := by
  induction is generalizing s with
  | nil => simp [Along]
  | cons j is ih =>
      rw [Along, ih]
      constructor
      · rintro ⟨hj, his⟩ before i after heq
        cases before with
        | nil =>
            cases heq
            exact hj
        | cons b before =>
            cases heq
            exact his before i after rfl
      · intro h
        exact ⟨h [] j is rfl, fun before i after heq ↦ h (j :: before) i after (by rw [heq]; rfl)⟩

theorem Along.run_invariant {P : σ → Prop} (hstep : ∀ s i, cond s i → P s → P (next s i))
    {s : σ} {is : List ι} (ha : Along next cond s is) (h : P s) : P (run next s is) := by
  induction is generalizing s with
  | nil => exact h
  | cons i is ih => exact ih ha.2 (hstep s i ha.1 h)

/-- Every step of the run starts from a state with the invariant and meets the condition. -/
theorem Along.forall_events {P : σ → Prop} (hstep : ∀ s i, cond s i → P s → P (next s i))
    {s : σ} {is : List ι} (ha : Along next cond s is) (h : P s) :
    ∀ e ∈ events next s is, cond e.1 e.2 ∧ P e.1 := by
  induction is generalizing s with
  | nil => exact List.forall_mem_nil _
  | cons i is ih => exact List.forall_mem_cons.mpr ⟨⟨ha.1, h⟩, ih ha.2 (hstep s i ha.1 h)⟩

end Along

end Etp.Machine
