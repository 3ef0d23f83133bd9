import Mathlib

/-!
# Programs of several reads

A program that reads a shared state more than once, and may stop after any of
its reads.  Nothing holds the state still in between: `run` gives the `n`th read
the `n`th state of a view, and `alone` is the run in which nobody else writes.
`Atomic` is the question whether an outcome is also one of running alone on a
single state.
-/

namespace Etp

universe u v

inductive Reads (σ : Type u) (α : Type v) where
  | done (a : α)
  | read (k : σ → Reads σ α)

namespace Reads

variable {σ : Type u} {α : Type v}

def run : Reads σ α → (ℕ → σ) → α
  | done a, _ => a
  | read k, view => (k (view 0)).run fun n ↦ view (n + 1)

/-- The number of reads that the run makes. -/
def count : Reads σ α → (ℕ → σ) → ℕ
  | done _, _ => 0
  | read k, view => ((k (view 0)).count fun n ↦ view (n + 1)) + 1

def alone (p : Reads σ α) (s : σ) : α := p.run fun _ ↦ s

section Except

variable {ε β γ : Type v}

/-- A query whose error ends the program. -/
def query (f : σ → Except ε β) (k : β → Reads σ (Except ε γ)) : Reads σ (Except ε γ) :=
  .read fun s ↦
    match f s with
    | .error e => .done (.error e)
    | .ok b => k b

/-- A check on what was read, whose error ends the program. -/
def check (x : Except ε β) (k : β → Reads σ (Except ε γ)) : Reads σ (Except ε γ) :=
  match x with
  | .error e => .done (.error e)
  | .ok b => k b

variable {f : σ → Except ε β} {k : β → Reads σ (Except ε γ)} {view : ℕ → σ} {b : β} {e : ε}

@[simp] theorem run_done (a : α) : (done a).run view = a := rfl

@[simp] theorem count_done (a : α) : (done a).count view = 0 := rfl

@[simp] theorem check_ok : check (.ok b) k = k b := rfl

@[simp] theorem check_error : check (.error e) k = .done (.error e) := rfl

theorem run_query_ok (h : f (view 0) = .ok b) :
    (query f k).run view = (k b).run fun n ↦ view (n + 1) := by
  simp only [query, run, h]

theorem count_query_ok (h : f (view 0) = .ok b) :
    (query f k).count view = ((k b).count fun n ↦ view (n + 1)) + 1 := by
  simp only [query, count, h]

end Except

/-- The last moment up to which a value stays what it was. -/
theorem exists_last_eq (f : ℕ → α) {n m : ℕ} (h : n ≤ m) :
    ∃ k, n ≤ k ∧ k ≤ m ∧ f k = f n ∧ (k = m ∨ k < m ∧ f (k + 1) ≠ f k) := by
  induction m, h using Nat.le_induction with
  | base => exact ⟨n, le_rfl, le_rfl, rfl, .inl rfl⟩
  | succ m _ ih =>
      obtain ⟨k, hnk, hkm, hk, hend⟩ := ih
      rcases hend with rfl | ⟨hlt, hne⟩
      · by_cases he : f (k + 1) = f k
        · exact ⟨k + 1, by omega, le_rfl, he.trans hk, .inl rfl⟩
        · exact ⟨k, hnk, by omega, hk, .inr ⟨by omega, he⟩⟩
      · exact ⟨k, hnk, by omega, hk, .inr ⟨by omega, hne⟩⟩

/-- Some state between the first and the last read would alone have given the outcome. -/
def Atomic (p : Reads σ α) (states : ℕ → σ) (times : ℕ → ℕ) : Prop :=
  ∃ n, times 0 ≤ n ∧ n ≤ times (p.count (states ∘ times) - 1) ∧
    p.run (states ∘ times) = p.alone (states n)

end Reads

end Etp
