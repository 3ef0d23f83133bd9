import Etp.Lib.Reads

/-!
# Programs of several transactions

A program that makes a number of calls on a shared state, one after the other.
A call is atomic, and anybody may change the state between two calls.  `alone` is
the run in which nobody does.

`Obeys rely R p s` is the guarantee of a program whose last call left the state `s`:
whatever states `rely` lets the others bring about, every call of the program is
related by `R` to the state it leaves, and to the answer if it was the last one.
What is left of a program obeys what the program obeys, so a system of programs that
are under way at the same time is analysed one call at a time.
-/

namespace Etp

universe u v

inductive Program (σ : Type u) (α : Type v) where
  | done (a : α)
  | call (next : σ → σ) (k : σ → Program σ α)

namespace Program

variable {σ : Type u} {α β : Type v}

def map (f : α → β) : Program σ α → Program σ β
  | done a => done (f a)
  | call next k => call next fun s ↦ (k s).map f

/-- The answer of a program with no call left. -/
def answer : Program σ α → Option α
  | done a => some a
  | call _ _ => none

/-- The run with no other call in between. -/
def alone : Program σ α → σ → α × σ
  | done a, s => (a, s)
  | call next k, s => (k s).alone (next s)

@[simp] theorem answer_done (a : α) : (done a : Program σ α).answer = some a := rfl

@[simp] theorem alone_done (a : α) (s : σ) : (done a).alone s = (a, s) := rfl

@[simp] theorem alone_call (next : σ → σ) (k : σ → Program σ α) (s : σ) :
    (call next k).alone s = (k s).alone (next s) := rfl

theorem answer_map (f : α → β) (p : Program σ α) : (p.map f).answer = p.answer.map f := by
  cases p <;> rfl

/-! ## What the calls do -/

/-- Every call from a state that the others may have brought about since the last one
meets `R`, with the answer if it is the last call. -/
def Obeys (rely : σ → σ → Prop) (R : σ → σ → Option α → Prop) : Program σ α → σ → Prop
  | done _, _ => True
  | call next k, s₀ => ∀ s, rely s₀ s → R s (next s) (k s).answer ∧ (k s).Obeys rely R (next s)

section Obeys

variable {rely : σ → σ → Prop} {R : σ → σ → Option α → Prop} {s s' : σ}

theorem obeys_done (a : α) : (done a : Program σ α).Obeys rely R s := trivial

/-- The guarantee outlasts what the others do. -/
theorem Obeys.later [IsTrans σ rely] {p : Program σ α} (h : p.Obeys rely R s) (hs : rely s s') :
    p.Obeys rely R s' := by
  cases p with
  | done a => trivial
  | call next k => exact fun t ht ↦ h t (Trans.trans hs ht)

theorem Obeys.map {S : σ → σ → Option β → Prop} {f : α → β} {p : Program σ α}
    (h : p.Obeys rely (fun s s' o ↦ S s s' (o.map f)) s) : (p.map f).Obeys rely S s := by
  induction p generalizing s with
  | done a => trivial
  | call next k ih =>
      intro t ht
      rw [answer_map]
      exact ⟨(h t ht).1, ih t (h t ht).2⟩

end Obeys

/-! ## Traces -/

/-- The calls of a run that returned, each with the states before and after it.  The
others may do anything between two of them. -/
inductive Trace : Program σ α → List (σ × σ) → α → Prop
  | stop (a : α) : Trace (.done a) [] a
  | step {next : σ → σ} {k : σ → Program σ α} {s : σ} {calls : List (σ × σ)} {a : α}
      (h : Trace (k s) calls a) : Trace (.call next k) ((s, next s) :: calls) a

/-- Calls that left the state alone. -/
def Quiet (calls : List (σ × σ)) : Prop := ∀ call ∈ calls, call.2 = call.1

/-- Calls with nobody in between, from the first state to the last. -/
def Linked : σ → List (σ × σ) → σ → Prop
  | s, [], s' => s = s'
  | s, x :: calls, s' => x.1 = s ∧ Linked x.2 calls s'

section Trace

variable {calls : List (σ × σ)} {a a' : α} {b : β} {s s' : σ}

theorem quiet_nil : Quiet ([] : List (σ × σ)) := by
  rintro _ ⟨⟩

theorem Quiet.append {calls calls' : List (σ × σ)} (h : Quiet calls) (h' : Quiet calls') :
    Quiet (calls ++ calls') := by
  intro call hcall
  rcases List.mem_append.mp hcall with hcall | hcall
  · exact h call hcall
  · exact h' call hcall

theorem Quiet.linked_eq (h : Quiet calls) (hlinked : Linked s calls s') : s = s' := by
  induction calls generalizing s with
  | nil => exact hlinked
  | cons call calls ih =>
      obtain ⟨rfl, hlinked⟩ := hlinked
      have hcall : call.2 = call.1 := h call List.mem_cons_self
      rw [hcall] at hlinked
      exact ih (fun x hx ↦ h x (List.mem_cons_of_mem _ hx)) hlinked

/-- The run with no other call in between has a trace. -/
theorem exists_trace_alone (p : Program σ α) (s : σ) :
    ∃ calls, p.Trace calls (p.alone s).1 ∧ Linked s calls (p.alone s).2 := by
  induction p generalizing s with
  | done a => exact ⟨[], .stop a, rfl⟩
  | call next k ih =>
      obtain ⟨calls, htrace, hlinked⟩ := ih s (next s)
      exact ⟨(s, next s) :: calls, .step htrace, rfl, hlinked⟩

theorem Trace.of_done (h : (done a : Program σ α).Trace calls a') : calls = [] ∧ a' = a := by
  cases h
  exact ⟨rfl, rfl⟩

theorem Trace.of_call {next : σ → σ} {k : σ → Program σ α} (h : (call next k).Trace calls a) :
    ∃ s rest, calls = (s, next s) :: rest ∧ (k s).Trace rest a := by
  cases h with
  | step h => exact ⟨_, _, rfl, h⟩

theorem Trace.of_map {f : α → β} {p : Program σ α} (h : (p.map f).Trace calls b) :
    ∃ a, p.Trace calls a ∧ f a = b := by
  induction p generalizing calls with
  | done a =>
      obtain ⟨rfl, rfl⟩ := Trace.of_done h
      exact ⟨a, .stop a, rfl⟩
  | call next k ih =>
      obtain ⟨s, rest, rfl, hrest⟩ := Trace.of_call h
      obtain ⟨a, ha, rfl⟩ := ih s hrest
      exact ⟨a, .step ha, rfl⟩

end Trace

/-! ## Fallible programs -/

section Except

variable {ε ε' γ δ : Type v}

/-- A check, whose error ends the program. -/
def check (x : Except ε γ) (k : γ → Program σ (Except ε δ)) : Program σ (Except ε δ) :=
  match x with
  | .error e => done (.error e)
  | .ok c => k c

/-- One transaction, whose error ends the program. -/
def transact (wrap : ε' → ε) (op : σ → Except ε' γ × σ) (k : γ → Program σ (Except ε δ)) :
    Program σ (Except ε δ) :=
  call (fun s ↦ (op s).2) fun s ↦ check ((op s).1.mapError wrap) k

/-- The reads of another program, whose error ends this one. -/
def reading (wrap : ε' → ε) :
    Reads σ (Except ε' γ) → (γ → Program σ (Except ε δ)) → Program σ (Except ε δ)
  | .done x, k => check (x.mapError wrap) k
  | .read f, k => call id fun s ↦ reading wrap (f s) k

variable {wrap : ε' → ε} {op : σ → Except ε' γ × σ} {x : Except ε γ}
  {k : γ → Program σ (Except ε δ)} {rely : σ → σ → Prop}
  {R : σ → σ → Option (Except ε δ) → Prop} {s : σ} {c : γ} {e : ε'}

@[simp] theorem check_ok : check (.ok c) k = k c := rfl

@[simp] theorem check_error (e : ε) : check (.error e) k = done (.error e) := rfl

theorem obeys_check (h : ∀ c, x = .ok c → (k c).Obeys rely R s) : (check x k).Obeys rely R s := by
  cases x with
  | error e => exact obeys_done _
  | ok c => exact h c rfl

/-- The rule for a transaction: what it does when it fails, and when it succeeds. -/
theorem obeys_transact
    (herror : ∀ t e, rely s t → (op t).1 = .error e → R t (op t).2 (some (.error (wrap e))))
    (hok : ∀ t c, rely s t → (op t).1 = .ok c → R t (op t).2 (k c).answer)
    (hrest : ∀ t c, rely s t → (op t).1 = .ok c → (k c).Obeys rely R (op t).2) :
    (transact wrap op k).Obeys rely R s := by
  intro t ht
  show R t (op t).2 (check ((op t).1.mapError wrap) k).answer ∧
    (check ((op t).1.mapError wrap) k).Obeys rely R (op t).2
  cases h : (op t).1 with
  | error e => exact ⟨herror t e ht h, obeys_done _⟩
  | ok c => exact ⟨hok t c ht h, hrest t c ht h⟩

/-- The rule for reads, which leave the state alone. -/
theorem obeys_reading {p : Reads σ (Except ε' γ)} (hnone : ∀ t, R t t none)
    (herror : ∀ t e, R t t (some (.error e))) (hok : ∀ t c, R t t (k c).answer)
    (hrest : ∀ t c, (k c).Obeys rely R t) : (reading wrap p k).Obeys rely R s := by
  have hanswer : ∀ t (y : Except ε' γ), R t t (check (y.mapError wrap) k).answer := by
    intro t y
    cases y with
    | error e => exact herror t _
    | ok c => exact hok t c
  induction p generalizing s with
  | done y =>
      cases y with
      | error e => exact obeys_done _
      | ok c => exact hrest s c
  | read f ih =>
      intro t _
      refine ⟨?_, ih t⟩
      show R t t (reading wrap (f t) k).answer
      cases f t with
      | done y => exact hanswer t y
      | read g => exact hnone t

theorem alone_transact_ok {s' : σ} (h : op s = (.ok c, s')) :
    (transact wrap op k).alone s = (k c).alone s' := by
  simp only [transact, alone_call, h, Except.mapError, check_ok]

theorem alone_reading (p : Reads σ (Except ε' γ)) (s : σ) :
    (reading wrap p k).alone s = (check ((p.alone s).mapError wrap) k).alone s := by
  induction p with
  | done y => rfl
  | read f ih => exact ih s

/-! ### Traces that end in an error -/

theorem Trace.of_check {calls : List (σ × σ)} {e : ε} (h : (check x k).Trace calls (.error e)) :
    calls = [] ∨ ∃ c, x = .ok c ∧ (k c).Trace calls (.error e) := by
  cases x with
  | error e' => exact .inl (Trace.of_done h).1
  | ok c => exact .inr ⟨c, rfl, h⟩

theorem Trace.of_transact {calls : List (σ × σ)} {e : ε}
    (h : (transact wrap op k).Trace calls (.error e)) :
    ∃ s rest, calls = (s, (op s).2) :: rest ∧
      ((∃ e', (op s).1 = .error e') ∧ rest = [] ∨
        ∃ c, (op s).1 = .ok c ∧ (k c).Trace rest (.error e)) := by
  obtain ⟨s, rest, rfl, hrest⟩ := Trace.of_call h
  refine ⟨s, rest, rfl, ?_⟩
  cases hs : (op s).1 with
  | error e' =>
      rw [hs] at hrest
      exact .inl ⟨⟨e', rfl⟩, (Trace.of_done hrest).1⟩
  | ok c =>
      rw [hs] at hrest
      exact .inr ⟨c, rfl, hrest⟩

theorem Trace.of_reading {p : Reads σ (Except ε' γ)} {calls : List (σ × σ)} {e : ε}
    (h : (reading wrap p k).Trace calls (.error e)) :
    Quiet calls ∨ ∃ reads rest c, calls = reads ++ rest ∧ Quiet reads ∧
      (k c).Trace rest (.error e) := by
  induction p generalizing calls with
  | done y =>
      rcases Trace.of_check h with rfl | ⟨c, -, h⟩
      · exact .inl quiet_nil
      · exact .inr ⟨[], calls, c, rfl, quiet_nil, h⟩
  | read f ih =>
      obtain ⟨s, rest, rfl, hrest⟩ := Trace.of_call h
      have hread : Quiet [(s, s)] := fun call hcall ↦ by
        rw [List.mem_singleton.mp hcall]
      rcases ih s hrest with hrest | ⟨reads, rest, c, rfl, hreads, h⟩
      · exact .inl (hread.append hrest)
      · exact .inr ⟨(s, s) :: reads, rest, c, rfl, hread.append hreads, h⟩

end Except

end Program

end Etp
