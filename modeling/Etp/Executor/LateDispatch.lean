import Etp.Executor.Dispatch
import Etp.Sqlite.Terminal

/-!
# Receipts that come before a dispatch

A receipt is to close its attempt: the claims row stays what it is, the receipt reports its
marker, and nobody obtains a capability for the attempt any more.  `mark_dispatch_started`
looks for a marker and not for a receipt, so that all of it depends on the calls that write a
first marker after a receipt.

A recovery that is in time makes such a call possible: it records `not_dispatched` while the
claim token is still held, and `begin_dispatch` takes that token afterwards.
-/

namespace Etp.Executor

open Etp.Core Etp.Authority Etp.Sqlite SqliteEffectStore

section Runs

variable [Sha256]

/-- The rows of closed attempts stay, and every receipt of a state of the run reports the marker
that it finds. -/
structure Closed (calls : List Call) : Prop where
  rows : ReceiptsClose calls
  markers : ∀ before after, calls = before ++ after → MarkersAgree (SqliteEffectStore.run before)

theorem closed_iff {calls : List Call} : Closed calls ↔ NoLateMark calls := by
  constructor
  · intro h
    refine noLateMark_iff.mpr fun before call after hcalls hlate ↦ ?_
    obtain ⟨hash, hr, hne⟩ := claim_of_lateMark hlate
    exact hne (h.rows before [call] after hash hcalls hr)
  · intro h
    refine ⟨h.receiptsClose, fun before after hcalls ↦ ?_⟩
    subst hcalls
    exact h.of_prefix.markersAgree

variable [Ed25519] [Coset]

namespace World

/-! ## Capabilities -/

/-- No call of `begin_dispatch` returned a capability for an attempt that had a receipt. -/
def DispatchesOpen (w : World) : Prop :=
  ∀ x ∈ w.log, ∀ capability, x.answer = .capability capability →
    loadReceiptByGrant x.before capability.claim.grantHash = .ok none

/-- The action is the call of `begin_dispatch` that writes a first marker after a receipt. -/
def MarksLate (w : World) (a : Action) : Prop :=
  ∃ i task claimed snapshot now, a = .advance i ∧ w.tasks[i]? = some task ∧
    task.operation = .beginDispatch claimed snapshot now ∧
    LateMark w.db (.markDispatchStarted claimed.claim.grantHash claimed.claim.attemptId now)

/-- No action of the run writes a first marker after a receipt. -/
def NoLateAction (actions : List Action) : Prop :=
  Machine.Along step (fun w a ↦ ¬w.MarksLate a) empty actions

/-- No call of `begin_dispatch` that returned wrote a first marker after a receipt. -/
def NoLateDispatch (w : World) : Prop :=
  ∀ x ∈ w.log, ∀ claimed snapshot now, x.operation = .beginDispatch claimed snapshot now →
    ¬LateMark x.before (.markDispatchStarted claimed.claim.grantHash claimed.claim.attemptId now)

variable {w : World} {e : EffectTransactionExecutor} {op : Operation} {x : Completion}

omit [Ed25519] [Coset] in
/-- What is logged when the rest of an operation is kept or finished. -/
theorem mem_log_settle {before : Db} {rest : Program Db (Except ExecutorError Answer)}
    (hx : x ∈ (w.settle e op before rest).log) :
    x ∈ w.log ∨ x.operation = op ∧ x.before = before ∧ rest.answer = some (.ok x.answer) := by
  cases rest with
  | call next k => exact .inl hx
  | done result =>
      cases result with
      | error err => exact .inl hx
      | ok answer =>
          rcases List.mem_append.mp hx with hx | hx
          · exact .inl hx
          · rw [List.mem_singleton.mp hx]
            exact .inr ⟨rfl, rfl, rfl⟩

/-- An operation is logged by the action that makes its last call, if it makes one. -/
theorem mem_log_step {a : Action} (hx : x ∈ (w.step a).log) :
    x ∈ w.log ∨ (∃ capability, x.operation = .dispatchWith capability) ∨
      ∃ i task, a = .advance i ∧ w.tasks[i]? = some task ∧ x.operation = task.operation ∧
        x.before = w.db := by
  cases a with
  | start e op =>
      have hstart : ∀ {w₀ : World}, w₀.log = w.log →
          x ∈ (w₀.settle e op w.db (op.program e)).log →
            x ∈ w.log ∨ ∃ capability, x.operation = .dispatchWith capability := by
        intro w₀ hlog hx
        rcases mem_log_settle hx with hx | ⟨hop, -, hanswer⟩
        · exact .inl (hlog ▸ hx)
        · obtain ⟨capability, hdispatch, -⟩ := answer_program_ok hanswer
          exact .inr ⟨capability, hop.trans hdispatch⟩
      rw [← or_assoc]
      refine .inl ?_
      simp only [step] at hx
      split at hx
      · exact hstart rfl hx
      · next t _ =>
          split_ifs at hx
          · exact @hstart { w with tokens := w.tokens.erase t } rfl hx
          · exact .inl hx
  | advance i =>
      simp only [step] at hx
      split at hx
      · next e op next k htask =>
          rcases mem_log_settle hx with hx | ⟨hop, hbefore, -⟩
          · exact .inl hx
          · exact .inr (.inr ⟨i, _, rfl, htask, hop, hbefore⟩)
      · exact .inl hx
  | dropTask i => exact .inl hx
  | dropToken t => exact .inl hx

/-- One action that is not late. -/
theorem NoLateDispatch.step (h : NoLateDispatch w) {a : Action} (ha : ¬w.MarksLate a) :
    NoLateDispatch (w.step a) := by
  intro x hx claimed snapshot now hop hlate
  rcases mem_log_step hx with hx | ⟨capability, hdispatch⟩ | ⟨i, task, rfl, htask, hsame, hbefore⟩
  · exact h x hx claimed snapshot now hop hlate
  · rw [hop] at hdispatch
    cases hdispatch
  · rw [hbefore] at hlate
    exact ha ⟨i, task, claimed, snapshot, now, rfl, htask, hsame.symm.trans hop, hlate⟩

/-- A run without late actions. -/
theorem NoLateAction.noLateDispatch {actions : List Action} (h : NoLateAction actions) :
    NoLateDispatch (run actions) :=
  h.run_invariant (fun _ _ ha hw ↦ hw.step ha) (by rintro _ ⟨⟩)

/-- A capability for an attempt with a receipt comes from a first marker after it. -/
theorem exists_late_of_capability (hinv : Inv w) (hmarks : Marks w) (hx : x ∈ w.log)
    {capability : DispatchCapability} (hanswer : x.answer = .capability capability) {t : Tables}
    (ht : x.before = t.encode) (hr : (t.receipt capability.claim.grantHash).isSome) :
    ∃ claimed snapshot now, x.operation = .beginDispatch claimed snapshot now ∧
      LateMark x.before
        (.markDispatchStarted claimed.claim.grantHash claimed.claim.attemptId now) := by
  obtain ⟨u, hw, hu⟩ := (hinv.before x hx).exists_tables
  obtain rfl : t = u := Tables.encode_injective (ht.symm.trans hu)
  have hcontract : Contract x.executor x.operation x.before x.after
      (some (.ok (.capability capability))) := by
    cases hinv.kept x hx with
    | contract hcontract => rwa [hanswer] at hcontract
    | dispatch _ _ hdispatch _ =>
        rw [hanswer] at hdispatch
        cases hdispatch
  obtain ⟨claimed, snapshot, now, marker, hop, -, hmark, rfl⟩ := hcontract.of_capability
  rw [ht] at hmark
  obtain ⟨-, c, hc, hattempt, hle, hmax, hcases⟩ := mark_encode hw hmark
  have hnone : c.dispatchStartedAtMs = none := hmarks x hx _ hanswer t ht c hc
  have hhash := claim_grantHash hc
  rcases hcases with ⟨hsome, -⟩ | ⟨-, ⟨y, s, hguards⟩, -⟩
  · rw [hnone] at hsome
    cases hsome
  refine ⟨claimed, snapshot, now, hop, t, c, y, now, s, ht, ?_, ?_⟩
  · rw [hhash, hattempt]
  exact {
    receipt := by
      rw [hhash]
      exact hr
    claim := by
      rw [hhash]
      exact hc
    unmarked := hnone
    claimed_le := hle
    dispatched_le := hmax
    guards := hguards }

theorem NoLateDispatch.dispatchesOpen (h : NoLateDispatch w) (hinv : Inv w) (hmarks : Marks w) :
    DispatchesOpen w := by
  intro x hx capability hanswer
  obtain ⟨t, -, ht⟩ := (hinv.before x hx).exists_tables
  rw [ht, Tables.loadReceiptByGrant_encode]
  cases hr : t.receipt capability.claim.grantHash with
  | none => rfl
  | some r =>
      obtain ⟨claimed, snapshot, now, hop, hlate⟩ :=
        exists_late_of_capability hinv hmarks hx hanswer ht (by rw [hr]; rfl)
      exact absurd hlate (h x hx claimed snapshot now hop)

end World

/-- **When receipts close their attempts.**  A run of the store keeps the claims rows of closed
attempts, with receipts that report their markers, exactly if no call writes a first marker after
a receipt; and where no action of the executors does, `begin_dispatch` returns capabilities for
open attempts only. -/
theorem receipts_close_attempts :
    (∀ calls, Closed calls ↔ NoLateMark calls) ∧
      ∀ actions, World.NoLateAction actions → (World.run actions).DispatchesOpen := by
  refine ⟨fun _ ↦ closed_iff, fun actions h ↦ ?_⟩
  obtain ⟨hinv, -, hmarks⟩ := World.run_claims actions
  exact h.noLateDispatch.dispatchesOpen hinv hmarks

end Runs

section Positive

open Vectors

theorem markersAgree_closedCalls : MarkersAgree (SqliteEffectStore.run closedCalls) := by
  intro hash r hr
  rw [run_closedCalls, Tables.loadReceiptByGrant_encode, Except.ok.injEq, closedTables,
    Tables.receipt_addReceipt notDispatchedReceipt_receivable] at hr
  split_ifs at hr with hh
  · subst hh
    cases hr
    refine ⟨_, ?_, notDispatchedReceipt_guards.evidence⟩
    rw [run_closedCalls, Tables.loadClaim_encode]
    exact congrArg Except.ok notDispatchedReceipt_guards.claim
  · cases hr

/-- The marker that comes after the receipt changes the claims row and belies the receipt. -/
theorem receipts_do_not_close :
    ¬ReceiptsClose (closedCalls ++ [positiveAttempt.markCall 1760000004100]) ∧
      ¬MarkersAgree
        (SqliteEffectStore.run (closedCalls ++ [positiveAttempt.markCall 1760000004100])) := by
  constructor
  · intro h
    obtain ⟨hash, hr, hne⟩ := claim_of_lateMark closedCalls_lateMark
    exact hne (h closedCalls [positiveAttempt.markCall 1760000004100] [] hash rfl hr)
  · exact not_markersAgree_of_lateMark closedCalls_lateMark markersAgree_closedCalls

end Positive

end Etp.Executor
