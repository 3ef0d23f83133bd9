import Etp.Core.Commitment
import Etp.Lib.Chained

/-!
# Chain and lifecycle verification

The verifiers of the core crate, from `verify_decision` to `verify_transaction`,
each with the lemma that says when it returns `Ok` and what it returns.  The
lemmas speak of `validate` and `recordHash` only, so nothing above this file
unfolds a verifier.
-/

namespace Etp.Core

variable [Sha256]

structure VerifiedDecision where
  commitmentHash : Digest32
  proposalHash : Digest32
  decisionHash : Digest32
deriving DecidableEq

structure VerifiedAuthorization where
  commitmentHash : Digest32
  proposalHash : Digest32
  decisionHash : Digest32
  grantHash : Digest32
deriving DecidableEq

structure VerifiedChain where
  commitmentHash : Digest32
  proposalHash : Digest32
  decisionHash : Digest32
  grantHash : Digest32
  receiptHash : Digest32
deriving DecidableEq

/-- An ETP record bundle at a lifecycle stage. -/
structure TransactionBundle where
  commitment : TaskCommitment
  proposal : EffectProposal
  decision : AuthorizationDecision
  grant : Option ExecutionGrant
  receipt : Option EffectReceipt
  reconciliations : List ReconciliationRecord
deriving DecidableEq

inductive TransactionState where
  | decided | granted | notDispatched | succeeded | failed | unknown
  | effectConfirmed | noEffectConfirmed | partialEffect | stillUnknown | compensated
deriving DecidableEq, Repr

structure VerifiedTransaction where
  commitmentHash : Digest32
  proposalHash : Digest32
  decisionHash : Digest32
  grantHash : Option Digest32
  receiptHash : Option Digest32
  reconciliationHashes : List Digest32
  state : TransactionState
deriving DecidableEq

/-! ## The chain -/

def verifyDecision (c : TaskCommitment) (p : EffectProposal) (d : AuthorizationDecision) :
    Except ProtocolError VerifiedDecision := do
  let commitmentHash ← commitment c
  rejectIf (p.commitmentHash ≠ commitmentHash) (.chainMismatch "commitment_hash")
  rejectIf (p.createdAtMs < c.createdAtMs ∨ p.expiresAtMs > c.expiresAtMs)
    (.invalidNestedWindow "proposal")
  let proposalHash ← commitment p
  rejectIf (d.proposalHash ≠ proposalHash) (.chainMismatch "decision.proposal_hash")
  rejectIf (d.decidedAtMs < p.createdAtMs ∨ d.expiresAtMs > p.expiresAtMs)
    (.invalidNestedWindow "decision")
  let decisionHash ← commitment d
  .ok { commitmentHash, proposalHash, decisionHash }

def verifyAuthorization (c : TaskCommitment) (p : EffectProposal) (d : AuthorizationDecision)
    (g : ExecutionGrant) : Except ProtocolError VerifiedAuthorization := do
  let verified ← verifyDecision c p d
  rejectIf (d.outcome ≠ .allow) .decisionDoesNotAuthorize
  rejectIf (g.proposalHash ≠ verified.proposalHash) (.chainMismatch "grant.proposal_hash")
  rejectIf (g.decisionHash ≠ verified.decisionHash) (.chainMismatch "grant.decision_hash")
  rejectIf (g.notBeforeMs < d.decidedAtMs ∨ g.expiresAtMs > d.expiresAtMs)
    (.invalidNestedWindow "grant")
  let grantHash ← commitment g
  .ok {
    commitmentHash := verified.commitmentHash
    proposalHash := verified.proposalHash
    decisionHash := verified.decisionHash
    grantHash }

def verifyGrant (c : TaskCommitment) (p : EffectProposal) (d : AuthorizationDecision)
    (g : ExecutionGrant) : Except ProtocolError Digest32 := do
  let authorization ← verifyAuthorization c p d g
  .ok authorization.grantHash

def verifyChain (c : TaskCommitment) (p : EffectProposal) (d : AuthorizationDecision)
    (g : ExecutionGrant) (r : EffectReceipt) : Except ProtocolError VerifiedChain := do
  let authorization ← verifyAuthorization c p d g
  rejectIf (r.proposalHash ≠ authorization.proposalHash) (.chainMismatch "receipt.proposal_hash")
  rejectIf (r.grantHash ≠ authorization.grantHash) (.chainMismatch "receipt.grant_hash")
  rejectIf (r.claimedAtMs < g.notBeforeMs ∨ r.claimedAtMs ≥ g.expiresAtMs)
    .receiptOutsideGrantWindow
  let receiptHash ← commitment r
  .ok {
    commitmentHash := authorization.commitmentHash
    proposalHash := authorization.proposalHash
    decisionHash := authorization.decisionHash
    grantHash := authorization.grantHash
    receiptHash }

/-! ### When the chain verifies -/

/-- The commitment, the proposal and the decision of one transaction: valid, linked by
their hashes, and nested in time. -/
structure DecisionChain (c : TaskCommitment) (p : EffectProposal) (d : AuthorizationDecision) :
    Prop where
  commitment_valid : validate c = .ok ()
  proposal_valid : validate p = .ok ()
  decision_valid : validate d = .ok ()
  commitment_hash : p.commitmentHash = recordHash c
  proposal_hash : d.proposalHash = recordHash p
  created_le : c.createdAtMs ≤ p.createdAtMs
  expires_le : p.expiresAtMs ≤ c.expiresAtMs
  decided_ge : p.createdAtMs ≤ d.decidedAtMs
  decision_expires_le : d.expiresAtMs ≤ p.expiresAtMs

/-- A decision chain that allows a grant. -/
structure GrantChain (c : TaskCommitment) (p : EffectProposal) (d : AuthorizationDecision)
    (g : ExecutionGrant) : Prop extends DecisionChain c p d where
  grant_valid : validate g = .ok ()
  allowed : d.outcome = .allow
  grant_proposal_hash : g.proposalHash = recordHash p
  grant_decision_hash : g.decisionHash = recordHash d
  not_before_ge : d.decidedAtMs ≤ g.notBeforeMs
  grant_expires_le : g.expiresAtMs ≤ d.expiresAtMs

/-- A receipt for a grant whose claim lies in the grant's window. -/
structure ReceiptFor (p : EffectProposal) (g : ExecutionGrant) (r : EffectReceipt) : Prop where
  receipt_valid : validate r = .ok ()
  receipt_proposal_hash : r.proposalHash = recordHash p
  receipt_grant_hash : r.grantHash = recordHash g
  claimed_ge : g.notBeforeMs ≤ r.claimedAtMs
  claimed_lt : r.claimedAtMs < g.expiresAtMs

section Specs

variable {c : TaskCommitment} {p : EffectProposal} {d : AuthorizationDecision}
  {g : ExecutionGrant} {r : EffectReceipt}

theorem verifyDecision_eq_ok {v : VerifiedDecision} :
    verifyDecision c p d = .ok v ↔
      DecisionChain c p d ∧ v = ⟨recordHash c, recordHash p, recordHash d⟩ := by
  simp only [verifyDecision, bind_eq_ok, commitment_eq_ok, rejectIf_eq_ok, not_or, not_lt,
    not_not, Except.ok.injEq, exists_const]
  constructor
  · rintro ⟨_, ⟨h₁, rfl⟩, h₂, ⟨h₃, h₄⟩, _, ⟨h₅, rfl⟩, h₆, ⟨h₇, h₈⟩, _, ⟨h₉, rfl⟩, rfl⟩
    exact ⟨⟨h₁, h₅, h₉, h₂, h₆, h₃, h₄, h₇, h₈⟩, rfl⟩
  · rintro ⟨⟨h₁, h₅, h₉, h₂, h₆, h₃, h₄, h₇, h₈⟩, rfl⟩
    exact ⟨_, ⟨h₁, rfl⟩, h₂, ⟨h₃, h₄⟩, _, ⟨h₅, rfl⟩, h₆, ⟨h₇, h₈⟩, _, ⟨h₉, rfl⟩, rfl⟩

theorem verifyAuthorization_eq_ok {v : VerifiedAuthorization} :
    verifyAuthorization c p d g = .ok v ↔
      GrantChain c p d g ∧ v = ⟨recordHash c, recordHash p, recordHash d, recordHash g⟩ := by
  simp only [verifyAuthorization, bind_eq_ok, verifyDecision_eq_ok, commitment_eq_ok,
    rejectIf_eq_ok, not_or, not_lt, not_not, Except.ok.injEq, exists_const]
  constructor
  · rintro ⟨_, ⟨h, rfl⟩, h₁, h₂, h₃, ⟨h₄, h₅⟩, _, ⟨h₆, rfl⟩, rfl⟩
    exact ⟨⟨h, h₆, h₁, h₂, h₃, h₄, h₅⟩, rfl⟩
  · rintro ⟨⟨h, h₆, h₁, h₂, h₃, h₄, h₅⟩, rfl⟩
    exact ⟨_, ⟨h, rfl⟩, h₁, h₂, h₃, ⟨h₄, h₅⟩, _, ⟨h₆, rfl⟩, rfl⟩

theorem verifyGrant_eq_ok {h : Digest32} :
    verifyGrant c p d g = .ok h ↔ GrantChain c p d g ∧ h = recordHash g := by
  simp only [verifyGrant, bind_eq_ok, verifyAuthorization_eq_ok, Except.ok.injEq]
  constructor
  · rintro ⟨_, ⟨hc, rfl⟩, rfl⟩
    exact ⟨hc, rfl⟩
  · rintro ⟨hc, rfl⟩
    exact ⟨_, ⟨hc, rfl⟩, rfl⟩

theorem verifyChain_eq_ok {v : VerifiedChain} :
    verifyChain c p d g r = .ok v ↔
      (GrantChain c p d g ∧ ReceiptFor p g r) ∧
        v = ⟨recordHash c, recordHash p, recordHash d, recordHash g, recordHash r⟩ := by
  simp only [verifyChain, bind_eq_ok, verifyAuthorization_eq_ok, commitment_eq_ok,
    rejectIf_eq_ok, not_or, not_lt, not_le, ge_iff_le, not_not, Except.ok.injEq, exists_const]
  constructor
  · rintro ⟨_, ⟨h, rfl⟩, h₁, h₂, ⟨h₃, h₄⟩, _, ⟨h₅, rfl⟩, rfl⟩
    exact ⟨⟨h, ⟨h₅, h₁, h₂, h₃, h₄⟩⟩, rfl⟩
  · rintro ⟨⟨h, ⟨h₅, h₁, h₂, h₃, h₄⟩⟩, rfl⟩
    exact ⟨_, ⟨h, rfl⟩, h₁, h₂, ⟨h₃, h₄⟩, _, ⟨h₅, rfl⟩, rfl⟩

end Specs

/-! ## Reconciliation -/

/-- `u64::saturating_add(1)` -/
def saturatingSucc (n : Nat) : Nat := min (n + 1) (2 ^ 64 - 1)

/-- The comparisons with the parent, or with its absence. -/
def checkParent (previous : Option ReconciliationRecord) (record : ReconciliationRecord) :
    Except ProtocolError Unit :=
  match previous with
  | none =>
      rejectIf (record.sequence ≠ 1 ∨ record.parentReconciliationHash.isSome)
        .invalidReconciliationParent
  | some parent => do
      rejectIf parent.outcome.isTerminal .reconciliationAlreadyTerminal
      let parentHash ← commitment parent
      rejectIf
        (record.sequence ≠ saturatingSucc parent.sequence ∨
          record.parentReconciliationHash ≠ some parentHash ∨
          record.receiptHash ≠ parent.receiptHash ∨ record.observedAtMs < parent.observedAtMs)
        .invalidReconciliationParent

def verifyReconciliation (receipt : EffectReceipt) (previous : Option ReconciliationRecord)
    (record : ReconciliationRecord) : Except ProtocolError Digest32 := do
  rejectIf (receipt.outcome ≠ .unknown) .reconciliationRequiresUnknown
  let receiptHash ← commitment receipt
  rejectIf (record.receiptHash ≠ receiptHash) (.chainMismatch "reconciliation.receipt_hash")
  rejectIf (record.observedAtMs < receipt.completedAtMs) .invalidReconciliationTimeline
  checkParent previous record
  commitment record

/-- What a record owes to its predecessor. -/
def ParentLink : Option ReconciliationRecord → ReconciliationRecord → Prop
  | none, r => r.sequence = 1 ∧ r.parentReconciliationHash = none
  | some q, r => q.outcome.isTerminal = false ∧ r.sequence = q.sequence + 1 ∧
      r.parentReconciliationHash = some (recordHash q) ∧ q.observedAtMs ≤ r.observedAtMs

/-- What a record owes to its receipt. -/
structure ReconciliationFor (receipt : EffectReceipt) (record : ReconciliationRecord) : Prop where
  record_valid : validate record = .ok ()
  unknown : receipt.outcome = .unknown
  receipt_hash : record.receiptHash = recordHash receipt
  observed_ge : receipt.completedAtMs ≤ record.observedAtMs

theorem ParentLink.hash {q : Option ReconciliationRecord} {r : ReconciliationRecord}
    (h : ParentLink q r) : r.parentReconciliationHash = q.map recordHash := by
  cases q with
  | none => exact h.2
  | some q => exact h.2.2.1

section Specs

variable {receipt : EffectReceipt} {record : ReconciliationRecord} {h : Digest32}

omit [Sha256] in
theorem saturatingSucc_of_valid {q : ReconciliationRecord} (hv : validate q = .ok ()) :
    saturatingSucc q.sequence = q.sequence + 1 := by
  have := (ReconciliationRecord.validate_eq_ok.mp hv).2.2.2.1.2
  simp only [maxSafeInteger] at this
  rw [saturatingSucc, min_eq_left]
  omega

/-- `verify_reconciliation` after records that belong to the same receipt. -/
theorem verifyReconciliation_eq_ok {previous : Option ReconciliationRecord}
    (hprev : ∀ q ∈ previous, ReconciliationFor receipt q) :
    verifyReconciliation receipt previous record = .ok h ↔
      (validate receipt = .ok () ∧ ReconciliationFor receipt record ∧ ParentLink previous record) ∧
        h = recordHash record := by
  have hparent : record.receiptHash = recordHash receipt →
      (checkParent previous record = .ok () ↔ ParentLink previous record) := by
    intro hrec
    cases previous with
    | none => simp [checkParent, ParentLink]
    | some q =>
        have hq := hprev q rfl
        simp only [checkParent, ParentLink, bind_eq_ok, rejectIf_eq_ok, commitment_eq_ok,
          saturatingSucc_of_valid hq.record_valid, hrec, hq.receipt_hash, not_or, not_not,
          not_lt, exists_const, Bool.not_eq_true, ne_eq]
        constructor
        · rintro ⟨h₁, _, ⟨-, rfl⟩, h₂, h₃, -, h₄⟩
          exact ⟨h₁, h₂, h₃, h₄⟩
        · rintro ⟨h₁, h₂, h₃, h₄⟩
          exact ⟨h₁, _, ⟨hq.record_valid, rfl⟩, h₂, h₃, trivial, h₄⟩
  simp only [verifyReconciliation, bind_eq_ok, rejectIf_eq_ok, commitment_eq_ok, not_not, not_lt,
    exists_const]
  constructor
  · rintro ⟨h₁, _, ⟨h₂, rfl⟩, h₃, h₄, ⟨⟩, h₅, h₆, rfl⟩
    exact ⟨⟨h₂, ⟨h₆, h₁, h₃, h₄⟩, (hparent h₃).mp h₅⟩, rfl⟩
  · rintro ⟨⟨h₂, ⟨h₆, h₁, h₃, h₄⟩, h₅⟩, rfl⟩
    exact ⟨h₁, _, ⟨h₂, rfl⟩, h₃, h₄, (), (hparent h₃).mpr h₅, h₆, rfl⟩

end Specs

/-! ## The whole transaction -/

/-- The loop over the reconciliations, with the identifiers seen so far. -/
def verifyReconciliations (receipt : EffectReceipt) :
    Option ReconciliationRecord → List String → List ReconciliationRecord →
      Except ProtocolError (List Digest32)
  | _, _, [] => .ok []
  | previous, identifiers, record :: records => do
      rejectIf (record.reconciliationId ∈ identifiers) (.duplicateIdentifier "reconciliation_id")
      let hash ← verifyReconciliation receipt previous record
      let hashes ← verifyReconciliations receipt (some record)
        (record.reconciliationId :: identifiers) records
      .ok (hash :: hashes)

def receiptState : ReceiptOutcome → TransactionState
  | .notDispatched => .notDispatched
  | .succeeded => .succeeded
  | .failed => .failed
  | .unknown => .unknown

def reconciliationState : ReconciliationOutcome → TransactionState
  | .effectConfirmed => .effectConfirmed
  | .noEffectConfirmed => .noEffectConfirmed
  | .partialEffect => .partialEffect
  | .stillUnknown => .stillUnknown
  | .compensated => .compensated

/-- `previous.map_or_else(..)`, where `previous` is the last record of the loop. -/
def finalState (receipt : EffectReceipt) (last : Option ReconciliationRecord) : TransactionState :=
  match last with
  | none => receiptState receipt.outcome
  | some record => reconciliationState record.outcome

def verifyTransaction (bundle : TransactionBundle) : Except ProtocolError VerifiedTransaction := do
  rejectIf (bundle.reconciliations.length > maxReconciliationRecords)
    (.resourceLimit "reconciliation records")
  let decision ← verifyDecision bundle.commitment bundle.proposal bundle.decision
  match bundle.grant with
  | none => do
      rejectIf (bundle.receipt.isSome ∨ bundle.reconciliations ≠ []) (.missingPredecessor "grant")
      .ok {
        commitmentHash := decision.commitmentHash
        proposalHash := decision.proposalHash
        decisionHash := decision.decisionHash
        grantHash := none
        receiptHash := none
        reconciliationHashes := []
        state := .decided }
  | some grant => do
      let grantHash ← verifyGrant bundle.commitment bundle.proposal bundle.decision grant
      match bundle.receipt with
      | none => do
          rejectIf (bundle.reconciliations ≠ []) (.missingPredecessor "receipt")
          .ok {
            commitmentHash := decision.commitmentHash
            proposalHash := decision.proposalHash
            decisionHash := decision.decisionHash
            grantHash := some grantHash
            receiptHash := none
            reconciliationHashes := []
            state := .granted }
      | some receipt => do
          let chain ← verifyChain bundle.commitment bundle.proposal bundle.decision grant receipt
          let reconciliationHashes ← verifyReconciliations receipt none [] bundle.reconciliations
          .ok {
            commitmentHash := chain.commitmentHash
            proposalHash := chain.proposalHash
            decisionHash := chain.decisionHash
            grantHash := some chain.grantHash
            receiptHash := some chain.receiptHash
            reconciliationHashes
            state := finalState receipt bundle.reconciliations.getLast? }

/-! ### When the loop and the whole verifier return `Ok` -/

/-- The reconciliations of one receipt: each belongs to it and is linked to its
predecessor, and their identifiers are distinct. -/
structure History (receipt : EffectReceipt) (records : List ReconciliationRecord) : Prop where
  each : ∀ r ∈ records, ReconciliationFor receipt r
  linked : Chained ParentLink none records
  distinct : (records.map ReconciliationRecord.reconciliationId).Nodup

theorem verifyReconciliations_eq_ok {receipt : EffectReceipt}
    {records : List ReconciliationRecord} {previous : Option ReconciliationRecord}
    {identifiers : List String} {hashes : List Digest32} (hv : validate receipt = .ok ())
    (hprev : ∀ q ∈ previous, ReconciliationFor receipt q) :
    verifyReconciliations receipt previous identifiers records = .ok hashes ↔
      ((∀ r ∈ records, ReconciliationFor receipt r) ∧ Chained ParentLink previous records ∧
        (records.map ReconciliationRecord.reconciliationId).Nodup ∧
        ∀ r ∈ records, r.reconciliationId ∉ identifiers) ∧
      hashes = records.map recordHash := by
  induction records generalizing previous identifiers hashes with
  | nil => simp [verifyReconciliations, Chained, eq_comm]
  | cons r rs ih =>
      simp only [verifyReconciliations, bind_eq_ok, rejectIf_eq_ok, exists_const,
        verifyReconciliation_eq_ok hprev, Except.ok.injEq]
      constructor
      · rintro ⟨hid, _, ⟨⟨-, h₁, h₂⟩, rfl⟩, hs, hrest, rfl⟩
        obtain ⟨⟨h₃, h₄, h₅, h₆⟩, rfl⟩ := (ih (by simpa using h₁)).mp hrest
        refine ⟨⟨by simpa using ⟨h₁, h₃⟩, ⟨h₂, h₄⟩, ?_, ?_⟩, rfl⟩
        · rw [List.map_cons, List.nodup_cons]
          refine ⟨fun hmem ↦ ?_, h₅⟩
          obtain ⟨q, hq, heq⟩ := List.mem_map.mp hmem
          exact h₆ q hq (by simp [heq])
        · simp only [List.mem_cons, forall_eq_or_imp]
          exact ⟨hid, fun q hq hmem ↦ h₆ q hq (by simp [hmem])⟩
      · rintro ⟨⟨h₃, ⟨h₂, h₄⟩, h₅, h₆⟩, rfl⟩
        simp only [List.mem_cons, forall_eq_or_imp] at h₃ h₆
        rw [List.map_cons, List.nodup_cons] at h₅
        refine ⟨h₆.1, _, ⟨⟨hv, h₃.1, h₂⟩, rfl⟩, _, ?_, rfl⟩
        refine (ih (by simpa using h₃.1)).mpr ⟨⟨h₃.2, h₄, h₅.2, fun q hq hmem ↦ ?_⟩, rfl⟩
        rcases List.mem_cons.mp hmem with heq | hmem
        · exact h₅.1 (List.mem_map.mpr ⟨q, hq, heq⟩)
        · exact h₆.2 q hq hmem

/-- The records of a bundle that `verify_transaction` accepts. -/
structure AcceptedBundle (b : TransactionBundle) : Prop where
  limit : b.reconciliations.length ≤ maxReconciliationRecords
  decision : DecisionChain b.commitment b.proposal b.decision
  grant : ∀ g ∈ b.grant, GrantChain b.commitment b.proposal b.decision g
  receipt : ∀ r ∈ b.receipt, ∃ g ∈ b.grant, ReceiptFor b.proposal g r
  history : b.reconciliations ≠ [] → ∃ r ∈ b.receipt, History r b.reconciliations

/-- The report on an accepted bundle. -/
def report (b : TransactionBundle) : VerifiedTransaction where
  commitmentHash := recordHash b.commitment
  proposalHash := recordHash b.proposal
  decisionHash := recordHash b.decision
  grantHash := b.grant.map recordHash
  receiptHash := b.receipt.map recordHash
  reconciliationHashes := b.reconciliations.map recordHash
  state :=
    match b.grant, b.receipt with
    | none, _ => .decided
    | some _, none => .granted
    | some _, some receipt => finalState receipt b.reconciliations.getLast?

theorem history_nil (receipt : EffectReceipt) : History receipt [] :=
  ⟨by simp, trivial, by simp⟩

theorem verifyTransaction_eq_ok {b : TransactionBundle} {v : VerifiedTransaction} :
    verifyTransaction b = .ok v ↔ AcceptedBundle b ∧ v = report b := by
  obtain ⟨c, p, d, g, r, rs⟩ := b
  simp only [verifyTransaction, bind_eq_ok, rejectIf_eq_ok, exists_const, not_lt,
    verifyDecision_eq_ok]
  cases g with
  | none =>
      simp only [bind_eq_ok, rejectIf_eq_ok, exists_const, not_or, not_not, Except.ok.injEq,
        Bool.not_eq_true, Option.isSome_eq_false_iff, Option.isNone_iff_eq_none, report]
      constructor
      · rintro ⟨h₁, _, ⟨h₂, rfl⟩, ⟨rfl, rfl⟩, rfl⟩
        exact ⟨⟨h₁, h₂, by simp, by simp, by simp⟩, rfl⟩
      · rintro ⟨⟨h₁, h₂, -, h₃, h₄⟩, rfl⟩
        have hr : r = none := Option.eq_none_iff_forall_not_mem.mpr fun x hx ↦ by
          simpa using h₃ x hx
        subst hr
        have hrs : rs = [] := by
          by_contra hne
          simpa using h₄ hne
        subst hrs
        exact ⟨h₁, _, ⟨h₂, rfl⟩, ⟨rfl, rfl⟩, rfl⟩
  | some g =>
      cases r with
      | none =>
          simp only [bind_eq_ok, rejectIf_eq_ok, exists_const, not_not, Except.ok.injEq,
            verifyGrant_eq_ok, report]
          constructor
          · rintro ⟨h₁, _, ⟨h₂, rfl⟩, _, ⟨h₃, rfl⟩, rfl, rfl⟩
            exact ⟨⟨h₁, h₂, by simpa using h₃, by simp, by simp⟩, rfl⟩
          · rintro ⟨⟨h₁, h₂, h₃, -, h₄⟩, rfl⟩
            have hrs : rs = [] := by
              by_contra hne
              simpa using h₄ hne
            subst hrs
            exact ⟨h₁, _, ⟨h₂, rfl⟩, _, ⟨h₃ g rfl, rfl⟩, rfl, rfl⟩
      | some r =>
          simp only [bind_eq_ok, Except.ok.injEq, verifyGrant_eq_ok, verifyChain_eq_ok, report]
          constructor
          · rintro ⟨h₁, _, ⟨h₂, rfl⟩, _, ⟨h₃, rfl⟩, _, ⟨⟨-, h₄⟩, rfl⟩, hs, h₅, rfl⟩
            obtain ⟨⟨h₆, h₇, h₈, -⟩, rfl⟩ :=
              (verifyReconciliations_eq_ok h₄.receipt_valid (by simp)).mp h₅
            exact ⟨⟨h₁, h₂, by simpa using h₃, by simpa using h₄,
              fun _ ↦ ⟨r, rfl, h₆, h₇, h₈⟩⟩, rfl⟩
          · rintro ⟨⟨h₁, h₂, h₃, h₄, h₅⟩, rfl⟩
            obtain ⟨_, ⟨⟩, h₄⟩ := h₄ r rfl
            have hh : History r rs := by
              by_cases hne : rs = []
              · subst hne; exact history_nil r
              · obtain ⟨_, ⟨⟩, hh⟩ := h₅ hne
                exact hh
            refine ⟨h₁, _, ⟨h₂, rfl⟩, _, ⟨h₃ g rfl, rfl⟩, _, ⟨⟨h₃ g rfl, h₄⟩, rfl⟩, _, ?_, rfl⟩
            exact (verifyReconciliations_eq_ok h₄.receipt_valid (by simp)).mpr
              ⟨⟨hh.each, hh.linked, hh.distinct, by simp⟩, rfl⟩

end Etp.Core
