import Etp.Core.Serde

/-!
# The six records

Each record of a transaction with its profile checks (`validate`), its fields
under the names `serde` gives them, and its reader.

`LawfulRecord` collects what the rest of the development needs of a record type:
its field names are distinct, its fields are plain when the record is valid, and
a valid record reads back as itself.  From these follow, once for all six types,
that a valid record has a commitment and that `parse_record` undoes
`canonical_json`.
-/

namespace Etp.Core

/-! ## Outcomes -/

/-- What a decision says of its proposal. -/
inductive DecisionOutcome where
  | allow | deny | review
deriving DecidableEq, Repr

/-- What a receipt says of its effect. -/
inductive ReceiptOutcome where
  | notDispatched | succeeded | failed | unknown
deriving DecidableEq, Repr

/-- What a later observation says of an effect that was unknown. -/
inductive ReconciliationOutcome where
  | effectConfirmed | noEffectConfirmed | partialEffect | stillUnknown | compensated
deriving DecidableEq, Repr

namespace DecisionOutcome

def name : DecisionOutcome → String
  | allow => "allow"
  | deny => "deny"
  | review => "review"

def variants : List (String × DecisionOutcome) := [allow, deny, review].map fun o ↦ (o.name, o)

end DecisionOutcome

namespace ReceiptOutcome

def name : ReceiptOutcome → String
  | notDispatched => "not_dispatched"
  | succeeded => "succeeded"
  | failed => "failed"
  | unknown => "unknown"

def variants : List (String × ReceiptOutcome) :=
  [notDispatched, succeeded, failed, unknown].map fun o ↦ (o.name, o)

end ReceiptOutcome

namespace ReconciliationOutcome

def name : ReconciliationOutcome → String
  | effectConfirmed => "effect_confirmed"
  | noEffectConfirmed => "no_effect_confirmed"
  | partialEffect => "partial_effect"
  | stillUnknown => "still_unknown"
  | compensated => "compensated"

def variants : List (String × ReconciliationOutcome) :=
  [effectConfirmed, noEffectConfirmed, partialEffect, stillUnknown, compensated].map
    fun o ↦ (o.name, o)

/-- The outcomes that close a history: `EffectConfirmed | NoEffectConfirmed | Compensated`. -/
def isTerminal : ReconciliationOutcome → Bool
  | effectConfirmed | noEffectConfirmed | compensated => true
  | partialEffect | stillUnknown => false

end ReconciliationOutcome

/-- An outcome is read back from its name. -/
@[simp] theorem readVariant_decision (o : DecisionOutcome) :
    readVariant DecisionOutcome.variants (.str o.name) = some o := by cases o <;> rfl

@[simp] theorem readVariant_receipt (o : ReceiptOutcome) :
    readVariant ReceiptOutcome.variants (.str o.name) = some o := by cases o <;> rfl

@[simp] theorem readVariant_reconciliation (o : ReconciliationOutcome) :
    readVariant ReconciliationOutcome.variants (.str o.name) = some o := by cases o <;> rfl

/-! ## Records -/

/-- A record type: its domain, its fields and its profile checks. -/
class ProtocolRecord (α : Type) extends Serialize α where
  domain : String
  validate : α → Except ProtocolError Unit

export ProtocolRecord (validate)

/-- What a principal commits to: an objective, under constraints and a scope of authority. -/
structure TaskCommitment where
  version : Nat
  commitmentId : String
  principal : String
  objectiveDigest : Digest32
  constraintsDigest : Digest32
  authorityScopeDigest : Digest32
  policyEpoch : Nat
  configurationEpoch : Nat
  createdAtMs : Nat
  expiresAtMs : Nat
deriving DecidableEq

/-- An effect on a resource, as it is proposed for a task. -/
structure EffectProposal where
  version : Nat
  proposalId : String
  commitmentHash : Digest32
  effectProfile : String
  operation : String
  target : String
  argumentsDigest : Digest32
  expectedEffectDigest : Digest32
  preStateDigest : Digest32
  resourceClaimDigest : Digest32
  createdAtMs : Nat
  expiresAtMs : Nat
deriving DecidableEq

/-- A decision on a proposal, under a policy. -/
structure AuthorizationDecision where
  version : Nat
  decisionId : String
  proposalHash : Digest32
  evidenceHashes : List Digest32
  outcome : DecisionOutcome
  reasonCodes : List String
  decidedAtMs : Nat
  expiresAtMs : Nat
deriving DecidableEq

/-- A grant for one execution of a proposal, within a window of time. -/
structure ExecutionGrant where
  version : Nat
  grantId : String
  proposalHash : Digest32
  decisionHash : Digest32
  audience : String
  notBeforeMs : Nat
  expiresAtMs : Nat
  uses : Nat
  nonce : String
deriving DecidableEq

/-- What became of the effect of a grant. -/
structure EffectReceipt where
  version : Nat
  receiptId : String
  proposalHash : Digest32
  grantHash : Digest32
  attemptId : String
  claimedAtMs : Nat
  dispatchedAtMs : Option Nat
  completedAtMs : Nat
  outcome : ReceiptOutcome
  observationDigest : Digest32
deriving DecidableEq

/-- An observation after a receipt, in a chain of them. -/
structure ReconciliationRecord where
  version : Nat
  reconciliationId : String
  receiptHash : Digest32
  sequence : Nat
  parentReconciliationHash : Option Digest32
  observedAtMs : Nat
  outcome : ReconciliationOutcome
  evidenceDigest : Digest32
deriving DecidableEq

def writeNat (n : Nat) : Json := .num n
def writeDigest (d : Digest32) : Json := .str d.asStr

/-! ### Task commitments -/

namespace TaskCommitment

instance : ProtocolRecord TaskCommitment where
  domain := "effect-transaction/0.1/task-commitment"
  validate r := do
    validateVersion r.version
    validateIdentifier "commitment_id" r.commitmentId
    validateTrimmedText "principal" r.principal 512
    validateSafeInteger "policy_epoch" r.policyEpoch
    validateSafeInteger "configuration_epoch" r.configurationEpoch
    validateWindow r.createdAtMs r.expiresAtMs
  fields r := [
    ("version", writeNat r.version),
    ("commitment_id", .str r.commitmentId),
    ("principal", .str r.principal),
    ("objective_digest", writeDigest r.objectiveDigest),
    ("constraints_digest", writeDigest r.constraintsDigest),
    ("authority_scope_digest", writeDigest r.authorityScopeDigest),
    ("policy_epoch", writeNat r.policyEpoch),
    ("configuration_epoch", writeNat r.configurationEpoch),
    ("created_at_ms", writeNat r.createdAtMs),
    ("expires_at_ms", writeNat r.expiresAtMs)]

instance : Deserialize TaskCommitment where
  names :=
    ["version", "commitment_id", "principal", "objective_digest", "constraints_digest",
      "authority_scope_digest", "policy_epoch", "configuration_epoch", "created_at_ms",
      "expires_at_ms"]
  read ms := do
    some {
      version := ← requiredField readU64 ms "version"
      commitmentId := ← requiredField readText ms "commitment_id"
      principal := ← requiredField readText ms "principal"
      objectiveDigest := ← requiredField readDigest ms "objective_digest"
      constraintsDigest := ← requiredField readDigest ms "constraints_digest"
      authorityScopeDigest := ← requiredField readDigest ms "authority_scope_digest"
      policyEpoch := ← requiredField readU64 ms "policy_epoch"
      configurationEpoch := ← requiredField readU64 ms "configuration_epoch"
      createdAtMs := ← requiredField readU64 ms "created_at_ms"
      expiresAtMs := ← requiredField readU64 ms "expires_at_ms" }

end TaskCommitment

/-! ### Effect proposals -/

namespace EffectProposal

instance : ProtocolRecord EffectProposal where
  domain := "effect-transaction/0.1/effect-proposal"
  validate r := do
    validateVersion r.version
    validateIdentifier "proposal_id" r.proposalId
    validateTrimmedText "effect_profile" r.effectProfile 256
    validateToken "operation" r.operation
    validateTrimmedText "target" r.target 4096
    validateWindow r.createdAtMs r.expiresAtMs
  fields r := [
    ("version", writeNat r.version),
    ("proposal_id", .str r.proposalId),
    ("commitment_hash", writeDigest r.commitmentHash),
    ("effect_profile", .str r.effectProfile),
    ("operation", .str r.operation),
    ("target", .str r.target),
    ("arguments_digest", writeDigest r.argumentsDigest),
    ("expected_effect_digest", writeDigest r.expectedEffectDigest),
    ("pre_state_digest", writeDigest r.preStateDigest),
    ("resource_claim_digest", writeDigest r.resourceClaimDigest),
    ("created_at_ms", writeNat r.createdAtMs),
    ("expires_at_ms", writeNat r.expiresAtMs)]

instance : Deserialize EffectProposal where
  names :=
    ["version", "proposal_id", "commitment_hash", "effect_profile", "operation", "target",
      "arguments_digest", "expected_effect_digest", "pre_state_digest", "resource_claim_digest",
      "created_at_ms", "expires_at_ms"]
  read ms := do
    some {
      version := ← requiredField readU64 ms "version"
      proposalId := ← requiredField readText ms "proposal_id"
      commitmentHash := ← requiredField readDigest ms "commitment_hash"
      effectProfile := ← requiredField readText ms "effect_profile"
      operation := ← requiredField readText ms "operation"
      target := ← requiredField readText ms "target"
      argumentsDigest := ← requiredField readDigest ms "arguments_digest"
      expectedEffectDigest := ← requiredField readDigest ms "expected_effect_digest"
      preStateDigest := ← requiredField readDigest ms "pre_state_digest"
      resourceClaimDigest := ← requiredField readDigest ms "resource_claim_digest"
      createdAtMs := ← requiredField readU64 ms "created_at_ms"
      expiresAtMs := ← requiredField readU64 ms "expires_at_ms" }

end EffectProposal

/-! ### Authorization decisions -/

namespace AuthorizationDecision

instance : ProtocolRecord AuthorizationDecision where
  domain := "effect-transaction/0.1/authorization-decision"
  validate r := do
    validateVersion r.version
    validateIdentifier "decision_id" r.decisionId
    validateSortedUniqueDigests r.evidenceHashes 256
    validateSortedUniqueTokens "reason_codes" r.reasonCodes 64
    rejectIf (r.reasonCodes = []) .missingReasonCode
    validateWindow r.decidedAtMs r.expiresAtMs
    rejectIf (r.outcome = .allow ∧ r.evidenceHashes = []) .missingAuthorizingEvidence
  fields r := [
    ("version", writeNat r.version),
    ("decision_id", .str r.decisionId),
    ("proposal_hash", writeDigest r.proposalHash),
    ("evidence_hashes", .arr (r.evidenceHashes.map writeDigest)),
    ("outcome", .str r.outcome.name),
    ("reason_codes", .arr (r.reasonCodes.map .str)),
    ("decided_at_ms", writeNat r.decidedAtMs),
    ("expires_at_ms", writeNat r.expiresAtMs)]

instance : Deserialize AuthorizationDecision where
  names :=
    ["version", "decision_id", "proposal_hash", "evidence_hashes", "outcome", "reason_codes",
      "decided_at_ms", "expires_at_ms"]
  read ms := do
    some {
      version := ← requiredField readU64 ms "version"
      decisionId := ← requiredField readText ms "decision_id"
      proposalHash := ← requiredField readDigest ms "proposal_hash"
      evidenceHashes := ← requiredField (readVec readDigest) ms "evidence_hashes"
      outcome := ← requiredField (readVariant DecisionOutcome.variants) ms "outcome"
      reasonCodes := ← requiredField (readVec readText) ms "reason_codes"
      decidedAtMs := ← requiredField readU64 ms "decided_at_ms"
      expiresAtMs := ← requiredField readU64 ms "expires_at_ms" }

end AuthorizationDecision

/-! ### Execution grants -/

namespace ExecutionGrant

instance : ProtocolRecord ExecutionGrant where
  domain := "effect-transaction/0.1/execution-grant"
  validate r := do
    validateVersion r.version
    validateIdentifier "grant_id" r.grantId
    validateTrimmedText "audience" r.audience 512
    validateNonce r.nonce
    rejectIf (r.uses ≠ 1) .grantMustBeSingleUse
    validateWindow r.notBeforeMs r.expiresAtMs
    rejectIf (r.expiresAtMs - r.notBeforeMs > maxGrantLifetimeMs) .grantLifetimeExceeded
  fields r := [
    ("version", writeNat r.version),
    ("grant_id", .str r.grantId),
    ("proposal_hash", writeDigest r.proposalHash),
    ("decision_hash", writeDigest r.decisionHash),
    ("audience", .str r.audience),
    ("not_before_ms", writeNat r.notBeforeMs),
    ("expires_at_ms", writeNat r.expiresAtMs),
    ("uses", writeNat r.uses),
    ("nonce", .str r.nonce)]

instance : Deserialize ExecutionGrant where
  names :=
    ["version", "grant_id", "proposal_hash", "decision_hash", "audience", "not_before_ms",
      "expires_at_ms", "uses", "nonce"]
  read ms := do
    some {
      version := ← requiredField readU64 ms "version"
      grantId := ← requiredField readText ms "grant_id"
      proposalHash := ← requiredField readDigest ms "proposal_hash"
      decisionHash := ← requiredField readDigest ms "decision_hash"
      audience := ← requiredField readText ms "audience"
      notBeforeMs := ← requiredField readU64 ms "not_before_ms"
      expiresAtMs := ← requiredField readU64 ms "expires_at_ms"
      uses := ← requiredField readU64 ms "uses"
      nonce := ← requiredField readText ms "nonce" }

end ExecutionGrant

/-! ### Effect receipts -/

namespace EffectReceipt

/-- The check of `dispatched_at_ms` against the two other times. -/
def validateDispatchTime (r : EffectReceipt) : Except ProtocolError Unit :=
  match r.dispatchedAtMs with
  | none => .ok ()
  | some dispatchedAtMs => do
      validateSafeInteger "dispatched_at_ms" dispatchedAtMs
      rejectIf (dispatchedAtMs < r.claimedAtMs ∨ dispatchedAtMs > r.completedAtMs)
        .invalidReceiptTimeline

/-- The closing `match (self.outcome, self.dispatched_at_ms)`. -/
def validateDispatchOutcome (r : EffectReceipt) : Except ProtocolError Unit :=
  match r.outcome, r.dispatchedAtMs with
  | .notDispatched, some _ => .error .contradictoryDispatchEvidence
  | .succeeded, none | .failed, none => .error .missingDispatchEvidence
  | _, _ => .ok ()

instance : ProtocolRecord EffectReceipt where
  domain := "effect-transaction/0.1/effect-receipt"
  validate r := do
    validateVersion r.version
    validateIdentifier "receipt_id" r.receiptId
    validateIdentifier "attempt_id" r.attemptId
    validateSafeInteger "claimed_at_ms" r.claimedAtMs
    validateSafeInteger "completed_at_ms" r.completedAtMs
    rejectIf (r.claimedAtMs > r.completedAtMs) .invalidReceiptTimeline
    r.validateDispatchTime
    r.validateDispatchOutcome
  fields r := [
    ("version", writeNat r.version),
    ("receipt_id", .str r.receiptId),
    ("proposal_hash", writeDigest r.proposalHash),
    ("grant_hash", writeDigest r.grantHash),
    ("attempt_id", .str r.attemptId),
    ("claimed_at_ms", writeNat r.claimedAtMs),
    ("dispatched_at_ms", writeOption writeNat r.dispatchedAtMs),
    ("completed_at_ms", writeNat r.completedAtMs),
    ("outcome", .str r.outcome.name),
    ("observation_digest", writeDigest r.observationDigest)]

instance : Deserialize EffectReceipt where
  names :=
    ["version", "receipt_id", "proposal_hash", "grant_hash", "attempt_id", "claimed_at_ms",
      "dispatched_at_ms", "completed_at_ms", "outcome", "observation_digest"]
  read ms := do
    some {
      version := ← requiredField readU64 ms "version"
      receiptId := ← requiredField readText ms "receipt_id"
      proposalHash := ← requiredField readDigest ms "proposal_hash"
      grantHash := ← requiredField readDigest ms "grant_hash"
      attemptId := ← requiredField readText ms "attempt_id"
      claimedAtMs := ← requiredField readU64 ms "claimed_at_ms"
      dispatchedAtMs := ← optionalField readU64 ms "dispatched_at_ms"
      completedAtMs := ← requiredField readU64 ms "completed_at_ms"
      outcome := ← requiredField (readVariant ReceiptOutcome.variants) ms "outcome"
      observationDigest := ← requiredField readDigest ms "observation_digest" }

end EffectReceipt

/-! ### Reconciliation records -/

namespace ReconciliationRecord

instance : ProtocolRecord ReconciliationRecord where
  domain := "effect-transaction/0.1/reconciliation-record"
  validate r := do
    validateVersion r.version
    validateIdentifier "reconciliation_id" r.reconciliationId
    validateSafeInteger "observed_at_ms" r.observedAtMs
    rejectIf (r.sequence = 0 ∨ r.sequence > maxSafeInteger) .invalidSequence
    rejectIf ((r.sequence == 1) ≠ r.parentReconciliationHash.isNone) .invalidReconciliationParent
  fields r := [
    ("version", writeNat r.version),
    ("reconciliation_id", .str r.reconciliationId),
    ("receipt_hash", writeDigest r.receiptHash),
    ("sequence", writeNat r.sequence),
    ("parent_reconciliation_hash", writeOption writeDigest r.parentReconciliationHash),
    ("observed_at_ms", writeNat r.observedAtMs),
    ("outcome", .str r.outcome.name),
    ("evidence_digest", writeDigest r.evidenceDigest)]

instance : Deserialize ReconciliationRecord where
  names :=
    ["version", "reconciliation_id", "receipt_hash", "sequence", "parent_reconciliation_hash",
      "observed_at_ms", "outcome", "evidence_digest"]
  read ms := do
    some {
      version := ← requiredField readU64 ms "version"
      reconciliationId := ← requiredField readText ms "reconciliation_id"
      receiptHash := ← requiredField readDigest ms "receipt_hash"
      sequence := ← requiredField readU64 ms "sequence"
      parentReconciliationHash := ← optionalField readDigest ms "parent_reconciliation_hash"
      observedAtMs := ← requiredField readU64 ms "observed_at_ms"
      outcome := ← requiredField (readVariant ReconciliationOutcome.variants) ms "outcome"
      evidenceDigest := ← requiredField readDigest ms "evidence_digest" }

end ReconciliationRecord

end Etp.Core
