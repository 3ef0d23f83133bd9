import Etp.Executor.Effect
import Etp.Lib.Program

/-!
# The operations of the executor

Every operation of `EffectTransactionExecutor` as a program on the shared
database: the checks it makes on its own data, and the transactions and reads it
makes on the store, in the order of the source.  `authorize_and_claim` makes three
transactions, and the two recoveries read a lifecycle before they write; whoever
else uses the database may come in between.

`Operation` and `Answer` collect the operations with their inputs and results, and
`Token` the values that may be used once.
-/

namespace Etp.Executor

open Etp.Core Etp.Authority Etp.Sqlite

/-- The local policy of an executor, which `open` has validated.  The store is the
database that all executors share. -/
structure EffectTransactionExecutor where
  policy : ExecutorPolicy
  valid : policy.validate = .ok ()
deriving DecidableEq

namespace EffectTransactionExecutor

/-- `EffectTransactionExecutor::open` -/
def openWith (policy : ExecutorPolicy) : Except ExecutorError EffectTransactionExecutor :=
  match h : policy.validate with
  | .error e => .error e
  | .ok () => .ok ⟨policy, h⟩

variable (e : EffectTransactionExecutor)

/-! ## Checks -/

def checkCurrentnessFreshness (currentness : CurrentnessSnapshot) (nowMs : Nat) :
    Except ExecutorError Unit := do
  rejectIf (currentness.observedAtMs > nowMs) .currentnessFromFuture
  rejectIf (nowMs - currentness.observedAtMs > e.policy.maximumCurrentnessAgeMs) .staleCurrentness

section Crates

variable [Sha256]

/-- The context in which both authority checks run. -/
def verificationContext (prepared : PreparedEffect) (nowMs : Nat) : VerificationContext where
  expectedRecordProfile := coreRecordProfile
  expectedRecordVersion := prepared.grant.version
  expectedRecordKind := .executionGrant
  expectedRecordDigest := prepared.grantHash
  expectedRole := e.policy.authorityRole
  expectedAudience := e.policy.audience
  nowMs
  maximumSnapshotAgeMs := e.policy.maximumAuthoritySnapshotAgeMs

/-- The claim that `authorize_and_claim` requests. -/
def claimRequest (currentness : CurrentnessSnapshot) (attemptId : String) : ClaimRequest where
  attemptId
  expectedAudience := e.policy.audience
  currentnessKey := currentness.key
  expectedSnapshotVersion := currentness.version
  maximumSnapshotAgeMs := e.policy.maximumCurrentnessAgeMs

variable [Ed25519] [Coset]

/-- The checks of `authorize_and_claim` before its first transaction. -/
def checkAuthorization (prepared : PreparedEffect) (signedAuthority : List UInt8)
    (authoritySnapshot : AuthoritySnapshot) (currentness : CurrentnessSnapshot)
    (trustedNowMs : Nat) : Except ExecutorError VerifiedAuthority := do
  e.checkCurrentnessFreshness currentness trustedNowMs
  rejectIf (prepared.grant.audience ≠ e.policy.audience) .grantAudienceMismatch
  rejectIf (authoritySnapshot.configurationEpoch ≠ prepared.commitment.configurationEpoch)
    .authorityConfigurationEpochMismatch
  rejectIf (currentness.policyEpoch ≠ prepared.commitment.policyEpoch)
    .currentnessPolicyEpochMismatch
  rejectIf (currentness.configurationEpoch ≠ prepared.commitment.configurationEpoch)
    .currentnessConfigurationEpochMismatch
  (verifyAuthority signedAuthority authoritySnapshot
    (e.verificationContext prepared trustedNowMs)).mapError .authority

/-- The checks of `begin_dispatch` before its transaction. -/
def checkDispatch (claimed : ClaimedEffect) (authoritySnapshot : AuthoritySnapshot)
    (trustedNowMs : Nat) : Except ExecutorError Unit := do
  rejectIf (authoritySnapshot.configurationEpoch ≠ claimed.prepared.commitment.configurationEpoch)
    .authorityConfigurationEpochMismatch
  let reverified ← (verifyAuthority claimed.signedAuthority authoritySnapshot
    (e.verificationContext claimed.prepared trustedNowMs)).mapError .authority
  rejectIf (¬sameAuthorityIdentity claimed.authority (.ofVerified reverified))
    .authorityChangedAfterClaim

/-! ## Authorization and dispatch -/

def observeCurrentness (currentness : CurrentnessSnapshot) (trustedNowMs : Nat) :
    Program Db (Except ExecutorError Unit) :=
  .check (e.checkCurrentnessFreshness currentness trustedNowMs) fun _ ↦
  .transact .store (SqliteEffectStore.putCurrentness currentness) fun _ ↦
  .done (.ok ())

def authorizeAndClaim (prepared : PreparedEffect) (signedAuthority : List UInt8)
    (authoritySnapshot : AuthoritySnapshot) (currentness : CurrentnessSnapshot)
    (attemptId : String) (trustedNowMs : Nat) : Program Db (Except ExecutorError ClaimedEffect) :=
  .check (e.checkAuthorization prepared signedAuthority authoritySnapshot currentness trustedNowMs)
    fun verified ↦
  .transact .store (SqliteEffectStore.registerChain prepared.commitment prepared.proposal
    prepared.decision prepared.grant) fun _ ↦
  .transact .store (SqliteEffectStore.putCurrentness currentness) fun _ ↦
  .transact .store (SqliteEffectStore.claim prepared.grant (e.claimRequest currentness attemptId)
    trustedNowMs) fun claim ↦
  .done (.ok { prepared, claim, authority := .ofVerified verified, signedAuthority })

def beginDispatch (claimed : ClaimedEffect) (authoritySnapshot : AuthoritySnapshot)
    (trustedNowMs : Nat) : Program Db (Except ExecutorError DispatchCapability) :=
  .check (e.checkDispatch claimed authoritySnapshot trustedNowMs) fun _ ↦
  .transact .store (SqliteEffectStore.markDispatchStarted claimed.claim.grantHash
    claimed.claim.attemptId trustedNowMs) fun marker ↦
  .done (.ok {
    prepared := claimed.prepared
    claim := claimed.claim
    dispatchedAtMs := marker.dispatchedAtMs })

end Crates

end EffectTransactionExecutor

section Receipts

variable [Sha256]

/-! ## Receipts -/

/-- `store.record_receipt(..).map_err(ExecutorError::from)` -/
def EffectTransactionExecutor.storeReceipt (receipt : EffectReceipt) :
    Program Db (Except ExecutorError Digest32) :=
  .transact .store (SqliteEffectStore.recordReceipt receipt) fun hash ↦ .done (.ok hash)

/-- The receipt of `record_not_dispatched`. -/
def ClaimedEffect.receipt (claimed : ClaimedEffect) (evidence : NotDispatchedReceipt) :
    EffectReceipt where
  version := 1
  receiptId := evidence.receiptId
  proposalHash := claimed.prepared.proposalHash
  grantHash := claimed.claim.grantHash
  attemptId := claimed.claim.attemptId
  claimedAtMs := claimed.claim.claimedAtMs
  dispatchedAtMs := none
  completedAtMs := evidence.completedAtMs
  outcome := .notDispatched
  observationDigest := evidence.observationDigest

def EffectTransactionExecutor.recordNotDispatched (claimed : ClaimedEffect)
    (evidence : NotDispatchedReceipt) : Program Db (Except ExecutorError Digest32) :=
  EffectTransactionExecutor.storeReceipt (claimed.receipt evidence)

/-- The receipt of `record_dispatched`. -/
def ReceiptHandle.receipt (handle : ReceiptHandle) (evidence : DispatchedReceipt) :
    EffectReceipt where
  version := 1
  receiptId := evidence.receiptId
  proposalHash := handle.proposalHash
  grantHash := handle.grantHash
  attemptId := handle.attemptId
  claimedAtMs := handle.claimedAtMs
  dispatchedAtMs := some handle.dispatchedAtMs
  completedAtMs := evidence.completedAtMs
  outcome := evidence.outcome.receiptOutcome
  observationDigest := evidence.observationDigest

def EffectTransactionExecutor.recordDispatched (handle : ReceiptHandle)
    (evidence : DispatchedReceipt) : Program Db (Except ExecutorError Digest32) :=
  EffectTransactionExecutor.storeReceipt (handle.receipt evidence)

/-- The claim that a recovery needs to find in the lifecycle. -/
def recoveredClaim (lifecycle : Lifecycle) (attemptId : String) :
    Except ExecutorError DurableClaim := do
  let claim ← okOr lifecycle.claim .missingDurableClaim
  rejectIf (claim.attemptId ≠ attemptId) .recoveryAttemptMismatch
  .ok claim

/-- The receipt of `record_recovered_unknown`. -/
def UnknownRecovery.receipt (recovery : UnknownRecovery) (lifecycle : Lifecycle) :
    Except ExecutorError EffectReceipt := do
  let claim ← recoveredClaim lifecycle recovery.attemptId
  let dispatchedAtMs ← okOr claim.dispatchStartedAtMs .missingDispatchMarker
  .ok {
    version := 1
    receiptId := recovery.receiptId
    proposalHash := recovery.proposalHash
    grantHash := recovery.grantHash
    attemptId := recovery.attemptId
    claimedAtMs := claim.claimedAtMs
    dispatchedAtMs := some dispatchedAtMs
    completedAtMs := recovery.completedAtMs
    outcome := .unknown
    observationDigest := recovery.observationDigest }

def EffectTransactionExecutor.recordRecoveredUnknown (recovery : UnknownRecovery) :
    Program Db (Except ExecutorError Digest32) :=
  .reading .store (SqliteEffectStore.lifecycle recovery.grantHash) fun lifecycle ↦
  .check (recovery.receipt lifecycle) EffectTransactionExecutor.storeReceipt

/-- The receipt of `record_recovered_not_dispatched`. -/
def NotDispatchedRecovery.receipt (recovery : NotDispatchedRecovery) (lifecycle : Lifecycle) :
    Except ExecutorError EffectReceipt := do
  let claim ← recoveredClaim lifecycle recovery.attemptId
  rejectIf claim.dispatchStartedAtMs.isSome .unexpectedDispatchMarker
  .ok {
    version := 1
    receiptId := recovery.receiptId
    proposalHash := recovery.proposalHash
    grantHash := recovery.grantHash
    attemptId := recovery.attemptId
    claimedAtMs := claim.claimedAtMs
    dispatchedAtMs := none
    completedAtMs := recovery.completedAtMs
    outcome := .notDispatched
    observationDigest := recovery.observationDigest }

def EffectTransactionExecutor.recordRecoveredNotDispatched (recovery : NotDispatchedRecovery) :
    Program Db (Except ExecutorError Digest32) :=
  .reading .store (SqliteEffectStore.lifecycle recovery.grantHash) fun lifecycle ↦
  .check (recovery.receipt lifecycle) EffectTransactionExecutor.storeReceipt

/-! ## Reconciliations and lifecycles -/

def EffectTransactionExecutor.appendReconciliation (record : ReconciliationRecord) :
    Program Db (Except ExecutorError Digest32) :=
  .transact .store (SqliteEffectStore.appendReconciliation record) fun hash ↦ .done (.ok hash)

def EffectTransactionExecutor.lifecycle (grantHash : Digest32) :
    Program Db (Except ExecutorError Lifecycle) :=
  .reading .store (SqliteEffectStore.lifecycle grantHash) fun lifecycle ↦ .done (.ok lifecycle)

end Receipts

/-! ## Operations, answers and tokens -/

section Operations

variable [Sha256]

/-- The linear values. -/
inductive Token where
  | claimed (claimed : ClaimedEffect)
  | capability (capability : DispatchCapability)
  | handle (handle : ReceiptHandle)
deriving DecidableEq

/-- The calls of the API, with their inputs. -/
inductive Operation where
  | observeCurrentness (currentness : CurrentnessSnapshot) (trustedNowMs : Nat)
  | authorizeAndClaim (prepared : PreparedEffect) (signedAuthority : List UInt8)
      (authoritySnapshot : AuthoritySnapshot) (currentness : CurrentnessSnapshot)
      (attemptId : String) (trustedNowMs : Nat)
  | beginDispatch (claimed : ClaimedEffect) (authoritySnapshot : AuthoritySnapshot)
      (trustedNowMs : Nat)
  | dispatchWith (capability : DispatchCapability)
  | recordNotDispatched (claimed : ClaimedEffect) (evidence : NotDispatchedReceipt)
  | recordDispatched (handle : ReceiptHandle) (evidence : DispatchedReceipt)
  | recordRecoveredUnknown (recovery : UnknownRecovery)
  | recordRecoveredNotDispatched (recovery : NotDispatchedRecovery)
  | appendReconciliation (record : ReconciliationRecord)
  | lifecycle (grantHash : Digest32)

inductive Answer where
  | observed
  | claimed (claimed : ClaimedEffect)
  | capability (capability : DispatchCapability)
  | dispatched (exact : ExactEffect) (handle : ReceiptHandle)
  | recorded (hash : Digest32)
  | lifecycle (lifecycle : Lifecycle)

/-- The token that a call takes by value. -/
def Operation.consumes : Operation → Option Token
  | .beginDispatch claimed _ _ => some (.claimed claimed)
  | .dispatchWith capability => some (.capability capability)
  | .recordNotDispatched claimed _ => some (.claimed claimed)
  | .recordDispatched handle _ => some (.handle handle)
  | _ => none

/-- The token that a call returns. -/
def Answer.token : Answer → Option Token
  | .claimed c => some (.claimed c)
  | .capability c => some (.capability c)
  | .dispatched _ handle => some (.handle handle)
  | _ => none

variable [Ed25519] [Coset]

def Operation.program (e : EffectTransactionExecutor) :
    Operation → Program Db (Except ExecutorError Answer)
  | .observeCurrentness currentness now =>
      (e.observeCurrentness currentness now).map (·.map fun _ ↦ .observed)
  | .authorizeAndClaim prepared signedAuthority snapshot currentness attemptId now =>
      (e.authorizeAndClaim prepared signedAuthority snapshot currentness attemptId now).map
        (·.map .claimed)
  | .beginDispatch claimed snapshot now =>
      (e.beginDispatch claimed snapshot now).map (·.map .capability)
  | .dispatchWith capability => .done (.ok (.dispatched capability.split.1 capability.split.2))
  | .recordNotDispatched claimed evidence =>
      (EffectTransactionExecutor.recordNotDispatched claimed evidence).map (·.map .recorded)
  | .recordDispatched handle evidence =>
      (EffectTransactionExecutor.recordDispatched handle evidence).map (·.map .recorded)
  | .recordRecoveredUnknown recovery =>
      (EffectTransactionExecutor.recordRecoveredUnknown recovery).map (·.map .recorded)
  | .recordRecoveredNotDispatched recovery =>
      (EffectTransactionExecutor.recordRecoveredNotDispatched recovery).map (·.map .recorded)
  | .appendReconciliation record =>
      (EffectTransactionExecutor.appendReconciliation record).map (·.map .recorded)
  | .lifecycle grantHash => (EffectTransactionExecutor.lifecycle grantHash).map (·.map .lifecycle)

end Operations

end Etp.Executor
