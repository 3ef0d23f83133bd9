import Etp.Core.Verify
import Etp.Lib.Machine
import Etp.Lib.Reads
import Etp.Sqlite.Schema

/-!
# The durable store

`SqliteEffectStore`, translated operation by operation.  Every operation that
writes runs in one `IMMEDIATE` transaction, so it is a function from the
committed database to an answer and the next committed database; a transaction
that is dropped on an error leaves the database as it was (`transaction`).
What an operation reads and checks before its statements is its plan (`claimPlan` and
the others), which returns the row that the statements write.  `lifecycle` opens no
transaction.  It is a program of separate reads.

Calls from several connections and processes are serialised by the transactions,
and a process that dies loses nothing that was committed.  A run is therefore a
list of calls from the empty schema.
-/

namespace Etp.Sqlite

open Etp.Core

structure CurrentnessSnapshot where
  key : String
  version : Nat
  policyEpoch : Nat
  configurationEpoch : Nat
  preStateDigest : Digest32
  resourceClaimDigest : Digest32
  revoked : Bool
  observedAtMs : Nat
deriving DecidableEq

structure ClaimRequest where
  attemptId : String
  expectedAudience : String
  currentnessKey : String
  expectedSnapshotVersion : Nat
  maximumSnapshotAgeMs : Nat
deriving DecidableEq

structure DurableClaim where
  grantHash : Digest32
  attemptId : String
  currentnessKey : String
  snapshotVersion : Nat
  maximumSnapshotAgeMs : Nat
  claimedAtMs : Nat
  dispatchStartedAtMs : Option Nat
deriving DecidableEq

structure DispatchMarker where
  grantHash : Digest32
  attemptId : String
  dispatchedAtMs : Nat
deriving DecidableEq

structure Lifecycle where
  grantHash : Digest32
  claim : Option DurableClaim
  receipt : Option EffectReceipt
  reconciliations : List ReconciliationRecord
deriving DecidableEq

/-- The errors of the operations.  `open` alone returns the two that are left out. -/
inductive StoreError where
  | protocol (e : ProtocolError)
  | unavailable
  | corrupt
  | invalidInput (field : String)
  | grantConflict
  | proposalAlreadyGranted
  | decisionAlreadyGranted
  | unknownGrant
  | unknownCurrentness
  | currentnessVersionConflict
  | authorityEpochRollback
  | observationRollback
  | revocationRollback
  | clockRollback
  | staleSnapshot
  | snapshotFromFuture
  | staleCurrentness
  | audienceMismatch
  | staleAuthority
  | stalePreState
  | staleResourceClaim
  | grantRevoked
  | grantNotYetValid
  | grantExpired
  | grantAlreadyClaimed
  | attemptAlreadyUsed
  | claimMismatch
  | dispatchAlreadyStarted
  | dispatchEvidenceMismatch
  | receiptConflict
  | unknownReceipt
  | reconciliationFork
  | reconciliationIdentifierConflict
deriving DecidableEq, Repr

/-- `#[from] ProtocolError`, as `?` applies it. -/
def fromProtocol {α : Type} (x : Except ProtocolError α) : Except StoreError α :=
  x.mapError .protocol

/-- `map_sqlite` of a failed statement. -/
def mapSqlite {α : Type} (x : Except SqliteFailure α) : Except StoreError α :=
  x.mapError fun _ ↦ .unavailable

@[simp] theorem fromProtocol_eq_ok {α : Type} {x : Except ProtocolError α} {a : α} :
    fromProtocol x = .ok a ↔ x = .ok a := mapError_eq_ok

@[simp] theorem fromProtocol_ok {α : Type} (a : α) :
    fromProtocol (.ok a : Except ProtocolError α) = .ok a := rfl

@[simp] theorem mapSqlite_ok {α : Type} (a : α) :
    mapSqlite (.ok a : Except SqliteFailure α) = .ok a := rfl

@[simp] theorem mapSqlite_eq_ok {α : Type} {x : Except SqliteFailure α} {a : α} :
    mapSqlite x = .ok a ↔ x = .ok a := mapError_eq_ok

/-! ## Input checks -/

/-- `MAX_CURRENTNESS_AGE_MS` -/
def maxCurrentnessAgeMs : Nat := 300000

def validateText (field value : String) (max : Nat) : Except StoreError Unit :=
  rejectIf (value = "" ∨ byteLen value > max ∨ trim value ≠ value ∨ value.toList.any isControl)
    (.invalidInput field)

def safeI64 (value : Nat) (field : String) : Except StoreError Int :=
  if value > maxSafeInteger then .error (.invalidInput field) else .ok value

def validateSnapshot (snapshot : CurrentnessSnapshot) : Except StoreError Unit := do
  validateText "currentness key" snapshot.key 1024
  rejectIf (snapshot.version = 0) (.invalidInput "snapshot version")
  let _ ← safeI64 snapshot.version "snapshot version"
  let _ ← safeI64 snapshot.policyEpoch "policy epoch"
  let _ ← safeI64 snapshot.configurationEpoch "configuration epoch"
  let _ ← safeI64 snapshot.observedAtMs "observed_at_ms"
  .ok ()

def validateClaimRequest (request : ClaimRequest) : Except StoreError Unit := do
  validateText "attempt_id" request.attemptId 256
  validateText "expected_audience" request.expectedAudience 512
  validateText "currentness_key" request.currentnessKey 1024
  rejectIf (request.expectedSnapshotVersion = 0) (.invalidInput "snapshot version")
  let _ ← safeI64 request.expectedSnapshotVersion "snapshot version"
  rejectIf
    (request.maximumSnapshotAgeMs = 0 ∨ request.maximumSnapshotAgeMs > maxCurrentnessAgeMs)
    (.invalidInput "maximum snapshot age")
  let _ ← safeI64 request.maximumSnapshotAgeMs "maximum snapshot age"
  .ok ()

def validateCurrentnessAge (snapshot : CurrentnessSnapshot)
    (trustedNowMs maximumSnapshotAgeMs : Nat) : Except StoreError Unit := do
  rejectIf (snapshot.observedAtMs > trustedNowMs) .snapshotFromFuture
  rejectIf (trustedNowMs - snapshot.observedAtMs > maximumSnapshotAgeMs) .staleCurrentness

def validateDispatchEvidence (receipt : EffectReceipt) (dispatchMarker : Option Nat) :
    Except StoreError Unit :=
  match receipt.outcome, dispatchMarker, receipt.dispatchedAtMs with
  | .notDispatched, none, none | .unknown, none, none => .ok ()
  | .succeeded, some markerTime, some reported
  | .failed, some markerTime, some reported
  | .unknown, some markerTime, some reported =>
      if markerTime = reported then .ok () else .error .dispatchEvidenceMismatch
  | _, _, _ => .error .dispatchEvidenceMismatch

/-! ## Rows and values -/

def snapshotParams (snapshot : CurrentnessSnapshot) : Except StoreError CurrentnessRow := do
  let version ← safeI64 snapshot.version "snapshot version"
  let policyEpoch ← safeI64 snapshot.policyEpoch "policy epoch"
  let configurationEpoch ← safeI64 snapshot.configurationEpoch "configuration epoch"
  let observedAtMs ← safeI64 snapshot.observedAtMs "observed_at_ms"
  .ok {
    currentnessKey := snapshot.key
    snapshotVersion := version
    policyEpoch
    configurationEpoch
    preStateDigest := snapshot.preStateDigest.asStr
    resourceClaimDigest := snapshot.resourceClaimDigest.asStr
    revoked := if snapshot.revoked then 1 else 0
    observedAtMs }

def decodeU64 (value : Int) : Except StoreError Nat := do
  rejectIf (value < 0) .corrupt
  rejectIf (value.toNat > maxSafeInteger) .corrupt
  .ok value.toNat

def decodeRevoked (value : Int) : Except StoreError Bool :=
  if value = 0 then .ok false else if value = 1 then .ok true else .error .corrupt

def decodeCurrentness (key : String) (row : CurrentnessRow) :
    Except StoreError CurrentnessSnapshot := do
  let version ← decodeU64 row.snapshotVersion
  let policyEpoch ← decodeU64 row.policyEpoch
  let configurationEpoch ← decodeU64 row.configurationEpoch
  let preStateDigest ← fromProtocol (Digest32.parse row.preStateDigest)
  let resourceClaimDigest ← fromProtocol (Digest32.parse row.resourceClaimDigest)
  let revoked ← decodeRevoked row.revoked
  let observedAtMs ← decodeU64 row.observedAtMs
  .ok { key, version, policyEpoch, configurationEpoch, preStateDigest, resourceClaimDigest, revoked,
        observedAtMs }

def loadCurrentness (db : Db) (key : String) : Except StoreError (Option CurrentnessSnapshot) :=
  transposeMap (decodeCurrentness key) (db.currentnessByKey key)

variable [Sha256]

structure StoredChain where
  grantHash : Digest32
  commitment : TaskCommitment
  proposal : EffectProposal
  decision : AuthorizationDecision
  grant : ExecutionGrant
deriving DecidableEq

def decodeChain (raw : ChainRow) : Except StoreError StoredChain := do
  let c ← fromProtocol (parseRecord TaskCommitment raw.commitmentJson)
  let p ← fromProtocol (parseRecord EffectProposal raw.proposalJson)
  let d ← fromProtocol (parseRecord AuthorizationDecision raw.decisionJson)
  let g ← fromProtocol (parseRecord ExecutionGrant raw.grantJson)
  let grantHash ← fromProtocol (Digest32.parse raw.grantHash)
  let verified ← fromProtocol (verifyGrant c p d g)
  rejectIf (verified ≠ grantHash) .corrupt
  let proposalHash ← fromProtocol (commitment p)
  rejectIf (proposalHash.asStr ≠ raw.proposalHash) .corrupt
  let decisionHash ← fromProtocol (commitment d)
  rejectIf (decisionHash.asStr ≠ raw.decisionHash) .corrupt
  .ok { grantHash, commitment := c, proposal := p, decision := d, grant := g }

def loadChainByGrantId (db : Db) (grantId : String) : Except StoreError (Option StoredChain) :=
  transposeMap decodeChain (db.chainByGrantId grantId)

def loadChainByGrantHash (db : Db) (hash : Digest32) : Except StoreError (Option StoredChain) :=
  transposeMap decodeChain (db.chainByGrantHash hash.asStr)

def decodeClaim (hash : Digest32) (row : ClaimRow) : Except StoreError DurableClaim := do
  let grantHash ← fromProtocol (Digest32.parse hash.asStr)
  let snapshotVersion ← decodeU64 row.snapshotVersion
  let maximumSnapshotAgeMs ← decodeU64 row.maximumSnapshotAgeMs
  let claimedAtMs ← decodeU64 row.claimedAtMs
  let dispatchStartedAtMs ← transposeMap decodeU64 row.dispatchStartedAtMs
  .ok { grantHash, attemptId := row.attemptId, currentnessKey := row.currentnessKey,
        snapshotVersion, maximumSnapshotAgeMs, claimedAtMs, dispatchStartedAtMs }

def loadClaim (db : Db) (hash : Digest32) : Except StoreError (Option DurableClaim) :=
  transposeMap (decodeClaim hash) (db.claimByGrantHash hash.asStr)

def decodeReceipt (row : ReceiptRow) : Except StoreError EffectReceipt := do
  let receipt ← fromProtocol (parseRecord EffectReceipt row.receiptJson)
  let hash ← fromProtocol (commitment receipt)
  rejectIf (hash.asStr ≠ row.receiptHash) .corrupt
  .ok receipt

def loadReceiptByGrant (db : Db) (hash : Digest32) : Except StoreError (Option EffectReceipt) :=
  transposeMap decodeReceipt (db.receiptByGrantHash hash.asStr)

def loadReceiptByHash (db : Db) (hash : Digest32) : Except StoreError (Option EffectReceipt) :=
  transposeMap decodeReceipt (db.receiptByHash hash.asStr)

def decodeReconciliation (row : ReconciliationRow) : Except StoreError ReconciliationRecord :=
  fromProtocol (parseRecord ReconciliationRecord row.recordJson)

def loadReconciliationAt (db : Db) (hash : Digest32) (sequence : Nat) :
    Except StoreError (Option ReconciliationRecord) := do
  let sequence ← safeI64 sequence "reconciliation sequence"
  transposeMap decodeReconciliation (db.reconciliationAt hash.asStr sequence)

def loadLatestReconciliation (db : Db) (hash : Digest32) :
    Except StoreError (Option ReconciliationRecord) :=
  transposeMap decodeReconciliation (db.latestReconciliation hash.asStr)

def loadAllReconciliations (db : Db) (hash : Digest32) :
    Except StoreError (List ReconciliationRecord) :=
  (db.reconciliationsInOrder hash.asStr).mapM decodeReconciliation

namespace SqliteEffectStore

/-! ## Transactions -/

/-- An `IMMEDIATE` transaction: an error rolls it back. -/
def transaction {α : Type} (db : Db) (op : Except StoreError (α × Db)) :
    Except StoreError α × Db :=
  match op with
  | .ok (a, db') => (.ok a, db')
  | .error e => (.error e, db)

/-- The statement that an operation comes to, or none where it finds that the call repeats
an earlier one. -/
def execute {ρ : Type} (statement : ρ → Except StoreError Db) (db : Db) :
    Option ρ → Except StoreError Db
  | none => .ok db
  | some row => statement row

/-- The checks of `register_chain` inside its transaction, with the row to insert. -/
def storeChainPlan (row : ChainRow) (db : Db) : Except StoreError (Option ChainRow) :=
  match db.chainByGrantId row.grantId with
  | some existing => do
      rejectIf
        (¬(existing.grantHash = row.grantHash ∧ existing.proposalHash = row.proposalHash ∧
          existing.decisionHash = row.decisionHash ∧ existing.commitmentJson = row.commitmentJson ∧
          existing.proposalJson = row.proposalJson ∧ existing.decisionJson = row.decisionJson ∧
          existing.grantJson = row.grantJson))
        .grantConflict
      .ok none
  | none => do
      rejectIf (row.proposalHash ∈ db.authorizationChains.map ChainRow.proposalHash)
        .proposalAlreadyGranted
      rejectIf (row.decisionHash ∈ db.authorizationChains.map ChainRow.decisionHash)
        .decisionAlreadyGranted
      .ok (some row)

/-- `register_chain` up to its `INSERT`. -/
def registerChainPlan (c : TaskCommitment) (p : EffectProposal) (d : AuthorizationDecision)
    (g : ExecutionGrant) (db : Db) : Except StoreError (Digest32 × Option ChainRow) := do
  let grantHash ← fromProtocol (verifyGrant c p d g)
  let proposalHash ← fromProtocol (commitment p)
  let decisionHash ← fromProtocol (commitment d)
  let commitmentJson ← fromProtocol (canonicalJson c)
  let proposalJson ← fromProtocol (canonicalJson p)
  let decisionJson ← fromProtocol (canonicalJson d)
  let grantJson ← fromProtocol (canonicalJson g)
  let row : ChainRow := {
    grantId := g.grantId
    grantHash := grantHash.asStr
    proposalHash := proposalHash.asStr
    decisionHash := decisionHash.asStr
    commitmentJson, proposalJson, decisionJson, grantJson }
  let row ← storeChainPlan row db
  .ok (grantHash, row)

def registerChainTx (c : TaskCommitment) (p : EffectProposal) (d : AuthorizationDecision)
    (g : ExecutionGrant) (db : Db) : Except StoreError (Digest32 × Db) := do
  let (grantHash, row) ← registerChainPlan c p d g db
  let db ← execute (fun row ↦ mapSqlite (db.insertChain row)) db row
  .ok (grantHash, db)

def registerChain (c : TaskCommitment) (p : EffectProposal) (d : AuthorizationDecision)
    (g : ExecutionGrant) (db : Db) : Except StoreError Digest32 × Db :=
  transaction db (registerChainTx c p d g db)

/-- The checks of an update against the stored row. -/
def checkAdvance (previous snapshot : CurrentnessSnapshot) : Except StoreError Unit := do
  rejectIf (snapshot.version ≤ previous.version) .currentnessVersionConflict
  rejectIf (snapshot.policyEpoch < previous.policyEpoch ∨
    snapshot.configurationEpoch < previous.configurationEpoch) .authorityEpochRollback
  rejectIf (snapshot.observedAtMs < previous.observedAtMs) .observationRollback
  rejectIf (previous.revoked ∧ ¬snapshot.revoked ∧ snapshot.policyEpoch = previous.policyEpoch ∧
    snapshot.configurationEpoch = previous.configurationEpoch) .revocationRollback

def putCurrentnessTx (snapshot : CurrentnessSnapshot) (db : Db) :
    Except StoreError (Unit × Db) := do
  validateSnapshot snapshot
  let existing ← loadCurrentness db snapshot.key
  match existing with
  | some previous =>
      if previous = snapshot then .ok ((), db) else do
        checkAdvance previous snapshot
        let row ← snapshotParams snapshot
        let db ← mapSqlite (db.updateCurrentness row)
        .ok ((), db)
  | none => do
      let row ← snapshotParams snapshot
      let db ← mapSqlite (db.insertCurrentness row)
      .ok ((), db)

def putCurrentness (snapshot : CurrentnessSnapshot) (db : Db) : Except StoreError Unit × Db :=
  transaction db (putCurrentnessTx snapshot db)

/-- The comparisons of the currentness row with the chain that `claim` and
`mark_dispatch_started` both make. -/
def checkAuthority (snapshot : CurrentnessSnapshot) (chain : StoredChain) :
    Except StoreError Unit := do
  rejectIf (snapshot.policyEpoch ≠ chain.commitment.policyEpoch ∨
    snapshot.configurationEpoch ≠ chain.commitment.configurationEpoch) .staleAuthority
  rejectIf (snapshot.preStateDigest ≠ chain.proposal.preStateDigest) .stalePreState
  rejectIf (snapshot.resourceClaimDigest ≠ chain.proposal.resourceClaimDigest) .staleResourceClaim
  rejectIf snapshot.revoked .grantRevoked

/-- `claim` up to its two statements, with its answer and the row to insert. -/
def claimPlan (grant : ExecutionGrant) (request : ClaimRequest) (trustedNowMs : Nat) (db : Db) :
    Except StoreError (DurableClaim × ClaimRow) := do
  validateClaimRequest request
  let _ ← safeI64 trustedNowMs "trusted_now_ms"
  let suppliedHash ← fromProtocol (commitment grant)
  let found ← loadChainByGrantId db grant.grantId
  let chain ← okOr found .unknownGrant
  rejectIf (chain.grantHash ≠ suppliedHash ∨ chain.grant ≠ grant) .grantConflict
  let _ ← fromProtocol (verifyGrant chain.commitment chain.proposal chain.decision chain.grant)
  let now ← safeI64 trustedNowMs "trusted_now_ms"
  rejectIf (∃ last ∈ db.lastTrustedTimeMs, now < last) .clockRollback
  let found ← loadCurrentness db request.currentnessKey
  let snapshot ← okOr found .unknownCurrentness
  validateCurrentnessAge snapshot trustedNowMs request.maximumSnapshotAgeMs
  rejectIf (snapshot.version ≠ request.expectedSnapshotVersion) .staleSnapshot
  rejectIf (request.expectedAudience ≠ chain.grant.audience) .audienceMismatch
  checkAuthority snapshot chain
  rejectIf (trustedNowMs < chain.grant.notBeforeMs) .grantNotYetValid
  rejectIf (trustedNowMs ≥ chain.grant.expiresAtMs) .grantExpired
  let snapshotVersion ← safeI64 request.expectedSnapshotVersion "snapshot version"
  let maximumSnapshotAgeMs ← safeI64 request.maximumSnapshotAgeMs "maximum snapshot age"
  let row : ClaimRow := {
    grantHash := suppliedHash.asStr
    attemptId := request.attemptId
    currentnessKey := request.currentnessKey
    snapshotVersion
    maximumSnapshotAgeMs
    claimedAtMs := now
    dispatchStartedAtMs := none }
  let claim : DurableClaim := {
    grantHash := suppliedHash
    attemptId := request.attemptId
    currentnessKey := request.currentnessKey
    snapshotVersion := request.expectedSnapshotVersion
    maximumSnapshotAgeMs := request.maximumSnapshotAgeMs
    claimedAtMs := trustedNowMs
    dispatchStartedAtMs := none }
  .ok (claim, row)

def claimTx (grant : ExecutionGrant) (request : ClaimRequest) (trustedNowMs : Nat) (db : Db) :
    Except StoreError (DurableClaim × Db) := do
  let (claim, row) ← claimPlan grant request trustedNowMs db
  let db := db.setLastTrustedTime row.claimedAtMs
  let db ← (db.insertClaim row).mapError fun _ ↦
    if (db.claimByGrantHash row.grantHash).isSome then StoreError.grantAlreadyClaimed
    else .attemptAlreadyUsed
  .ok (claim, db)

def claim (grant : ExecutionGrant) (request : ClaimRequest) (trustedNowMs : Nat) (db : Db) :
    Except StoreError DurableClaim × Db :=
  transaction db (claimTx grant request trustedNowMs db)

/-- The checks of `mark_dispatch_started` when the claim has no marker yet. -/
def firstMarkPlan (claim : DurableClaim) (grantHash : Digest32) (dispatchedAtMs : Nat)
    (dispatched : Int) (db : Db) : Except StoreError (Option Int) := do
  rejectIf (∃ last ∈ db.lastTrustedTimeMs, dispatched < last) .clockRollback
  let found ← loadChainByGrantHash db grantHash
  let chain ← okOr found .unknownGrant
  rejectIf (dispatchedAtMs ≥ chain.grant.expiresAtMs) .grantExpired
  let found ← loadCurrentness db claim.currentnessKey
  let snapshot ← okOr found .unknownCurrentness
  validateCurrentnessAge snapshot dispatchedAtMs claim.maximumSnapshotAgeMs
  rejectIf (snapshot.version ≠ claim.snapshotVersion) .staleSnapshot
  checkAuthority snapshot chain
  .ok (some dispatched)

/-- `mark_dispatch_started` up to its two `UPDATE`s, with the time that they write. -/
def markPlan (grantHash : Digest32) (attemptId : String) (dispatchedAtMs : Nat) (db : Db) :
    Except StoreError (Option Int) := do
  validateText "attempt_id" attemptId 256
  let dispatched ← safeI64 dispatchedAtMs "dispatched_at_ms"
  let found ← loadClaim db grantHash
  let claim ← okOr found .unknownGrant
  rejectIf (claim.attemptId ≠ attemptId) .claimMismatch
  rejectIf (dispatchedAtMs < claim.claimedAtMs) (.invalidInput "dispatch predates claim")
  match claim.dispatchStartedAtMs with
  | some existing => do
      rejectIf (existing ≠ dispatchedAtMs) .dispatchAlreadyStarted
      .ok none
  | none => firstMarkPlan claim grantHash dispatchedAtMs dispatched db

def markDispatchStartedTx (grantHash : Digest32) (attemptId : String) (dispatchedAtMs : Nat)
    (db : Db) : Except StoreError (DispatchMarker × Db) := do
  let dispatched ← markPlan grantHash attemptId dispatchedAtMs db
  let db ← execute (fun dispatched ↦ mapSqlite
    ((db.setLastTrustedTime dispatched).setDispatchStarted dispatched grantHash.asStr attemptId))
    db dispatched
  .ok ({ grantHash, attemptId, dispatchedAtMs }, db)

def markDispatchStarted (grantHash : Digest32) (attemptId : String) (dispatchedAtMs : Nat)
    (db : Db) : Except StoreError DispatchMarker × Db :=
  transaction db (markDispatchStartedTx grantHash attemptId dispatchedAtMs db)

/-- `record_receipt` up to its `INSERT`. -/
def receiptPlan (receipt : EffectReceipt) (db : Db) :
    Except StoreError (Digest32 × Option ReceiptRow) := do
  fromProtocol (validate receipt)
  let receiptHash ← fromProtocol (commitment receipt)
  let found ← loadChainByGrantHash db receipt.grantHash
  let chain ← okOr found .unknownGrant
  let verified ← fromProtocol
    (verifyChain chain.commitment chain.proposal chain.decision chain.grant receipt)
  let found ← loadClaim db receipt.grantHash
  let claim ← okOr found .claimMismatch
  rejectIf (claim.attemptId ≠ receipt.attemptId ∨ claim.claimedAtMs ≠ receipt.claimedAtMs)
    .claimMismatch
  validateDispatchEvidence receipt claim.dispatchStartedAtMs
  let existing ← loadReceiptByGrant db receipt.grantHash
  match existing with
  | some existing => do
      let existingHash ← fromProtocol (commitment existing)
      rejectIf (existingHash ≠ receiptHash) .receiptConflict
      .ok (receiptHash, none)
  | none => do
      let receiptJson ← fromProtocol (canonicalJson receipt)
      let row : ReceiptRow := {
        grantHash := verified.grantHash.asStr
        receiptId := receipt.receiptId
        receiptHash := receiptHash.asStr
        receiptJson }
      .ok (receiptHash, some row)

def recordReceiptTx (receipt : EffectReceipt) (db : Db) : Except StoreError (Digest32 × Db) := do
  let (receiptHash, row) ← receiptPlan receipt db
  let db ← execute (fun row ↦ (db.insertReceipt row).mapError fun _ ↦ StoreError.receiptConflict)
    db row
  .ok (receiptHash, db)

def recordReceipt (receipt : EffectReceipt) (db : Db) : Except StoreError Digest32 × Db :=
  transaction db (recordReceiptTx receipt db)

/-- The checks of `append_reconciliation` for a position that is free. -/
def newRecordPlan (receipt : EffectReceipt) (record : ReconciliationRecord) (db : Db) :
    Except StoreError ReconciliationRow := do
  rejectIf ((db.reconciliationsOf record.receiptHash.asStr).length ≥ maxReconciliationRecords)
    (.protocol (.resourceLimit "reconciliation records"))
  let previous ← loadLatestReconciliation db record.receiptHash
  let verifiedHash ← fromProtocol (verifyReconciliation receipt previous record)
  let recordJson ← fromProtocol (canonicalJson record)
  let sequence ← safeI64 record.sequence "reconciliation sequence"
  .ok {
    receiptHash := record.receiptHash.asStr
    sequence
    reconciliationId := record.reconciliationId
    reconciliationHash := verifiedHash.asStr
    parentReconciliationHash := record.parentReconciliationHash.map Digest32.asStr
    recordJson }

/-- `append_reconciliation` up to its `INSERT`. -/
def appendPlan (record : ReconciliationRecord) (db : Db) :
    Except StoreError (Digest32 × Option ReconciliationRow) := do
  fromProtocol (validate record)
  let recordHash ← fromProtocol (commitment record)
  let found ← loadReceiptByHash db record.receiptHash
  let receipt ← okOr found .unknownReceipt
  let existing ← loadReconciliationAt db record.receiptHash record.sequence
  match existing with
  | some existing => do
      let existingHash ← fromProtocol (commitment existing)
      rejectIf (existingHash ≠ recordHash) .reconciliationFork
      .ok (recordHash, none)
  | none => do
      let row ← newRecordPlan receipt record db
      .ok (recordHash, some row)

def appendReconciliationTx (record : ReconciliationRecord) (db : Db) :
    Except StoreError (Digest32 × Db) := do
  let (recordHash, row) ← appendPlan record db
  let db ← execute (fun row ↦ (db.insertReconciliation row).mapError fun _ ↦
    if record.reconciliationId ∈ db.reconciliations.map ReconciliationRow.reconciliationId then
      StoreError.reconciliationIdentifierConflict
    else .reconciliationFork) db row
  .ok (recordHash, db)

def appendReconciliation (record : ReconciliationRecord) (db : Db) :
    Except StoreError Digest32 × Db :=
  transaction db (appendReconciliationTx record db)

/-! ## Reading a lifecycle -/

/-- The checks of `lifecycle` on a receipt, before it reads the reconciliations. -/
def checkReceipt (chain : StoredChain) (claim : Option DurableClaim) (receipt : EffectReceipt) :
    Except StoreError Digest32 := do
  let _ ← fromProtocol
    (verifyChain chain.commitment chain.proposal chain.decision chain.grant receipt)
  let winningClaim ← okOr claim .corrupt
  rejectIf (winningClaim.attemptId ≠ receipt.attemptId ∨
    winningClaim.claimedAtMs ≠ receipt.claimedAtMs) .corrupt
  validateDispatchEvidence receipt winningClaim.dispatchStartedAtMs
  fromProtocol (commitment receipt)

/-- The loop over the records read last. -/
def checkRecords (receipt : EffectReceipt) :
    Option ReconciliationRecord → List ReconciliationRecord → Except StoreError Unit
  | _, [] => .ok ()
  | previous, record :: records => do
      let _ ← fromProtocol (verifyReconciliation receipt previous record)
      checkRecords receipt (some record) records

def lifecycle (grantHash : Digest32) : Reads Db (Except StoreError Lifecycle) :=
  .query (loadChainByGrantHash · grantHash) fun found ↦
  .check (okOr found .unknownGrant) fun chain ↦
  .query (loadClaim · grantHash) fun claim ↦
  .query (loadReceiptByGrant · grantHash) fun receipt ↦
  match receipt with
  | none => .done (.ok { grantHash, claim, receipt := none, reconciliations := [] })
  | some value =>
      .check (checkReceipt chain claim value) fun receiptHash ↦
      .query (loadAllReconciliations · receiptHash) fun reconciliations ↦
      .check (checkRecords value none reconciliations) fun _ ↦
      .done (.ok { grantHash, claim, receipt := some value, reconciliations })

/-! ## Runs -/

inductive Call where
  | registerChain (c : TaskCommitment) (p : EffectProposal) (d : AuthorizationDecision)
      (g : ExecutionGrant)
  | putCurrentness (snapshot : CurrentnessSnapshot)
  | claim (grant : ExecutionGrant) (request : ClaimRequest) (trustedNowMs : Nat)
  | markDispatchStarted (grantHash : Digest32) (attemptId : String) (dispatchedAtMs : Nat)
  | recordReceipt (receipt : EffectReceipt)
  | appendReconciliation (record : ReconciliationRecord)

def step (db : Db) : Call → Db
  | .registerChain c p d g => (registerChain c p d g db).2
  | .putCurrentness snapshot => (putCurrentness snapshot db).2
  | .claim grant request now => (claim grant request now db).2
  | .markDispatchStarted hash attemptId dispatched =>
      (markDispatchStarted hash attemptId dispatched db).2
  | .recordReceipt receipt => (recordReceipt receipt db).2
  | .appendReconciliation record => (appendReconciliation record db).2

/-- The database after a run from the empty schema. -/
def run (calls : List Call) : Db := Machine.run step .empty calls

end SqliteEffectStore

end Etp.Sqlite
