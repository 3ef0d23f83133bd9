import Etp.Lib.Result
import Etp.Lib.Table

/-!
# The database

The tables of `SCHEMA`, and the statements the store runs on them.  A `STRICT`
`INTEGER` column is an `Int`, `TEXT` a `String`, `BLOB` a list of bytes, and a
column that may be `NULL` an `Option`.  A table is the list of its rows.

A statement that writes checks what the schema makes SQLite check: `PRIMARY KEY`
and `UNIQUE`, `CHECK`, the foreign keys (which `configure` switches on), and the
guard trigger on `claims`.  The other triggers forbid updates and deletions that
no statement of the store attempts.  All of these failures are reported as
`ConstraintViolation`; failures of the disk and of locks are left out.
-/

namespace Etp.Sqlite

/-! ## Rows -/

structure CurrentnessRow where
  currentnessKey : String
  snapshotVersion : Int
  policyEpoch : Int
  configurationEpoch : Int
  preStateDigest : String
  resourceClaimDigest : String
  revoked : Int
  observedAtMs : Int
deriving DecidableEq

structure ChainRow where
  grantId : String
  grantHash : String
  proposalHash : String
  decisionHash : String
  commitmentJson : List UInt8
  proposalJson : List UInt8
  decisionJson : List UInt8
  grantJson : List UInt8
deriving DecidableEq

structure ClaimRow where
  grantHash : String
  attemptId : String
  currentnessKey : String
  snapshotVersion : Int
  maximumSnapshotAgeMs : Int
  claimedAtMs : Int
  dispatchStartedAtMs : Option Int
deriving DecidableEq

structure ReceiptRow where
  grantHash : String
  receiptId : String
  receiptHash : String
  receiptJson : List UInt8
deriving DecidableEq

structure ReconciliationRow where
  receiptHash : String
  sequence : Int
  reconciliationId : String
  reconciliationHash : String
  parentReconciliationHash : Option String
  recordJson : List UInt8
deriving DecidableEq

/-- A committed database.  `store_meta` has the one row its `CHECK` admits. -/
structure Db where
  lastTrustedTimeMs : Option Int
  currentness : List CurrentnessRow
  authorizationChains : List ChainRow
  claims : List ClaimRow
  receipts : List ReceiptRow
  reconciliations : List ReconciliationRow
deriving DecidableEq

/-- `rusqlite::Error::SqliteFailure`, by its code. -/
inductive SqliteFailure where
  | constraintViolation
deriving DecidableEq, Repr

namespace Db

/-- The database that `SCHEMA` creates. -/
def empty : Db where
  lastTrustedTimeMs := none
  currentness := []
  authorizationChains := []
  claims := []
  receipts := []
  reconciliations := []

/-! ## Queries -/

def currentnessByKey (db : Db) (key : String) : Option CurrentnessRow :=
  lookupBy CurrentnessRow.currentnessKey key db.currentness

def chainByGrantId (db : Db) (id : String) : Option ChainRow :=
  lookupBy ChainRow.grantId id db.authorizationChains

def chainByGrantHash (db : Db) (hash : String) : Option ChainRow :=
  lookupBy ChainRow.grantHash hash db.authorizationChains

def claimByGrantHash (db : Db) (hash : String) : Option ClaimRow :=
  lookupBy ClaimRow.grantHash hash db.claims

def receiptByGrantHash (db : Db) (hash : String) : Option ReceiptRow :=
  lookupBy ReceiptRow.grantHash hash db.receipts

def receiptByHash (db : Db) (hash : String) : Option ReceiptRow :=
  lookupBy ReceiptRow.receiptHash hash db.receipts

/-- `WHERE receipt_hash=?1` -/
def reconciliationsOf (db : Db) (hash : String) : List ReconciliationRow :=
  db.reconciliations.filter fun r ↦ r.receiptHash = hash

def reconciliationAt (db : Db) (hash : String) (sequence : Int) : Option ReconciliationRow :=
  (db.reconciliationsOf hash).find? fun r ↦ r.sequence = sequence

/-- `ORDER BY sequence DESC LIMIT 1` -/
def latestReconciliation (db : Db) (hash : String) : Option ReconciliationRow :=
  ((db.reconciliationsOf hash).insertionSort fun a b ↦ b.sequence ≤ a.sequence).head?

/-- `ORDER BY sequence` -/
def reconciliationsInOrder (db : Db) (hash : String) : List ReconciliationRow :=
  (db.reconciliationsOf hash).insertionSort fun a b ↦ a.sequence ≤ b.sequence

/-! ## Statements -/

def setLastTrustedTime (now : Int) (db : Db) : Db := { db with lastTrustedTimeMs := some now }

/-- The `CHECK` constraints of `currentness`. -/
def checkCurrentness (row : CurrentnessRow) : Prop :=
  row.snapshotVersion > 0 ∧ row.policyEpoch ≥ 0 ∧ row.configurationEpoch ≥ 0 ∧
    (row.revoked = 0 ∨ row.revoked = 1) ∧ row.observedAtMs ≥ 0

instance (row : CurrentnessRow) : Decidable (checkCurrentness row) :=
  inferInstanceAs (Decidable (_ ∧ _))

def insertCurrentness (row : CurrentnessRow) (db : Db) : Except SqliteFailure Db := do
  rejectIf
    (row.currentnessKey ∈ db.currentness.map CurrentnessRow.currentnessKey ∨ ¬checkCurrentness row)
    .constraintViolation
  .ok { db with currentness := db.currentness ++ [row] }

/-- `UPDATE currentness SET .. WHERE currentness_key=?1`, every other column set. -/
def updateCurrentness (row : CurrentnessRow) (db : Db) : Except SqliteFailure Db := do
  rejectIf
    (row.currentnessKey ∈ db.currentness.map CurrentnessRow.currentnessKey ∧ ¬checkCurrentness row)
    .constraintViolation
  .ok { db with
    currentness :=
      updateWhere (fun r ↦ r.currentnessKey = row.currentnessKey) (fun _ ↦ row) db.currentness }

def insertChain (row : ChainRow) (db : Db) : Except SqliteFailure Db := do
  rejectIf
    (row.grantId ∈ db.authorizationChains.map ChainRow.grantId ∨
      row.grantHash ∈ db.authorizationChains.map ChainRow.grantHash ∨
      row.proposalHash ∈ db.authorizationChains.map ChainRow.proposalHash ∨
      row.decisionHash ∈ db.authorizationChains.map ChainRow.decisionHash)
    .constraintViolation
  .ok { db with authorizationChains := db.authorizationChains ++ [row] }

/-- The `CHECK` constraints of `claims`. -/
def checkClaim (row : ClaimRow) : Prop :=
  row.maximumSnapshotAgeMs > 0 ∧ ∀ t ∈ row.dispatchStartedAtMs, t ≥ row.claimedAtMs

instance (row : ClaimRow) : Decidable (checkClaim row) :=
  inferInstanceAs (Decidable (_ ∧ _))

def insertClaim (row : ClaimRow) (db : Db) : Except SqliteFailure Db := do
  rejectIf
    (row.grantHash ∉ db.authorizationChains.map ChainRow.grantHash ∨
      row.currentnessKey ∉ db.currentness.map CurrentnessRow.currentnessKey ∨
      row.grantHash ∈ db.claims.map ClaimRow.grantHash ∨
      row.attemptId ∈ db.claims.map ClaimRow.attemptId ∨ ¬checkClaim row)
    .constraintViolation
  .ok { db with claims := db.claims ++ [row] }

/-- The `WHEN` condition of `claims_update_guard`, under which the update is aborted. -/
def claimsUpdateGuard (new old : ClaimRow) : Prop :=
  new.grantHash ≠ old.grantHash ∨ new.attemptId ≠ old.attemptId ∨
    new.currentnessKey ≠ old.currentnessKey ∨ new.snapshotVersion ≠ old.snapshotVersion ∨
    new.maximumSnapshotAgeMs ≠ old.maximumSnapshotAgeMs ∨ new.claimedAtMs ≠ old.claimedAtMs ∨
    old.dispatchStartedAtMs ≠ none ∨ new.dispatchStartedAtMs = none

instance (new old : ClaimRow) : Decidable (claimsUpdateGuard new old) :=
  inferInstanceAs (Decidable (_ ∨ _))

/-- `UPDATE claims SET dispatch_started_at_ms=?1 WHERE grant_hash=?2 AND attempt_id=?3 AND
dispatch_started_at_ms IS NULL` -/
def setDispatchStarted (dispatched : Int) (hash attemptId : String) (db : Db) :
    Except SqliteFailure Db := do
  let set (r : ClaimRow) : ClaimRow := { r with dispatchStartedAtMs := some dispatched }
  let selected (r : ClaimRow) : Bool :=
    r.grantHash = hash ∧ r.attemptId = attemptId ∧ r.dispatchStartedAtMs = none
  rejectIf (∃ r ∈ db.claims, selected r ∧ (claimsUpdateGuard (set r) r ∨ ¬checkClaim (set r)))
    .constraintViolation
  .ok { db with claims := updateWhere selected set db.claims }

def insertReceipt (row : ReceiptRow) (db : Db) : Except SqliteFailure Db := do
  rejectIf
    (row.grantHash ∉ db.claims.map ClaimRow.grantHash ∨
      row.grantHash ∈ db.receipts.map ReceiptRow.grantHash ∨
      row.receiptId ∈ db.receipts.map ReceiptRow.receiptId ∨
      row.receiptHash ∈ db.receipts.map ReceiptRow.receiptHash)
    .constraintViolation
  .ok { db with receipts := db.receipts ++ [row] }

/-- In a `UNIQUE` column that may be `NULL`, the `NULL`s do not conflict. -/
def insertReconciliation (row : ReconciliationRow) (db : Db) : Except SqliteFailure Db := do
  rejectIf
    (row.receiptHash ∉ db.receipts.map ReceiptRow.receiptHash ∨ ¬row.sequence > 0 ∨
      (row.receiptHash, row.sequence) ∈
        db.reconciliations.map (fun r ↦ (r.receiptHash, r.sequence)) ∨
      row.reconciliationId ∈ db.reconciliations.map ReconciliationRow.reconciliationId ∨
      row.reconciliationHash ∈ db.reconciliations.map ReconciliationRow.reconciliationHash ∨
      ∃ parent ∈ row.parentReconciliationHash,
        some parent ∈ db.reconciliations.map ReconciliationRow.parentReconciliationHash)
    .constraintViolation
  .ok { db with reconciliations := db.reconciliations ++ [row] }

end Db

end Etp.Sqlite
