import Etp.Core.MemoryStore
import Etp.TypeScript.Verify

/-!
# The lifecycle target of the conformance runner

`ReferenceLifecycleTarget` is the oracle of the conformance suite for what a verifier of
single bundles cannot observe: registration, currentness, the single claim and the receipt.
It checks the structure of a bundle with `verifyTransaction` and keeps the bundle as a
JavaScript object, whose fields it reads when a grant is claimed.

As in the store, a `Map` is its lookup function, and `claim` writes the trusted time
before its later checks.  The bundles are values, so that `structuredClone` is the identity.
-/

namespace Etp.Conformance

open Etp.Core (HashMap)
open Etp.TypeScript JsString

/-- What the target throws: a `ConformanceError`, or the error of the verifier. -/
inductive Failure where
  | conformance (code : String) (message : JsString)
  | thrown (error : Thrown)
deriving DecidableEq, Repr

def conformanceError (code message : String) : Failure := .conformance code (js message)

/-! ## Objects -/

/-- `record.name`, of a field that holds an object. -/
def recordAt (record : Record) (name : String) : Record :=
  match field record name with
  | .object members => members
  | _ => []

/-- `record.name = value` -/
def setField (record : Record) (name : String) (value : JsValue) : Record :=
  if hasOwn record name then record.map fun e ↦ if e.1 = js name then (e.1, value) else e
  else record ++ [(js name, value)]

/-! ## The target -/

/-- The fields that are only compared are the values that the request holds. -/
structure ClaimRequest where
  attemptId : JsString
  expectedAudience : JsValue
  observedPolicyEpoch : JsValue
  observedConfigurationEpoch : JsValue
  observedPreStateDigest : JsValue
  observedResourceClaimDigest : JsValue
  revoked : Bool

structure Claim where
  attemptId : JsString
  claimedAtMs : Int
deriving DecidableEq

structure StoredGrant where
  bundle : Record
  grantHash : JsString
  claim : Option Claim
  receiptHash : Option JsString
  receiptWrites : Nat

/-- The two sets hold each hash once.  A clock reading is an integer. -/
structure ReferenceLifecycleTarget where
  grants : HashMap JsString StoredGrant
  decisions : List JsString
  proposals : List JsString
  lastTrustedTime : Option Int

namespace ReferenceLifecycleTarget

def empty : ReferenceLifecycleTarget where
  grants _ := none
  decisions := []
  proposals := []
  lastTrustedTime := none

/-- A method that writes only after its last check. -/
def atomically {α : Type} (t : ReferenceLifecycleTarget)
    (op : Except Failure (α × ReferenceLifecycleTarget)) :
    Except Failure α × ReferenceLifecycleTarget :=
  match op with
  | .ok (a, t') => (.ok a, t')
  | .error e => (.error e, t)

section Register

variable [Core.Sha256]

def registerChecked (bundle : Record) (t : ReferenceLifecycleTarget) :
    Except Failure (JsString × ReferenceLifecycleTarget) := do
  let verified ← (verifyTransaction (.object bundle)).mapError .thrown
  let grantHash ← okOr verified.grantHash
    (conformanceError "missing_grant" "registration requires a grant")
  rejectIf (!hasOwn bundle "grant")
    (conformanceError "missing_grant" "registration requires a grant")
  let grantId := stringAt (recordAt bundle "grant") "grant_id"
  rejectIf (t.grants grantId).isSome
    (conformanceError "duplicate_grant" "grant identifier already registered")
  rejectIf (verified.decisionHash ∈ t.decisions)
    (conformanceError "decision_already_granted" "decision already issued a grant")
  rejectIf (verified.proposalHash ∈ t.proposals)
    (conformanceError "proposal_already_granted" "proposal already issued a grant")
  .ok (grantHash, { t with
    grants := t.grants.insert grantId {
      bundle
      grantHash
      claim := none
      receiptHash := none
      receiptWrites := 0 }
    decisions := t.decisions.insert verified.decisionHash
    proposals := t.proposals.insert verified.proposalHash })

def register (bundle : Record) (t : ReferenceLifecycleTarget) :
    Except Failure JsString × ReferenceLifecycleTarget :=
  atomically t (registerChecked bundle t)

end Register

/-- The part of `claim` before the trusted time is written. -/
def claimPreamble (nowMs : Option Int) (t : ReferenceLifecycleTarget) : Except Failure Int := do
  let nowMs ← okOr nowMs (conformanceError "clock_unavailable" "trusted clock unavailable")
  rejectIf (∃ last ∈ t.lastTrustedTime, nowMs < last)
    (conformanceError "clock_rollback" "trusted time moved backwards")
  .ok nowMs

/-- The part of `claim` after the trusted time is written. -/
def claimChecked (grantId : JsString) (request : ClaimRequest) (nowMs : Int)
    (t : ReferenceLifecycleTarget) : Except Failure (Unit × ReferenceLifecycleTarget) := do
  let stored ← okOr (t.grants grantId) (.conformance "unknown_grant" grantId)
  let commitment := recordAt stored.bundle "commitment"
  let proposal := recordAt stored.bundle "proposal"
  let grant := recordAt stored.bundle "grant"
  rejectIf (!strictlyEqual request.expectedAudience (field grant "audience"))
    (conformanceError "audience_mismatch" "executor audience differs")
  rejectIf (!strictlyEqual request.observedPolicyEpoch (field commitment "policy_epoch") ∨
    !strictlyEqual request.observedConfigurationEpoch (field commitment "configuration_epoch"))
    (conformanceError "stale_authority" "authority epoch differs")
  rejectIf (!strictlyEqual request.observedPreStateDigest (field proposal "pre_state_digest"))
    (conformanceError "stale_pre_state" "target pre-state differs")
  rejectIf (!strictlyEqual request.observedResourceClaimDigest
      (field proposal "resource_claim_digest"))
    (conformanceError "stale_resource_claim" "resource claim differs")
  rejectIf request.revoked (conformanceError "grant_revoked" "grant was revoked")
  rejectIf (nowMs < numberAt grant "not_before_ms")
    (conformanceError "grant_not_yet_valid" "grant is premature")
  rejectIf (nowMs ≥ numberAt grant "expires_at_ms")
    (conformanceError "grant_expired" "grant expired")
  rejectIf stored.claim.isSome
    (conformanceError "grant_already_claimed" "grant is single-use")
  .ok ((), { t with
    grants := t.grants.insert grantId { stored with claim := some ⟨request.attemptId, nowMs⟩ } })

def claim (grantId : JsString) (request : ClaimRequest) (nowMs : Option Int)
    (t : ReferenceLifecycleTarget) : Except Failure Unit × ReferenceLifecycleTarget :=
  match claimPreamble nowMs t with
  | .error e => (.error e, t)
  | .ok nowMs =>
      let t := { t with lastTrustedTime := some nowMs }
      atomically t (claimChecked grantId request nowMs t)

section Receipts

variable [Core.Sha256]

def recordReceiptChecked (grantId : JsString) (receipt : Record) (t : ReferenceLifecycleTarget) :
    Except Failure (JsString × ReferenceLifecycleTarget) := do
  let stored ← okOr (t.grants grantId) (.conformance "unknown_grant" grantId)
  let claim ← okOr stored.claim
    (conformanceError "receipt_without_claim" "receipt has no winning claim")
  rejectIf (!strictlyEqual (field receipt "attempt_id") (.string claim.attemptId) ∨
    !strictlyEqual (field receipt "claimed_at_ms") (.number (.ofInt claim.claimedAtMs)))
    (conformanceError "receipt_claim_mismatch" "receipt does not match winning claim")
  let candidate := setField stored.bundle "receipt" (.object receipt)
  let verified ← (verifyTransaction (.object candidate)).mapError .thrown
  let receiptHash := verified.receiptHash.getD []
  match stored.receiptHash with
  | some existing => do
      rejectIf (existing ≠ receiptHash)
        (conformanceError "receipt_already_recorded" "a conflicting receipt exists")
      .ok (receiptHash, t)
  | none =>
      .ok (receiptHash, { t with
        grants := t.grants.insert grantId { stored with
          receiptHash := some receiptHash
          receiptWrites := stored.receiptWrites + 1 } })

def recordReceipt (grantId : JsString) (receipt : Record) (t : ReferenceLifecycleTarget) :
    Except Failure JsString × ReferenceLifecycleTarget :=
  atomically t (recordReceiptChecked grantId receipt t)

end Receipts

def receiptWrites (grantId : JsString) (t : ReferenceLifecycleTarget) : Nat :=
  ((t.grants grantId).map StoredGrant.receiptWrites).getD 0

end ReferenceLifecycleTarget

end Etp.Conformance
