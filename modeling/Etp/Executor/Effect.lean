import Etp.Authority.Verify
import Etp.Sqlite.Tables

/-!
# Prepared effects and their tokens

The types that `EffectTransactionExecutor` passes from one operation to the next.
`PreparedEffect` can only be built by the checks of `new`, so it carries their
result as a field; `ClaimedEffect`, `DispatchCapability` and `ReceiptHandle` are
moved and never cloned, which is a property of the runs that hold them and not of
the types.
-/

namespace Etp.Executor

open Etp.Core Etp.Authority Etp.Sqlite

/-- `CORE_RECORD_PROFILE` -/
def coreRecordProfile : String := "effect-transaction/core/0.1"

inductive ExecutorError where
  | invalidPolicy (reason : String)
  | documentTooLarge (name : String)
  | documentDigestMismatch (name : String)
  | grantAudienceMismatch
  | authorityConfigurationEpochMismatch
  | authorityChangedAfterClaim
  | currentnessPolicyEpochMismatch
  | currentnessConfigurationEpochMismatch
  | currentnessFromFuture
  | staleCurrentness
  | missingDurableClaim
  | recoveryAttemptMismatch
  | missingDispatchMarker
  | unexpectedDispatchMarker
  | protocol (error : ProtocolError)
  | authority (error : AuthorityError)
  | store (error : StoreError)
deriving DecidableEq

/-! ## Policy -/

structure ExecutorPolicy where
  audience : String
  authorityRole : String
  maximumAuthoritySnapshotAgeMs : Nat
  maximumCurrentnessAgeMs : Nat
deriving DecidableEq

def validateText (value : String) (maximumBytes : Nat) : Except ExecutorError Unit :=
  rejectIf (value = "" ∨ byteLen value > maximumBytes ∨ trim value ≠ value ∨
    value.toList.any isControl) (.invalidPolicy "invalid text value")

def validateToken (value : String) : Except ExecutorError Unit := do
  validateText value 256
  match utf8 value with
  | [] => .error (.invalidPolicy "invalid authority role")
  | b :: bytes =>
      rejectIf (!isTokenStart b ∨ !bytes.all isTokenByte) (.invalidPolicy "invalid authority role")

def ExecutorPolicy.validate (policy : ExecutorPolicy) : Except ExecutorError Unit := do
  validateText policy.audience 512
  validateToken policy.authorityRole
  rejectIf (policy.maximumAuthoritySnapshotAgeMs = 0 ∨
    policy.maximumAuthoritySnapshotAgeMs > maxAuthoritySnapshotAgeMs)
    (.invalidPolicy "authority snapshot age must be within the authority profile bound")
  rejectIf (policy.maximumCurrentnessAgeMs = 0 ∨
    policy.maximumCurrentnessAgeMs > maxCurrentnessAgeMs)
    (.invalidPolicy "currentness age must be within the executor profile bound")

/-! ## Documents -/

/-- The exact bytes of the four profile documents. -/
structure EffectDocuments where
  arguments : List UInt8
  expectedEffect : List UInt8
  preState : List UInt8
  resourceClaim : List UInt8
deriving DecidableEq

/-- `for (name, value) in [..] { if value.len() > MAX_TRANSPORT_INPUT_BYTES { return Err(..) } }` -/
def limitDocuments : List (String × List UInt8) → Except ExecutorError Unit
  | [] => .ok ()
  | (name, value) :: rest => do
      rejectIf (value.length > maxTransportInputBytes) (.documentTooLarge name)
      limitDocuments rest

def EffectDocuments.validateLimits (documents : EffectDocuments) : Except ExecutorError Unit :=
  limitDocuments [
    ("arguments", documents.arguments),
    ("expected effect", documents.expectedEffect),
    ("pre-state", documents.preState),
    ("resource claim", documents.resourceClaim)]

/-- `#[from] ProtocolError`, as `?` applies it. -/
def fromProtocol {α : Type} (x : Except ProtocolError α) : Except ExecutorError α :=
  x.mapError .protocol

@[simp] theorem fromProtocol_eq_ok {α : Type} {x : Except ProtocolError α} {a : α} :
    fromProtocol x = .ok a ↔ x = .ok a := mapError_eq_ok

section Sha256

variable [Sha256]

def verifyDocument (name : String) (bytes : List UInt8) (expected : Digest32) :
    Except ExecutorError Unit :=
  if Digest32.fromPayload bytes = expected then .ok () else .error (.documentDigestMismatch name)

@[simp] theorem verifyDocument_eq_ok {name : String} {bytes : List UInt8} {expected : Digest32}
    {u : Unit} : verifyDocument name bytes expected = .ok u ↔
      Digest32.fromPayload bytes = expected := by
  unfold verifyDocument
  split <;> simp [*]

/-! ## Prepared effects -/

/-- The body of `PreparedEffect::new`, which returns the hashes of the grant and the
proposal. -/
def checkPrepared (c : TaskCommitment) (p : EffectProposal) (d : AuthorizationDecision)
    (g : ExecutionGrant) (documents : EffectDocuments) :
    Except ExecutorError (Digest32 × Digest32) := do
  documents.validateLimits
  let grantHash ← fromProtocol (verifyGrant c p d g)
  let proposalHash ← fromProtocol (commitment p)
  verifyDocument "arguments" documents.arguments p.argumentsDigest
  verifyDocument "expected effect" documents.expectedEffect p.expectedEffectDigest
  verifyDocument "pre-state" documents.preState p.preStateDigest
  verifyDocument "resource claim" documents.resourceClaim p.resourceClaimDigest
  .ok (grantHash, proposalHash)

/-- A verified authorization chain with byte-exact document bindings. -/
structure PreparedEffect where
  commitment : TaskCommitment
  proposal : EffectProposal
  decision : AuthorizationDecision
  grant : ExecutionGrant
  documents : EffectDocuments
  grantHash : Digest32
  proposalHash : Digest32
  checked : checkPrepared commitment proposal decision grant documents =
    .ok (grantHash, proposalHash)
deriving DecidableEq

/-- The documents are the ones that the proposal commits to. -/
structure Documented (documents : EffectDocuments) (p : EffectProposal) : Prop where
  arguments : Digest32.fromPayload documents.arguments = p.argumentsDigest
  expectedEffect : Digest32.fromPayload documents.expectedEffect = p.expectedEffectDigest
  preState : Digest32.fromPayload documents.preState = p.preStateDigest
  resourceClaim : Digest32.fromPayload documents.resourceClaim = p.resourceClaimDigest

namespace PreparedEffect

def new (c : TaskCommitment) (p : EffectProposal) (d : AuthorizationDecision) (g : ExecutionGrant)
    (documents : EffectDocuments) : Except ExecutorError PreparedEffect :=
  match h : checkPrepared c p d g documents with
  | .error e => .error e
  | .ok (grantHash, proposalHash) => .ok {
      commitment := c
      proposal := p
      decision := d
      grant := g
      documents
      grantHash
      proposalHash
      checked := h }

theorem checkPrepared_eq_ok {c : TaskCommitment} {p : EffectProposal} {d : AuthorizationDecision}
    {g : ExecutionGrant} {documents : EffectDocuments} {grantHash proposalHash : Digest32} :
    checkPrepared c p d g documents = .ok (grantHash, proposalHash) ↔
      documents.validateLimits = .ok () ∧ GrantChain c p d g ∧ grantHash = recordHash g ∧
        proposalHash = recordHash p ∧ Documented documents p := by
  simp only [checkPrepared, bind_eq_ok, fromProtocol_eq_ok, verifyGrant_eq_ok, commitment_eq_ok,
    verifyDocument_eq_ok, Except.ok.injEq, Prod.mk.injEq, exists_const]
  constructor
  · rintro ⟨_, hlimits, _, ⟨hchain, rfl⟩, _, ⟨-, rfl⟩, h₁, h₂, h₃, h₄, rfl, rfl⟩
    exact ⟨hlimits, hchain, rfl, rfl, h₁, h₂, h₃, h₄⟩
  · rintro ⟨hlimits, hchain, rfl, rfl, h₁, h₂, h₃, h₄⟩
    exact ⟨(), hlimits, _, ⟨hchain, rfl⟩, _, ⟨hchain.proposal_valid, rfl⟩, h₁, h₂, h₃, h₄, rfl, rfl⟩

variable (prepared : PreparedEffect)

theorem chain : GrantChain prepared.commitment prepared.proposal prepared.decision prepared.grant :=
  (checkPrepared_eq_ok.mp prepared.checked).2.1

theorem grantHash_eq : prepared.grantHash = recordHash prepared.grant :=
  (checkPrepared_eq_ok.mp prepared.checked).2.2.1

theorem proposalHash_eq : prepared.proposalHash = recordHash prepared.proposal :=
  (checkPrepared_eq_ok.mp prepared.checked).2.2.2.1

theorem documented : Documented prepared.documents prepared.proposal :=
  (checkPrepared_eq_ok.mp prepared.checked).2.2.2.2

/-- The chain as the store registers it. -/
def registered : RegisteredChain where
  commitment := prepared.commitment
  proposal := prepared.proposal
  decision := prepared.decision
  grant := prepared.grant
  verified := prepared.chain

end PreparedEffect

/-! ## Authority evidence -/

/-- Audit data for the authority check that preceded the winning claim. -/
structure AuthorityEvidence where
  statementId : String
  issuer : String
  keyId : String
  role : String
  audience : String
  verifiedAtMs : Nat
  snapshotObservedAtMs : Nat
  verifyingKeyDigest : Digest32
deriving DecidableEq

omit [Sha256] in
/-- `From<VerifiedAuthority>` -/
def AuthorityEvidence.ofVerified (value : VerifiedAuthority) : AuthorityEvidence where
  statementId := value.statement.statementId
  issuer := value.statement.issuer
  keyId := value.statement.keyId
  role := value.statement.role
  audience := value.statement.audience
  verifiedAtMs := value.verifiedAtMs
  snapshotObservedAtMs := value.snapshotObservedAtMs
  verifyingKeyDigest := value.verifyingKeyDigest

def sameAuthorityIdentity (first second : AuthorityEvidence) : Prop :=
  first.statementId = second.statementId ∧ first.issuer = second.issuer ∧
    first.keyId = second.keyId ∧ first.role = second.role ∧ first.audience = second.audience ∧
    first.verifyingKeyDigest = second.verifyingKeyDigest

instance (first second : AuthorityEvidence) : Decidable (sameAuthorityIdentity first second) :=
  inferInstanceAs (Decidable (_ ∧ _))

/-! ## Tokens -/

/-- Opaque winning claim that does not expose target data. -/
structure ClaimedEffect where
  prepared : PreparedEffect
  claim : DurableClaim
  authority : AuthorityEvidence
  signedAuthority : List UInt8
deriving DecidableEq

/-- Single-use capability issued after the durable dispatch marker. -/
structure DispatchCapability where
  prepared : PreparedEffect
  claim : DurableClaim
  dispatchedAtMs : Nat
deriving DecidableEq

/-- Owned effect data passed once to a target adapter. -/
structure ExactEffect where
  effectProfile : String
  operation : String
  target : String
  documents : EffectDocuments
deriving DecidableEq

/-- Attempt data retained after the effect is passed to an adapter. -/
structure ReceiptHandle where
  proposalHash : Digest32
  grantHash : Digest32
  attemptId : String
  claimedAtMs : Nat
  dispatchedAtMs : Nat
deriving DecidableEq

/-- What `dispatch_with` passes to the adapter, and what it keeps. -/
def DispatchCapability.split (capability : DispatchCapability) : ExactEffect × ReceiptHandle :=
  ({ effectProfile := capability.prepared.proposal.effectProfile
     operation := capability.prepared.proposal.operation
     target := capability.prepared.proposal.target
     documents := capability.prepared.documents },
   { proposalHash := capability.prepared.proposalHash
     grantHash := capability.claim.grantHash
     attemptId := capability.claim.attemptId
     claimedAtMs := capability.claim.claimedAtMs
     dispatchedAtMs := capability.dispatchedAtMs })

/-! ## Evidence of an outcome -/

/-- Outcome after dispatch starts.  It cannot be `not_dispatched`. -/
inductive DispatchedOutcome where
  | succeeded
  | failed
  | unknown
deriving DecidableEq

/-- `From<DispatchedOutcome>` -/
def DispatchedOutcome.receiptOutcome : DispatchedOutcome → ReceiptOutcome
  | succeeded => .succeeded
  | failed => .failed
  | unknown => .unknown

structure NotDispatchedReceipt where
  receiptId : String
  completedAtMs : Nat
  observationDigest : Digest32
deriving DecidableEq

structure DispatchedReceipt where
  receiptId : String
  completedAtMs : Nat
  outcome : DispatchedOutcome
  observationDigest : Digest32
deriving DecidableEq

structure UnknownRecovery where
  receiptId : String
  proposalHash : Digest32
  grantHash : Digest32
  attemptId : String
  completedAtMs : Nat
  observationDigest : Digest32
deriving DecidableEq

structure NotDispatchedRecovery where
  receiptId : String
  proposalHash : Digest32
  grantHash : Digest32
  attemptId : String
  completedAtMs : Nat
  observationDigest : Digest32
deriving DecidableEq

end Sha256

end Etp.Executor
