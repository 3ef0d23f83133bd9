import Etp.Core.Ledger
import Etp.Lib.Machine

/-!
# The in-memory grant store

`MemoryGrantStore` with its index maps.  A `HashMap` is modelled by its lookup
function, since nothing iterates over one.  Each operation is the part of the
method that runs under the lock, as one step on the state; a poisoned lock is
left out, because no step panics.

`claim` writes the trusted time before its later checks, so it is the one
operation that changes the state when it fails.

`Invariant` is the representation invariant, `Invariant.change` its step lemma, and
`append_agrees` the comparison with the batch verifier in every reachable state.
-/

namespace Etp.Core

variable [Sha256]

structure GrantClaim where
  grantId : String
  grantHash : Digest32
  attemptId : String
  claimedAtMs : Nat
deriving DecidableEq

structure GrantClaimRequest where
  attemptId : String
  expectedAudience : String
  observedPolicyEpoch : Nat
  observedConfigurationEpoch : Nat
  observedPreStateDigest : Digest32
  observedResourceClaimDigest : Digest32
  revoked : Bool
deriving DecidableEq

def GrantClaimRequest.validate (request : GrantClaimRequest) : Except ProtocolError Unit := do
  validateIdentifier "attempt_id" request.attemptId
  validateTrimmedText "expected_audience" request.expectedAudience 512
  validateSafeInteger "observed_policy_epoch" request.observedPolicyEpoch
  validateSafeInteger "observed_configuration_epoch" request.observedConfigurationEpoch

structure StoredGrant where
  hash : Digest32
  commitment : TaskCommitment
  proposal : EffectProposal
  decision : AuthorizationDecision
  grant : ExecutionGrant
  claim : Option GrantClaim
  receipt : Option EffectReceipt
  reconciliations : List ReconciliationRecord
deriving DecidableEq

/-- `HashMap<K, V>`: what `get` returns for every key. -/
abbrev HashMap (κ ν : Type) := κ → Option ν

def HashMap.insert {κ ν : Type} [DecidableEq κ] (m : HashMap κ ν) (k : κ) (v : ν) : HashMap κ ν :=
  Function.update m k (some v)

structure MemoryGrantState where
  grants : HashMap String StoredGrant
  grantByHash : HashMap Digest32 String
  grantByProposal : HashMap Digest32 String
  grantByDecision : HashMap Digest32 String
  grantByReceipt : HashMap Digest32 String
  lastTrustedTimeMs : Option Nat

namespace MemoryGrantStore

/-- `MemoryGrantState::default()` -/
def empty : MemoryGrantState where
  grants _ := none
  grantByHash _ := none
  grantByProposal _ := none
  grantByDecision _ := none
  grantByReceipt _ := none
  lastTrustedTimeMs := none

/-- An operation that writes only after its last check. -/
def atomically {α : Type} (s : MemoryGrantState)
    (op : Except ProtocolError (α × MemoryGrantState)) :
    Except ProtocolError α × MemoryGrantState :=
  match op with
  | .ok (a, s') => (.ok a, s')
  | .error e => (.error e, s)

/-! ## Operations -/

def registerLocked (c : TaskCommitment) (p : EffectProposal) (d : AuthorizationDecision)
    (g : ExecutionGrant) (s : MemoryGrantState) :
    Except ProtocolError (Digest32 × MemoryGrantState) := do
  let verified ← verifyAuthorization c p d g
  rejectIf (s.grants g.grantId).isSome .duplicateGrant
  rejectIf (s.grantByDecision verified.decisionHash).isSome .decisionAlreadyGranted
  rejectIf (s.grantByProposal verified.proposalHash).isSome .proposalAlreadyGranted
  let stored : StoredGrant := {
    hash := verified.grantHash
    commitment := c
    proposal := p
    decision := d
    grant := g
    claim := none
    receipt := none
    reconciliations := [] }
  .ok (verified.grantHash, { s with
    grants := s.grants.insert g.grantId stored
    grantByHash := s.grantByHash.insert verified.grantHash g.grantId
    grantByDecision := s.grantByDecision.insert verified.decisionHash g.grantId
    grantByProposal := s.grantByProposal.insert verified.proposalHash g.grantId })

def register (c : TaskCommitment) (p : EffectProposal) (d : AuthorizationDecision)
    (g : ExecutionGrant) (s : MemoryGrantState) :
    Except ProtocolError Digest32 × MemoryGrantState :=
  atomically s (registerLocked c p d g s)

/-- The part of `claim` before the trusted time is written. -/
def claimPreamble (g : ExecutionGrant) (request : GrantClaimRequest) (now : Option Nat)
    (s : MemoryGrantState) : Except ProtocolError (Nat × Digest32) := do
  request.validate
  let nowMs ← okOr now .clockUnavailable
  validateSafeInteger "trusted now_ms" nowMs
  let suppliedHash ← commitment g
  rejectIf (∃ last ∈ s.lastTrustedTimeMs, nowMs < last) .clockRollback
  .ok (nowMs, suppliedHash)

/-- The part of `claim` after the trusted time is written. -/
def claimLocked (g : ExecutionGrant) (request : GrantClaimRequest) (nowMs : Nat)
    (suppliedHash : Digest32) (s : MemoryGrantState) :
    Except ProtocolError (GrantClaim × MemoryGrantState) := do
  let stored ← okOr (s.grants g.grantId) .unknownGrant
  rejectIf (stored.hash ≠ suppliedHash) (.chainMismatch "stored grant")
  let verified ← verifyAuthorization stored.commitment stored.proposal stored.decision stored.grant
  rejectIf (verified.grantHash ≠ stored.hash) (.chainMismatch "registered authorization")
  rejectIf (request.expectedAudience ≠ stored.grant.audience) .audienceMismatch
  rejectIf (request.observedPolicyEpoch ≠ stored.commitment.policyEpoch ∨
    request.observedConfigurationEpoch ≠ stored.commitment.configurationEpoch) .staleAuthority
  rejectIf (request.observedPreStateDigest ≠ stored.proposal.preStateDigest) .stalePreState
  rejectIf (request.observedResourceClaimDigest ≠ stored.proposal.resourceClaimDigest)
    .staleResourceClaim
  rejectIf request.revoked .grantRevoked
  rejectIf (nowMs < stored.grant.notBeforeMs) .grantNotYetValid
  rejectIf (nowMs ≥ stored.grant.expiresAtMs) .grantExpired
  rejectIf stored.claim.isSome .grantAlreadyClaimed
  let claim : GrantClaim := {
    grantId := g.grantId
    grantHash := stored.hash
    attemptId := request.attemptId
    claimedAtMs := nowMs }
  .ok (claim, { s with grants := s.grants.insert g.grantId { stored with claim := some claim } })

def claim (g : ExecutionGrant) (request : GrantClaimRequest) (now : Option Nat)
    (s : MemoryGrantState) : Except ProtocolError GrantClaim × MemoryGrantState :=
  match claimPreamble g request now s with
  | .error e => (.error e, s)
  | .ok (nowMs, suppliedHash) =>
      let s := { s with lastTrustedTimeMs := some nowMs }
      atomically s (claimLocked g request nowMs suppliedHash s)

def recordReceiptLocked (r : EffectReceipt) (s : MemoryGrantState) :
    Except ProtocolError (Digest32 × MemoryGrantState) := do
  validate r
  let grantId ← okOr (s.grantByHash r.grantHash) .unknownGrant
  let stored ← okOr (s.grants grantId) .unknownGrant
  let claim ← okOr stored.claim .receiptWithoutClaim
  rejectIf (r.attemptId ≠ claim.attemptId ∨ r.claimedAtMs ≠ claim.claimedAtMs)
    .receiptClaimMismatch
  let verified ← verifyChain stored.commitment stored.proposal stored.decision stored.grant r
  match stored.receipt with
  | some existing => do
      let existingHash ← commitment existing
      rejectIf (existingHash ≠ verified.receiptHash) .receiptAlreadyRecorded
      .ok (verified.receiptHash, s)
  | none =>
      .ok (verified.receiptHash, { s with
        grants := s.grants.insert grantId { stored with receipt := some r }
        grantByReceipt := s.grantByReceipt.insert verified.receiptHash grantId })

def recordReceipt (r : EffectReceipt) (s : MemoryGrantState) :
    Except ProtocolError Digest32 × MemoryGrantState := atomically s (recordReceiptLocked r s)

/-- The branch for a position that is already taken. -/
def replayReconciliation (stored : StoredGrant) (r : ReconciliationRecord) :
    Except ProtocolError Digest32 := do
  let existing ← okOr stored.reconciliations[r.sequence - 1]? .invalidSequence
  let existingHash ← commitment existing
  let recordHash ← commitment r
  rejectIf (existingHash ≠ recordHash) .reconciliationFork
  .ok existingHash

/-- The checks for a position past the end. -/
def extendReconciliation (stored : StoredGrant) (receipt : EffectReceipt)
    (r : ReconciliationRecord) : Except ProtocolError Digest32 := do
  rejectIf (stored.reconciliations.length ≥ maxReconciliationRecords)
    (.resourceLimit "reconciliation records")
  rejectIf (r.reconciliationId ∈ stored.reconciliations.map ReconciliationRecord.reconciliationId)
    (.duplicateIdentifier "reconciliation_id")
  verifyReconciliation receipt stored.reconciliations.getLast? r

def appendReconciliationLocked (r : ReconciliationRecord) (s : MemoryGrantState) :
    Except ProtocolError (Digest32 × MemoryGrantState) := do
  validate r
  let grantId ← okOr (s.grantByReceipt r.receiptHash) .unknownReceipt
  let stored ← okOr (s.grants grantId) .unknownGrant
  let receipt ← okOr stored.receipt .unknownReceipt
  if r.sequence ≤ stored.reconciliations.length then do
    let existingHash ← replayReconciliation stored r
    .ok (existingHash, s)
  else do
    let hash ← extendReconciliation stored receipt r
    .ok (hash, { s with
      grants := s.grants.insert grantId
        { stored with reconciliations := stored.reconciliations ++ [r] } })

def appendReconciliation (r : ReconciliationRecord) (s : MemoryGrantState) :
    Except ProtocolError Digest32 × MemoryGrantState :=
  atomically s (appendReconciliationLocked r s)

/-! ## Runs -/

inductive Call where
  | register (c : TaskCommitment) (p : EffectProposal) (d : AuthorizationDecision)
      (g : ExecutionGrant)
  | claim (g : ExecutionGrant) (request : GrantClaimRequest) (now : Option Nat)
  | recordReceipt (r : EffectReceipt)
  | appendReconciliation (r : ReconciliationRecord)

def step (s : MemoryGrantState) : Call → MemoryGrantState
  | .register c p d g => (register c p d g s).2
  | .claim g request now => (claim g request now s).2
  | .recordReceipt r => (recordReceipt r s).2
  | .appendReconciliation r => (appendReconciliation r s).2

/-- The preimages of the records a call presents. -/
def Call.preimages : Call → Set (List UInt8)
  | .register c p d g => {preimage c, preimage p, preimage d, preimage g}
  | .claim g _ _ => {preimage g}
  | .recordReceipt r => {preimage r}
  | .appendReconciliation r => {preimage r}

/-- The preimages of all records that a run presents. -/
def presented (calls : List Call) : Set (List UInt8) := {x | ∃ call ∈ calls, x ∈ call.preimages}

def run (calls : List Call) : MemoryGrantState := Machine.run step empty calls

/-! ## The ledger of a state -/

def bundle (stored : StoredGrant) : TransactionBundle where
  commitment := stored.commitment
  proposal := stored.proposal
  decision := stored.decision
  grant := some stored.grant
  receipt := stored.receipt
  reconciliations := stored.reconciliations

def ledger (s : MemoryGrantState) : Ledger := fun id ↦ (s.grants id).map bundle

/-! ## What a step can do -/

omit [Sha256] in
theorem atomically_snd {α : Type} {s : MemoryGrantState}
    (op : Except ProtocolError (α × MemoryGrantState)) :
    (atomically s op).2 = s ∨ ∃ a s', op = .ok (a, s') ∧ (atomically s op).2 = s' := by
  cases op with
  | error e => exact .inl rfl
  | ok p => exact .inr ⟨p.1, p.2, rfl, rfl⟩

/-- The entry a registration makes. -/
def newGrant (c : TaskCommitment) (p : EffectProposal) (d : AuthorizationDecision)
    (g : ExecutionGrant) : StoredGrant where
  hash := recordHash g
  commitment := c
  proposal := p
  decision := d
  grant := g
  claim := none
  receipt := none
  reconciliations := []

/-- The state after a registration. -/
def registered (c : TaskCommitment) (p : EffectProposal) (d : AuthorizationDecision)
    (g : ExecutionGrant) (s : MemoryGrantState) : MemoryGrantState :=
  { s with
    grants := s.grants.insert g.grantId (newGrant c p d g)
    grantByHash := s.grantByHash.insert (recordHash g) g.grantId
    grantByDecision := s.grantByDecision.insert (recordHash d) g.grantId
    grantByProposal := s.grantByProposal.insert (recordHash p) g.grantId }

/-- Everything a call can do to the state, with the checks that let it. -/
inductive Change (s : MemoryGrantState) : Call → MemoryGrantState → Prop
  | time {call : Call} (t : Option Nat) : Change s call { s with lastTrustedTimeMs := t }
  | registered {c p d g} (hchain : GrantChain c p d g) (hnew : s.grants g.grantId = none)
      (hdecision : s.grantByDecision (recordHash d) = none)
      (hproposal : s.grantByProposal (recordHash p) = none) :
      Change s (.register c p d g) (registered c p d g s)
  | claimed {g request now} {stored : StoredGrant} (claim : GrantClaim) (t : Option Nat)
      (hstored : s.grants g.grantId = some stored) (hnone : stored.claim = none) :
      Change s (.claim g request now)
        { s with
          grants := s.grants.insert g.grantId { stored with claim := some claim }
          lastTrustedTimeMs := t }
  | received {r : EffectReceipt} {id : String} {stored : StoredGrant}
      (hid : s.grantByHash r.grantHash = some id) (hstored : s.grants id = some stored)
      (hclaim : ∃ claim ∈ stored.claim, r.attemptId = claim.attemptId ∧
        r.claimedAtMs = claim.claimedAtMs)
      (hnone : stored.receipt = none) (hfor : ReceiptFor stored.proposal stored.grant r) :
      Change s (.recordReceipt r)
        { s with
          grants := s.grants.insert id { stored with receipt := some r }
          grantByReceipt := s.grantByReceipt.insert (recordHash r) id }
  | appended {r : ReconciliationRecord} {id : String} {stored : StoredGrant}
      {receipt : EffectReceipt} {hash : Digest32} (hstored : s.grants id = some stored)
      (hreceipt : stored.receipt = some receipt)
      (hlen : stored.reconciliations.length < maxReconciliationRecords)
      (hid : r.reconciliationId ∉
        stored.reconciliations.map ReconciliationRecord.reconciliationId)
      (hverify : verifyReconciliation receipt stored.reconciliations.getLast? r = .ok hash) :
      Change s (.appendReconciliation r)
        { s with
          grants := s.grants.insert id
            { stored with reconciliations := stored.reconciliations ++ [r] } }

theorem registerLocked_eq_ok {c p d g} {s s' : MemoryGrantState} {h : Digest32} :
    registerLocked c p d g s = .ok (h, s') ↔
      GrantChain c p d g ∧ s.grants g.grantId = none ∧ s.grantByDecision (recordHash d) = none ∧
        s.grantByProposal (recordHash p) = none ∧ h = recordHash g ∧ s' = registered c p d g s := by
  simp only [registerLocked, bind_eq_ok, verifyAuthorization_eq_ok, rejectIf_eq_ok,
    Except.ok.injEq, Prod.mk.injEq, exists_const, Bool.not_eq_true, Option.isSome_eq_false_iff,
    Option.isNone_iff_eq_none]
  constructor
  · rintro ⟨_, ⟨hc, rfl⟩, h₁, h₂, h₃, rfl, rfl⟩
    exact ⟨hc, h₁, h₂, h₃, rfl, rfl⟩
  · rintro ⟨hc, h₁, h₂, h₃, rfl, rfl⟩
    exact ⟨_, ⟨hc, rfl⟩, h₁, h₂, h₃, rfl, rfl⟩

theorem change_of_step (s : MemoryGrantState) (call : Call) : Change s call (step s call) := by
  have same : ∀ {call}, Change s call s := .time s.lastTrustedTimeMs
  cases call with
  | register c p d g =>
      simp only [step, register]
      rcases atomically_snd (registerLocked c p d g s) with h | ⟨_, s', hop, h⟩
      · rw [h]; exact same
      · obtain ⟨hc, hnew, hdecision, hproposal, -, rfl⟩ := registerLocked_eq_ok.mp hop
        rw [h]
        exact .registered hc hnew hdecision hproposal
  | claim g request now =>
      simp only [step, claim]
      split
      · exact same
      · rename_i nowMs suppliedHash _
        rcases atomically_snd (claimLocked g request nowMs suppliedHash
          { s with lastTrustedTimeMs := some nowMs }) with h | ⟨cl, s', hop, h⟩
        · rw [h]; exact .time _
        · rw [h]
          simp only [claimLocked, bind_eq_ok, okOr_eq_ok, Except.ok.injEq, Prod.mk.injEq] at hop
          obtain ⟨stored, hst, _, -, _, -, _, -, _, -, _, -, _, -, _, -, _, -, _, -, _, -, _, hfree,
            -, rfl⟩ := hop
          rw [rejectIf_eq_ok, Bool.not_eq_true, Option.isSome_eq_false_iff,
            Option.isNone_iff_eq_none] at hfree
          exact .claimed _ _ hst hfree
  | recordReceipt r =>
      simp only [step, recordReceipt]
      rcases atomically_snd (recordReceiptLocked r s) with h | ⟨_, s', hop, h⟩
      · rw [h]; exact same
      · rw [h]
        simp only [recordReceiptLocked, bind_eq_ok, okOr_eq_ok, verifyChain_eq_ok] at hop
        obtain ⟨_, -, id, hid, stored, hst, claim, hclaim, _, hmatch, _, ⟨⟨-, hfor⟩, rfl⟩, hop⟩ :=
          hop
        rw [rejectIf_eq_ok, not_or, not_not, not_not] at hmatch
        cases hrc : stored.receipt with
        | none =>
            simp only [hrc, Except.ok.injEq, Prod.mk.injEq] at hop
            obtain ⟨-, rfl⟩ := hop
            exact .received hid hst ⟨claim, hclaim, hmatch⟩ hrc hfor
        | some existing =>
            simp only [hrc, bind_eq_ok, Except.ok.injEq, Prod.mk.injEq] at hop
            obtain ⟨_, -, _, -, -, rfl⟩ := hop
            exact same
  | appendReconciliation r =>
      simp only [step, appendReconciliation]
      rcases atomically_snd (appendReconciliationLocked r s) with h | ⟨_, s', hop, h⟩
      · rw [h]; exact same
      · rw [h]
        simp only [appendReconciliationLocked, bind_eq_ok, okOr_eq_ok] at hop
        obtain ⟨_, -, id, hid, stored, hst, receipt, hrc, hop⟩ := hop
        split_ifs at hop with hseq
        · simp only [bind_eq_ok, Except.ok.injEq, Prod.mk.injEq] at hop
          obtain ⟨_, -, -, rfl⟩ := hop
          exact same
        · simp only [extendReconciliation, bind_eq_ok, rejectIf_eq_ok, Except.ok.injEq,
            Prod.mk.injEq, exists_const, not_le] at hop
          obtain ⟨hash, ⟨hlen, hdup, hv⟩, -, rfl⟩ := hop
          exact .appended hst hrc hlen hdup hv

/-! ## The representation invariant -/

/-- A stored grant is an accepted bundle, and the indices find it. -/
structure StoredWell (S : Set (List UInt8)) (s : MemoryGrantState) (id : String)
    (stored : StoredGrant) : Prop where
  id_eq : stored.grant.grantId = id
  hash_eq : stored.hash = recordHash stored.grant
  accepted : AcceptedBundle (bundle stored)
  known : (bundle stored).preimages ⊆ S
  by_hash : s.grantByHash (recordHash stored.grant) = some id
  by_receipt : ∀ r ∈ stored.receipt, s.grantByReceipt (recordHash r) = some id

structure Invariant (S : Set (List UInt8)) (s : MemoryGrantState) : Prop where
  stored : ∀ id stored, s.grants id = some stored → StoredWell S s id stored
  hash_index : ∀ h id, s.grantByHash h = some id →
    ∃ stored, s.grants id = some stored ∧ recordHash stored.grant = h
  receipt_index : ∀ h id, s.grantByReceipt h = some id →
    ∃ stored, s.grants id = some stored ∧ ∃ r ∈ stored.receipt, recordHash r = h

omit [Sha256] in
theorem insert_eq_some {κ ν : Type} [DecidableEq κ] {m : HashMap κ ν} {k j : κ} {v w : ν} :
    m.insert k v j = some w ↔ (j = k ∧ v = w) ∨ (j ≠ k ∧ m j = some w) := by
  by_cases h : j = k
  · subst h
    simp [HashMap.insert]
  · simp [HashMap.insert, h]

theorem Invariant.empty (S : Set (List UInt8)) : Invariant S empty :=
  ⟨by simp [MemoryGrantStore.empty], by simp [MemoryGrantStore.empty],
    by simp [MemoryGrantStore.empty]⟩

/-- Replacing a stored grant by one with the same chain keeps the indices right. -/
theorem Invariant.replace {S : Set (List UInt8)} {s s' : MemoryGrantState}
    (h : Invariant S s) {id : String} {old new : StoredGrant} (hold : s.grants id = some old)
    (hgrants : s'.grants = s.grants.insert id new) (hhash : s'.grantByHash = s.grantByHash)
    (hwell : StoredWell S s' id new) (hgrant : new.grant = old.grant)
    (hmono : ∀ r ∈ old.receipt, r ∈ new.receipt)
    (hindex : ∀ k j, s'.grantByReceipt k = some j →
      (j = id ∧ ∃ r ∈ new.receipt, recordHash r = k) ∨ s.grantByReceipt k = some j)
    (hkeep : ∀ k j, s.grantByReceipt k = some j → s'.grantByReceipt k = some j) :
    Invariant S s' where
  stored j st hst := by
    rw [hgrants, insert_eq_some] at hst
    rcases hst with ⟨rfl, rfl⟩ | ⟨-, hst⟩
    · exact hwell
    · have hw := h.stored j st hst
      exact { hw with
        by_hash := by rw [hhash]; exact hw.by_hash
        by_receipt := fun r hr ↦ hkeep _ _ (hw.by_receipt r hr) }
  hash_index k j hk := by
    rw [hhash] at hk
    obtain ⟨st, hst, heq⟩ := h.hash_index k j hk
    by_cases hj : j = id
    · subst hj
      rw [hold] at hst
      cases hst
      exact ⟨new, by rw [hgrants, insert_eq_some]; exact .inl ⟨rfl, rfl⟩, by rw [hgrant, heq]⟩
    · exact ⟨st, by rw [hgrants, insert_eq_some]; exact .inr ⟨hj, hst⟩, heq⟩
  receipt_index k j hk := by
    rcases hindex k j hk with ⟨rfl, hr⟩ | hk
    · exact ⟨new, by rw [hgrants, insert_eq_some]; exact .inl ⟨rfl, rfl⟩, hr⟩
    · obtain ⟨st, hst, r, hr, heq⟩ := h.receipt_index k j hk
      by_cases hj : j = id
      · subst hj
        rw [hold] at hst
        cases hst
        exact ⟨new, by rw [hgrants, insert_eq_some]; exact .inl ⟨rfl, rfl⟩, r, hmono r hr, heq⟩
      · exact ⟨st, by rw [hgrants, insert_eq_some]; exact .inr ⟨hj, hst⟩, r, hr, heq⟩

/-- Storing a grant under a new identifier and a new hash keeps the indices right. -/
theorem Invariant.insertNew {S : Set (List UInt8)} {s s' : MemoryGrantState} (h : Invariant S s)
    {id : String} (new : StoredGrant)
    (hne : ∀ {j st}, s.grants j = some st → recordHash new.grant ≠ recordHash st.grant)
    (hnew : s.grants id = none) (hgrants : s'.grants = s.grants.insert id new)
    (hhash : s'.grantByHash = s.grantByHash.insert (recordHash new.grant) id)
    (hreceipt : s'.grantByReceipt = s.grantByReceipt) (hwell : StoredWell S s' id new) :
    Invariant S s' where
  stored j st hst := by
    rw [hgrants, insert_eq_some] at hst
    rcases hst with ⟨rfl, rfl⟩ | ⟨-, hst⟩
    · exact hwell
    · have hw := h.stored j st hst
      exact { hw with
        by_hash := by
          rw [hhash, insert_eq_some]
          exact .inr ⟨fun heq ↦ hne hst heq.symm, hw.by_hash⟩
        by_receipt := by rw [hreceipt]; exact hw.by_receipt }
  hash_index k j hk := by
    rw [hhash, insert_eq_some] at hk
    rcases hk with ⟨rfl, rfl⟩ | ⟨-, hk⟩
    · exact ⟨new, by rw [hgrants, insert_eq_some]; exact .inl ⟨rfl, rfl⟩, rfl⟩
    · obtain ⟨st, hst, heq⟩ := h.hash_index k j hk
      have hj : j ≠ id := by rintro rfl; rw [hnew] at hst; cases hst
      exact ⟨st, by rw [hgrants, insert_eq_some]; exact .inr ⟨hj, hst⟩, heq⟩
  receipt_index k j hk := by
    rw [hreceipt] at hk
    obtain ⟨st, hst, hr⟩ := h.receipt_index k j hk
    have hj : j ≠ id := by rintro rfl; rw [hnew] at hst; cases hst
    exact ⟨st, by rw [hgrants, insert_eq_some]; exact .inr ⟨hj, hst⟩, hr⟩

section Step

variable {S : Set (List UInt8)} {s s' : MemoryGrantState} {call : Call}

/-- A new grant does not share its hash with a stored one. -/
theorem Invariant.recordHash_ne (hS : CollisionFree S) (h : Invariant S s) {g : ExecutionGrant}
    (hg : preimage g ∈ S) (hv : validate g = .ok ()) (hnew : s.grants g.grantId = none)
    {id : String} {stored : StoredGrant} (hst : s.grants id = some stored) :
    recordHash g ≠ recordHash stored.grant := fun heq ↦ by
  have hw := h.stored id stored hst
  have : g = stored.grant := eq_of_recordHash_eq hS hg (hw.known (.inl (.inl (.inr ⟨_, rfl, rfl⟩))))
    hv (hw.accepted.grant _ rfl).grant_valid heq
  rw [this, hw.id_eq, hst] at hnew
  cases hnew

/-- A receipt that is not stored does not share its hash with a stored one. -/
theorem Invariant.receiptHash_ne (hS : CollisionFree S) (h : Invariant S s) {r : EffectReceipt}
    (hr : preimage r ∈ S) (hv : validate r = .ok ()) {id : String} {stored : StoredGrant}
    (hid : s.grantByHash r.grantHash = some id) (hst : s.grants id = some stored)
    (hnone : stored.receipt = none) {j : String} {other : StoredGrant}
    (hother : s.grants j = some other) : ∀ r' ∈ other.receipt, recordHash r ≠ recordHash r' := by
  intro r' hr' heq
  have hw := h.stored j other hother
  have hfor := hw.accepted.receiptFor (g := other.grant) rfl hr'
  have : r = r' := eq_of_recordHash_eq hS hr (hw.known (.inl (.inr ⟨r', hr', rfl⟩))) hv
    hfor.receipt_valid heq
  subst this
  rw [hfor.receipt_grant_hash, hw.by_hash] at hid
  cases hid
  rw [hother] at hst
  cases hst
  rw [hnone] at hr'
  cases hr'

theorem Invariant.change (hS : CollisionFree S) (hsub : call.preimages ⊆ S) (h : Invariant S s)
    (hc : Change s call s') : Invariant S s' := by
  cases hc with
  | time t =>
      exact ⟨fun id st hst ↦ { h.stored id st hst with }, h.hash_index, h.receipt_index⟩
  | registered hchain hnew hdecision hproposal =>
      rename_i c p d g
      have hsub' : ({preimage c, preimage p, preimage d, preimage g} : Set (List UInt8)) ⊆ S := hsub
      have hgS : preimage g ∈ S := hsub' (by simp)
      have hself : (MemoryGrantStore.registered c p d g s).grantByHash (recordHash g) =
          some g.grantId := by simp [MemoryGrantStore.registered, HashMap.insert]
      refine h.insertNew (newGrant c p d g)
        (fun hst ↦ h.recordHash_ne hS hgS hchain.grant_valid hnew hst) hnew rfl rfl
        rfl ⟨rfl, rfl, ?_, ?_, hself, by simp [newGrant]⟩
      · refine ⟨Nat.zero_le _, hchain.toDecisionChain, ?_, ?_, fun hne ↦ absurd rfl hne⟩
        · rintro _ ⟨⟩
          exact hchain
        · rintro _ ⟨⟩
      · intro x hx
        have hc : preimage c ∈ S := hsub' (by simp)
        have hp : preimage p ∈ S := hsub' (by simp)
        have hd : preimage d ∈ S := hsub' (by simp)
        rcases TransactionBundle.mem_preimages.mp hx with
          rfl | rfl | rfl | ⟨_, ⟨⟩, rfl⟩ | ⟨_, ⟨⟩, _⟩ | ⟨_, hm, _⟩
        · exact hc
        · exact hp
        · exact hd
        · exact hgS
        · exact absurd hm List.not_mem_nil
  | claimed claim t hst hfree =>
      have hw := h.stored _ _ hst
      exact h.replace hst rfl rfl { hw with } rfl (fun _ hr ↦ hr) (fun _ _ hk ↦ .inr hk)
        fun _ _ hk ↦ hk
  | received hid hst hclaim hnone hfor =>
      rename_i r id stored
      have hr : preimage r ∈ S := hsub rfl
      have hw := h.stored _ _ hst
      have hne : ∀ {j other}, s.grants j = some other →
          ∀ r' ∈ other.receipt, recordHash r ≠ recordHash r' :=
        h.receiptHash_ne hS hr hfor.receipt_valid hid hst hnone
      have hbundle : AcceptedBundle (bundle { stored with receipt := some r }) :=
        ⟨hw.accepted.limit, hw.accepted.decision, hw.accepted.grant,
          by rintro _ ⟨⟩; exact ⟨_, rfl, hfor⟩, fun hrecs ↦ by
            obtain ⟨_, hr', -⟩ := hw.accepted.history hrecs
            rw [bundle, hnone] at hr'
            cases hr'⟩
      refine h.replace hst rfl rfl ⟨hw.id_eq, hw.hash_eq, hbundle, ?_, hw.by_hash, ?_⟩ rfl ?_ ?_ ?_
      · intro x hx
        rcases TransactionBundle.mem_preimages.mp hx with hx | hx | hx | hx | ⟨_, ⟨⟩, rfl⟩ | hx
        · exact hw.known (TransactionBundle.mem_preimages.mpr (.inl hx))
        · exact hw.known (TransactionBundle.mem_preimages.mpr (.inr (.inl hx)))
        · exact hw.known (TransactionBundle.mem_preimages.mpr (.inr (.inr (.inl hx))))
        · exact hw.known (TransactionBundle.mem_preimages.mpr (.inr (.inr (.inr (.inl hx)))))
        · exact hr
        · exact hw.known (TransactionBundle.mem_preimages.mpr (.inr (.inr (.inr (.inr (.inr hx))))))
      · rintro _ ⟨⟩
        exact insert_eq_some.mpr (.inl ⟨rfl, rfl⟩)
      · intro r' hr'
        rw [hnone] at hr'
        cases hr'
      · intro k j hk
        rcases insert_eq_some.mp hk with ⟨rfl, rfl⟩ | ⟨-, hk⟩
        · exact .inl ⟨rfl, r, rfl, rfl⟩
        · exact .inr hk
      · intro k j hk
        refine insert_eq_some.mpr (.inr ⟨?_, hk⟩)
        rintro rfl
        obtain ⟨other, hother, r', hr', heq⟩ := h.receipt_index _ j hk
        exact hne hother r' hr' heq.symm
  | appended hst hreceipt hlen hdup hverify =>
      rename_i r id stored receipt hash
      have hr : preimage r ∈ S := hsub rfl
      have hw := h.stored _ _ hst
      have hh := hw.accepted.history_of_receipt (r := receipt) hreceipt
      have hprev : ∀ q ∈ stored.reconciliations.getLast?, ReconciliationFor receipt q :=
        fun q hq ↦ hh.each q (List.mem_of_getLast? hq)
      obtain ⟨⟨-, hfor, hlink⟩, -⟩ := (verifyReconciliation_eq_ok hprev).mp hverify
      have hbundle : AcceptedBundle ((bundle stored).extend r) :=
        (accepted_extend_iff hw.accepted).mpr ⟨hlen, ⟨receipt, hreceipt, hfor⟩, hlink, hdup⟩
      refine h.replace hst rfl rfl ⟨hw.id_eq, hw.hash_eq, hbundle, ?_, hw.by_hash, hw.by_receipt⟩
        rfl (fun _ hr ↦ hr) (fun _ _ hk ↦ .inr hk) fun _ _ hk ↦ hk
      rintro x (hx | ⟨y, hy, rfl⟩)
      · exact hw.known (.inl hx)
      · rcases List.mem_append.mp hy with hy | hy
        · exact hw.known (.inr ⟨y, hy, rfl⟩)
        · rw [List.mem_singleton.mp hy]
          exact hr

end Step

/-- The invariant holds in every state a run reaches. -/
theorem invariant_run {S : Set (List UInt8)} (hS : CollisionFree S) (calls : List Call)
    (hsub : presented calls ⊆ S) : Invariant S (run calls) := by
  induction calls using List.reverseRecOn with
  | nil => exact .empty S
  | append_singleton calls call ih =>
      have hcalls : Invariant S (run calls) := ih fun x ⟨c, hc, hx⟩ ↦ hsub ⟨c, by simp [hc], hx⟩
      rw [run, Machine.run_concat]
      exact hcalls.change hS (fun x hx ↦ hsub ⟨call, by simp, hx⟩) (change_of_step _ _)

/-! ## Agreement with the batch verifier -/

section Agreement

variable {S : Set (List UInt8)} {s : MemoryGrantState}

omit [Sha256] in
theorem ledger_eq_some {id : String} {b : TransactionBundle} :
    ledger s id = some b ↔ ∃ stored, s.grants id = some stored ∧ bundle stored = b :=
  Option.map_eq_some_iff

theorem Invariant.sound (h : Invariant S s) : (ledger s).Sound := fun id b hb ↦ by
  obtain ⟨stored, hst, rfl⟩ := ledger_eq_some.mp hb
  exact verifies_iff.mpr (h.stored id stored hst).accepted

theorem Invariant.uniqueReceipts (h : Invariant S s) : (ledger s).UniqueReceipts := by
  intro id b r id' b' r' hb hr hb' hr' heq
  obtain ⟨stored, hst, rfl⟩ := ledger_eq_some.mp hb
  obtain ⟨stored', hst', rfl⟩ := ledger_eq_some.mp hb'
  have h₁ := (h.stored id stored hst).by_receipt r hr
  have h₂ := (h.stored id' stored' hst').by_receipt r' hr'
  rw [heq, h₂] at h₁
  exact (Option.some.inj h₁).symm

/-- What the error paths of `append_reconciliation` have in common. -/
theorem appendCourse_of_error {r : ReconciliationRecord} {e : ProtocolError} (h : Invariant S s)
    (hop : appendReconciliationLocked r s = .error e)
    (hno : ∀ id stored, s.grants id = some stored →
      (∃ receipt ∈ stored.receipt, ReconciliationFor receipt r) →
        ¬AcceptedBundle ((bundle stored).extend r) ∧ ¬(bundle stored).HasAt r) :
    AppendCourse ledger (fun _ _ _ ↦ True) s r (appendReconciliation r s).1
      (appendReconciliation r s).2 := by
  refine .rejected (e := e) ?_ ?_ (by rw [appendReconciliation, hop, atomically])
    (by rw [appendReconciliation, hop, atomically])
  · intro id b hb hx
    obtain ⟨stored, hst, rfl⟩ := ledger_eq_some.mp hb
    have hw := h.stored id stored hst
    exact absurd hx (hno id stored hst ((accepted_extend_iff hw.accepted).mp hx).2.1).1
  · intro id b hb hat
    obtain ⟨stored, hst, rfl⟩ := ledger_eq_some.mp hb
    have hw := h.stored id stored hst
    exact (hno id stored hst (hw.accepted.exists_receipt hat.mem)).2 hat

theorem append_course (hS : CollisionFree S) (h : Invariant S s) {r : ReconciliationRecord}
    (hr : preimage r ∈ S) :
    AppendCourse ledger (fun _ _ _ ↦ True) s r (appendReconciliation r s).1
      (appendReconciliation r s).2 := by
  cases hv : validate r with
  | error e =>
      refine appendCourse_of_error (e := e) h (by rw [appendReconciliationLocked, hv]; rfl) ?_
      rintro _ _ _ ⟨_, _, hfor⟩
      have := hfor.record_valid
      rw [hv] at this
      cases this
  | ok _ =>
  cases hid : s.grantByReceipt r.receiptHash with
  | none =>
      refine appendCourse_of_error (e := .unknownReceipt) h
        (by rw [appendReconciliationLocked, hv, hid]; rfl) ?_
      rintro id stored hst ⟨receipt, hrc, hfor⟩
      have := (h.stored id stored hst).by_receipt receipt hrc
      rw [← hfor.receipt_hash, hid] at this
      cases this
  | some id =>
  obtain ⟨stored, hst, receipt, hrc, hhash⟩ := h.receipt_index _ _ hid
  have hw := h.stored id stored hst
  have hh := hw.accepted.history_of_receipt (r := receipt) hrc
  have hview : ledger s id = some (bundle stored) := ledger_eq_some.mpr ⟨stored, hst, rfl⟩
  have only : ∀ {id' stored'}, s.grants id' = some stored' →
      (∃ receipt ∈ stored'.receipt, ReconciliationFor receipt r) → stored' = stored := by
    rintro id' stored' hst' ⟨receipt', hrc', hfor⟩
    have := (h.stored id' stored' hst').by_receipt receipt' hrc'
    rw [← hfor.receipt_hash, hid] at this
    obtain rfl := Option.some.inj this
    rw [hst] at hst'
    exact (Option.some.inj hst').symm
  have hop : appendReconciliationLocked r s =
      if r.sequence ≤ stored.reconciliations.length then
        (replayReconciliation stored r).map fun h ↦ (h, s)
      else (extendReconciliation stored receipt r).map fun h ↦ (h, { s with
        grants := s.grants.insert id
          { stored with reconciliations := stored.reconciliations ++ [r] } }) := by
    rw [appendReconciliationLocked, hv, hid]
    simp only [okOr_some, hst, Option.mem_def.mp hrc, bind, Except.bind, Except.map]
  have hpos := (ReconciliationRecord.validate_eq_ok.mp hv).2.2.2.1.1
  by_cases hseq : r.sequence ≤ stored.reconciliations.length
  · -- The position is taken: the record is the one stored there, or it forks.
    rw [if_pos hseq] at hop
    have hlt : r.sequence - 1 < stored.reconciliations.length := by omega
    obtain ⟨x, hx⟩ : ∃ x, stored.reconciliations[r.sequence - 1]? = some x :=
      ⟨_, List.getElem?_eq_getElem hlt⟩
    have hxmem : x ∈ stored.reconciliations := List.mem_of_getElem? hx
    have hxv := (hh.each x hxmem).record_valid
    have hreplay : replayReconciliation stored r =
        (rejectIf (recordHash x ≠ recordHash r) .reconciliationFork).map fun _ ↦ recordHash x := by
      simp only [replayReconciliation, hx, okOr_some, ok_bind, commitment_of_valid hxv,
        commitment_of_valid hv]
      rfl
    by_cases heq : recordHash x = recordHash r
    · have hxr : x = r := eq_of_recordHash_eq hS (hw.known (.inr ⟨x, hxmem, rfl⟩)) hr hxv hv heq
      rw [hreplay, rejectIf_false (not_not.mpr heq), heq] at hop
      exact .replayed hview ⟨hpos, by rw [hxr] at hx; exact hx⟩
        (by rw [appendReconciliation, hop]; rfl) (by rw [appendReconciliation, hop]; rfl)
    · rw [hreplay, rejectIf_true heq] at hop
      refine appendCourse_of_error h hop fun id' stored' hst' hfor ↦ ?_
      obtain rfl := only hst' hfor
      refine ⟨fun hext ↦ ?_, fun hat ↦ ?_⟩
      · have hs := sequence_of_extend hext
        simp only [bundle] at hs
        omega
      · have := hat.2
        simp only [bundle, hx, Option.some.injEq] at this
        exact heq (by rw [this])
  · rw [if_neg hseq] at hop
    have hprev : ∀ q ∈ stored.reconciliations.getLast?, ReconciliationFor receipt q :=
      fun q hq ↦ hh.each q (List.mem_of_getLast? hq)
    have hextend : ∀ hash, extendReconciliation stored receipt r = .ok hash ↔
        AcceptedBundle ((bundle stored).extend r) ∧ hash = recordHash r := by
      intro hash
      simp only [extendReconciliation, bind_eq_ok, rejectIf_eq_ok, exists_const, not_le,
        verifyReconciliation_eq_ok hprev, accepted_extend_iff hw.accepted]
      constructor
      · rintro ⟨hlen, hdup, ⟨-, hfor, hlink⟩, rfl⟩
        exact ⟨⟨hlen, ⟨receipt, hrc, hfor⟩, hlink, hdup⟩, rfl⟩
      · rintro ⟨⟨hlen, ⟨receipt', hrc', hfor⟩, hlink, hdup⟩, rfl⟩
        obtain rfl := Option.mem_unique hrc hrc'
        exact ⟨hlen, hdup, ⟨(hw.accepted.receiptFor rfl hrc).receipt_valid, hfor, hlink⟩, rfl⟩
    cases hres : extendReconciliation stored receipt r with
    | ok hash =>
        obtain ⟨hext, rfl⟩ := (hextend hash).mp hres
        rw [hres] at hop
        refine .added hview hext trivial (by rw [appendReconciliation, hop]; rfl) ?_
        rw [appendReconciliation, hop]
        funext j
        by_cases hj : j = id
        · subst hj
          simp [atomically, Except.map, ledger, Ledger.append, HashMap.insert, hst, bundle,
            TransactionBundle.extend]
        · simp [atomically, Except.map, ledger, Ledger.append, HashMap.insert, hj]
    | error e =>
        rw [hres] at hop
        refine appendCourse_of_error h hop fun id' stored' hst' hfor ↦ ?_
        obtain rfl := only hst' hfor
        refine ⟨fun hext ↦ ?_, fun hat ↦ hseq hat.sequence_le⟩
        rw [(hextend _).mpr ⟨hext, rfl⟩] at hres
        cases hres

/-- In every state a run reaches, the ledger is sound and an append does what the batch
verifier allows, as long as SHA-256 does not collide on the records presented. -/
theorem append_agrees (calls : List Call) (r : ReconciliationRecord)
    (hfree : CollisionFree (presented (calls ++ [.appendReconciliation r]))) :
    (ledger (run calls)).Sound ∧
      AppendAgrees ledger (fun _ _ _ ↦ True) (run calls) r
        (appendReconciliation r (run calls)).1 (appendReconciliation r (run calls)).2 := by
  have hinv := invariant_run hfree calls fun x ⟨c, hc, hx⟩ ↦ ⟨c, by simp [hc], hx⟩
  have hr : preimage r ∈ presented (calls ++ [.appendReconciliation r]) :=
    ⟨.appendReconciliation r, by simp, rfl⟩
  exact ⟨hinv.sound, (append_course hfree hinv hr).agrees hinv.sound hinv.uniqueReceipts⟩

end Agreement

end MemoryGrantStore

end Etp.Core
