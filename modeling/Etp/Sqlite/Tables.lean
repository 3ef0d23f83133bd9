import Etp.Sqlite.Store

/-!
# What the rows stand for

The store writes a row only for a value it has checked, so a database it produced
encodes typed tables: chains that verify, snapshots, receipts and records that
pass their own checks.  `Tables` is that view.  Its entries carry their checks,
and `Tables.encode` is the database.

For every query of the store there is a lemma here that says what it reads from
an encoded database, and for every statement one that says when it succeeds and
what it leaves.  The operations are then analysed without ever looking at a row.
-/

namespace Etp.Sqlite

open Etp.Core

/-! ## Input checks -/

/-- What `validate_text` accepts. -/
def PlainText (value : String) (max : Nat) : Prop :=
  value ≠ "" ∧ byteLen value ≤ max ∧ trim value = value ∧ value.toList.any isControl = false

/-- `validate_text`, as a condition on the text. -/
@[simp] theorem validateText_eq_ok {field value : String} {max : Nat} {u : Unit} :
    validateText field value max = .ok u ↔ PlainText value max := by
  simp [validateText, PlainText, not_or]

/-- A time or a version is stored when it is a safe integer. -/
@[simp] theorem safeI64_eq_ok {value : Nat} {f : String} {i : Int} :
    safeI64 value f = .ok i ↔ value ≤ maxSafeInteger ∧ i = value := by
  unfold safeI64
  split
  · simp; omega
  · simp [eq_comm]; omega

/-- A column is read when it holds a safe integer. -/
@[simp] theorem decodeU64_eq_ok {n m : Nat} :
    decodeU64 n = .ok m ↔ n ≤ maxSafeInteger ∧ m = n := by
  simp only [decodeU64, bind_eq_ok, rejectIf_eq_ok, exists_const, Except.ok.injEq, not_lt,
    Int.toNat_natCast, Int.natCast_nonneg, true_and]
  exact and_congr_right fun _ ↦ eq_comm

theorem decodeU64_of_le {n : Nat} (h : n ≤ maxSafeInteger) : decodeU64 n = .ok n :=
  decodeU64_eq_ok.mpr ⟨h, rfl⟩

/-- What `validate_snapshot` accepts. -/
structure ValidSnapshot (s : CurrentnessSnapshot) : Prop where
  key : PlainText s.key 1024
  version_pos : 0 < s.version
  version_le : s.version ≤ maxSafeInteger
  policy_le : s.policyEpoch ≤ maxSafeInteger
  configuration_le : s.configurationEpoch ≤ maxSafeInteger
  observed_le : s.observedAtMs ≤ maxSafeInteger

/-- What `validate_claim_request` accepts. -/
structure ValidRequest (r : ClaimRequest) : Prop where
  attempt : PlainText r.attemptId 256
  audience : PlainText r.expectedAudience 512
  key : PlainText r.currentnessKey 1024
  version_pos : 0 < r.expectedSnapshotVersion
  version_le : r.expectedSnapshotVersion ≤ maxSafeInteger
  age_pos : 0 < r.maximumSnapshotAgeMs
  age_le : r.maximumSnapshotAgeMs ≤ maxCurrentnessAgeMs

/-- `validate_snapshot`, as a condition on the snapshot. -/
@[simp] theorem validateSnapshot_eq_ok {s : CurrentnessSnapshot} {u : Unit} :
    validateSnapshot s = .ok u ↔ ValidSnapshot s := by
  simp only [validateSnapshot, bind_eq_ok, validateText_eq_ok, rejectIf_eq_ok, safeI64_eq_ok,
    exists_const, and_assoc, exists_and_left, exists_eq_left, exists_eq, and_true]
  constructor
  · rintro ⟨h₁, h₂, h₃, h₄, h₅, h₆⟩
    exact ⟨h₁, Nat.pos_of_ne_zero h₂, h₃, h₄, h₅, h₆⟩
  · rintro ⟨h₁, h₂, h₃, h₄, h₅, h₆⟩
    exact ⟨h₁, h₂.ne', h₃, h₄, h₅, h₆⟩

/-- `validate_claim_request`, as a condition on the request. -/
@[simp] theorem validateClaimRequest_eq_ok {r : ClaimRequest} {u : Unit} :
    validateClaimRequest r = .ok u ↔ ValidRequest r := by
  have hmax : maxCurrentnessAgeMs ≤ maxSafeInteger := by decide
  simp only [validateClaimRequest, bind_eq_ok, validateText_eq_ok, rejectIf_eq_ok, safeI64_eq_ok,
    exists_const, and_assoc, exists_and_left, exists_eq_left, exists_eq, and_true, not_or, not_lt]
  constructor
  · rintro ⟨h₁, h₂, h₃, h₄, h₅, h₆, h₇, -⟩
    exact ⟨h₁, h₂, h₃, Nat.pos_of_ne_zero h₄, h₅, Nat.pos_of_ne_zero h₆, h₇⟩
  · rintro ⟨h₁, h₂, h₃, h₄, h₅, h₆, h₇⟩
    exact ⟨h₁, h₂, h₃, h₄.ne', h₅, h₆.ne', h₇, h₇.trans hmax⟩

/-! ## Rows of checked values -/

/-- The row of a snapshot. -/
def CurrentnessSnapshot.row (s : CurrentnessSnapshot) : CurrentnessRow where
  currentnessKey := s.key
  snapshotVersion := s.version
  policyEpoch := s.policyEpoch
  configurationEpoch := s.configurationEpoch
  preStateDigest := s.preStateDigest.asStr
  resourceClaimDigest := s.resourceClaimDigest.asStr
  revoked := if s.revoked then 1 else 0
  observedAtMs := s.observedAtMs

/-- The row of a claim. -/
def DurableClaim.row (c : DurableClaim) : ClaimRow where
  grantHash := c.grantHash.asStr
  attemptId := c.attemptId
  currentnessKey := c.currentnessKey
  snapshotVersion := c.snapshotVersion
  maximumSnapshotAgeMs := c.maximumSnapshotAgeMs
  claimedAtMs := c.claimedAtMs
  dispatchStartedAtMs := c.dispatchStartedAtMs.map Nat.cast

/-- The numbers of a claim are ones that a row can hold. -/
structure ValidClaim (c : DurableClaim) : Prop where
  version_le : c.snapshotVersion ≤ maxSafeInteger
  age_pos : 0 < c.maximumSnapshotAgeMs
  age_le : c.maximumSnapshotAgeMs ≤ maxSafeInteger
  claimed_le : c.claimedAtMs ≤ maxSafeInteger
  dispatched : ∀ d ∈ c.dispatchStartedAtMs, c.claimedAtMs ≤ d ∧ d ≤ maxSafeInteger

theorem snapshotParams_of_valid {s : CurrentnessSnapshot} (h : ValidSnapshot s) :
    snapshotParams s = .ok s.row := by
  have hv := fun f ↦ safeI64_eq_ok (f := f).mpr ⟨h.version_le, rfl⟩
  have hp := fun f ↦ safeI64_eq_ok (f := f).mpr ⟨h.policy_le, rfl⟩
  have hc := fun f ↦ safeI64_eq_ok (f := f).mpr ⟨h.configuration_le, rfl⟩
  have ho := fun f ↦ safeI64_eq_ok (f := f).mpr ⟨h.observed_le, rfl⟩
  simp only [snapshotParams, hv, hp, hc, ho, ok_bind, CurrentnessSnapshot.row]

/-- The row of a valid snapshot meets the `CHECK` constraints of its table. -/
theorem checkCurrentness_row {s : CurrentnessSnapshot} (h : ValidSnapshot s) :
    Db.checkCurrentness s.row := by
  have := h.version_pos
  simp only [Db.checkCurrentness, CurrentnessSnapshot.row]
  refine ⟨by omega, by omega, by omega, ?_, by omega⟩
  cases s.revoked <;> simp

theorem decodeRevoked_row (b : Bool) : decodeRevoked (if b then 1 else 0) = .ok b := by
  cases b <;> rfl

/-- A valid snapshot is read back from its row. -/
theorem decodeCurrentness_row {s : CurrentnessSnapshot} (h : ValidSnapshot s) :
    decodeCurrentness s.key s.row = .ok s := by
  simp only [decodeCurrentness, CurrentnessSnapshot.row, decodeU64_of_le h.version_le,
    decodeU64_of_le h.policy_le, decodeU64_of_le h.configuration_le, decodeU64_of_le h.observed_le,
    Digest32.parse_asStr, fromProtocol_ok, decodeRevoked_row, ok_bind]

/-- A valid claim is read back from its row. -/
theorem decodeClaim_row {c : DurableClaim} (h : ValidClaim c) :
    decodeClaim c.grantHash c.row = .ok c := by
  have hd : transposeMap decodeU64 (c.dispatchStartedAtMs.map Nat.cast) =
      .ok c.dispatchStartedAtMs := by
    cases hc : c.dispatchStartedAtMs with
    | none => rfl
    | some d =>
        have := decodeU64_of_le (h.dispatched d hc).2
        simp only [Option.map_some, transposeMap, this, Except.map]
  simp only [decodeClaim, DurableClaim.row, Digest32.parse_asStr, fromProtocol_ok,
    decodeU64_of_le h.version_le, decodeU64_of_le h.age_le, decodeU64_of_le h.claimed_le, hd,
    ok_bind]

theorem asStr_injective : Function.Injective Digest32.asStr := fun _ _ h ↦ Digest32.ext h

theorem transposeMap_map {α β γ : Type} {decode : β → Except StoreError γ} {row : α → β}
    {v : α → γ} {o : Option α} (h : ∀ a ∈ o, decode (row a) = .ok (v a)) :
    transposeMap decode (o.map row) = .ok (o.map v) := by
  cases o with
  | none => rfl
  | some a => simp only [Option.map_some, transposeMap, h a rfl, Except.map]

section Records

variable [Sha256]

/-- The row of a receipt. -/
def receiptRow (r : EffectReceipt) : ReceiptRow where
  grantHash := r.grantHash.asStr
  receiptId := r.receiptId
  receiptHash := (recordHash r).asStr
  receiptJson := utf8 (canonicalText r)

/-- The row of a reconciliation record. -/
def reconciliationRow (r : ReconciliationRecord) : ReconciliationRow where
  receiptHash := r.receiptHash.asStr
  sequence := r.sequence
  reconciliationId := r.reconciliationId
  reconciliationHash := (recordHash r).asStr
  parentReconciliationHash := r.parentReconciliationHash.map Digest32.asStr
  recordJson := utf8 (canonicalText r)

/-- A chain that `register_chain` accepts. -/
structure RegisteredChain where
  commitment : TaskCommitment
  proposal : EffectProposal
  decision : AuthorizationDecision
  grant : ExecutionGrant
  verified : GrantChain commitment proposal decision grant

namespace RegisteredChain

variable (x : RegisteredChain)

def grantHash : Digest32 := recordHash x.grant

/-- What is read of the chain. -/
def stored : StoredChain where
  grantHash := x.grantHash
  commitment := x.commitment
  proposal := x.proposal
  decision := x.decision
  grant := x.grant

/-- The row of a registered chain. -/
def row : ChainRow where
  grantId := x.grant.grantId
  grantHash := x.grantHash.asStr
  proposalHash := (recordHash x.proposal).asStr
  decisionHash := (recordHash x.decision).asStr
  commitmentJson := utf8 (canonicalText x.commitment)
  proposalJson := utf8 (canonicalText x.proposal)
  decisionJson := utf8 (canonicalText x.decision)
  grantJson := utf8 (canonicalText x.grant)

/-- A registered chain is read back from its row. -/
theorem decodeChain_row : decodeChain x.row = .ok x.stored := by
  have hv : verifyGrant x.commitment x.proposal x.decision x.grant = .ok x.grantHash :=
    verifyGrant_eq_ok.mpr ⟨x.verified, rfl⟩
  simp only [decodeChain, row, parseRecord_canonicalText x.verified.commitment_valid,
    parseRecord_canonicalText x.verified.proposal_valid,
    parseRecord_canonicalText x.verified.decision_valid,
    parseRecord_canonicalText x.verified.grant_valid,
    commitment_of_valid x.verified.proposal_valid, commitment_of_valid x.verified.decision_valid,
    Digest32.parse_asStr, hv, fromProtocol_ok, ok_bind, ne_eq, not_true_eq_false,
    not_false_eq_true, rejectIf_false]
  rfl

theorem ext {x y : RegisteredChain} (hc : x.commitment = y.commitment)
    (hp : x.proposal = y.proposal) (hd : x.decision = y.decision) (hg : x.grant = y.grant) :
    x = y := by
  cases x
  cases y
  simp only at hc hp hd hg
  subst hc hp hd hg
  rfl

/-- The JSON columns of a row determine the chain. -/
theorem eq_of_json {x y : RegisteredChain}
    (hc : x.row.commitmentJson = y.row.commitmentJson)
    (hp : x.row.proposalJson = y.row.proposalJson)
    (hd : x.row.decisionJson = y.row.decisionJson) (hg : x.row.grantJson = y.row.grantJson) :
    x = y := by
  have hx := x.verified
  have hy := y.verified
  simp only [row, utf8_injective.eq_iff] at hc hp hd hg
  exact ext (eq_of_canonicalText_eq hx.commitment_valid hy.commitment_valid hc)
    (eq_of_canonicalText_eq hx.proposal_valid hy.proposal_valid hp)
    (eq_of_canonicalText_eq hx.decision_valid hy.decision_valid hd)
    (eq_of_canonicalText_eq hx.grant_valid hy.grant_valid hg)

end RegisteredChain

/-- A valid receipt is read back from its row. -/
theorem decodeReceipt_row {r : EffectReceipt} (h : validate r = .ok ()) :
    decodeReceipt (receiptRow r) = .ok r := by
  simp only [decodeReceipt, receiptRow, parseRecord_canonicalText h, commitment_of_valid h,
    fromProtocol_ok, ok_bind, ne_eq, not_true_eq_false, not_false_eq_true,
    rejectIf_false]

/-- A valid record is read back from its row. -/
theorem decodeReconciliation_row {r : ReconciliationRecord} (h : validate r = .ok ()) :
    decodeReconciliation (reconciliationRow r) = .ok r := by
  simp only [decodeReconciliation, reconciliationRow, parseRecord_canonicalText h, fromProtocol_ok]

end Records

/-! ## Tables -/

/-- A record that passes its checks. -/
abbrev Valid (α : Type) [ProtocolRecord α] := {r : α // validate r = .ok ()}

structure Tables [Sha256] where
  lastTrustedTimeMs : Option Nat
  currentness : List {s : CurrentnessSnapshot // ValidSnapshot s}
  chains : List RegisteredChain
  claims : List {c : DurableClaim // ValidClaim c}
  receipts : List (Valid EffectReceipt)
  reconciliations : List (Valid ReconciliationRecord)

namespace Tables

variable [Sha256]

/-- The tables of a new database. -/
def empty : Tables where
  lastTrustedTimeMs := none
  currentness := []
  chains := []
  claims := []
  receipts := []
  reconciliations := []

/-- The database that the tables stand for. -/
def encode (t : Tables) : Db where
  lastTrustedTimeMs := t.lastTrustedTimeMs.map Nat.cast
  currentness := t.currentness.map fun s ↦ s.1.row
  authorizationChains := t.chains.map RegisteredChain.row
  claims := t.claims.map fun c ↦ c.1.row
  receipts := t.receipts.map fun r ↦ receiptRow r.1
  reconciliations := t.reconciliations.map fun r ↦ reconciliationRow r.1

@[simp] theorem encode_empty : empty.encode = .empty := rfl

/-- A row determines its chain. -/
theorem chainRow_injective : Function.Injective RegisteredChain.row := fun _ _ h ↦
  RegisteredChain.eq_of_json (congrArg ChainRow.commitmentJson h)
    (congrArg ChainRow.proposalJson h) (congrArg ChainRow.decisionJson h)
    (congrArg ChainRow.grantJson h)

omit [Sha256] in
theorem snapshotRow_injective :
    Function.Injective fun s : {s : CurrentnessSnapshot // ValidSnapshot s} ↦ s.1.row := by
  intro s s' h
  have hkey : s.1.key = s'.1.key := congrArg CurrentnessRow.currentnessKey h
  have hd := decodeCurrentness_row s.2
  rw [show s.1.row = s'.1.row from h, hkey, decodeCurrentness_row s'.2] at hd
  exact Subtype.ext (Except.ok.inj hd).symm

omit [Sha256] in
theorem claimRow_injective :
    Function.Injective fun c : {c : DurableClaim // ValidClaim c} ↦ c.1.row := by
  intro c c' h
  have hkey : c.1.grantHash = c'.1.grantHash := asStr_injective (congrArg ClaimRow.grantHash h)
  have hd := decodeClaim_row c.2
  rw [show c.1.row = c'.1.row from h, hkey, decodeClaim_row c'.2] at hd
  exact Subtype.ext (Except.ok.inj hd).symm

theorem receiptRow_injective :
    Function.Injective fun r : Valid EffectReceipt ↦ receiptRow r.1 := by
  intro r r' h
  have hjson := congrArg ReceiptRow.receiptJson h
  simp only [receiptRow, utf8_injective.eq_iff] at hjson
  exact Subtype.ext (eq_of_canonicalText_eq r.2 r'.2 hjson)

theorem reconciliationRow_injective :
    Function.Injective fun r : Valid ReconciliationRecord ↦ reconciliationRow r.1 := by
  intro r r' h
  have hjson := congrArg ReconciliationRow.recordJson h
  simp only [reconciliationRow, utf8_injective.eq_iff] at hjson
  exact Subtype.ext (eq_of_canonicalText_eq r.2 r'.2 hjson)

/-- A database stands for at most one value of the tables. -/
theorem encode_injective : Function.Injective encode := by
  rintro ⟨l, cu, ch, cl, re, rc⟩ ⟨l', cu', ch', cl', re', rc'⟩ h
  simp only [encode, Db.mk.injEq] at h
  obtain ⟨h₁, h₂, h₃, h₄, h₅, h₆⟩ := h
  rw [Option.map_injective Nat.cast_injective h₁,
    List.map_injective_iff.mpr snapshotRow_injective h₂,
    List.map_injective_iff.mpr chainRow_injective h₃,
    List.map_injective_iff.mpr claimRow_injective h₄,
    List.map_injective_iff.mpr receiptRow_injective h₅,
    List.map_injective_iff.mpr reconciliationRow_injective h₆]

/-! ### Queries -/

/-- The current snapshot of a key. -/
def snapshot (t : Tables) (key : String) : Option CurrentnessSnapshot :=
  (lookupBy (fun s ↦ s.1.key) key t.currentness).map Subtype.val

def chainById (t : Tables) (id : String) : Option RegisteredChain :=
  lookupBy (fun x ↦ x.grant.grantId) id t.chains

/-- The chain of a grant, by its hash. -/
def chain (t : Tables) (hash : Digest32) : Option RegisteredChain :=
  lookupBy RegisteredChain.grantHash hash t.chains

/-- The claim of a grant. -/
def claim (t : Tables) (hash : Digest32) : Option DurableClaim :=
  (lookupBy (fun c ↦ c.1.grantHash) hash t.claims).map Subtype.val

/-- The receipt of a grant. -/
def receipt (t : Tables) (hash : Digest32) : Option EffectReceipt :=
  (lookupBy (fun r ↦ r.1.grantHash) hash t.receipts).map Subtype.val

/-- A receipt by its own hash. -/
def receiptByHash (t : Tables) (hash : Digest32) : Option EffectReceipt :=
  (lookupBy (fun r ↦ recordHash r.1) hash t.receipts).map Subtype.val

/-- The reconciliations of a receipt, in the order they were appended. -/
def history (t : Tables) (receiptHash : Digest32) : List ReconciliationRecord :=
  (t.reconciliations.map Subtype.val).filter fun r ↦ r.receiptHash = receiptHash

variable (t : Tables)

theorem currentnessByKey_encode (key : String) : t.encode.currentnessByKey key =
    (lookupBy (fun s ↦ s.1.key) key t.currentness).map fun s ↦ s.1.row :=
  lookupBy_map (g := id) (fun _ ↦ rfl) Function.injective_id

@[simp] theorem chainByGrantId_encode (grantId : String) :
    t.encode.chainByGrantId grantId = (t.chainById grantId).map RegisteredChain.row :=
  lookupBy_map (g := id) (fun _ ↦ rfl) Function.injective_id

theorem chainByGrantHash_encode (hash : Digest32) :
    t.encode.chainByGrantHash hash.asStr = (t.chain hash).map RegisteredChain.row :=
  lookupBy_map (fun _ ↦ rfl) asStr_injective

theorem claimByGrantHash_encode (hash : Digest32) : t.encode.claimByGrantHash hash.asStr =
    (lookupBy (fun c ↦ c.1.grantHash) hash t.claims).map fun c ↦ c.1.row :=
  lookupBy_map (fun _ ↦ rfl) asStr_injective

theorem receiptByGrantHash_encode (hash : Digest32) : t.encode.receiptByGrantHash hash.asStr =
    (lookupBy (fun r ↦ r.1.grantHash) hash t.receipts).map fun r ↦ receiptRow r.1 :=
  lookupBy_map (fun _ ↦ rfl) asStr_injective

theorem receiptByHash_encode (hash : Digest32) : t.encode.receiptByHash hash.asStr =
    (lookupBy (fun r ↦ recordHash r.1) hash t.receipts).map fun r ↦ receiptRow r.1 :=
  lookupBy_map (fun _ ↦ rfl) asStr_injective

/-- A row of the database is the row of a snapshot. -/
theorem currentnessByKey_eq_some {key : String} {row : CurrentnessRow} :
    t.encode.currentnessByKey key = some row ↔ ∃ s, t.snapshot key = some s ∧ s.row = row := by
  simp [currentnessByKey_encode, snapshot]

theorem claimByGrantHash_eq_some {hash : Digest32} {row : ClaimRow} :
    t.encode.claimByGrantHash hash.asStr = some row ↔ ∃ c, t.claim hash = some c ∧ c.row = row := by
  simp [claimByGrantHash_encode, claim]

theorem receiptByGrantHash_eq_some {hash : Digest32} {row : ReceiptRow} :
    t.encode.receiptByGrantHash hash.asStr = some row ↔
      ∃ r, t.receipt hash = some r ∧ receiptRow r = row := by
  simp [receiptByGrantHash_encode, receipt]

/-- `load_currentness` reads the snapshot of the key, and never fails. -/
@[simp] theorem loadCurrentness_encode (key : String) :
    loadCurrentness t.encode key = .ok (t.snapshot key) := by
  rw [loadCurrentness, currentnessByKey_encode]
  refine transposeMap_map fun s hs ↦ ?_
  rw [← key_of_lookupBy hs]
  exact decodeCurrentness_row s.2

@[simp] theorem loadChainByGrantId_encode (grantId : String) :
    loadChainByGrantId t.encode grantId =
      .ok ((t.chainById grantId).map RegisteredChain.stored) := by
  rw [loadChainByGrantId, chainByGrantId_encode]
  exact transposeMap_map fun x _ ↦ x.decodeChain_row

@[simp] theorem loadChainByGrantHash_encode (hash : Digest32) :
    loadChainByGrantHash t.encode hash = .ok ((t.chain hash).map RegisteredChain.stored) := by
  rw [loadChainByGrantHash, chainByGrantHash_encode]
  exact transposeMap_map fun x _ ↦ x.decodeChain_row

@[simp] theorem loadClaim_encode (hash : Digest32) :
    loadClaim t.encode hash = .ok (t.claim hash) := by
  rw [loadClaim, claimByGrantHash_encode]
  refine transposeMap_map fun c hc ↦ ?_
  rw [← key_of_lookupBy hc]
  exact decodeClaim_row c.2

@[simp] theorem loadReceiptByGrant_encode (hash : Digest32) :
    loadReceiptByGrant t.encode hash = .ok (t.receipt hash) := by
  rw [loadReceiptByGrant, receiptByGrantHash_encode]
  exact transposeMap_map fun r _ ↦ decodeReceipt_row r.2

@[simp] theorem loadReceiptByHash_encode (hash : Digest32) :
    loadReceiptByHash t.encode hash = .ok (t.receiptByHash hash) := by
  rw [loadReceiptByHash, receiptByHash_encode]
  exact transposeMap_map fun r _ ↦ decodeReceipt_row r.2

theorem reconciliationsOf_encode (hash : Digest32) :
    t.encode.reconciliationsOf hash.asStr = (t.history hash).map reconciliationRow := by
  rw [Db.reconciliationsOf, encode, history, List.filter_map, List.filter_map, List.map_map]
  have : (fun r : ReconciliationRow ↦ decide (r.receiptHash = hash.asStr)) ∘
      (fun r : Valid ReconciliationRecord ↦ reconciliationRow r.1) =
      (fun r : ReconciliationRecord ↦ decide (r.receiptHash = hash)) ∘ Subtype.val := by
    funext r
    simp [reconciliationRow, Digest32.ext_iff]
  rw [this]
  rfl

theorem valid_of_mem_history {hash : Digest32} {r : ReconciliationRecord} (h : r ∈ t.history hash) :
    validate r = .ok () := by
  obtain ⟨x, -, rfl⟩ := List.mem_map.mp (List.mem_of_mem_filter h)
  exact x.2

/-- `load_reconciliation_at` reads the record at its place in the history. -/
theorem loadReconciliationAt_encode (hash : Digest32) {sequence : Nat}
    (h : sequence ≤ maxSafeInteger) :
    loadReconciliationAt t.encode hash sequence =
      .ok ((t.history hash).find? fun r ↦ r.sequence = sequence) := by
  rw [loadReconciliationAt, safeI64_eq_ok.mpr ⟨h, rfl⟩, ok_bind, Db.reconciliationAt,
    reconciliationsOf_encode, List.find?_map]
  have : (fun r : ReconciliationRow ↦ decide (r.sequence = sequence)) ∘ reconciliationRow =
      fun r : ReconciliationRecord ↦ decide (r.sequence = sequence) := by
    funext r
    simp [reconciliationRow]
  rw [this]
  simpa using transposeMap_map (v := id) fun r hr ↦
    decodeReconciliation_row (t.valid_of_mem_history (List.mem_of_find?_eq_some hr))

end Tables

end Etp.Sqlite
