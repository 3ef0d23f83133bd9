import Etp.Core.Record

/-!
# Valid records, their commitments and their round trip

For each record type: what `validate` accepts, as a conjunction (`validate_eq_ok`),
and the laws of `LawfulRecord`.  The generic half then shows that a valid record
is always encodable, so that `commitment` fails only when `validate` does
(`commitment_eq_ok`), and that `parse_record` reads the canonical bytes of a
valid record back (`parseRecord_canonicalJson`).
-/

namespace Etp.Core

variable {u : Unit}

/-! ## What `validate` accepts -/

theorem TaskCommitment.validate_eq_ok {r : TaskCommitment} :
    validate r = .ok u ↔
      r.version = profileVersion ∧ TrimmedText r.commitmentId 256 ∧ TrimmedText r.principal 512 ∧
        r.policyEpoch ≤ maxSafeInteger ∧ r.configurationEpoch ≤ maxSafeInteger ∧
        r.createdAtMs < r.expiresAtMs ∧ r.expiresAtMs ≤ maxSafeInteger := by
  simp [validate]

theorem EffectProposal.validate_eq_ok {r : EffectProposal} :
    validate r = .ok u ↔
      r.version = profileVersion ∧ TrimmedText r.proposalId 256 ∧
        TrimmedText r.effectProfile 256 ∧ TokenText r.operation ∧ TrimmedText r.target 4096 ∧
        r.createdAtMs < r.expiresAtMs ∧ r.expiresAtMs ≤ maxSafeInteger := by
  simp [validate]

theorem AuthorizationDecision.validate_eq_ok {r : AuthorizationDecision} :
    validate r = .ok u ↔
      r.version = profileVersion ∧ TrimmedText r.decisionId 256 ∧
        (r.evidenceHashes.length ≤ 256 ∧ SortedTexts (r.evidenceHashes.map Digest32.asStr)) ∧
        (r.reasonCodes.length ≤ 64 ∧ (∀ code ∈ r.reasonCodes, TokenText code) ∧
          SortedTexts r.reasonCodes) ∧
        r.reasonCodes ≠ [] ∧
        (r.decidedAtMs < r.expiresAtMs ∧ r.expiresAtMs ≤ maxSafeInteger) ∧
        (r.outcome = .allow → r.evidenceHashes ≠ []) := by
  simp [validate]

theorem ExecutionGrant.validate_eq_ok {r : ExecutionGrant} :
    validate r = .ok u ↔
      r.version = profileVersion ∧ TrimmedText r.grantId 256 ∧ TrimmedText r.audience 512 ∧
        NonceText r.nonce ∧ r.uses = 1 ∧
        (r.notBeforeMs < r.expiresAtMs ∧ r.expiresAtMs ≤ maxSafeInteger) ∧
        r.expiresAtMs ≤ r.notBeforeMs + maxGrantLifetimeMs := by
  simp [validate]
  omega

namespace EffectReceipt

theorem validateDispatchTime_eq_ok {r : EffectReceipt} :
    r.validateDispatchTime = .ok u ↔ ∀ t ∈ r.dispatchedAtMs,
      t ≤ maxSafeInteger ∧ r.claimedAtMs ≤ t ∧ t ≤ r.completedAtMs := by
  unfold validateDispatchTime
  split <;> simp [*]

/-- The time of dispatch is present when the outcome is known to be one of a
dispatched effect, and absent when it is `not_dispatched`. -/
theorem validateDispatchOutcome_eq_ok {r : EffectReceipt} :
    r.validateDispatchOutcome = .ok u ↔
      (r.outcome = .notDispatched → r.dispatchedAtMs = none) ∧
        (r.outcome = .succeeded ∨ r.outcome = .failed → r.dispatchedAtMs ≠ none) := by
  unfold validateDispatchOutcome
  cases r.outcome <;> cases r.dispatchedAtMs <;> simp

theorem validate_eq_ok {r : EffectReceipt} :
    validate r = .ok u ↔
      r.version = profileVersion ∧ TrimmedText r.receiptId 256 ∧ TrimmedText r.attemptId 256 ∧
        r.claimedAtMs ≤ maxSafeInteger ∧ r.completedAtMs ≤ maxSafeInteger ∧
        r.claimedAtMs ≤ r.completedAtMs ∧
        (∀ t ∈ r.dispatchedAtMs, t ≤ maxSafeInteger ∧ r.claimedAtMs ≤ t ∧ t ≤ r.completedAtMs) ∧
        (r.outcome = .notDispatched → r.dispatchedAtMs = none) ∧
        (r.outcome = .succeeded ∨ r.outcome = .failed → r.dispatchedAtMs ≠ none) := by
  simp [validate, validateDispatchTime_eq_ok, validateDispatchOutcome_eq_ok]

end EffectReceipt

theorem ReconciliationRecord.validate_eq_ok {r : ReconciliationRecord} :
    validate r = .ok u ↔
      r.version = profileVersion ∧ TrimmedText r.reconciliationId 256 ∧
        r.observedAtMs ≤ maxSafeInteger ∧ (0 < r.sequence ∧ r.sequence ≤ maxSafeInteger) ∧
        (r.sequence = 1 ↔ r.parentReconciliationHash = none) := by
  have hb : ¬((r.sequence == 1) ≠ r.parentReconciliationHash.isNone) ↔
      (r.sequence = 1 ↔ r.parentReconciliationHash = none) := by
    rw [not_ne_iff, Bool.eq_iff_iff, beq_iff_eq, Option.isNone_iff_eq_none]
  simp only [validate, bind_eq_ok, validateVersion_eq_ok, validateIdentifier_eq_ok,
    validateSafeInteger_eq_ok, rejectIf_eq_ok, exists_const, hb, not_or, not_lt,
    Nat.pos_iff_ne_zero]

/-! ## The laws of a record type -/

/-- What every record type provides about its fields and its reader. -/
class LawfulRecord (α : Type) [ProtocolRecord α] [Deserialize α] : Prop where
  domain_zero_free : 0 ∉ utf8 (ProtocolRecord.domain α)
  names_nodup : (Deserialize.names α).Nodup
  names_eq (r : α) : (Serialize.fields r).map Prod.fst = Deserialize.names α
  plain {r : α} : validate r = .ok () →
    ∃ nodes bytes, PlainFields (Serialize.fields r) nodes bytes ∧
      nodes + 1 ≤ maxCanonicalNodes ∧ bytes + 2 ≤ maxTransportInputBytes
  read_fields {r : α} : validate r = .ok () → ∀ {ms}, SameLookups ms (Serialize.fields r) →
    Deserialize.read ms = some r

theorem plain_writeNat {n : Nat} (h : n ≤ maxSafeInteger) : PlainValue (writeNat n) 1 16 :=
  plain_num h

theorem plain_writeDigest (d : Digest32) : PlainValue (writeDigest d) 1 428 := plain_digest d

theorem TrimmedText.plain {s : String} {k : Nat} (h : TrimmedText s k) :
    PlainValue (.str s) 1 (6 * k + 2) := plain_str h.bounded

theorem NonceText.plain {s : String} (h : NonceText s) : PlainValue (.str s) 1 (6 * 128 + 2) :=
  plain_str h.upper

theorem DecisionOutcome.plain (o : DecisionOutcome) : PlainValue (.str o.name) 1 (6 * 32 + 2) :=
  plain_str (by cases o <;> decide)

theorem ReceiptOutcome.plain (o : ReceiptOutcome) : PlainValue (.str o.name) 1 (6 * 32 + 2) :=
  plain_str (by cases o <;> decide)

theorem ReconciliationOutcome.plain (o : ReconciliationOutcome) :
    PlainValue (.str o.name) 1 (6 * 32 + 2) := plain_str (by cases o <;> decide)

theorem plain_digests {l : List Digest32} {len : Nat} (h : l.length ≤ len) :
    PlainValue (.arr (l.map writeDigest)) (len + 1) (len * (6 * 71 + 3) + 2) := by
  have := plain_strings (l := l.map Digest32.asStr) (k := 71) (by simpa using h) fun s hs ↦ by
    obtain ⟨d, -, rfl⟩ := List.mem_map.mp hs
    exact (byteLen_digest d).le
  rwa [List.map_map] at this

theorem lt_u64 {n : Nat} (h : n ≤ maxSafeInteger) : n < 2 ^ 64 := by
  simp only [maxSafeInteger] at h
  omega

theorem readU64_writeNat {n : Nat} (h : n ≤ maxSafeInteger) : readU64 (writeNat n) = some n :=
  readU64_num (lt_u64 h)

@[simp] theorem readDigest_writeDigest (d : Digest32) : readDigest (writeDigest d) = some d :=
  readDigest_str d

@[simp] theorem readText_str (s : String) : readText (.str s) = some s := rfl

theorem readOption_writeNat {o : Option Nat} (h : ∀ n ∈ o, n ≤ maxSafeInteger) :
    readOption readU64 (writeOption writeNat o) = some o :=
  readOption_writeOption fun n hn ↦ ⟨readU64_writeNat (h n hn), by simp [writeNat]⟩

@[simp] theorem readOption_writeDigest (o : Option Digest32) :
    readOption readDigest (writeOption writeDigest o) = some o :=
  readOption_writeOption fun d _ ↦ ⟨readDigest_writeDigest d, by simp [writeDigest]⟩

@[simp] theorem readVec_writeDigest (l : List Digest32) :
    readVec readDigest (.arr (l.map writeDigest)) = some l :=
  readVec_arr fun d _ ↦ readDigest_writeDigest d

@[simp] theorem readVec_str (l : List String) : readVec readText (.arr (l.map .str)) = some l :=
  readVec_arr fun s _ ↦ readText_str s

theorem version_le {n : Nat} (h : n = profileVersion) : n ≤ maxSafeInteger := by
  subst h; decide

instance : LawfulRecord TaskCommitment where
  domain_zero_free := by decide
  names_nodup := by decide
  names_eq _ := rfl
  plain h := by
    obtain ⟨h₁, h₂, h₃, h₄, h₅, h₆, h₇⟩ := TaskCommitment.validate_eq_ok.mp h
    exact ⟨_, _, .cons (plain_writeNat (version_le h₁)) <| .cons h₂.plain <| .cons h₃.plain <|
      .cons (plain_writeDigest _) <| .cons (plain_writeDigest _) <| .cons (plain_writeDigest _) <|
      .cons (plain_writeNat h₄) <| .cons (plain_writeNat h₅) <|
      .cons (plain_writeNat (h₆.le.trans h₇)) <| .cons (plain_writeNat h₇) .nil,
      by decide, by decide⟩
  read_fields h ms hs := by
    obtain ⟨h₁, -, -, h₄, h₅, h₆, h₇⟩ := TaskCommitment.validate_eq_ok.mp h
    simp only [Deserialize.read]
    rw [hs.required rfl (readU64_writeNat (version_le h₁)), hs.required rfl (readText_str _),
      hs.required rfl (readText_str _), hs.required rfl (readDigest_writeDigest _),
      hs.required rfl (readDigest_writeDigest _), hs.required rfl (readDigest_writeDigest _),
      hs.required rfl (readU64_writeNat h₄), hs.required rfl (readU64_writeNat h₅),
      hs.required rfl (readU64_writeNat (h₆.le.trans h₇)), hs.required rfl (readU64_writeNat h₇)]
    rfl

instance : LawfulRecord EffectProposal where
  domain_zero_free := by decide
  names_nodup := by decide
  names_eq _ := rfl
  plain h := by
    obtain ⟨h₁, h₂, h₃, h₄, h₅, h₆, h₇⟩ := EffectProposal.validate_eq_ok.mp h
    exact ⟨_, _, .cons (plain_writeNat (version_le h₁)) <| .cons h₂.plain <|
      .cons (plain_writeDigest _) <| .cons h₃.plain <| .cons h₄.toTrimmedText.plain <|
      .cons h₅.plain <| .cons (plain_writeDigest _) <| .cons (plain_writeDigest _) <|
      .cons (plain_writeDigest _) <| .cons (plain_writeDigest _) <|
      .cons (plain_writeNat (h₆.le.trans h₇)) <| .cons (plain_writeNat h₇) .nil,
      by decide, by decide⟩
  read_fields h ms hs := by
    obtain ⟨h₁, -, -, -, -, h₆, h₇⟩ := EffectProposal.validate_eq_ok.mp h
    simp only [Deserialize.read]
    rw [hs.required rfl (readU64_writeNat (version_le h₁)), hs.required rfl (readText_str _),
      hs.required rfl (readDigest_writeDigest _), hs.required rfl (readText_str _),
      hs.required rfl (readText_str _), hs.required rfl (readText_str _),
      hs.required rfl (readDigest_writeDigest _), hs.required rfl (readDigest_writeDigest _),
      hs.required rfl (readDigest_writeDigest _), hs.required rfl (readDigest_writeDigest _),
      hs.required rfl (readU64_writeNat (h₆.le.trans h₇)), hs.required rfl (readU64_writeNat h₇)]
    rfl

instance : LawfulRecord AuthorizationDecision where
  domain_zero_free := by decide
  names_nodup := by decide
  names_eq _ := rfl
  plain h := by
    obtain ⟨h₁, h₂, ⟨h₃, -⟩, ⟨h₄, h₅, -⟩, -, ⟨h₆, h₇⟩, -⟩ :=
      AuthorizationDecision.validate_eq_ok.mp h
    exact ⟨_, _, .cons (plain_writeNat (version_le h₁)) <| .cons h₂.plain <|
      .cons (plain_writeDigest _) <| .cons (plain_digests h₃) <| .cons (DecisionOutcome.plain _) <|
      .cons (plain_strings h₄ fun code hc ↦ (h₅ code hc).bounded) <|
      .cons (plain_writeNat (h₆.le.trans h₇)) <| .cons (plain_writeNat h₇) .nil,
      by decide, by decide⟩
  read_fields h ms hs := by
    obtain ⟨h₁, -, -, -, -, ⟨h₆, h₇⟩, -⟩ := AuthorizationDecision.validate_eq_ok.mp h
    simp only [Deserialize.read]
    rw [hs.required rfl (readU64_writeNat (version_le h₁)), hs.required rfl (readText_str _),
      hs.required rfl (readDigest_writeDigest _), hs.required rfl (readVec_writeDigest _),
      hs.required rfl (readVariant_decision _), hs.required rfl (readVec_str _),
      hs.required rfl (readU64_writeNat (h₆.le.trans h₇)), hs.required rfl (readU64_writeNat h₇)]
    rfl

instance : LawfulRecord ExecutionGrant where
  domain_zero_free := by decide
  names_nodup := by decide
  names_eq _ := rfl
  plain h := by
    obtain ⟨h₁, h₂, h₃, h₄, h₅, ⟨h₆, h₇⟩, -⟩ := ExecutionGrant.validate_eq_ok.mp h
    exact ⟨_, _, .cons (plain_writeNat (version_le h₁)) <| .cons h₂.plain <|
      .cons (plain_writeDigest _) <| .cons (plain_writeDigest _) <| .cons h₃.plain <|
      .cons (plain_writeNat (h₆.le.trans h₇)) <| .cons (plain_writeNat h₇) <|
      .cons (plain_writeNat (version_le h₅)) <| .cons h₄.plain .nil,
      by decide, by decide⟩
  read_fields h ms hs := by
    obtain ⟨h₁, -, -, -, h₅, ⟨h₆, h₇⟩, -⟩ := ExecutionGrant.validate_eq_ok.mp h
    simp only [Deserialize.read]
    rw [hs.required rfl (readU64_writeNat (version_le h₁)), hs.required rfl (readText_str _),
      hs.required rfl (readDigest_writeDigest _), hs.required rfl (readDigest_writeDigest _),
      hs.required rfl (readText_str _), hs.required rfl (readU64_writeNat (h₆.le.trans h₇)),
      hs.required rfl (readU64_writeNat h₇), hs.required rfl (readU64_writeNat (version_le h₅)),
      hs.required rfl (readText_str _)]
    rfl

instance : LawfulRecord EffectReceipt where
  domain_zero_free := by decide
  names_nodup := by decide
  names_eq _ := rfl
  plain h := by
    obtain ⟨h₁, h₂, h₃, h₄, h₅, -, h₆, -⟩ := EffectReceipt.validate_eq_ok.mp h
    exact ⟨_, _, .cons (plain_writeNat (version_le h₁)) <| .cons h₂.plain <|
      .cons (plain_writeDigest _) <| .cons (plain_writeDigest _) <| .cons h₃.plain <|
      .cons (plain_writeNat h₄) <|
      .cons (plain_writeOption le_rfl le_rfl fun t ht ↦ plain_writeNat (h₆ t ht).1) <|
      .cons (plain_writeNat h₅) <| .cons (ReceiptOutcome.plain _) <|
      .cons (plain_writeDigest _) .nil,
      by decide, by decide⟩
  read_fields h ms hs := by
    obtain ⟨h₁, -, -, h₄, h₅, -, h₆, -⟩ := EffectReceipt.validate_eq_ok.mp h
    simp only [Deserialize.read]
    rw [hs.required rfl (readU64_writeNat (version_le h₁)), hs.required rfl (readText_str _),
      hs.required rfl (readDigest_writeDigest _), hs.required rfl (readDigest_writeDigest _),
      hs.required rfl (readText_str _), hs.required rfl (readU64_writeNat h₄),
      hs.optional rfl (readOption_writeNat fun t ht ↦ (h₆ t ht).1),
      hs.required rfl (readU64_writeNat h₅), hs.required rfl (readVariant_receipt _),
      hs.required rfl (readDigest_writeDigest _)]
    rfl

instance : LawfulRecord ReconciliationRecord where
  domain_zero_free := by decide
  names_nodup := by decide
  names_eq _ := rfl
  plain h := by
    obtain ⟨h₁, h₂, h₃, ⟨-, h₄⟩, -⟩ := ReconciliationRecord.validate_eq_ok.mp h
    exact ⟨_, _, .cons (plain_writeNat (version_le h₁)) <| .cons h₂.plain <|
      .cons (plain_writeDigest _) <| .cons (plain_writeNat h₄) <|
      .cons (plain_writeOption le_rfl (by decide) fun d _ ↦ plain_writeDigest d) <|
      .cons (plain_writeNat h₃) <| .cons (ReconciliationOutcome.plain _) <|
      .cons (plain_writeDigest _) .nil,
      by decide, by decide⟩
  read_fields h ms hs := by
    obtain ⟨h₁, -, h₃, ⟨-, h₄⟩, -⟩ := ReconciliationRecord.validate_eq_ok.mp h
    simp only [Deserialize.read]
    rw [hs.required rfl (readU64_writeNat (version_le h₁)), hs.required rfl (readText_str _),
      hs.required rfl (readDigest_writeDigest _), hs.required rfl (readU64_writeNat h₄),
      hs.optional rfl (readOption_writeDigest _), hs.required rfl (readU64_writeNat h₃),
      hs.required rfl (readVariant_reconciliation _), hs.required rfl (readDigest_writeDigest _)]
    rfl

/-! ## Parsing -/

section Parse

variable {α : Type} [ProtocolRecord α] [Deserialize α]

/-- `parse_record` -/
def parseRecord (α : Type) [ProtocolRecord α] [Deserialize α] (input : List UInt8) :
    Except ProtocolError α := do
  rejectIf (input.length > maxTransportInputBytes) (.resourceLimit "transport bytes")
  let text ← okOr (decodeUtf8 input) .json
  let value ← okOr (Json.parse text.toList) .json
  let record ← okOr (Deserialize.fromValue value) .json
  validate record
  let _ ← canonicalJson record
  .ok record

variable [LawfulRecord α] {r : α}

theorem fields_nodup (r : α) : ((Serialize.fields r).map Prod.fst).Nodup := by
  rw [LawfulRecord.names_eq]
  exact LawfulRecord.names_nodup

theorem sortKeys_toValue (h : validate r = .ok ()) :
    (Serialize.toValue r).sortKeys = Serialize.toValue r := by
  obtain ⟨_, _, hp, -⟩ := LawfulRecord.plain h
  exact hp.sortKeys_eq

/-- Every valid record is within the limits of the canonical encoding. -/
theorem encodable_toValue (h : validate r = .ok ()) : Encodable (Serialize.toValue r) := by
  obtain ⟨_, _, hp, hn, -⟩ := LawfulRecord.plain h
  exact hp.encodable (fields_nodup r) hn

theorem canonicalJson_of_valid (h : validate r = .ok ()) :
    canonicalJson r = .ok (utf8 (canonicalText r)) :=
  canonicalJson_of_encodable (encodable_toValue h)

theorem canonicalText_length_le (h : validate r = .ok ()) :
    (utf8 (canonicalText r)).length ≤ maxTransportInputBytes := by
  obtain ⟨_, _, hp, -, hb⟩ := LawfulRecord.plain h
  have := hp.bytesOf_le (fields_nodup r)
  rw [utf8, canonicalText, String.toList_ofList, sortKeys_toValue h]
  exact this.trans hb

theorem fromValue_toValue (h : validate r = .ok ()) :
    Deserialize.fromValue (Serialize.toValue r) = some r := by
  have hm := structMembers_serializeStruct (LawfulRecord.names_eq r)
    LawfulRecord.names_nodup
  rw [Deserialize.fromValue, Serialize.toValue, hm, Option.bind_some]
  exact LawfulRecord.read_fields h (sameLookups_collect (fields_nodup r))

/-- **The round trip.**  `parse_record` reads the canonical bytes of a valid
record back as that record. -/
theorem parseRecord_canonicalText (h : validate r = .ok ()) :
    parseRecord α (utf8 (canonicalText r)) = .ok r := by
  have hparse : Json.parse (canonicalText r).toList = some (Serialize.toValue r) := by
    rw [canonicalText, String.toList_ofList, sortKeys_toValue h, Json.parse_text]
  simp only [parseRecord, bind_eq_ok, rejectIf_eq_ok, not_lt, decodeUtf8_utf8, okOr_some,
    Except.ok.injEq, exists_const, exists_eq_left', hparse, fromValue_toValue h,
    canonicalJson_of_valid h]
  exact ⟨canonicalText_length_le h, (), h, trivial⟩

theorem parseRecord_canonicalJson {bytes : List UInt8} (h : validate r = .ok ())
    (hc : canonicalJson r = .ok bytes) : parseRecord α bytes = .ok r := by
  rw [(canonicalJson_eq_ok.mp hc).2]
  exact parseRecord_canonicalText h

/-- Valid records of one type with the same canonical text are equal. -/
theorem eq_of_canonicalText_eq {r' : α} (h : validate r = .ok ()) (h' : validate r' = .ok ())
    (heq : canonicalText r = canonicalText r') : r = r' := by
  have hr := parseRecord_canonicalText h
  rw [heq, parseRecord_canonicalText h'] at hr
  exact (Except.ok.inj hr).symm

end Parse

/-! ## Commitments -/

section Commitment

variable [Sha256] {α : Type} [ProtocolRecord α]

/-- `ProtocolRecord::commitment` -/
def commitment (r : α) : Except ProtocolError Digest32 := do
  validate r
  hashRecord (ProtocolRecord.domain α) r

/-- The bytes whose SHA-256 is the commitment of a record. -/
def preimage (r : α) : List UInt8 := hashInput (ProtocolRecord.domain α) r

/-- The digest of a record's preimage, whether or not the record is valid. -/
def recordHash (r : α) : Digest32 := .fromPayload (preimage r)

variable [Deserialize α] [LawfulRecord α] {r r' : α} {d : Digest32}

/-- A record has a commitment exactly when it is valid, and then the commitment
is the hash of its preimage. -/
@[simp] theorem commitment_eq_ok :
    commitment r = .ok d ↔ validate r = .ok () ∧ d = recordHash r := by
  simp only [commitment, bind_eq_ok, hashRecord_eq_ok, recordHash, preimage]
  constructor
  · rintro ⟨⟨⟩, h, -, rfl⟩
    exact ⟨h, rfl⟩
  · rintro ⟨h, rfl⟩
    exact ⟨(), h, encodable_toValue h, rfl⟩

theorem commitment_of_valid (h : validate r = .ok ()) : commitment r = .ok (recordHash r) :=
  commitment_eq_ok.mpr ⟨h, rfl⟩

omit [Deserialize α] [LawfulRecord α] in
/-- A record that fails its checks fails to commit with the same error. -/
theorem commitment_of_invalid {e : ProtocolError} (h : validate r = .error e) :
    commitment r = .error e := by
  rw [commitment, h]
  rfl

omit [Sha256] in
/-- The domain ends at the zero byte, so records of different domains are never hashed
from the same bytes. -/
theorem preimage_eq_iff {β : Type} [ProtocolRecord β] [Deserialize β] [LawfulRecord β] {s : β} :
    preimage r = preimage s ↔ ProtocolRecord.domain α = ProtocolRecord.domain β ∧
      canonicalText r = canonicalText s := by
  rw [preimage, preimage, hashInput, hashInput]
  constructor
  · intro h
    obtain ⟨h₁, h₂⟩ := eq_of_separated LawfulRecord.domain_zero_free
      LawfulRecord.domain_zero_free h
    exact ⟨utf8_injective h₁, utf8_injective h₂⟩
  · rintro ⟨h₁, h₂⟩
    rw [h₁, h₂]

omit [Sha256] in
theorem preimage_injective (h : validate r = .ok ()) (h' : validate r' = .ok ())
    (heq : preimage r = preimage r') : r = r' :=
  eq_of_canonicalText_eq h h' (preimage_eq_iff.mp heq).2

/-- Valid records of one type with the same commitment are equal, as long as
SHA-256 does not collide on their two preimages. -/
theorem eq_of_recordHash_eq {S : Set (List UInt8)} (hS : CollisionFree S)
    (hr : preimage r ∈ S) (hr' : preimage r' ∈ S) (h : validate r = .ok ())
    (h' : validate r' = .ok ()) (heq : recordHash r = recordHash r') : r = r' :=
  preimage_injective h h' (hS.eq hr hr' heq)

end Commitment

end Etp.Core
