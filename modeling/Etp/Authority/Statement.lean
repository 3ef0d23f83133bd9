import Etp.Core.Commitment

/-!
# Authority statements

The payload of an authority assertion, with its own checks and its own error
type.  A statement is a record like the six of the core: it has a domain, it is
read with `parse_record`, and the laws of `LawfulRecord` hold of it, so every
admitted statement has a canonical payload and reads back from it.

`payload_length_le` bounds that payload: a text without control characters at
most doubles when it is escaped, so no admitted statement exceeds the limit that
the signer and the verifier set.
-/

namespace Etp.Authority

open Etp.Core

/-! ## Limits and errors -/

def authorityProfile : String := "effect-transaction/authority/cose-sign1-ed25519/0.1"
def authorityProfileVersion : Nat := 1
def coseContentType : String := "application/etp-authority+cjson;profile=0.1"
def signatureDomain : String := "effect-transaction/authority/cose-sign1-ed25519/0.1/signature"
def authorityStatementDomain : String :=
  "effect-transaction/authority/cose-sign1-ed25519/0.1/statement"
def maxCoseBytes : Nat := 16384
def maxPayloadBytes : Nat := 8192
def maxAssertionLifetimeMs : Nat := 300000
def maxAuthoritySnapshotAgeMs : Nat := 300000

/-- The errors of the crate, with the fields and the texts that they name. -/
inductive AuthorityError where
  | unsupportedAuthorityProfile
  | invalidField (field : String)
  | unsafeInteger (field : String)
  | invalidValidityInterval
  | invalidKeyValidityInterval
  | emptyAuthorizationSet
  | invalidPublicKey
  | coseTooLarge
  | payloadTooLarge
  | malformedCose (error : String)
  | nonCanonicalCose
  | invalidProtectedHeaders
  | unprotectedHeaders
  | missingPayload
  | nonCanonicalPayload
  | invalidSignature
  | issuerMismatch
  | keyIdMismatch
  | roleMismatch
  | roleNotAuthorized
  | audienceMismatch
  | audienceNotAuthorized
  | recordProfileMismatch
  | recordVersionMismatch
  | recordKindMismatch
  | recordDigestMismatch
  | snapshotFromFuture
  | snapshotPredatesStatement
  | staleSnapshot
  | snapshotAgePolicyTooPermissive
  | assertionNotYetValid
  | assertionExpired
  | keyNotYetValid
  | keyExpired
  | keyNotValidAtIssuance
  | keyRevoked
  | authorityEpochMismatch
  | configurationEpochMismatch
  | protocol (error : ProtocolError)
deriving DecidableEq

/-! ## Field checks -/

/-- A text that is not empty, within its length, without margins and control characters. -/
def validateOpaque (field value : String) (maximumBytes : Nat) : Except AuthorityError Unit :=
  rejectIf (value = "" ∨ byteLen value > maximumBytes ∨ trim value ≠ value ∨
    value.toList.any isControl) (.invalidField field)

/-- A text with the characters of a token. -/
def validateToken (field value : String) : Except AuthorityError Unit := do
  validateOpaque field value 256
  match utf8 value with
  | [] => .error (.invalidField field)
  | b :: bytes => rejectIf (!isTokenStart b ∨ !bytes.all isTokenByte) (.invalidField field)

def validateSafeInteger (field : String) (value : Nat) : Except AuthorityError Unit :=
  if value > maxSafeInteger then .error (.unsafeInteger field) else .ok ()

/-- `for (field, value) in [..] { validate_safe_integer(field, value)?; }` -/
def validateSafeIntegers : List (String × Nat) → Except AuthorityError Unit
  | [] => .ok ()
  | (field, value) :: rest => do
      validateSafeInteger field value
      validateSafeIntegers rest

section Checks

variable {field value : String} {maximumBytes n : Nat} {u : Unit}

@[simp] theorem validateOpaque_eq_ok :
    validateOpaque field value maximumBytes = .ok u ↔ TrimmedText value maximumBytes := by
  simp only [validateOpaque, rejectIf_eq_ok, not_or, not_lt, not_not, List.any_eq_true, not_exists,
    not_and, Bool.not_eq_true]
  constructor
  · rintro ⟨h₁, h₂, h₃, h₄⟩
    exact ⟨h₁, h₂, h₄, h₃⟩
  · rintro ⟨h₁, h₂, h₃, h₄⟩
    exact ⟨h₁, h₂, h₄, h₃⟩

@[simp] theorem validateToken_eq_ok : validateToken field value = .ok u ↔ TokenText value := by
  simp only [validateToken, bind_eq_ok, validateOpaque_eq_ok]
  constructor
  · rintro ⟨-, h, hb⟩
    obtain ⟨b, bytes, hutf⟩ := List.exists_cons_of_ne_nil (utf8_ne_nil h.nonempty)
    simp only [hutf, rejectIf_eq_ok, not_or, Bool.not_eq_true', Bool.not_eq_false,
      List.all_eq_true] at hb
    exact { h with start := by simpa [hutf] using hb.1, bytes := by simpa [hutf] using hb.2 }
  · intro h
    obtain ⟨b, bytes, hutf⟩ := List.exists_cons_of_ne_nil (utf8_ne_nil h.nonempty)
    have h₁ := h.start
    have h₂ := h.bytes
    simp only [hutf, List.head?_cons, Option.mem_def, Option.some.injEq, forall_eq',
      List.tail_cons] at h₁ h₂
    refine ⟨(), h.toTrimmedText, ?_⟩
    simpa [hutf, h₁] using h₂

@[simp] theorem validateSafeInteger_eq_ok :
    validateSafeInteger field n = .ok u ↔ n ≤ maxSafeInteger := by
  unfold validateSafeInteger
  split <;> simp <;> omega

@[simp] theorem validateSafeIntegers_eq_ok {l : List (String × Nat)} :
    validateSafeIntegers l = .ok u ↔ ∀ e ∈ l, e.2 ≤ maxSafeInteger := by
  induction l with
  | nil => simp [validateSafeIntegers]
  | cons e l ih => simp [validateSafeIntegers, ih]

end Checks

/-! ## Statements -/

/-- The kinds of records that an authority can sign. -/
inductive RecordKind where
  | taskCommitment | effectProposal | authorizationDecision | executionGrant | effectReceipt
  | reconciliationRecord
deriving DecidableEq, Repr

namespace RecordKind

def name : RecordKind → String
  | taskCommitment => "task_commitment"
  | effectProposal => "effect_proposal"
  | authorizationDecision => "authorization_decision"
  | executionGrant => "execution_grant"
  | effectReceipt => "effect_receipt"
  | reconciliationRecord => "reconciliation_record"

def variants : List (String × RecordKind) :=
  [taskCommitment, effectProposal, authorizationDecision, executionGrant, effectReceipt,
    reconciliationRecord].map fun k ↦ (k.name, k)

end RecordKind

@[simp] theorem readVariant_kind (k : RecordKind) :
    readVariant RecordKind.variants (.str k.name) = some k := by cases k <;> rfl

/-- What an authority says of a record. -/
structure AuthorityStatement where
  version : Nat
  authorityProfile : String
  statementId : String
  issuer : String
  keyId : String
  role : String
  audience : String
  recordProfile : String
  recordVersion : Nat
  recordKind : RecordKind
  recordDigest : Digest32
  issuedAtMs : Nat
  notBeforeMs : Nat
  expiresAtMs : Nat
  authorityEpoch : Nat
  configurationEpoch : Nat
deriving DecidableEq

namespace AuthorityStatement

def validate (s : AuthorityStatement) : Except AuthorityError Unit := do
  rejectIf (s.version ≠ authorityProfileVersion ∨ s.authorityProfile ≠ Authority.authorityProfile)
    .unsupportedAuthorityProfile
  validateOpaque "statement_id" s.statementId 256
  validateOpaque "issuer" s.issuer 512
  validateOpaque "key_id" s.keyId 256
  validateToken "role" s.role
  validateToken "record_profile" s.recordProfile
  validateOpaque "audience" s.audience 512
  rejectIf (s.recordVersion = 0) (.invalidField "record_version")
  validateSafeIntegers [
    ("version", s.version),
    ("record_version", s.recordVersion),
    ("issued_at_ms", s.issuedAtMs),
    ("not_before_ms", s.notBeforeMs),
    ("expires_at_ms", s.expiresAtMs),
    ("authority_epoch", s.authorityEpoch),
    ("configuration_epoch", s.configurationEpoch)]
  rejectIf (s.issuedAtMs > s.notBeforeMs ∨ s.notBeforeMs ≥ s.expiresAtMs ∨
    s.expiresAtMs - s.notBeforeMs > maxAssertionLifetimeMs) .invalidValidityInterval

instance : ProtocolRecord AuthorityStatement where
  domain := authorityStatementDomain
  validate s := s.validate.mapError fun _ ↦ .invalidBinding "authority_statement"
  fields s := [
    ("version", writeNat s.version),
    ("authority_profile", .str s.authorityProfile),
    ("statement_id", .str s.statementId),
    ("issuer", .str s.issuer),
    ("key_id", .str s.keyId),
    ("role", .str s.role),
    ("audience", .str s.audience),
    ("record_profile", .str s.recordProfile),
    ("record_version", writeNat s.recordVersion),
    ("record_kind", .str s.recordKind.name),
    ("record_digest", writeDigest s.recordDigest),
    ("issued_at_ms", writeNat s.issuedAtMs),
    ("not_before_ms", writeNat s.notBeforeMs),
    ("expires_at_ms", writeNat s.expiresAtMs),
    ("authority_epoch", writeNat s.authorityEpoch),
    ("configuration_epoch", writeNat s.configurationEpoch)]

instance : Deserialize AuthorityStatement where
  names :=
    ["version", "authority_profile", "statement_id", "issuer", "key_id", "role", "audience",
      "record_profile", "record_version", "record_kind", "record_digest", "issued_at_ms",
      "not_before_ms", "expires_at_ms", "authority_epoch", "configuration_epoch"]
  read ms := do
    some {
      version := ← requiredField readU64 ms "version"
      authorityProfile := ← requiredField readText ms "authority_profile"
      statementId := ← requiredField readText ms "statement_id"
      issuer := ← requiredField readText ms "issuer"
      keyId := ← requiredField readText ms "key_id"
      role := ← requiredField readText ms "role"
      audience := ← requiredField readText ms "audience"
      recordProfile := ← requiredField readText ms "record_profile"
      recordVersion := ← requiredField readU64 ms "record_version"
      recordKind := ← requiredField (readVariant RecordKind.variants) ms "record_kind"
      recordDigest := ← requiredField readDigest ms "record_digest"
      issuedAtMs := ← requiredField readU64 ms "issued_at_ms"
      notBeforeMs := ← requiredField readU64 ms "not_before_ms"
      expiresAtMs := ← requiredField readU64 ms "expires_at_ms"
      authorityEpoch := ← requiredField readU64 ms "authority_epoch"
      configurationEpoch := ← requiredField readU64 ms "configuration_epoch" }

/-- What `validate` admits. -/
structure Admitted (s : AuthorityStatement) : Prop where
  version : s.version = authorityProfileVersion
  profile : s.authorityProfile = Authority.authorityProfile
  statementId : TrimmedText s.statementId 256
  issuer : TrimmedText s.issuer 512
  keyId : TrimmedText s.keyId 256
  role : TokenText s.role
  recordProfile : TokenText s.recordProfile
  audience : TrimmedText s.audience 512
  recordVersion_pos : s.recordVersion ≠ 0
  recordVersion_le : s.recordVersion ≤ maxSafeInteger
  expires_le : s.expiresAtMs ≤ maxSafeInteger
  authorityEpoch_le : s.authorityEpoch ≤ maxSafeInteger
  configurationEpoch_le : s.configurationEpoch ≤ maxSafeInteger
  issued_le : s.issuedAtMs ≤ s.notBeforeMs
  not_before_lt : s.notBeforeMs < s.expiresAtMs
  lifetime_le : s.expiresAtMs ≤ s.notBeforeMs + maxAssertionLifetimeMs

/-- The checks of a statement, as conditions on its fields. -/
theorem validate_eq_ok {s : AuthorityStatement} {u : Unit} : s.validate = .ok u ↔ s.Admitted := by
  simp only [validate, bind_eq_ok, rejectIf_eq_ok, validateOpaque_eq_ok, validateToken_eq_ok,
    validateSafeIntegers_eq_ok, List.forall_mem_cons, List.not_mem_nil, false_imp_iff,
    implies_true, and_true, exists_const, not_or, not_not, not_lt, not_le]
  constructor
  · rintro ⟨⟨h₁, h₂⟩, h₃, h₄, h₅, h₆, h₇, h₈, h₉, ⟨-, h₁₀, -, -, h₁₁, h₁₂, h₁₃⟩, h₁₄, h₁₅, h₁₆⟩
    exact ⟨h₁, h₂, h₃, h₄, h₅, h₆, h₇, h₈, h₉, h₁₀, h₁₁, h₁₂, h₁₃, h₁₄, h₁₅, by omega⟩
  · intro h
    have h₁ := h.expires_le
    have h₂ := h.issued_le
    have h₃ := h.not_before_lt
    have h₄ := h.lifetime_le
    exact ⟨⟨h.version, h.profile⟩, h.statementId, h.issuer, h.keyId, h.role, h.recordProfile,
      h.audience, h.recordVersion_pos, ⟨by rw [h.version]; decide, h.recordVersion_le, by omega,
        by omega, h.expires_le, h.authorityEpoch_le, h.configurationEpoch_le⟩, h₂, h₃, by omega⟩

theorem recordValidate_eq_ok {s : AuthorityStatement} {u : Unit} :
    Core.validate s = .ok u ↔ s.Admitted := by
  rw [Core.validate]
  simp only [instProtocolRecord, mapError_eq_ok, validate_eq_ok]

end AuthorityStatement

/-! ## The payload -/

/-- Without control characters a text at most doubles. -/
theorem plain_printable {s : String} {k : Nat} (h : TrimmedText s k) :
    PlainValue (.str s) 1 (2 * k + 2) where
  sorted := rfl
  height := (plain_str h.bounded).height
  bounded := rfl
  nodes_le := le_rfl
  bytes_le := by
    have hprint : ∀ c ∈ s.toList, 0x20 ≤ c.toNat := by
      intro c hc
      have := h.noControl c hc
      simp only [isControl, decide_eq_false_iff_not, not_or, not_le] at this
      omega
    have hq := Json.bytesOf_quote_printable hprint
    have hb := h.bounded
    simp only [byteLen] at hb
    simp only [Json.text]
    omega

theorem plain_kind (k : RecordKind) : PlainValue (.str k.name) 1 (6 * 22 + 2) :=
  plain_str (by cases k <;> decide)

/-- The profile passes its own check. -/
theorem trimmedText_authorityProfile : TrimmedText authorityProfile 51 :=
  (@validateOpaque_eq_ok "authority_profile" _ _ ()).mp rfl

namespace AuthorityStatement

/-- The fields of an admitted statement, with bounds on their total size. -/
theorem Admitted.plain {s : AuthorityStatement} (h : s.Admitted) :
    PlainFields (Serialize.fields s) 16 8190 := by
  have hn : ∀ {n}, n ≤ maxSafeInteger → PlainValue (writeNat n) 1 16 := plain_writeNat
  have hbefore := h.not_before_lt.le.trans h.expires_le
  have hprofile : PlainValue (.str s.authorityProfile) 1 104 := by
    rw [h.profile]
    exact plain_printable trimmedText_authorityProfile
  have hfields : PlainFields (Serialize.fields s) _ _ :=
    .cons (hn (version_le h.version)) <| .cons hprofile <| .cons (plain_printable h.statementId) <|
    .cons (plain_printable h.issuer) <| .cons (plain_printable h.keyId) <|
    .cons (plain_printable h.role.toTrimmedText) <| .cons (plain_printable h.audience) <|
    .cons (plain_printable h.recordProfile.toTrimmedText) <| .cons (hn h.recordVersion_le) <|
    .cons (plain_kind s.recordKind) <| .cons (plain_writeDigest _) <|
    .cons (hn (h.issued_le.trans hbefore)) <| .cons (hn hbefore) <| .cons (hn h.expires_le) <|
    .cons (hn h.authorityEpoch_le) <| .cons (hn h.configurationEpoch_le) .nil
  exact { hfields with
    nodes_le := hfields.nodes_le.trans (by decide)
    bytes_le := hfields.bytes_le.trans (by decide) }

instance : LawfulRecord AuthorityStatement where
  domain_zero_free := by decide
  names_nodup := by decide
  names_eq _ := rfl
  plain h := ⟨_, _, (recordValidate_eq_ok.mp h).plain, by decide, by decide⟩
  read_fields h ms hs := by
    have hs' := recordValidate_eq_ok.mp h
    have hbefore := hs'.not_before_lt.le.trans hs'.expires_le
    simp only [Deserialize.read]
    rw [hs.required rfl (readU64_writeNat (version_le hs'.version)),
      hs.required rfl (readText_str _), hs.required rfl (readText_str _),
      hs.required rfl (readText_str _), hs.required rfl (readText_str _),
      hs.required rfl (readText_str _), hs.required rfl (readText_str _),
      hs.required rfl (readText_str _), hs.required rfl (readU64_writeNat hs'.recordVersion_le),
      hs.required rfl (readVariant_kind _), hs.required rfl (readDigest_writeDigest _),
      hs.required rfl (readU64_writeNat (hs'.issued_le.trans hbefore)),
      hs.required rfl (readU64_writeNat hbefore), hs.required rfl (readU64_writeNat hs'.expires_le),
      hs.required rfl (readU64_writeNat hs'.authorityEpoch_le),
      hs.required rfl (readU64_writeNat hs'.configurationEpoch_le)]
    rfl

/-- The payload of an admitted statement is within the limit of the profile. -/
theorem payload_length_le {s : AuthorityStatement} (h : s.Admitted) :
    (utf8 (canonicalText s)).length ≤ maxPayloadBytes := by
  have hle := h.plain.bytesOf_le (fields_nodup s)
  rw [utf8, canonicalText, String.toList_ofList, sortKeys_toValue (recordValidate_eq_ok.mpr h)]
  exact hle

end AuthorityStatement

end Etp.Authority
