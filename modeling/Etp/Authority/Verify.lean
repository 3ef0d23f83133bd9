import Etp.Authority.Cose
import Etp.Core.Vectors

/-!
# Signing and verifying assertions

`SigningAuthority::sign` and `verify_authority`.  The verifier compares three
re-encodings with what it read: the whole object, the protected header and the
payload.  Together they leave one spelling for everything but the signature
(`one_accepted_encoding`): the object that the signer would have built for the
statement.

Signing never fails on an admitted statement, and what it signs is accepted under
every snapshot and context that meet the bindings of the statement
(`verifyAuthority_sign`).
-/

namespace Etp.Authority

open Etp.Core

/-! ## Snapshots and contexts -/

structure AuthoritySnapshot where
  issuer : String
  keyId : String
  publicKey : Vector UInt8 32
  /-- The elements of a `BTreeSet`, in its order. -/
  authorizedRoles : List String
  authorizedAudiences : List String
  authorityEpoch : Nat
  configurationEpoch : Nat
  keyValidFromMs : Nat
  keyValidUntilMs : Nat
  revokedAtMs : Option Nat
  observedAtMs : Nat
deriving DecidableEq

structure VerificationContext where
  expectedRecordProfile : String
  expectedRecordVersion : Nat
  expectedRecordKind : RecordKind
  expectedRecordDigest : Digest32
  expectedRole : String
  expectedAudience : String
  nowMs : Nat
  maximumSnapshotAgeMs : Nat
deriving DecidableEq

structure VerifiedAuthority where
  statement : AuthorityStatement
  verifiedAtMs : Nat
  snapshotObservedAtMs : Nat
  verifyingKeyDigest : Digest32
deriving DecidableEq

/-- `for role in &self.authorized_roles { validate_token("authorized_role", role)?; }` -/
def validateRoles : List String → Except AuthorityError Unit
  | [] => .ok ()
  | role :: roles => do
      validateToken "authorized_role" role
      validateRoles roles

def validateAudiences : List String → Except AuthorityError Unit
  | [] => .ok ()
  | audience :: audiences => do
      validateOpaque "authorized_audience" audience 512
      validateAudiences audiences

def VerificationContext.validate (context : VerificationContext) : Except AuthorityError Unit := do
  validateToken "expected_record_profile" context.expectedRecordProfile
  validateToken "expected_role" context.expectedRole
  validateOpaque "expected_audience" context.expectedAudience 512
  validateSafeInteger "expected_record_version" context.expectedRecordVersion
  validateSafeInteger "now_ms" context.nowMs
  validateSafeInteger "maximum_snapshot_age_ms" context.maximumSnapshotAgeMs
  rejectIf (context.expectedRecordVersion = 0) (.invalidField "expected_record_version")
  rejectIf (context.maximumSnapshotAgeMs > maxAuthoritySnapshotAgeMs)
    .snapshotAgePolicyTooPermissive

section Ed25519

variable [Ed25519]

def AuthoritySnapshot.validate (snapshot : AuthoritySnapshot) : Except AuthorityError Unit := do
  validateOpaque "issuer" snapshot.issuer 512
  validateOpaque "key_id" snapshot.keyId 256
  rejectIf (snapshot.authorizedRoles = [] ∨ snapshot.authorizedAudiences = [])
    .emptyAuthorizationSet
  validateRoles snapshot.authorizedRoles
  validateAudiences snapshot.authorizedAudiences
  validateSafeIntegers [
    ("authority_epoch", snapshot.authorityEpoch),
    ("configuration_epoch", snapshot.configurationEpoch),
    ("key_valid_from_ms", snapshot.keyValidFromMs),
    ("key_valid_until_ms", snapshot.keyValidUntilMs),
    ("observed_at_ms", snapshot.observedAtMs)]
  validateSafeIntegers (snapshot.revokedAtMs.toList.map fun t ↦ ("revoked_at_ms", t))
  rejectIf (snapshot.keyValidFromMs ≥ snapshot.keyValidUntilMs) .invalidKeyValidityInterval
  rejectIf (!Ed25519.isKey snapshot.publicKey) .invalidPublicKey
  rejectIf (Ed25519.isWeak snapshot.publicKey) .invalidPublicKey

/-! ## Bindings -/

def verifyBindings (statement : AuthorityStatement) (snapshot : AuthoritySnapshot)
    (context : VerificationContext) : Except AuthorityError Unit := do
  rejectIf (snapshot.observedAtMs > context.nowMs) .snapshotFromFuture
  rejectIf (context.nowMs - snapshot.observedAtMs > context.maximumSnapshotAgeMs) .staleSnapshot
  rejectIf (snapshot.observedAtMs < statement.issuedAtMs) .snapshotPredatesStatement
  rejectIf (context.nowMs < statement.notBeforeMs) .assertionNotYetValid
  rejectIf (context.nowMs ≥ statement.expiresAtMs) .assertionExpired
  rejectIf (context.nowMs < snapshot.keyValidFromMs) .keyNotYetValid
  rejectIf (context.nowMs ≥ snapshot.keyValidUntilMs) .keyExpired
  rejectIf (statement.issuedAtMs < snapshot.keyValidFromMs ∨
    statement.issuedAtMs ≥ snapshot.keyValidUntilMs) .keyNotValidAtIssuance
  rejectIf (snapshot.revokedAtMs.any (· ≤ context.nowMs)) .keyRevoked
  rejectIf (statement.authorityEpoch ≠ snapshot.authorityEpoch) .authorityEpochMismatch
  rejectIf (statement.configurationEpoch ≠ snapshot.configurationEpoch) .configurationEpochMismatch
  rejectIf (statement.role ≠ context.expectedRole) .roleMismatch
  rejectIf (statement.role ∉ snapshot.authorizedRoles) .roleNotAuthorized
  rejectIf (statement.audience ≠ context.expectedAudience) .audienceMismatch
  rejectIf (statement.audience ∉ snapshot.authorizedAudiences) .audienceNotAuthorized
  rejectIf (statement.recordProfile ≠ context.expectedRecordProfile) .recordProfileMismatch
  rejectIf (statement.recordVersion ≠ context.expectedRecordVersion) .recordVersionMismatch
  rejectIf (statement.recordKind ≠ context.expectedRecordKind) .recordKindMismatch
  rejectIf (statement.recordDigest ≠ context.expectedRecordDigest) .recordDigestMismatch

end Ed25519

/-- The bindings of the profile between a statement, a snapshot and a context. -/
structure Bindings (statement : AuthorityStatement) (snapshot : AuthoritySnapshot)
    (context : VerificationContext) : Prop where
  not_future : snapshot.observedAtMs ≤ context.nowMs
  not_stale : context.nowMs ≤ snapshot.observedAtMs + context.maximumSnapshotAgeMs
  not_older : statement.issuedAtMs ≤ snapshot.observedAtMs
  not_before_le : statement.notBeforeMs ≤ context.nowMs
  not_expired : context.nowMs < statement.expiresAtMs
  key_valid_from : snapshot.keyValidFromMs ≤ context.nowMs
  key_valid_until : context.nowMs < snapshot.keyValidUntilMs
  issued_from : snapshot.keyValidFromMs ≤ statement.issuedAtMs
  issued_until : statement.issuedAtMs < snapshot.keyValidUntilMs
  not_revoked : ∀ t ∈ snapshot.revokedAtMs, context.nowMs < t
  authorityEpoch : statement.authorityEpoch = snapshot.authorityEpoch
  configurationEpoch : statement.configurationEpoch = snapshot.configurationEpoch
  role : statement.role = context.expectedRole
  role_authorized : statement.role ∈ snapshot.authorizedRoles
  audience : statement.audience = context.expectedAudience
  audience_authorized : statement.audience ∈ snapshot.authorizedAudiences
  recordProfile : statement.recordProfile = context.expectedRecordProfile
  recordVersion : statement.recordVersion = context.expectedRecordVersion
  recordKind : statement.recordKind = context.expectedRecordKind
  recordDigest : statement.recordDigest = context.expectedRecordDigest

theorem verifyBindings_eq_ok {statement : AuthorityStatement} {snapshot : AuthoritySnapshot}
    {context : VerificationContext} {u : Unit} :
    verifyBindings statement snapshot context = .ok u ↔ Bindings statement snapshot context := by
  have hrevoked : ¬snapshot.revokedAtMs.any (· ≤ context.nowMs) = true ↔
      ∀ t ∈ snapshot.revokedAtMs, context.nowMs < t := by
    cases snapshot.revokedAtMs <;> simp
  simp only [verifyBindings, bind_eq_ok, rejectIf_eq_ok, exists_const, hrevoked, not_or, not_not,
    not_lt, not_le]
  constructor
  · rintro ⟨h₁, h₂, h₃, h₄, h₅, h₆, h₇, ⟨h₈, h₉⟩, h₁₀, h₁₁, h₁₂, h₁₃, h₁₄, h₁₅, h₁₆,
      h₁₇, h₁₈, h₁₉, h₂₀⟩
    exact ⟨h₁, by omega, h₃, h₄, h₅, h₆, h₇, h₈, h₉, h₁₀, h₁₁, h₁₂, h₁₃, h₁₄, h₁₅, h₁₆, h₁₇, h₁₈,
      h₁₉, h₂₀⟩
  · intro h
    have := h.not_stale
    exact ⟨h.not_future, by omega, h.not_older, h.not_before_le, h.not_expired, h.key_valid_from,
      h.key_valid_until, ⟨h.issued_from, h.issued_until⟩, h.not_revoked, h.authorityEpoch,
      h.configurationEpoch, h.role, h.role_authorized, h.audience, h.audience_authorized,
      h.recordProfile, h.recordVersion, h.recordKind, h.recordDigest⟩

/-! ## External data -/

structure ExternalAad where
  domain : String
  authorityProfile : String
  authorityProfileVersion : Nat
  recordProfile : String
  recordVersion : Nat
  recordKind : RecordKind

instance : Serialize ExternalAad where
  fields a := [
    ("domain", .str a.domain),
    ("authority_profile", .str a.authorityProfile),
    ("authority_profile_version", writeNat a.authorityProfileVersion),
    ("record_profile", .str a.recordProfile),
    ("record_version", writeNat a.recordVersion),
    ("record_kind", .str a.recordKind.name)]

/-- What the external data of a statement contain. -/
def externalAad (statement : AuthorityStatement) : ExternalAad where
  domain := signatureDomain
  authorityProfile := statement.authorityProfile
  authorityProfileVersion := statement.version
  recordProfile := statement.recordProfile
  recordVersion := statement.recordVersion
  recordKind := statement.recordKind

def authorityExternalAad (statement : AuthorityStatement) :
    Except AuthorityError (List UInt8) :=
  (canonicalJson (externalAad statement)).mapError .protocol

/-- The bytes of the external data, whether or not they are within the budget. -/
def externalAadBytes (statement : AuthorityStatement) : List UInt8 :=
  utf8 (canonicalText (externalAad statement))

theorem authorityExternalAad_of_admitted {s : AuthorityStatement} (h : s.Admitted) :
    authorityExternalAad s = .ok (externalAadBytes s) := by
  have hdomain : PlainValue (.str signatureDomain) 1 (6 * 64 + 2) := plain_str (by decide)
  have hfields : PlainFields (Serialize.fields (externalAad s)) _ _ :=
    .cons hdomain <| .cons (plain_str (h.profile ▸ trimmedText_authorityProfile).bounded) <|
    .cons (plain_writeNat (version_le h.version)) <| .cons h.recordProfile.plain <|
    .cons (plain_writeNat h.recordVersion_le) <| .cons (plain_kind _) .nil
  have hnames : ((Serialize.fields (externalAad s)).map Prod.fst).Nodup := by
    show ["domain", "authority_profile", "authority_profile_version", "record_profile",
      "record_version", "record_kind"].Nodup
    decide
  have henc := hfields.encodable hnames (by decide)
  simp only [authorityExternalAad, mapError_eq_ok]
  exact canonicalJson_of_encodable henc

/-! ## Signing -/

section Crates

variable [Ed25519]

/-- A signing identity, with what `from_seed` checks of it. -/
structure SigningAuthority where
  issuer : String
  keyId : String
  seed : Vector UInt8 32
  issuer_checked : validateOpaque "issuer" issuer 512 = .ok ()
  keyId_checked : validateOpaque "key_id" keyId 256 = .ok ()
  not_weak : Ed25519.isWeak (Ed25519.publicKey seed) = false

namespace SigningAuthority

def fromSeed (issuer keyId : String) (seed : Vector UInt8 32) :
    Except AuthorityError SigningAuthority :=
  match h₁ : validateOpaque "issuer" issuer 512, h₂ : validateOpaque "key_id" keyId 256 with
  | .error e, _ => .error e
  | .ok (), .error e => .error e
  | .ok (), .ok () =>
      if h₃ : Ed25519.isWeak (Ed25519.publicKey seed) then .error .invalidPublicKey
      else .ok ⟨issuer, keyId, seed, h₁, h₂, by simpa using h₃⟩

def publicKey (a : SigningAuthority) : Vector UInt8 32 := Ed25519.publicKey a.seed

def sign (a : SigningAuthority) (statement : AuthorityStatement) :
    Except AuthorityError (List UInt8) := do
  statement.validate
  rejectIf (statement.issuer ≠ a.issuer) .issuerMismatch
  rejectIf (statement.keyId ≠ a.keyId) .keyIdMismatch
  let payload ← (canonicalJson statement).mapError .protocol
  rejectIf (payload.length > maxPayloadBytes) .payloadTooLarge
  let externalAad ← authorityExternalAad statement
  let toBeSigned := (profileObject a.keyId payload []).tbsData externalAad
  let signature := Ed25519.sign a.seed toBeSigned
  let encoded := (profileObject a.keyId payload signature.toList).toTaggedVec
  rejectIf (encoded.length > maxCoseBytes) .coseTooLarge
  .ok encoded

end SigningAuthority

/-! ## Verifying -/

variable [Sha256] [Coset]

def verifyAuthority (encoded : List UInt8) (snapshot : AuthoritySnapshot)
    (context : VerificationContext) : Except AuthorityError VerifiedAuthority := do
  context.validate
  snapshot.validate
  rejectIf (encoded.length > maxCoseBytes) .coseTooLarge
  let signed ← (Coset.fromTaggedSlice encoded).mapError .malformedCose
  rejectIf (signed.toTaggedVec ≠ encoded) .nonCanonicalCose
  rejectIf (!signed.unprotected.isEmpty) .unprotectedHeaders
  let payload ← okOr signed.payload .missingPayload
  rejectIf (payload.length > maxPayloadBytes) .payloadTooLarge
  let statement ← (parseRecord AuthorityStatement payload).mapError .protocol
  statement.validate
  let canonicalPayload ← (canonicalJson statement).mapError .protocol
  rejectIf (canonicalPayload ≠ payload) .nonCanonicalPayload
  let header := expectedHeader statement.keyId
  rejectIf (signed.protectedHeader.header ≠ header) .invalidProtectedHeaders
  rejectIf (signed.protectedHeader.originalData ≠ some header.toVec) .nonCanonicalCose
  rejectIf (statement.issuer ≠ snapshot.issuer) .issuerMismatch
  rejectIf (statement.keyId ≠ snapshot.keyId) .keyIdMismatch
  rejectIf (!Ed25519.isKey snapshot.publicKey) .invalidPublicKey
  let externalAad ← authorityExternalAad statement
  let signature ← okOr (signatureFromSlice signed.signature) .invalidSignature
  rejectIf (!Ed25519.verifyStrict snapshot.publicKey (signed.tbsData externalAad) signature)
    .invalidSignature
  verifyBindings statement snapshot context
  .ok {
    statement
    verifiedAtMs := context.nowMs
    snapshotObservedAtMs := snapshot.observedAtMs
    verifyingKeyDigest := .fromPayload snapshot.publicKey.toList }

/-! ## What the signer and the verifier do -/

/-- The payload of a statement. -/
def payloadBytes (statement : AuthorityStatement) : List UInt8 := utf8 (canonicalText statement)

/-- The bytes that are signed for a statement. -/
def toBeSigned (statement : AuthorityStatement) : List UInt8 :=
  (profileObject statement.keyId (payloadBytes statement) []).tbsData (externalAadBytes statement)

/-- The assertion of a statement with a signature. -/
def assertion (statement : AuthorityStatement) (signature : Vector UInt8 64) : List UInt8 :=
  (profileObject statement.keyId (payloadBytes statement) signature.toList).toTaggedVec

/-- What makes an assertion acceptable: it is the assertion of an admitted statement, of
the snapshot's issuer and key, with a signature that verifies, and the bindings hold. -/
structure Accepts (encoded : List UInt8) (snapshot : AuthoritySnapshot)
    (context : VerificationContext) (statement : AuthorityStatement) : Prop where
  admitted : statement.Admitted
  payload : canonicalJson statement = .ok (payloadBytes statement)
  externalAad : authorityExternalAad statement = .ok (externalAadBytes statement)
  encoding : ∃ signature, encoded = assertion statement signature ∧
    Ed25519.verifyStrict snapshot.publicKey (toBeSigned statement) signature = true
  issuer : statement.issuer = snapshot.issuer
  keyId : statement.keyId = snapshot.keyId
  bindings : Bindings statement snapshot context

omit [Ed25519] [Sha256] [Coset] in
theorem canonicalJson_of_admitted {s : AuthorityStatement} (h : s.Admitted) :
    canonicalJson s = .ok (payloadBytes s) :=
  canonicalJson_of_valid (AuthorityStatement.recordValidate_eq_ok.mpr h)

omit [Sha256] [Coset] in
/-- Signing an admitted statement of the signer's identity never fails. -/
theorem sign_eq_ok {a : SigningAuthority} {s : AuthorityStatement} (h : s.Admitted)
    (hissuer : s.issuer = a.issuer) (hkey : s.keyId = a.keyId) :
    a.sign s = .ok (assertion s (Ed25519.sign a.seed (toBeSigned s))) := by
  have hpayload := AuthorityStatement.payload_length_le h
  have hlen := @length_profileObject_le s.keyId (payloadBytes s)
    (Ed25519.sign a.seed (toBeSigned s)) h.keyId.bounded hpayload
  simp only [SigningAuthority.sign, bind_eq_ok, rejectIf_eq_ok, mapError_eq_ok, exists_const,
    not_not, not_lt, Except.ok.injEq, ← hkey]
  exact ⟨(), AuthorityStatement.validate_eq_ok.mpr h, hissuer, trivial, payloadBytes s,
    canonicalJson_of_admitted h, hpayload, externalAadBytes s, authorityExternalAad_of_admitted h,
    hlen, rfl⟩

variable {encoded : List UInt8} {snapshot : AuthoritySnapshot} {context : VerificationContext}
  {v : VerifiedAuthority}

/-- What the verifier accepts is the assertion of the statement it returns. -/
theorem accepts_of_verifyAuthority (h : verifyAuthority encoded snapshot context = .ok v) :
    Accepts encoded snapshot context v.statement := by
  simp only [verifyAuthority, bind_eq_ok, rejectIf_eq_ok, mapError_eq_ok, okOr_eq_ok, exists_const,
    not_not, not_lt, Bool.not_eq_eq_eq_not, Bool.not_true, Bool.not_eq_false,
    Except.ok.injEq] at h
  obtain ⟨_, -, _, -, -, signed, -, hcose, hunprotected, payload, hpayload, -, s, -, _, hs,
    canonical, hcanonical, heq, hheader, hdata, hissuer, hkey, -, aad, haad, signature, hsig,
    hverify, _, hbindings, rfl⟩ := h
  have hadmitted := AuthorityStatement.validate_eq_ok.mp hs
  have hbytes : payload = payloadBytes s :=
    heq.symm.trans (Except.ok.inj (hcanonical.symm.trans (canonicalJson_of_admitted hadmitted)))
  have haadBytes : aad = externalAadBytes s :=
    Except.ok.inj (haad.symm.trans (authorityExternalAad_of_admitted hadmitted))
  -- The three comparisons fix every part of the object but the signature.
  have hsigned : signed = (profileObject s.keyId (payloadBytes s) signature.toList).decoded := by
    obtain ⟨⟨data, header⟩, ⟨members⟩, _, bytes⟩ := signed
    have hmembers : members = [] := List.isEmpty_iff.mp hunprotected
    dsimp only at hheader hdata hpayload hsig
    rw [decoded_profileObject, hheader, hdata, hpayload, hbytes, hmembers,
      signatureFromSlice_eq_some.mp hsig]
  rw [hsigned, toTaggedVec_decoded] at hcose
  rw [hsigned, tbsData_decoded, tbsData_profileObject, haadBytes] at hverify
  exact {
    admitted := hadmitted
    payload := canonicalJson_of_admitted hadmitted
    externalAad := authorityExternalAad_of_admitted hadmitted
    encoding := ⟨signature, hcose.symm, hverify⟩
    issuer := hissuer
    keyId := hkey
    bindings := verifyBindings_eq_ok.mp hbindings }

/-- The bytes alone decide which statement they carry. -/
theorem statement_eq_of_same_bytes {snapshot' : AuthoritySnapshot} {context' : VerificationContext}
    {v' : VerifiedAuthority} (h : verifyAuthority encoded snapshot context = .ok v)
    (h' : verifyAuthority encoded snapshot' context' = .ok v') : v'.statement = v.statement := by
  have hread : ∀ {s c w}, verifyAuthority encoded s c = .ok w → ∃ signed payload,
      Coset.fromTaggedSlice encoded = .ok signed ∧ signed.payload = some payload ∧
        parseRecord AuthorityStatement payload = .ok w.statement := by
    intro s c w hw
    simp only [verifyAuthority, bind_eq_ok, mapError_eq_ok, okOr_eq_ok, Except.ok.injEq] at hw
    obtain ⟨_, -, _, -, _, -, signed, hsigned, _, -, _, -, payload, hpayload, _, -, statement,
      hparse, _, -, _, -, _, -, _, -, _, -, _, -, _, -, _, -, _, -, _, -, _, -, _, -, rfl⟩ := hw
    exact ⟨signed, payload, hsigned, hpayload, hparse⟩
  obtain ⟨signed, payload, hsigned, hpayload, hparse⟩ := hread h
  obtain ⟨signed', payload', hsigned', hpayload', hparse'⟩ := hread h'
  cases hsigned.symm.trans hsigned'
  cases hpayload.symm.trans hpayload'
  exact Except.ok.inj (hparse'.symm.trans hparse)

omit [Sha256] [Coset] in
theorem isKey_of_validate (h : snapshot.validate = .ok ()) :
    Ed25519.isKey snapshot.publicKey = true := by
  simp only [AuthoritySnapshot.validate, bind_eq_ok, rejectIf_eq_ok, exists_const,
    Bool.not_eq_eq_eq_not, Bool.not_true, Bool.not_eq_false] at h
  obtain ⟨_, -, _, -, -, _, -, _, -, _, -, _, -, -, hkey, -⟩ := h
  exact hkey

variable [LawfulCoset]

/-- An acceptable assertion is accepted. -/
theorem verifyAuthority_of_accepts {s : AuthorityStatement} (hcontext : context.validate = .ok ())
    (hsnapshot : snapshot.validate = .ok ()) (h : Accepts encoded snapshot context s) :
    ∃ v, verifyAuthority encoded snapshot context = .ok v ∧ v.statement = s := by
  obtain ⟨signature, rfl, hverify⟩ := h.encoding
  have hlen := @length_profileObject_le s.keyId (payloadBytes s) signature h.admitted.keyId.bounded
    (AuthorityStatement.payload_length_le h.admitted)
  have hread := LawfulCoset.fromTaggedSlice_toTaggedVec s.keyId (payloadBytes s) signature.toList
    h.admitted.keyId.nonempty (hlen.trans_lt (by decide))
  have hparse := parseRecord_canonicalText
    (AuthorityStatement.recordValidate_eq_ok.mpr h.admitted)
  have hdecoded := decoded_profileObject s.keyId (payloadBytes s) signature.toList
  refine ⟨⟨s, context.nowMs, snapshot.observedAtMs, .fromPayload snapshot.publicKey.toList⟩,
    ?_, rfl⟩
  simp only [verifyAuthority, bind_eq_ok, rejectIf_eq_ok, mapError_eq_ok, okOr_eq_ok, exists_const,
    not_not, not_lt, Bool.not_eq_eq_eq_not, Bool.not_true, Bool.not_eq_false, Except.ok.injEq]
  refine ⟨(), hcontext, (), hsnapshot, hlen, _, hread, toTaggedVec_decoded _, ?_, payloadBytes s,
    ?_, AuthorityStatement.payload_length_le h.admitted, s, hparse, (),
    AuthorityStatement.validate_eq_ok.mpr h.admitted, payloadBytes s, h.payload, rfl, ?_, ?_,
    h.issuer, h.keyId, isKey_of_validate hsnapshot, externalAadBytes s, h.externalAad, signature,
    ?_, ?_, (), verifyBindings_eq_ok.mpr h.bindings, rfl⟩
  · rw [hdecoded]
    rfl
  · rw [hdecoded]
  · rw [hdecoded]
  · rw [hdecoded]
  · rw [hdecoded, signatureFromSlice_toList]
  · rw [tbsData_decoded, tbsData_profileObject]
    exact hverify

/-! ## The profile -/

omit [LawfulCoset] in
/-- **One accepted encoding.**  An accepted input is the assertion that the signer
builds for the returned statement, byte for byte, with a signature that verifies;
the statement is admitted and every binding holds.  Two accepted inputs with the
same statement differ at most in their last 64 bytes. -/
theorem one_accepted_encoding (h : verifyAuthority encoded snapshot context = .ok v) :
    Accepts encoded snapshot context v.statement ∧
      ∀ {encoded' : List UInt8} {context' : VerificationContext} {v' : VerifiedAuthority},
        verifyAuthority encoded' snapshot context' = .ok v' → v'.statement = v.statement →
          ∃ (start : List UInt8) (signature signature' : Vector UInt8 64),
            encoded = start ++ signature.toList ∧ encoded' = start ++ signature'.toList := by
  have hacc := accepts_of_verifyAuthority h
  refine ⟨hacc, fun {encoded' context' v'} h' hs ↦ ?_⟩
  obtain ⟨signature, henc, -⟩ := hacc.encoding
  obtain ⟨signature', henc', -⟩ := (accepts_of_verifyAuthority h').encoding
  rw [hs] at henc'
  refine ⟨assertionPrefix v.statement.keyId (payloadBytes v.statement), signature, signature',
    ?_, ?_⟩
  · rw [henc, assertion, toTaggedVec_profileObject]
  · rw [henc', assertion, toTaggedVec_profileObject]

variable [LawfulEd25519]

/-- **Signing then verifying.**  An admitted statement of the signer's identity is
signed, its payload being within the limit, and the result is accepted under every
snapshot of the signer's key and every context that meet the bindings. -/
theorem verifyAuthority_sign (a : SigningAuthority) {s : AuthorityStatement}
    (h : s.validate = .ok ()) (hissuer : s.issuer = a.issuer) (hkey : s.keyId = a.keyId) :
    (∃ payload, canonicalJson s = .ok payload ∧ payload.length ≤ maxPayloadBytes) ∧
      ∃ encoded, a.sign s = .ok encoded ∧
        ∀ {snapshot : AuthoritySnapshot} {context : VerificationContext},
          snapshot.validate = .ok () → snapshot.publicKey = a.publicKey →
          snapshot.issuer = a.issuer → snapshot.keyId = a.keyId → context.validate = .ok () →
          Bindings s snapshot context →
            ∃ v, verifyAuthority encoded snapshot context = .ok v ∧ v.statement = s := by
  have hadmitted := AuthorityStatement.validate_eq_ok.mp h
  refine ⟨⟨_, canonicalJson_of_admitted hadmitted,
    AuthorityStatement.payload_length_le hadmitted⟩, _, sign_eq_ok hadmitted hissuer hkey, ?_⟩
  intro snapshot context hsnapshot hpublic hissuer' hkey' hcontext hbindings
  refine verifyAuthority_of_accepts hcontext hsnapshot {
    admitted := hadmitted
    payload := canonicalJson_of_admitted hadmitted
    externalAad := authorityExternalAad_of_admitted hadmitted
    encoding := ⟨Ed25519.sign a.seed (toBeSigned s), rfl, ?_⟩
    issuer := hissuer.trans hissuer'.symm
    keyId := hkey.trans hkey'.symm
    bindings := hbindings }
  rw [hpublic]
  exact LawfulEd25519.verifyStrict_sign a.seed (toBeSigned s) a.not_weak

end Crates

/-! ## The published assertion

`vectors/authority-cose-sign1-ed25519-0.1.json`.  The signature of its statement is
the published one; what the key signs otherwise does not matter here. -/

namespace Vectors

open Etp.Core.Vectors

def publishedStatement : AuthorityStatement where
  version := 1
  authorityProfile := "effect-transaction/authority/cose-sign1-ed25519/0.1"
  statementId := "authority-assertion-001"
  issuer := "spiffe://example.test/authority"
  keyId := "root-2026-09"
  role := "execution_authorizer"
  audience := "executor:production-a"
  recordProfile := "effect-transaction/core/0.1"
  recordVersion := 1
  recordKind := .executionGrant
  recordDigest :=
    hexDigest 0x8de7d5db336e68d6fd250070c6f113c6ebfa450af1a4ef5d15e0ea1a25dbce22
  issuedAtMs := 1000000
  notBeforeMs := 1000000
  expiresAtMs := 1300000
  authorityEpoch := 12
  configurationEpoch := 41

def publishedKey : Vector UInt8 32 :=
  hexBytes 0xea4a6c63e29c520abef5507b132ec5f9954776aebebe7b92421eea691446d22c

def publishedSignature : Vector UInt8 64 :=
  (hexBytes 0x32c1a7321d0b420c9bfcbc3e1be6d623176d21f2c809bc0f162b710fd90503a2) ++
    (hexBytes 0xc98162eaef53b881adad0234b0b06b2848090faffdb8fb7a22d87a4382501803)

/-- The key pair of the vector. -/
@[reducible] def publishedEd25519 : Ed25519 where
  isKey key := decide (key = publishedKey)
  isWeak _ := false
  publicKey _ := publishedKey
  sign _ message :=
    if message = toBeSigned publishedStatement then publishedSignature else Vector.replicate 64 0
  verifyStrict key message signature := decide (key = publishedKey ∧ signature =
    if message = toBeSigned publishedStatement then publishedSignature else Vector.replicate 64 0)

theorem lawfulEd25519_published : @LawfulEd25519 publishedEd25519 :=
  @LawfulEd25519.mk publishedEd25519 fun _ _ _ ↦ decide_eq_true ⟨rfl, rfl⟩

def publishedSnapshot : AuthoritySnapshot where
  issuer := "spiffe://example.test/authority"
  keyId := "root-2026-09"
  publicKey := publishedKey
  authorizedRoles := ["execution_authorizer"]
  authorizedAudiences := ["executor:production-a"]
  authorityEpoch := 12
  configurationEpoch := 41
  keyValidFromMs := 900000
  keyValidUntilMs := 2000000
  revokedAtMs := none
  observedAtMs := 1000100

def publishedContext : VerificationContext where
  expectedRecordProfile := "effect-transaction/core/0.1"
  expectedRecordVersion := 1
  expectedRecordKind := .executionGrant
  expectedRecordDigest := publishedStatement.recordDigest
  expectedRole := "execution_authorizer"
  expectedAudience := "executor:production-a"
  nowMs := 1000100
  maximumSnapshotAgeMs := 1000

theorem publishedStatement_valid : publishedStatement.validate = .ok () := rfl

theorem publishedContext_valid : publishedContext.validate = .ok () := rfl

theorem published_bindings : Bindings publishedStatement publishedSnapshot publishedContext :=
  (@verifyBindings_eq_ok _ _ _ ()).mp rfl

section Published

attribute [local instance] publishedEd25519 assertionCoset lawfulCoset_assertionCoset
  lawfulEd25519_published

def publishedAuthority : SigningAuthority where
  issuer := publishedStatement.issuer
  keyId := publishedStatement.keyId
  seed := hexBytes 0x0707070707070707070707070707070707070707070707070707070707070707
  issuer_checked := rfl
  keyId_checked := rfl
  not_weak := rfl

theorem publishedSnapshot_valid : publishedSnapshot.validate = .ok () := rfl

theorem published_accepted : ∃ encoded v,
    verifyAuthority encoded publishedSnapshot publishedContext = .ok v ∧
      v.statement = publishedStatement := by
  have hadmitted := AuthorityStatement.validate_eq_ok.mp publishedStatement_valid
  refine ⟨_, verifyAuthority_of_accepts publishedContext_valid publishedSnapshot_valid {
    admitted := hadmitted
    payload := canonicalJson_of_admitted hadmitted
    externalAad := authorityExternalAad_of_admitted hadmitted
    encoding := ⟨Ed25519.sign publishedAuthority.seed (toBeSigned publishedStatement), rfl, ?_⟩
    issuer := rfl
    keyId := rfl
    bindings := published_bindings }⟩
  exact LawfulEd25519.verifyStrict_sign publishedAuthority.seed _ publishedAuthority.not_weak

/-- The published assertion, compared with itself. -/
theorem one_accepted_encoding_published : ∃ encoded v,
    verifyAuthority encoded publishedSnapshot publishedContext = .ok v ∧
      Accepts encoded publishedSnapshot publishedContext v.statement ∧
      ∃ (start : List UInt8) (signature signature' : Vector UInt8 64),
        encoded = start ++ signature.toList ∧ encoded = start ++ signature'.toList := by
  obtain ⟨encoded, v, hv, -⟩ := published_accepted
  obtain ⟨hacc, hsame⟩ := one_accepted_encoding hv
  exact ⟨encoded, v, hv, hacc, hsame hv rfl⟩

theorem verifyAuthority_sign_published : ∃ encoded v,
    publishedAuthority.sign publishedStatement = .ok encoded ∧
      verifyAuthority encoded publishedSnapshot publishedContext = .ok v ∧
      v.statement = publishedStatement := by
  obtain ⟨-, encoded, hsign, hverify⟩ :=
    verifyAuthority_sign publishedAuthority publishedStatement_valid rfl rfl
  obtain ⟨v, hv, hs⟩ := hverify publishedSnapshot_valid rfl rfl rfl publishedContext_valid
    published_bindings
  exact ⟨encoded, v, hsign, hv, hs⟩

end Published

end Vectors

end Etp.Authority
