import Etp.Lib.Cbor
import Etp.Authority.Statement

/-!
# Signed objects

The two third-party crates under the authority profile.  `coset` writes and reads
`COSE_Sign1` objects.  Writing is defined here as RFC 9052 has it: the protected
header is written from the bytes it was decoded from, if it was decoded, and from
its members otherwise.  Reading is the parameter `Coset`, and its one law says
that a written object of the profile reads back.  `ed25519-dalek` is the
parameter `Ed25519`, and its law says that a signature verifies under the key of
its seed.

An assertion is one object per statement and signature; `profileObject` is that
object, with nothing read from the wire.
-/

namespace Etp.Authority

open Etp.Core

/-! ## Objects -/

/-- `coset::Header` as the map it is written as: each label and each value is the
bytes of its item. -/
structure Header where
  members : List (List UInt8 × List UInt8)
deriving DecidableEq

namespace Header

def isEmpty (h : Header) : Bool := h.members.isEmpty

def toVec (h : Header) : List UInt8 :=
  Cbor.head 5 h.members.length ++ h.members.flatMap fun e ↦ e.1 ++ e.2

end Header

structure ProtectedHeader where
  originalData : Option (List UInt8)
  header : Header
deriving DecidableEq

/-- The contents of the byte string a protected header is written as. -/
def ProtectedHeader.cborBstr (p : ProtectedHeader) : List UInt8 :=
  match p.originalData with
  | some data => data
  | none => if p.header.isEmpty then [] else p.header.toVec

structure CoseSign1 where
  protectedHeader : ProtectedHeader
  unprotected : Header
  payload : Option (List UInt8)
  signature : List UInt8
deriving DecidableEq

namespace CoseSign1

def toTaggedVec (s : CoseSign1) : List UInt8 :=
  Cbor.head 6 18 ++ Cbor.head 4 4 ++ Cbor.bstr s.protectedHeader.cborBstr ++ s.unprotected.toVec ++
    s.payload.elim Cbor.null Cbor.bstr ++ Cbor.bstr s.signature

/-- The bytes of the `Sig_structure` that is signed. -/
def tbsData (s : CoseSign1) (externalAad : List UInt8) : List UInt8 :=
  Cbor.head 4 4 ++ Cbor.tstr (utf8 "Signature1") ++ Cbor.bstr s.protectedHeader.cborBstr ++
    Cbor.bstr externalAad ++ Cbor.bstr (s.payload.getD [])

end CoseSign1

/-- `expected_header`: the algorithm EdDSA, the content type, and the key identifier
unless it is empty. -/
def expectedHeader (keyId : String) : Header where
  members :=
    [(Cbor.head 0 1, Cbor.head 1 7), (Cbor.head 0 3, Cbor.tstr (utf8 coseContentType))] ++
      if keyId = "" then [] else [(Cbor.head 0 4, Cbor.bstr (utf8 keyId))]

/-! ## The crates -/

/-- `CoseSign1::from_tagged_slice` -/
class Coset where
  fromTaggedSlice : List UInt8 → Except String CoseSign1

/-- The object of an assertion as the signer builds it. -/
def profileObject (keyId : String) (payload signature : List UInt8) : CoseSign1 where
  protectedHeader := ⟨none, expectedHeader keyId⟩
  unprotected := ⟨[]⟩
  payload := some payload
  signature := signature

/-- An object with the bytes its protected header was decoded from. -/
def CoseSign1.decoded (s : CoseSign1) : CoseSign1 :=
  { s with protectedHeader := { s.protectedHeader with
      originalData := some s.protectedHeader.cborBstr } }

/-- What is written of the profile reads back, with the protected bytes kept. -/
class LawfulCoset [Coset] : Prop where
  fromTaggedSlice_toTaggedVec (keyId : String) (payload signature : List UInt8) : keyId ≠ "" →
    (profileObject keyId payload signature).toTaggedVec.length < 2 ^ 64 →
      Coset.fromTaggedSlice (profileObject keyId payload signature).toTaggedVec =
        .ok (profileObject keyId payload signature).decoded

/-- The Ed25519 operations. -/
class Ed25519 where
  /-- `VerifyingKey::from_bytes` is `Ok`. -/
  isKey : Vector UInt8 32 → Bool
  isWeak : Vector UInt8 32 → Bool
  /-- The verifying key of a seed. -/
  publicKey : Vector UInt8 32 → Vector UInt8 32
  sign : Vector UInt8 32 → List UInt8 → Vector UInt8 64
  verifyStrict : Vector UInt8 32 → List UInt8 → Vector UInt8 64 → Bool

class LawfulEd25519 [Ed25519] : Prop where
  verifyStrict_sign (seed : Vector UInt8 32) (message : List UInt8) :
    Ed25519.isWeak (Ed25519.publicKey seed) = false →
      Ed25519.verifyStrict (Ed25519.publicKey seed) message (Ed25519.sign seed message) = true

/-- `Signature::from_slice` -/
def signatureFromSlice (bytes : List UInt8) : Option (Vector UInt8 64) :=
  if h : bytes.length = 64 then some ⟨bytes.toArray, by simpa using h⟩ else none

@[simp] theorem signatureFromSlice_toList (signature : Vector UInt8 64) :
    signatureFromSlice signature.toList = some signature := by
  obtain ⟨bytes, hbytes⟩ := signature
  simp [signatureFromSlice, Vector.toList, hbytes]

theorem signatureFromSlice_eq_some {bytes : List UInt8} {signature : Vector UInt8 64} :
    signatureFromSlice bytes = some signature ↔ bytes = signature.toList := by
  constructor
  · intro h
    unfold signatureFromSlice at h
    split_ifs at h
    obtain rfl := Option.some.inj h
    simp
  · rintro rfl
    exact signatureFromSlice_toList signature

/-! ## Re-encoding -/

@[simp] theorem cborBstr_decoded (s : CoseSign1) :
    s.decoded.protectedHeader.cborBstr = s.protectedHeader.cborBstr := rfl

@[simp] theorem toTaggedVec_decoded (s : CoseSign1) : s.decoded.toTaggedVec = s.toTaggedVec := rfl

@[simp] theorem tbsData_decoded (s : CoseSign1) (externalAad : List UInt8) :
    s.decoded.tbsData externalAad = s.tbsData externalAad := rfl

/-- The protected header of an assertion is not empty, so it is written as its map. -/
theorem cborBstr_profileObject (keyId : String) (payload signature : List UInt8) :
    (profileObject keyId payload signature).protectedHeader.cborBstr =
      (expectedHeader keyId).toVec := rfl

/-- The signed bytes do not depend on the signature. -/
theorem tbsData_profileObject (keyId : String) (payload signature externalAad : List UInt8) :
    (profileObject keyId payload signature).tbsData externalAad =
      (profileObject keyId payload []).tbsData externalAad := rfl

/-- The object that an assertion is read as. -/
theorem decoded_profileObject (keyId : String) (payload signature : List UInt8) :
    (profileObject keyId payload signature).decoded =
      ⟨⟨some (expectedHeader keyId).toVec, expectedHeader keyId⟩, ⟨[]⟩,
        some payload, signature⟩ := by
  rw [CoseSign1.decoded, cborBstr_profileObject]
  rfl

/-- The bytes of an assertion before its signature. -/
def assertionPrefix (keyId : String) (payload : List UInt8) : List UInt8 :=
  Cbor.head 6 18 ++ Cbor.head 4 4 ++ Cbor.bstr (expectedHeader keyId).toVec ++ Cbor.head 5 0 ++
    Cbor.bstr payload ++ Cbor.head 2 64

/-- The encoding of an assertion ends with its signature. -/
theorem toTaggedVec_profileObject (keyId : String) (payload : List UInt8)
    (signature : Vector UInt8 64) :
    (profileObject keyId payload signature.toList).toTaggedVec =
      assertionPrefix keyId payload ++ signature.toList := by
  rw [CoseSign1.toTaggedVec, cborBstr_profileObject]
  have hempty : (Header.mk []).toVec = Cbor.head 5 0 := rfl
  simp only [profileObject, hempty, assertionPrefix, Cbor.bstr, Option.elim_some,
    Vector.length_toList, List.append_assoc]

theorem length_expectedHeader_le {keyId : String} (h : byteLen keyId ≤ 256) :
    (expectedHeader keyId).toVec.length ≤ 400 := by
  have hkid := Cbor.length_bstr_le (utf8 keyId)
  have htype := Cbor.length_tstr_le (utf8 coseContentType)
  have hcount := Cbor.length_head_le 5 (expectedHeader keyId).members.length
  have hlen : (utf8 coseContentType).length = 43 := rfl
  have h₁ : ∀ n < 24, ∀ major, (Cbor.head major n).length = 1 := by
    intro n hn major
    rw [Cbor.head, if_pos hn, List.length_singleton]
  simp only [byteLen] at h
  rw [Header.toVec, List.length_append]
  unfold expectedHeader at *
  split_ifs at *
  · simp [h₁] at *
    omega
  · simp [h₁] at *
    omega

/-- An assertion with a payload within its limit is within the limit of the object. -/
theorem length_profileObject_le {keyId : String} {payload : List UInt8}
    {signature : Vector UInt8 64} (hkey : byteLen keyId ≤ 256)
    (hpayload : payload.length ≤ maxPayloadBytes) :
    (profileObject keyId payload signature.toList).toTaggedVec.length ≤ maxCoseBytes := by
  have hheader := length_expectedHeader_le hkey
  have h₁ := Cbor.length_bstr_le (expectedHeader keyId).toVec
  have h₂ := Cbor.length_bstr_le payload
  have h₃ := Cbor.length_head_le 2 64
  have h₄ : (Cbor.head 6 18).length = 1 := rfl
  have h₅ : (Cbor.head 4 4).length = 1 := rfl
  have h₆ : (Cbor.head 5 0).length = 1 := rfl
  rw [toTaggedVec_profileObject]
  simp only [assertionPrefix, List.length_append, Vector.length_toList, maxPayloadBytes,
    maxCoseBytes] at *
  omega

/-! ## A reader of assertions -/

def dropPrefix (start input : List UInt8) : Option (List UInt8) :=
  if start.isPrefixOf input then some (input.drop start.length) else none

@[simp] theorem dropPrefix_append (start input : List UInt8) :
    dropPrefix start (start ++ input) = some input := by
  rw [dropPrefix, if_pos (List.isPrefixOf_iff_prefix.mpr (List.prefix_append _ _)), List.drop_left]

/-- The bytes of the expected header before the key identifier. -/
def headerStart : List UInt8 :=
  Cbor.head 5 3 ++ Cbor.head 0 1 ++ Cbor.head 1 7 ++ Cbor.head 0 3 ++
    Cbor.tstr (utf8 coseContentType) ++ Cbor.head 0 4

theorem toVec_expectedHeader {keyId : String} (h : keyId ≠ "") :
    (expectedHeader keyId).toVec = headerStart ++ Cbor.bstr (utf8 keyId) := by
  simp only [Header.toVec, expectedHeader, if_neg h, headerStart, List.append_assoc,
    List.flatMap_append, List.flatMap_cons, List.flatMap_nil, List.length_append, List.length_cons,
    List.length_nil, List.append_nil]

/-- A reader for the objects of the profile and no others. -/
def readAssertion (input : List UInt8) : Option CoseSign1 := do
  let input ← dropPrefix (Cbor.head 6 18 ++ Cbor.head 4 4) input
  let (header, input) ← Cbor.readBstr input
  let input ← dropPrefix (Cbor.head 5 0) input
  let (payload, input) ← Cbor.readBstr input
  let (signature, _) ← Cbor.readBstr input
  let (kid, _) ← Cbor.readBstr (← dropPrefix headerStart header)
  let keyId ← decodeUtf8 kid
  some (profileObject keyId payload signature).decoded

theorem readAssertion_toTaggedVec {keyId : String} {payload signature : List UInt8}
    (hkey : keyId ≠ "")
    (hlen : (profileObject keyId payload signature).toTaggedVec.length < 2 ^ 64) :
    readAssertion (profileObject keyId payload signature).toTaggedVec =
      some (profileObject keyId payload signature).decoded := by
  have hempty : (Header.mk []).toVec = Cbor.head 5 0 := rfl
  have hwritten : (profileObject keyId payload signature).toTaggedVec =
      Cbor.head 6 18 ++ Cbor.head 4 4 ++ (Cbor.bstr (headerStart ++ Cbor.bstr (utf8 keyId)) ++
        (Cbor.head 5 0 ++ (Cbor.bstr payload ++ (Cbor.bstr signature ++ [])))) := by
    rw [CoseSign1.toTaggedVec, cborBstr_profileObject, toVec_expectedHeader hkey]
    simp only [profileObject, hempty, Option.elim_some, List.append_assoc, List.append_nil]
  rw [hwritten] at hlen ⊢
  simp only [List.length_append, Cbor.bstr] at hlen
  have hkid := @Cbor.readBstr_append (utf8 keyId) (by omega) []
  rw [List.append_nil] at hkid
  have hheader := @Cbor.readBstr_append (headerStart ++ Cbor.bstr (utf8 keyId))
    (by simp only [Cbor.bstr, List.length_append]; omega)
  have hpayload := @Cbor.readBstr_append payload (by omega)
  have hsignature := @Cbor.readBstr_append signature (by omega)
  simp only [readAssertion, dropPrefix_append, Option.bind_eq_bind, Option.bind_some, hheader,
    hpayload, hsignature, hkid, decodeUtf8_utf8]

/-- The reader of assertions as the reader of the crate. -/
@[reducible] def assertionCoset : Coset where
  fromTaggedSlice input := okOr (readAssertion input) "unexpected item"

theorem lawfulCoset_assertionCoset : @LawfulCoset assertionCoset := by
  refine @LawfulCoset.mk assertionCoset fun keyId payload signature hkey hlen ↦ ?_
  show okOr (readAssertion _) _ = _
  rw [readAssertion_toTaggedVec hkey hlen]
  rfl

end Etp.Authority
