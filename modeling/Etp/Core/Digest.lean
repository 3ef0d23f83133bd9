import Etp.Lib.Result
import Etp.Lib.Utf8

/-!
# Errors, limits and digests

SHA-256 itself is outside the repository, so it is the parameter `Sha256`: a
function from byte strings to 32 bytes.  `Digest32::parse` refuses the all-zero
digest, so no digest of a record may be it; that is the one law of the class.
Collision-freeness is never part of the class.  Where a result needs it, it is a
hypothesis about the byte strings that result hashes.

A `Digest32` carries the check of its own text: every value of the type is one
that `Digest32::parse` would return.
-/

namespace Etp.Core

/-! ## Limits -/

def profileVersion : Nat := 1
def maxSafeInteger : Nat := 9007199254740991
def maxGrantLifetimeMs : Nat := 300000
def maxTransportInputBytes : Nat := 1048576
def maxCanonicalNestingDepth : Nat := 64
def maxCanonicalNodes : Nat := 100000
def maxReconciliationRecords : Nat := 10000

/-! ## Errors -/

inductive ProtocolError where
  | json
  | unsupportedVersion (version : Nat)
  | invalidDigest
  | invalidBinding (field : String)
  | duplicateIdentifier (field : String)
  | invalidToken (field : String)
  | invalidNonce
  | unsafeInteger (field : String)
  | unsafeJsonNumber
  | resourceLimit (resource : String)
  | invalidTimeWindow
  | invalidNestedWindow (record : String)
  | nonCanonicalList (field : String)
  | listTooLong (field : String)
  | missingReasonCode
  | missingAuthorizingEvidence
  | grantMustBeSingleUse
  | grantLifetimeExceeded
  | invalidReceiptTimeline
  | contradictoryDispatchEvidence
  | missingDispatchEvidence
  | invalidSequence
  | invalidReconciliationParent
  | invalidReconciliationTimeline
  | reconciliationAlreadyTerminal
  | chainMismatch (field : String)
  | missingPredecessor (record : String)
  | decisionDoesNotAuthorize
  | receiptOutsideGrantWindow
  | reconciliationRequiresUnknown
  | storeUnavailable
  | clockUnavailable
  | clockRollback
  | duplicateGrant
  | decisionAlreadyGranted
  | proposalAlreadyGranted
  | unknownGrant
  | receiptWithoutClaim
  | receiptClaimMismatch
  | receiptAlreadyRecorded
  | unknownReceipt
  | reconciliationFork
  | audienceMismatch
  | staleAuthority
  | stalePreState
  | staleResourceClaim
  | grantRevoked
  | grantNotYetValid
  | grantExpired
  | grantAlreadyClaimed
deriving DecidableEq, Repr

/-! ## Digest text -/

def digestPrefix : List Char := ['s', 'h', 'a', '2', '5', '6', ':']

def isHexByte (b : UInt8) : Bool := (0x30 ≤ b ∧ b ≤ 0x39) ∨ (0x61 ≤ b ∧ b ≤ 0x66)

/-- `str::strip_prefix` -/
def stripPrefix (p : List Char) (value : String) : Option String :=
  if p <+: value.toList then some (String.ofList (value.toList.drop p.length)) else none

def validateDigestText (value : String) : Except ProtocolError Unit := do
  let hex ← okOr (stripPrefix digestPrefix value) .invalidDigest
  rejectIf
    ((utf8 hex).length ≠ 64 ∨ (utf8 hex).any (fun b ↦ !isHexByte b) ∨
      (utf8 hex).all (· = 0x30))
    .invalidDigest

/-- `HEX[usize::from(n)]` for a half byte. -/
def hexDigit (n : Nat) : Char := Nat.digitChar n

def hexPair (b : UInt8) : List Char := [hexDigit (b.toNat / 16), hexDigit (b.toNat % 16)]

def formatDigest (bytes : Vector UInt8 32) : String :=
  String.ofList (digestPrefix ++ bytes.toList.flatMap hexPair)

/-! ### The text of 32 bytes -/

theorem isHexByte_hexPair : ∀ b : UInt8, ((hexPair b).flatMap String.utf8EncodeChar).length = 2 ∧
    ((hexPair b).flatMap String.utf8EncodeChar).all isHexByte = true ∧
    (((hexPair b).flatMap String.utf8EncodeChar).all (· = 0x30) = true → b = 0) := by
  have key : ∀ n : Fin 256, ((hexPair (UInt8.ofNat n)).flatMap String.utf8EncodeChar).length = 2 ∧
      ((hexPair (UInt8.ofNat n)).flatMap String.utf8EncodeChar).all isHexByte = true ∧
      (((hexPair (UInt8.ofNat n)).flatMap String.utf8EncodeChar).all (· = 0x30) = true →
        UInt8.ofNat n = 0) := by decide +kernel
  intro b
  simpa using key ⟨b.toNat, b.toNat_lt⟩

/-- The half bytes of a pair, read back. -/
def unhexPair : List Char → Nat
  | [c, d] => (List.range 16).findIdx (Nat.digitChar · == c) * 16 +
      (List.range 16).findIdx (Nat.digitChar · == d)
  | _ => 0

theorem unhexPair_hexPair (b : UInt8) : unhexPair (hexPair b) = b.toNat := by
  have key : ∀ n : Fin 256, unhexPair (hexPair (UInt8.ofNat n)) = n := by decide +kernel
  simpa using key ⟨b.toNat, b.toNat_lt⟩

theorem hexPair_injective : Function.Injective hexPair := fun b c h ↦ by
  have := congrArg unhexPair h
  rwa [unhexPair_hexPair, unhexPair_hexPair, UInt8.toNat_inj] at this

theorem flatMap_hexPair_injective {l m : List UInt8} (h : l.flatMap hexPair = m.flatMap hexPair) :
    l = m := by
  induction l generalizing m with
  | nil => cases m with
    | nil => rfl
    | cons c m => simp [hexPair] at h
  | cons b l ih => cases m with
    | nil => simp [hexPair] at h
    | cons c m =>
        have hlen : (hexPair b).length = (hexPair c).length := rfl
        obtain ⟨h₁, h₂⟩ := List.append_inj h hlen
        rw [hexPair_injective h₁, ih h₂]

theorem formatDigest_injective : Function.Injective formatDigest := fun a b h ↦ by
  have h' := List.append_cancel_left (String.ofList_injective h)
  exact Vector.toList_inj.mp (flatMap_hexPair_injective h')

/-- The zero digest, which `Digest32::parse` refuses. -/
def zeroDigest : Vector UInt8 32 := Vector.replicate 32 0

theorem validateDigestText_formatDigest {bytes : Vector UInt8 32} (h : bytes ≠ zeroDigest) :
    validateDigestText (formatDigest bytes) = .ok () := by
  have hlen : ∀ l : List UInt8,
      ((l.flatMap hexPair).flatMap String.utf8EncodeChar).length = 2 * l.length := by
    intro l
    induction l with
    | nil => rfl
    | cons b l ih =>
        simp only [List.flatMap_cons, List.flatMap_append, List.length_append, List.length_cons, ih,
          (isHexByte_hexPair b).1]
        omega
  have hhex : ∀ l : List UInt8,
      ((l.flatMap hexPair).flatMap String.utf8EncodeChar).all isHexByte = true := by
    intro l
    induction l with
    | nil => rfl
    | cons b l ih =>
        rw [List.flatMap_cons, List.flatMap_append, List.all_append, ih, (isHexByte_hexPair b).2.1]
        rfl
  have hzero : ∀ l : List UInt8,
      ((l.flatMap hexPair).flatMap String.utf8EncodeChar).all (· = 0x30) = true →
        l = List.replicate l.length 0 := by
    intro l hl
    induction l with
    | nil => rfl
    | cons b l ih =>
        rw [List.flatMap_cons, List.flatMap_append, List.all_append, Bool.and_eq_true] at hl
        rw [List.length_cons, List.replicate_succ, ← ih hl.2, (isHexByte_hexPair b).2.2 hl.1]
  have hstrip : stripPrefix digestPrefix (formatDigest bytes) =
      some (String.ofList (bytes.toList.flatMap hexPair)) := by
    simp [stripPrefix, formatDigest]
  simp only [validateDigestText, hstrip, okOr_some, bind_eq_ok, rejectIf_eq_ok]
  refine ⟨_, rfl, ?_⟩
  rintro (hl | hh | hz)
  · exact hl (by simp [utf8, hlen])
  · have := hhex bytes.toList
    simp only [utf8, String.toList_ofList, List.any_eq_true, Bool.not_eq_true'] at hh
    obtain ⟨b, hb, hb'⟩ := hh
    rw [List.all_eq_true.mp this b hb] at hb'
    exact Bool.noConfusion hb'
  · refine h (Vector.toList_inj.mp ?_)
    have := hzero bytes.toList (by simpa [utf8] using hz)
    simpa [zeroDigest] using this

/-! ## Digests -/

structure Digest32 where
  asStr : String
  valid : validateDigestText asStr = .ok ()
deriving DecidableEq

namespace Digest32

theorem ext_iff {a b : Digest32} : a = b ↔ a.asStr = b.asStr := by
  cases a; cases b; simp

@[ext] theorem ext {a b : Digest32} (h : a.asStr = b.asStr) : a = b := ext_iff.mpr h

/-- `Digest32::parse` -/
def parse (value : String) : Except ProtocolError Digest32 :=
  match h : validateDigestText value with
  | .ok () => .ok ⟨value, h⟩
  | .error e => .error e

theorem parse_eq_ok {value : String} {d : Digest32} : parse value = .ok d ↔ d.asStr = value := by
  unfold parse
  constructor
  · intro h
    split at h
    · cases h; rfl
    · cases h
  · rintro rfl
    split
    · rfl
    · rename_i h; rw [d.valid] at h; cases h

@[simp] theorem parse_asStr (d : Digest32) : parse d.asStr = .ok d := parse_eq_ok.mpr rfl

end Digest32

/-- The digest with the given bytes. -/
def Digest32.ofBytes (bytes : Vector UInt8 32) (h : bytes ≠ zeroDigest) : Digest32 where
  asStr := formatDigest bytes
  valid := validateDigestText_formatDigest h

/-- The hash function: 32 bytes for every byte string, never the zero digest. -/
class Sha256 where
  digest : List UInt8 → Vector UInt8 32
  digest_ne_zero (payload : List UInt8) : digest payload ≠ zeroDigest

variable [Sha256]

/-- `Digest32::from_payload`; `hash_record` formats its digest the same way. -/
def Digest32.fromPayload (payload : List UInt8) : Digest32 :=
  .ofBytes (Sha256.digest payload) (Sha256.digest_ne_zero payload)

/-- Equal digests are equal hashes. -/
theorem Digest32.fromPayload_inj {p q : List UInt8} :
    fromPayload p = fromPayload q ↔ Sha256.digest p = Sha256.digest q := by
  rw [Digest32.ext_iff]
  exact formatDigest_injective.eq_iff

/-- SHA-256 does not collide on the byte strings of a set. -/
def CollisionFree (preimages : Set (List UInt8)) : Prop := Set.InjOn Sha256.digest preimages

theorem CollisionFree.eq {S : Set (List UInt8)} (h : CollisionFree S) {p q : List UInt8}
    (hp : p ∈ S) (hq : q ∈ S) (heq : Digest32.fromPayload p = Digest32.fromPayload q) : p = q :=
  h hp hq (Digest32.fromPayload_inj.mp heq)

theorem CollisionFree.mono {S T : Set (List UInt8)} (h : CollisionFree T) (hsub : S ⊆ T) :
    CollisionFree S := Set.InjOn.mono hsub h

end Etp.Core
