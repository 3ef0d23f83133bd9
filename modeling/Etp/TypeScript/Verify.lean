import Etp.Core.Digest
import Etp.TypeScript.Canonical

/-!
# The TypeScript verifier

`verifyTransaction` takes any JavaScript value and checks it from the outside in:
the bundle, then each record with `validate…`, each hash and window as soon as its
two ends are known, and last the reconciliations, by their index.

A record is what the checks of its fields return, under the names and in the order
of the source.  A failed check throws, so every function returns an `Except`.
-/

namespace Etp.TypeScript

open JsString

/-! ## Errors -/

/-- What a verifier throws: the error of the encoder, or a `VerificationError`. -/
inductive Thrown where
  | canonicalization (error : CanonicalizationError)
  | verification (code : String) (path message : JsString)
deriving DecidableEq, Repr

def maxReconciliationRecords : Nat := 10000

/-- `` `${path}.${name}` `` -/
def member (path : JsString) (name : JsString) : JsString := path ++ js "." ++ name

/-- `` `${path}[${index}]` `` -/
def element (path : JsString) (index : Nat) : JsString :=
  path ++ js "[" ++ utf16 (Nat.toDigits 10 index) ++ js "]"

/-- `canonicalJson(value)` as a check. -/
def assertCanonical (value : JsValue) : Except Thrown JsString :=
  (canonicalJson value).mapError .canonicalization

/-- The first item with the property fails. -/
def rejectFirst {α : Type} (items : List α) (p : α → Bool) (error : α → Thrown) :
    Except Thrown Unit :=
  match items.find? p with
  | some item => .error (error item)
  | none => .ok ()

/-! ## Objects -/

abbrev Record := List (JsString × JsValue)

def hasOwn (record : Record) (name : String) : Bool := (record.lookup (js name)).isSome

/-- `record.name`, of a field that is there. -/
def field (record : Record) (name : String) : JsValue := (record.lookup (js name)).getD .null

def JsNumber.toInt : JsNumber → Int
  | finite n => n
  | negativeZero | infinite _ => 0

/-- A field that holds a safe integer. -/
def numberAt (record : Record) (name : String) : Int :=
  match field record name with
  | .number n => n.toInt
  | _ => 0

/-- A field that holds a string. -/
def stringAt (record : Record) (name : String) : JsString :=
  match field record name with
  | .string s => s
  | _ => []

def objectAt (value : JsValue) (path : JsString) : Except Thrown Record :=
  match value with
  | .object members => do
      let _ ← assertCanonical value
      .ok members
  | _ => .error (.verification "record_type" path (js "expected a JSON object"))

/-- The loop over the keys that are not expected. -/
def rejectUnknown (record : Record) (path : JsString) (names : List String) (message : String) :
    Except Thrown Unit :=
  rejectFirst (ownKeys record) (fun e ↦ !(names.map js).contains e.1) fun e ↦
    .verification "unknown_field" (member path e.1) (js message)

/-- The loop over the keys that have to be there. -/
def rejectMissing (record : Record) (path : JsString) (names : List String) (message : String) :
    Except Thrown Unit :=
  rejectFirst names (fun name ↦ !hasOwn record name) fun name ↦
    .verification "missing_field" (member path (js name)) (js message)

def exactFields (value : JsValue) (path : JsString) (names : List String) :
    Except Thrown Record := do
  let record ← objectAt value path
  rejectMissing record path names "required field is missing"
  rejectUnknown record path names "field is not permitted"
  .ok record

/-! ## Checks of one value -/

/-- A check returns the value that it was given. -/
abbrev Check := JsValue → JsString → Except Thrown JsValue

/-- `left === right` of two numbers. -/
def JsNumber.same : JsNumber → JsNumber → Bool
  | finite m, finite n => m = n
  | negativeZero, finite n | finite n, negativeZero => n = 0
  | negativeZero, negativeZero => true
  | infinite a, infinite b => a = b
  | _, _ => false

/-- `left === right`.  Objects and arrays that were read at two places are not the same. -/
def strictlyEqual : JsValue → JsValue → Bool
  | .null, .null => true
  | .boolean a, .boolean b => a = b
  | .number m, .number n => m.same n
  | .string s, .string t => s = t
  | _, _ => false

def one : JsValue := .number (.finite 1)

def literalOne : Check := fun value path ↦ do
  rejectIf (!strictlyEqual value one) (.verification "version" path (js "expected version 1"))
  .ok value

def singleUse : Check := fun value path ↦ do
  rejectIf (!strictlyEqual value one) (.verification "single_use" path (js "expected value 1"))
  .ok value

/-- `\s` -/
def isSpace (unit : UInt16) : Bool :=
  let n := unit.toNat
  (0x09 ≤ n ∧ n ≤ 0x0d) ∨ n = 0x20 ∨ n = 0xa0 ∨ n = 0x1680 ∨ (0x2000 ≤ n ∧ n ≤ 0x200a) ∨
    n = 0x2028 ∨ n = 0x2029 ∨ n = 0x202f ∨ n = 0x205f ∨ n = 0x3000 ∨ n = 0xfeff

/-- `/^\s|\s$/u` -/
def hasMargin (s : JsString) : Bool := s.head?.any isSpace || s.getLast?.any isSpace

/-- `/[\u0000-\u001f\u007f-\u009f]/u` -/
def isControlUnit (unit : UInt16) : Bool :=
  unit.toNat ≤ 0x1f ∨ (0x7f ≤ unit.toNat ∧ unit.toNat ≤ 0x9f)

/-- `Buffer.byteLength(value, "utf8")` -/
def byteLength (s : JsString) : Nat := (toBuffer s).length

def tooLong (path : JsString) (maximum : Nat) : Thrown :=
  .verification "string_length" path (js s!"must not exceed {maximum} UTF-8 bytes")

def controlCharacter (path : JsString) : Thrown :=
  .verification "control_character" path (js "control characters are not permitted")

def text (maximum : Nat) : Check := fun value path ↦
  match value with
  | .string s => do
      rejectIf (s = [] ∨ hasMargin s)
        (.verification "string" path (js "must not be empty or have surrounding whitespace"))
      rejectIf (byteLength s > maximum) (tooLong path maximum)
      rejectIf (s.any isControlUnit) (controlCharacter path)
      let _ ← assertCanonical value
      .ok value
  | _ => .error (.verification "string" path (js "expected a string"))

def identifier : Check := text 256

def nonemptyText (maximum : Nat) : Check := fun value path ↦
  match value with
  | .string s => do
      rejectIf (s = []) (.verification "string" path (js "expected a non-empty string"))
      rejectIf (byteLength s > maximum) (tooLong path maximum)
      rejectIf (hasMargin s)
        (.verification "string" path (js "leading and trailing whitespace are not allowed"))
      rejectIf (s.any isControlUnit) (controlCharacter path)
      let _ ← assertCanonical value
      .ok value
  | _ => .error (.verification "string" path (js "expected a non-empty string"))

/-- `[0-9a-f]` -/
def isHexUnit (unit : UInt16) : Bool :=
  (0x30 ≤ unit.toNat ∧ unit.toNat ≤ 0x39) ∨ (0x61 ≤ unit.toNat ∧ unit.toNat ≤ 0x66)

/-- `/^sha256:[0-9a-f]{64}$/u` -/
def isDigest (s : JsString) : Bool :=
  s.take 7 = js "sha256:" ∧ (s.drop 7).length = 64 ∧ (s.drop 7).all isHexUnit

def zeroDigest : JsString := js "sha256:" ++ List.replicate 64 (unit '0')

def digest : Check := fun value path ↦
  match value with
  | .string s => do
      rejectIf (!isDigest s) (.verification "digest" path
        (js "expected sha256 followed by 64 lowercase hexadecimal digits"))
      rejectIf (s = zeroDigest)
        (.verification "digest" path (js "all-zero digest is not permitted"))
      .ok value
  | _ => .error (.verification "digest" path
      (js "expected sha256 followed by 64 lowercase hexadecimal digits"))

def integer (minimum : Nat) : Check := fun value path ↦
  match value with
  | .number n => do
      rejectIf (!n.isSafeInteger ∨ n.toInt < minimum)
        (.verification "integer" path (js s!"expected a safe integer >= {minimum}"))
      rejectIf (n = .negativeZero)
        (.verification "integer" path (js "negative zero is not permitted"))
      .ok value
  | _ => .error (.verification "integer" path (js s!"expected a safe integer >= {minimum}"))

def timestamp : Check := integer 0

/-- `value === null ? null : check(value, path)` -/
def nullOr (check : Check) : Check := fun value path ↦
  match value with
  | .null => .ok .null
  | _ => check value path

/-- The items of an array, each at its own path. -/
def eachItem (check : Check) (path : JsString) : Nat → List JsValue → Except Thrown (List JsValue)
  | _, [] => .ok []
  | index, item :: items => do
      let item ← check item (element path index)
      let items ← eachItem check path (index + 1) items
      .ok (item :: items)

/-- An array of at most `maximumItems` items. -/
def arrayOf (check : Check) (maximumItems : Nat) (value : JsValue) (path : JsString) :
    Except Thrown (List JsValue) :=
  match value with
  | .array items => do
      rejectIf (items.length > maximumItems) (.verification "array_length" path
        (js s!"must not contain more than {maximumItems} items"))
      eachItem check path 0 items
  | _ => .error (.verification "array" path (js "expected an array"))

def digestArray (value : JsValue) (path : JsString) (maximumItems : Nat) :
    Except Thrown (List JsValue) := arrayOf digest maximumItems value path

def isLowercase (unit : UInt16) : Bool := 0x61 ≤ unit.toNat ∧ unit.toNat ≤ 0x7a

def isDigitUnit (unit : UInt16) : Bool := 0x30 ≤ unit.toNat ∧ unit.toNat ≤ 0x39

/-- A lowercase letter, a digit, or one of `.`, `_`, `:`, `/`, `-`. -/
def isTokenUnit (u : UInt16) : Bool :=
  isLowercase u ∨ isDigitUnit u ∨ u ∈ ['.', '_', ':', '/', '-'].map unit

/-- The pattern of a token: a lowercase letter, then any of the units above. -/
def isToken : JsString → Bool
  | [] => false
  | u :: us => isLowercase u ∧ us.all isTokenUnit

def tokenText (code message : String) : Check := fun value path ↦ do
  let result ← text 256 value path
  match result with
  | .string s => do
      rejectIf (!isToken s) (.verification code path (js message))
      .ok result
  | _ => .ok result

def operationToken : Check := tokenText "operation" "expected a lowercase operation token"

def reasonCode : Check := tokenText "reason_code" "expected a lowercase reason-code token"

/-- `[A-Za-z0-9_-]` -/
def isNonceUnit (u : UInt16) : Bool :=
  (0x41 ≤ u.toNat ∧ u.toNat ≤ 0x5a) ∨ isLowercase u ∨ isDigitUnit u ∨ u ∈ ['_', '-'].map unit

def nonce : Check := fun value path ↦ do
  let result ← text 128 value path
  match result with
  | .string s => do
      rejectIf (!(s.all isNonceUnit ∧ 22 ≤ s.length ∧ s.length ≤ 128))
        (.verification "nonce" path (js "expected 22 to 128 unpadded base64url characters"))
      .ok result
  | _ => .ok result

/-- The loop of `sortedUnique`; the counter is the index of the left neighbour. -/
def sortedUnique (path : JsString) : Nat → List JsString → Except Thrown Unit
  | index, left :: right :: rest => do
      rejectIf (compareUnicodeScalars left right = 0)
        (.verification "duplicate_item" (element path (index + 1)) (js "duplicate item"))
      rejectIf (compareUnicodeScalars left right > 0)
        (.verification "unsorted_array" path (js "items must be sorted canonically"))
      sortedUnique path (index + 1) (right :: rest)
  | _, _ => .ok ()

def enumValue (accepted : List String) : Check := fun value path ↦ do
  let error := Thrown.verification "enum" path
    (js ("expected one of: " ++ ", ".intercalate accepted))
  match value with
  | .string s => do
      rejectIf (s ∉ accepted.map js) error
      .ok value
  | _ => .error error

/-- `String(value)` of what `equal` compares: digests, sequence numbers and `null`. -/
def display : JsValue → JsString
  | .number n => n.toText
  | .string s => s
  | _ => js "null"

def equal (actual expected : JsValue) (path : JsString) : Except Thrown Unit :=
  rejectIf (!strictlyEqual actual expected) (.verification "binding_mismatch" path
    (js "expected " ++ display expected ++ js ", received " ++ display actual))

def ordered (start «end» : Int) (path : JsString) : Except Thrown Unit :=
  rejectIf («end» ≤ start)
    (.verification "invalid_window" path (js "end must be greater than start"))

/-! ## The six records -/

/-- The fields of a record, each read by its check, in the order of the table. -/
def readFields (record : Record) (path : JsString) :
    List (String × Check) → Except Thrown Record
  | [] => .ok []
  | (name, check) :: rest => do
      let value ← check (field record name) (member path (js name))
      let values ← readFields record path rest
      .ok ((js name, value) :: values)

/-- A field that was read before the others. -/
def already (value : JsValue) : Check := fun _ _ ↦ .ok value

-- Each record has the table of its fields, in the order in which the source reads them.

def taskCommitmentChecks : List (String × Check) := [
  ("version", literalOne),
  ("commitment_id", identifier),
  ("principal", text 512),
  ("objective_digest", digest),
  ("constraints_digest", digest),
  ("authority_scope_digest", digest),
  ("policy_epoch", integer 0),
  ("configuration_epoch", integer 0),
  ("created_at_ms", timestamp),
  ("expires_at_ms", timestamp)]

def validateTaskCommitment (value : JsValue) : Except Thrown Record := do
  let path := js "commitment"
  let record ← exactFields value path
    ["version", "commitment_id", "principal", "objective_digest", "constraints_digest",
      "authority_scope_digest", "policy_epoch", "configuration_epoch", "created_at_ms",
      "expires_at_ms"]
  let result ← readFields record path taskCommitmentChecks
  ordered (numberAt result "created_at_ms") (numberAt result "expires_at_ms")
    (member path (js "expires_at_ms"))
  .ok result

def effectProposalChecks : List (String × Check) := [
  ("version", literalOne),
  ("proposal_id", identifier),
  ("commitment_hash", digest),
  ("effect_profile", text 256),
  ("operation", operationToken),
  ("target", nonemptyText 4096),
  ("arguments_digest", digest),
  ("expected_effect_digest", digest),
  ("pre_state_digest", digest),
  ("resource_claim_digest", digest),
  ("created_at_ms", timestamp),
  ("expires_at_ms", timestamp)]

def validateEffectProposal (value : JsValue) : Except Thrown Record := do
  let path := js "proposal"
  let record ← exactFields value path
    ["version", "proposal_id", "commitment_hash", "effect_profile", "operation", "target",
      "arguments_digest", "expected_effect_digest", "pre_state_digest", "resource_claim_digest",
      "created_at_ms", "expires_at_ms"]
  let result ← readFields record path effectProposalChecks
  ordered (numberAt result "created_at_ms") (numberAt result "expires_at_ms")
    (member path (js "expires_at_ms"))
  .ok result

/-- The strings among the items of an array. -/
def stringItems (items : List JsValue) : List JsString :=
  items.filterMap fun
    | .string s => some s
    | _ => none

def authorizationDecisionChecks (evidenceHashes outcome reasonCodes : JsValue) :
    List (String × Check) := [
  ("version", literalOne),
  ("decision_id", identifier),
  ("proposal_hash", digest),
  ("evidence_hashes", already evidenceHashes),
  ("outcome", already outcome),
  ("reason_codes", already reasonCodes),
  ("decided_at_ms", timestamp),
  ("expires_at_ms", timestamp)]

def validateAuthorizationDecision (value : JsValue) : Except Thrown Record := do
  let path := js "decision"
  let record ← exactFields value path
    ["version", "decision_id", "proposal_hash", "evidence_hashes", "outcome", "reason_codes",
      "decided_at_ms", "expires_at_ms"]
  let evidencePath := member path (js "evidence_hashes")
  let reasonPath := member path (js "reason_codes")
  let evidenceHashes ← digestArray (field record "evidence_hashes") evidencePath 256
  let reasonCodes ← arrayOf reasonCode 64 (field record "reason_codes") reasonPath
  sortedUnique evidencePath 0 (stringItems evidenceHashes)
  sortedUnique reasonPath 0 (stringItems reasonCodes)
  rejectIf (reasonCodes.length = 0) (.verification "reason_required" reasonPath
    (js "at least one reason code is required"))
  let outcome ← enumValue ["allow", "deny", "review"] (field record "outcome")
    (member path (js "outcome"))
  rejectIf (strictlyEqual outcome (.string (js "allow")) ∧ evidenceHashes.length = 0)
    (.verification "evidence_required" evidencePath
      (js "allow requires at least one evidence digest"))
  let result ← readFields record path
    (authorizationDecisionChecks (.array evidenceHashes) outcome (.array reasonCodes))
  ordered (numberAt result "decided_at_ms") (numberAt result "expires_at_ms")
    (member path (js "expires_at_ms"))
  .ok result

def executionGrantChecks : List (String × Check) := [
  ("version", literalOne),
  ("grant_id", identifier),
  ("proposal_hash", digest),
  ("decision_hash", digest),
  ("audience", text 512),
  ("not_before_ms", timestamp),
  ("expires_at_ms", timestamp),
  ("uses", singleUse),
  ("nonce", nonce)]

def validateExecutionGrant (value : JsValue) : Except Thrown Record := do
  let path := js "grant"
  let record ← exactFields value path
    ["version", "grant_id", "proposal_hash", "decision_hash", "audience", "not_before_ms",
      "expires_at_ms", "uses", "nonce"]
  let result ← readFields record path executionGrantChecks
  ordered (numberAt result "not_before_ms") (numberAt result "expires_at_ms")
    (member path (js "expires_at_ms"))
  rejectIf (numberAt result "expires_at_ms" - numberAt result "not_before_ms" > 300000)
    (.verification "grant_lifetime" (member path (js "expires_at_ms"))
      (js "grant lifetime exceeds 300000 ms"))
  .ok result

/-- The two comparisons of a time of dispatch that is there. -/
def checkDispatchTime (path : JsString) (result : Record) : Except Thrown Unit :=
  if strictlyEqual (field result "dispatched_at_ms") .null then .ok ()
  else do
    rejectIf (numberAt result "dispatched_at_ms" < numberAt result "claimed_at_ms")
      (.verification "invalid_timeline" (member path (js "dispatched_at_ms"))
        (js "dispatch precedes claim"))
    rejectIf (numberAt result "completed_at_ms" < numberAt result "dispatched_at_ms")
      (.verification "invalid_timeline" (member path (js "completed_at_ms"))
        (js "completion precedes dispatch"))

def effectReceiptChecks (dispatchedAt : JsValue) : List (String × Check) := [
  ("version", literalOne),
  ("receipt_id", identifier),
  ("proposal_hash", digest),
  ("grant_hash", digest),
  ("attempt_id", identifier),
  ("claimed_at_ms", timestamp),
  ("dispatched_at_ms", already dispatchedAt),
  ("completed_at_ms", timestamp),
  ("outcome", enumValue ["succeeded", "failed", "not_dispatched", "unknown"]),
  ("observation_digest", digest)]

def validateEffectReceipt (value : JsValue) : Except Thrown Record := do
  let path := js "receipt"
  let record ← exactFields value path
    ["version", "receipt_id", "proposal_hash", "grant_hash", "attempt_id", "claimed_at_ms",
      "dispatched_at_ms", "completed_at_ms", "outcome", "observation_digest"]
  let dispatchedAt ← nullOr timestamp (field record "dispatched_at_ms")
    (member path (js "dispatched_at_ms"))
  let result ← readFields record path (effectReceiptChecks dispatchedAt)
  rejectIf (numberAt result "completed_at_ms" < numberAt result "claimed_at_ms")
    (.verification "invalid_timeline" (member path (js "completed_at_ms"))
      (js "completion precedes claim"))
  checkDispatchTime path result
  rejectIf (stringAt result "outcome" ∈ [js "succeeded", js "failed"] ∧
      strictlyEqual (field result "dispatched_at_ms") .null)
    (.verification "receipt_dispatch" (member path (js "dispatched_at_ms"))
      (stringAt result "outcome" ++ js " requires a dispatch time"))
  rejectIf (stringAt result "outcome" = js "not_dispatched" ∧
      !strictlyEqual (field result "dispatched_at_ms") .null)
    (.verification "receipt_dispatch" (member path (js "dispatched_at_ms"))
      (js "not_dispatched requires a null dispatch time"))
  .ok result

def reconciliationRecordChecks (parent : JsValue) : List (String × Check) := [
  ("version", literalOne),
  ("reconciliation_id", identifier),
  ("receipt_hash", digest),
  ("sequence", integer 1),
  ("parent_reconciliation_hash", already parent),
  ("observed_at_ms", timestamp),
  ("outcome", enumValue ["effect_confirmed", "no_effect_confirmed", "partial_effect",
    "still_unknown", "compensated"]),
  ("evidence_digest", digest)]

def validateReconciliationRecord (value : JsValue) : Except Thrown Record := do
  let path := js "reconciliation"
  let record ← exactFields value path
    ["version", "reconciliation_id", "receipt_hash", "sequence", "parent_reconciliation_hash",
      "observed_at_ms", "outcome", "evidence_digest"]
  let parent ← nullOr digest (field record "parent_reconciliation_hash")
    (member path (js "parent_reconciliation_hash"))
  readFields record path (reconciliationRecordChecks parent)

/-! ## Hashes -/

section Hashes

variable [Core.Sha256]

def commitment (domain : JsString) (value : JsValue) : Except CanonicalizationError JsString := do
  rejectIf (domain = [] ∨ 0 ∈ domain)
    ⟨"invalid_domain", js "hash domain must not be empty or contain a NUL byte"⟩
  assertScalarString "hash domain" domain
  let encoded ← canonicalJson value
  .ok (js (Core.formatDigest (Core.Sha256.digest (toBuffer domain ++ 0 :: toBuffer encoded))))

/-- `commitment(DOMAINS.…, record)` -/
def hashRecord (domain : String) (record : Record) : Except Thrown JsString :=
  (commitment (js domain) (.object record)).mapError .canonicalization

def hashTaskCommitment : Record → Except Thrown JsString :=
  hashRecord "effect-transaction/0.1/task-commitment"

def hashEffectProposal : Record → Except Thrown JsString :=
  hashRecord "effect-transaction/0.1/effect-proposal"

def hashAuthorizationDecision : Record → Except Thrown JsString :=
  hashRecord "effect-transaction/0.1/authorization-decision"

def hashExecutionGrant : Record → Except Thrown JsString :=
  hashRecord "effect-transaction/0.1/execution-grant"

def hashEffectReceipt : Record → Except Thrown JsString :=
  hashRecord "effect-transaction/0.1/effect-receipt"

def hashReconciliationRecord : Record → Except Thrown JsString :=
  hashRecord "effect-transaction/0.1/reconciliation-record"

/-! ## The transaction -/

structure VerifiedTransaction where
  commitmentHash : JsString
  proposalHash : JsString
  decisionHash : JsString
  grantHash : Option JsString
  receiptHash : Option JsString
  reconciliationHashes : List JsString
  state : JsString
deriving DecidableEq, Repr

/-- `x` as `null` or the string. -/
def orNull : Option JsString → JsValue
  | none => .null
  | some s => .string s

/-- `["effect_confirmed", "no_effect_confirmed", "compensated"].includes(outcome)` -/
def isTerminal (outcome : JsString) : Bool :=
  outcome ∈ ["effect_confirmed", "no_effect_confirmed", "compensated"].map js

/-- The loop over the reconciliations: `prior` with `priorHash`, `terminal` and the identifiers
go from one record to the next.  Returns the hashes and the last record. -/
def verifyReconciliations (receipt : Record) (receiptHash : JsString) :
    Nat → Option (Record × JsString) → Bool → List JsString → List JsValue →
      Except Thrown (List JsString × Option Record)
  | _, prior, _, _, [] => .ok ([], prior.map Prod.fst)
  | index, prior, terminal, identifiers, value :: values => do
      let path := element (js "transaction.reconciliations") index
      rejectIf terminal (.verification "terminal_reconciliation" path
        (js "record follows a terminal outcome"))
      let current ← validateReconciliationRecord value
      let identifier := stringAt current "reconciliation_id"
      rejectIf (identifier ∈ identifiers)
        (.verification "duplicate_identifier" (member path (js "reconciliation_id"))
          (js "reconciliation identifier is already used in this chain"))
      equal (field current "receipt_hash") (.string receiptHash) (member path (js "receipt_hash"))
      equal (field current "sequence") (.number (.finite (index + 1)))
        (member path (js "sequence"))
      equal (field current "parent_reconciliation_hash") (orNull (prior.map Prod.snd))
        (member path (js "parent_reconciliation_hash"))
      let lowerTime := match prior with
        | none => numberAt receipt "completed_at_ms"
        | some (record, _) => numberAt record "observed_at_ms"
      rejectIf (numberAt current "observed_at_ms" < lowerTime)
        (.verification "invalid_timeline" (member path (js "observed_at_ms"))
          (js "observation time moved backwards"))
      let currentHash ← hashReconciliationRecord current
      let (hashes, last) ← verifyReconciliations receipt receiptHash (index + 1)
        (some (current, currentHash)) (isTerminal (stringAt current "outcome"))
        (identifier :: identifiers) values
      .ok (currentHash :: hashes, last)

/-- The part of `verifyTransaction` on the commitment, the proposal and the decision, with the
decision and the three hashes. -/
def verifyDecision (bundle : Record) :
    Except Thrown (Record × JsString × JsString × JsString) := do
  let task ← validateTaskCommitment (field bundle "commitment")
  let taskHash ← hashTaskCommitment task
  let proposal ← validateEffectProposal (field bundle "proposal")
  let proposalHash ← hashEffectProposal proposal
  equal (field proposal "commitment_hash") (.string taskHash) (js "proposal.commitment_hash")
  rejectIf (numberAt proposal "created_at_ms" < numberAt task "created_at_ms")
    (.verification "invalid_timeline" (js "proposal.created_at_ms")
      (js "proposal predates commitment"))
  rejectIf (numberAt proposal "expires_at_ms" > numberAt task "expires_at_ms")
    (.verification "invalid_window" (js "proposal.expires_at_ms")
      (js "proposal outlives commitment"))
  let decision ← validateAuthorizationDecision (field bundle "decision")
  let decisionHash ← hashAuthorizationDecision decision
  equal (field decision "proposal_hash") (.string proposalHash) (js "decision.proposal_hash")
  rejectIf (numberAt decision "decided_at_ms" < numberAt proposal "created_at_ms")
    (.verification "invalid_timeline" (js "decision.decided_at_ms")
      (js "decision predates proposal"))
  rejectIf (numberAt decision "expires_at_ms" > numberAt proposal "expires_at_ms")
    (.verification "invalid_window" (js "decision.expires_at_ms")
      (js "decision outlives proposal"))
  .ok (decision, taskHash, proposalHash, decisionHash)

/-- The part on the grant. -/
def verifyGrant (decision : Record) (proposalHash decisionHash : JsString) (value : JsValue) :
    Except Thrown (Record × JsString) := do
  rejectIf (stringAt decision "outcome" ≠ js "allow")
    (.verification "nonauthorizing_decision" (js "decision.outcome")
      (js "only allow can produce a grant"))
  let grant ← validateExecutionGrant value
  let grantHash ← hashExecutionGrant grant
  equal (field grant "proposal_hash") (.string proposalHash) (js "grant.proposal_hash")
  equal (field grant "decision_hash") (.string decisionHash) (js "grant.decision_hash")
  rejectIf (numberAt grant "not_before_ms" < numberAt decision "decided_at_ms")
    (.verification "invalid_timeline" (js "grant.not_before_ms") (js "grant predates decision"))
  rejectIf (numberAt grant "expires_at_ms" > numberAt decision "expires_at_ms")
    (.verification "invalid_window" (js "grant.expires_at_ms") (js "grant outlives decision"))
  .ok (grant, grantHash)

/-- The part on the receipt. -/
def verifyReceipt (grant : Record) (proposalHash grantHash : JsString) (value : JsValue) :
    Except Thrown (Record × JsString) := do
  let receipt ← validateEffectReceipt value
  let receiptHash ← hashEffectReceipt receipt
  equal (field receipt "proposal_hash") (.string proposalHash) (js "receipt.proposal_hash")
  equal (field receipt "grant_hash") (.string grantHash) (js "receipt.grant_hash")
  rejectIf (numberAt receipt "claimed_at_ms" < numberAt grant "not_before_ms")
    (.verification "premature_claim" (js "receipt.claimed_at_ms")
      (js "grant was not active at claim time"))
  rejectIf (numberAt receipt "claimed_at_ms" ≥ numberAt grant "expires_at_ms")
    (.verification "expired_claim" (js "receipt.claimed_at_ms")
      (js "grant was expired at claim time"))
  .ok (receipt, receiptHash)

/-- The array of the reconciliations, which may be left out. -/
def reconciliationItems (bundle : Record) : Except Thrown (List JsValue) :=
  match (bundle.lookup (js "reconciliations")).getD (.array []) with
  | .array items => do
      rejectIf (items.length > maxReconciliationRecords)
        (.verification "array_length" (js "transaction.reconciliations")
          (js s!"must not contain more than {maxReconciliationRecords} records"))
      .ok items
  | _ => .error (.verification "array" (js "transaction.reconciliations")
      (js "expected an array"))

def requiresReceipt (values : List JsValue) : Except Thrown Unit :=
  rejectIf (values.length > 0)
    (.verification "missing_predecessor" (js "transaction.reconciliations")
      (js "reconciliation requires a receipt"))

def bundleFields : List String :=
  ["commitment", "proposal", "decision", "grant", "receipt", "reconciliations"]

def verifyTransaction (value : JsValue) : Except Thrown VerifiedTransaction := do
  let bundle ← objectAt value (js "transaction")
  rejectUnknown bundle (js "transaction") bundleFields "unknown bundle field"
  rejectMissing bundle (js "transaction") ["commitment", "proposal", "decision"]
    "required record is missing"
  let (decision, taskHash, proposalHash, decisionHash) ← verifyDecision bundle
  let values ← reconciliationItems bundle
  match field bundle "grant" with
  | .null => do
      rejectIf (!strictlyEqual (field bundle "receipt") .null)
        (.verification "missing_predecessor" (js "transaction.receipt")
          (js "receipt requires a grant"))
      requiresReceipt values
      .ok {
        commitmentHash := taskHash
        proposalHash
        decisionHash
        grantHash := none
        receiptHash := none
        reconciliationHashes := []
        state := js "decided" }
  | grantValue => do
      let (grant, grantHash) ← verifyGrant decision proposalHash decisionHash grantValue
      match field bundle "receipt" with
      | .null => do
          requiresReceipt values
          .ok {
            commitmentHash := taskHash
            proposalHash
            decisionHash
            grantHash := some grantHash
            receiptHash := none
            reconciliationHashes := []
            state := js "granted" }
      | receiptValue => do
          let (receipt, receiptHash) ← verifyReceipt grant proposalHash grantHash receiptValue
          rejectIf (values.length > 0 ∧ stringAt receipt "outcome" ≠ js "unknown")
            (.verification "invalid_reconciliation" (js "transaction.reconciliations")
              (js "only unknown receipts are reconciled"))
          let (reconciliationHashes, prior) ←
            verifyReconciliations receipt receiptHash 0 none false [] values
          .ok {
            commitmentHash := taskHash
            proposalHash
            decisionHash
            grantHash := some grantHash
            receiptHash := some receiptHash
            reconciliationHashes
            state := stringAt (prior.getD receipt) "outcome" }

end Hashes

end Etp.TypeScript
