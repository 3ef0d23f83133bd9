import Etp.Cli.Command
import Etp.TypeScript.Strict

/-!
# `npm run verify`

The script of the TypeScript verifier: it decodes a file, parses it, unwraps the envelope of
a vector, verifies the bundle, compares the result with what the vector expects, and prints
it.  The value that is printed stands for its text.
-/

namespace Etp.Cli

open Etp.TypeScript JsString

/-! ## `unwrapVerificationInput` -/

/-- `null` as `none` -/
structure VerificationInput where
  transaction : JsValue
  expected : Option JsValue

def object (value : JsValue) (path : JsString) : Except Thrown Record :=
  match value with
  | .object members => .ok members
  | _ => .error (.verification "record_type" path (js "expected a JSON object"))

/-- The checks of `description`. -/
def checkDescription (input : Record) : Except Thrown Unit :=
  if hasOwn input "description" then
    match field input "description" with
    | .string description =>
        rejectIf ((codePoints description).length > 4096 ∨ description.any isControlUnit)
          (.verification "invalid_description" (js "vector.description")
            (js "description exceeds 4,096 characters or contains a control character"))
    | _ => .error (.verification "string" (js "vector.description") (js "expected a string"))
  else .ok ()

def unwrapVerificationInput (value : JsValue) : Except Thrown VerificationInput := do
  let input ← object value (js "input")
  if hasOwn input "transaction" then do
    rejectMissing input (js "vector") ["profile", "transaction", "expected"]
      "required test-vector field is missing"
    rejectUnknown input (js "vector") envelopeFields "test-vector field is not permitted"
    rejectIf (!strictlyEqual (field input "profile") (.string (js coreProfile)))
      (.verification "unsupported_profile" (js "vector.profile") (js s!"expected {coreProfile}"))
    checkDescription input
    let _ ← object (field input "expected") (js "vector.expected")
    .ok { transaction := field input "transaction", expected := some (field input "expected") }
  else .ok { transaction := .object input, expected := none }

/-! ## `main` -/

/-- What `main` catches. -/
inductive ScriptError where
  | decoding
  | parsing (failure : Failure)
  | thrown (error : Thrown)

/-- U+FEFF -/
def byteOrderMark : Char := '\uFEFF'

/-- Without the byte order mark that it begins with. -/
def dropMark : List Char → List Char
  | [] => []
  | c :: cs => if c = byteOrderMark then cs else c :: cs

/-- `new TextDecoder("utf-8", { fatal: true }).decode(bytes)` -/
def decode (bytes : List UInt8) : Option JsString :=
  (decodeUtf8 bytes).map fun text ↦ utf16 (dropMark text.toList)

/-- The object that `verifyTransaction` returns. -/
def ofVerified (verified : VerifiedTransaction) : Record := [
  (js "commitment_hash", .string verified.commitmentHash),
  (js "proposal_hash", .string verified.proposalHash),
  (js "decision_hash", .string verified.decisionHash),
  (js "grant_hash", orNull verified.grantHash),
  (js "receipt_hash", orNull verified.receiptHash),
  (js "reconciliation_hashes", .array (verified.reconciliationHashes.map .string)),
  (js "state", .string verified.state)]

/-- `canonicalJson(expected) !== canonicalJson(verified)` -/
def checkExpected (expected : Option JsValue) (verified : VerifiedTransaction) :
    Except Thrown Unit :=
  match expected with
  | none => .ok ()
  | some expected => do
      let wanted ← (canonicalJson expected).mapError .canonicalization
      let found ← (canonicalJson (.object (ofVerified verified))).mapError .canonicalization
      rejectIf (wanted ≠ found) (.verification "expected_mismatch" (js "vector.expected")
        (js "computed result does not match the expected result"))

variable [Core.Sha256]

/-- `main`, once the file is parsed. -/
def verifyParsed (parsed : JsValue) : Except Thrown JsValue := do
  let unwrapped ← unwrapVerificationInput parsed
  let verified ← verifyTransaction unwrapped.transaction
  checkExpected unwrapped.expected verified
  .ok (.object ((js "valid", .boolean true) :: ofVerified verified))

def main (bytes : List UInt8) : Except ScriptError JsValue := do
  let input ← okOr (decode bytes) .decoding
  let parsed ← (parseStrictJson input).mapError .parsing
  (verifyParsed parsed).mapError .thrown

end Etp.Cli
