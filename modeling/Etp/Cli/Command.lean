import Etp.Core.Shape
import Etp.TypeScript.Transaction

/-!
# `etp verify`

The command reads a file of bounded length, takes it for a vector envelope or a bare bundle
(`VerifyInput` is an untagged enumeration), verifies the bundle, compares the result with what
a vector expects, and prints it.

A file that cannot be read is left out, and so is the layout of what is printed.

The reader of documents has the numerals of the records only, and no limit on nesting.  So
inside `expected` its answer can carry another code than the one of `serde_json`: a fraction is
refused here as `.json` and there as `expectedMismatch`, and a value of more than 127 levels
here as `expectedMismatch` and there as `.json`.  Neither value is the result of a
verification, so that both sides refuse the document.
-/

namespace Etp.Cli

open Etp.Core
open Etp.TypeScript (stateName)

def coreProfile : String := "effect-transaction/core/0.1"

structure VectorEnvelope where
  profile : String
  description : Option String
  transaction : TransactionBundle
  expected : Json

inductive VerifyInput where
  | vector (envelope : VectorEnvelope)
  | transaction (bundle : TransactionBundle)

inductive CliError where
  | inputTooLarge
  | json
  | unsupportedProfile (profile : String)
  | protocol (error : ProtocolError)
  | expectedMismatch
  | invalidVectorDescription
deriving DecidableEq

/-! ## Input -/

def envelopeFields : List String := ["profile", "description", "transaction", "expected"]

def readTransaction (v : Json) : Option TransactionBundle := (bundleMembers v).bind readBundle

def readEnvelope (v : Json) : Option VectorEnvelope := do
  let ms ← structMembers envelopeFields v
  some {
    profile := ← requiredField readText ms "profile"
    description := ← optionalField readText ms "description"
    transaction := ← requiredField readTransaction ms "transaction"
    expected := ← ms.lookup "expected" }

/-- The first variant that the document can be read as. -/
def readInput (v : Json) : Option VerifyInput :=
  match readEnvelope v with
  | some vector => some (.vector vector)
  | none => (readTransaction v).map .transaction

def strictDeserialize (bytes : List UInt8) : Option VerifyInput := do
  let text ← decodeUtf8 bytes
  let v ← Json.parse text.toList
  readInput v

/-! ## Output -/

/-- `VerifiedTransaction` as serde writes it. -/
def reportMembers (report : VerifiedTransaction) : List (String × Json) := [
  ("commitment_hash", writeDigest report.commitmentHash),
  ("proposal_hash", writeDigest report.proposalHash),
  ("decision_hash", writeDigest report.decisionHash),
  ("grant_hash", writeOption writeDigest report.grantHash),
  ("receipt_hash", writeOption writeDigest report.receiptHash),
  ("reconciliation_hashes", .arr (report.reconciliationHashes.map writeDigest)),
  ("state", .str (stateName report.state))]

/-- The members of the result, with `valid`. -/
def shownMembers (report : VerifiedTransaction) : List (String × Json) :=
  ("valid", .bool true) :: reportMembers report

/-- A `serde_json::Map` is sorted by name, so that values are compared as sorted ones. -/
instance : DecidableEq Json := fun v w ↦
  decidable_of_iff (v.text = w.text) ⟨fun h ↦ Json.text_injective h, congrArg Json.text⟩

/-- The bundle of the input and what is expected of it: the `match` of `verified_json`. -/
def VerifyInput.unwrap : VerifyInput → Except CliError (TransactionBundle × Option Json)
  | vector envelope => do
      rejectIf (envelope.profile ≠ coreProfile) (.unsupportedProfile envelope.profile)
      rejectIf (∃ d ∈ envelope.description, d.length > 4096 ∨ d.toList.any isControl)
        .invalidVectorDescription
      .ok (envelope.transaction, some envelope.expected)
  | transaction bundle => .ok (bundle, none)

variable [Sha256]

def verifiedJson (bytes : List UInt8) : Except CliError Json := do
  let input ← okOr (strictDeserialize bytes) .json
  let (bundle, expected) ← input.unwrap
  let verified ← (verifyTransaction bundle).mapError .protocol
  rejectIf (∃ e ∈ expected, e.sortKeys ≠ (Json.obj (reportMembers verified)).sortKeys)
    .expectedMismatch
  .ok (Json.obj (shownMembers verified)).sortKeys

/-- `read_bounded` and `verified_json` -/
def verifyFile (bytes : List UInt8) : Except CliError Json := do
  rejectIf (bytes.length > maxTransportInputBytes) .inputTooLarge
  verifiedJson bytes

end Etp.Cli
