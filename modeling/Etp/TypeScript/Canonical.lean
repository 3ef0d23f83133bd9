import Etp.Core.Canonical
import Etp.Lib.Budget
import Etp.Lib.Json.Grammar
import Etp.Lib.Json.Same
import Etp.Lib.Utf16

/-!
# The TypeScript encoder

`canonicalJson` first walks the value with an explicit stack, which bounds its
depth and its number of nodes, and then writes it with the keys of every object
in code point order.

`JsValue` holds the JavaScript values that a JSON value becomes: `ofJson` rounds
its integers to doubles.  Such a value is a tree, so the set of ancestors that
the source keeps against cycles stays without effect, and its properties are
enumerable data properties under string keys.

In `Etp.TypeScript.Encoding`, `canonicalJson_ofJson` says when the encoding of such a
value succeeds and what it is, and `canonicalJson_agrees` that the Rust encoder returns
the same bytes.
-/

namespace Etp.TypeScript

open JsString

/-! ## Errors -/

structure CanonicalizationError where
  code : String
  message : JsString
deriving DecidableEq, Repr

/-- A string of the source. -/
def js (s : String) : JsString := utf16 s.toList

def fail {α : Type} (code message : String) : Except CanonicalizationError α :=
  .error ⟨code, js message⟩

def maxTransportInputBytes : Nat := 1024 * 1024

def maxTransportNestingDepth : Nat := 64

def maxTransportNodes : Nat := 100000

/-! ## Numbers -/

/-- The numbers that an integer numeral can denote. -/
inductive JsNumber where
  | finite (n : Int)
  | negativeZero
  | infinite (negative : Bool)
deriving DecidableEq, Repr

namespace JsNumber

/-- `Number.MAX_SAFE_INTEGER` -/
def maxSafe : Nat := 2 ^ 53 - 1

/-- The quotient rounded to the nearest integer, ties to even. -/
def divRound (n d : Nat) : Nat :=
  let remainder := 2 * (n % d)
  if d < remainder ∨ (d = remainder ∧ n / d % 2 = 1) then n / d + 1 else n / d

/-- The nearest double, ties to even; `none` stands for infinity. -/
def roundToDouble (n : Nat) : Option Nat :=
  let exponent := n.log2 - 52
  let rounded := divRound n (2 ^ exponent) * 2 ^ exponent
  if rounded.log2 < 1024 then some rounded else none

/-- The number that an integer becomes. -/
def ofInt (n : Int) : JsNumber :=
  match roundToDouble n.natAbs with
  | some m => .finite (if n < 0 then -m else m)
  | none => .infinite (n < 0)

/-- `Number.isSafeInteger` -/
def isSafeInteger : JsNumber → Bool
  | finite n => n.natAbs ≤ maxSafe
  | negativeZero => true
  | infinite _ => false

/-- `String(value)` for the safe integers. -/
def toText : JsNumber → JsString
  | finite n => utf16 (Json.decimal n)
  | negativeZero => js "0"
  | infinite negative => js (if negative then "-Infinity" else "Infinity")

theorem roundToDouble_of_le {n : Nat} (h : n ≤ maxSafe) : roundToDouble n = some n := by
  have hlt : n < 2 ^ 53 := Nat.lt_of_le_of_lt h (by decide)
  have hexp : n.log2 - 52 = 0 := by
    rcases Nat.eq_zero_or_pos n with rfl | hn
    · rfl
    · have := (Nat.log2_lt (by omega)).mpr hlt
      omega
  have hbig : n.log2 < 1024 := by omega
  simp [roundToDouble, divRound, hexp, Nat.mod_one, hbig]

theorem div_le_divRound (n d : Nat) : n / d ≤ divRound n d := by
  simp only [divRound]
  split_ifs <;> omega

/-- Rounding does not bring an unsafe integer back into the safe range. -/
theorem le_of_roundToDouble {n m : Nat} (h : maxSafe < n) (hm : roundToDouble n = some m) :
    maxSafe < m := by
  have hlog : 53 ≤ n.log2 := (Nat.le_log2 (by omega)).mpr (by unfold maxSafe at h; omega)
  obtain ⟨e, he⟩ : ∃ e, n.log2 = 52 + e := ⟨n.log2 - 52, by omega⟩
  have hquot : 2 ^ 52 ≤ n / 2 ^ e := by
    rw [Nat.le_div_iff_mul_le (by positivity), ← Nat.pow_add, ← he]
    exact Nat.log2_self_le (by omega)
  have htwo : 2 ≤ 2 ^ e := Nat.le_self_pow (by omega) 2
  have hprod := Nat.mul_le_mul (hquot.trans (div_le_divRound n (2 ^ e))) htwo
  rw [roundToDouble, he, Nat.add_sub_cancel_left] at hm
  have hrounded : divRound n (2 ^ e) * 2 ^ e = m := by
    simp only [Option.ite_none_right_eq_some, Option.some.injEq] at hm
    exact hm.2
  rw [hrounded] at hprod
  unfold maxSafe
  omega

theorem ofInt_of_le {n : Int} (h : n.natAbs ≤ maxSafe) : ofInt n = .finite n := by
  have hround := roundToDouble_of_le h
  clear h
  unfold ofInt
  generalize roundToDouble n.natAbs = rounded at hround ⊢
  subst hround
  show finite _ = finite n
  congr 1
  omega

theorem isSafeInteger_ofInt (n : Int) : (ofInt n).isSafeInteger = decide (n.natAbs ≤ maxSafe) := by
  by_cases h : n.natAbs ≤ maxSafe
  · rw [ofInt_of_le h]
    rfl
  · have hround := fun m hm ↦ le_of_roundToDouble (m := m) (not_le.mp h) hm
    unfold ofInt
    generalize roundToDouble n.natAbs = rounded at hround ⊢
    cases rounded with
    | none => simp only [isSafeInteger, h, decide_false]
    | some m =>
        have hm := hround m rfl
        have habs : ¬(if n < 0 then -(m : Int) else m).natAbs ≤ maxSafe := by
          unfold maxSafe at hm ⊢
          split_ifs <;> omega
        simp only [isSafeInteger, h, habs]

end JsNumber

/-! ## Values -/

/-- A value that `JSON` can hold: `null`, the primitives, plain arrays and plain objects.
An object lists its own properties in the order of their creation. -/
inductive JsValue where
  | null
  | boolean (b : Bool)
  | number (n : JsNumber)
  | string (s : JsString)
  | array (values : List JsValue)
  | object (members : List (JsString × JsValue))
deriving Inhabited

mutual

/-- The JavaScript value that a JSON value denotes. -/
def ofJson : Json → JsValue
  | .null => .null
  | .bool b => .boolean b
  | .num n => .number (.ofInt n)
  | .str s => .string (utf16 s.toList)
  | .arr values => .array (ofJsonValues values)
  | .obj members => .object (ofJsonMembers members)

def ofJsonValues : List Json → List JsValue
  | [] => []
  | v :: vs => ofJson v :: ofJsonValues vs

def ofJsonMembers : List (String × Json) → List (JsString × JsValue)
  | [] => []
  | (k, v) :: ms => (utf16 k.toList, ofJson v) :: ofJsonMembers ms

end

/-- An entry under the key's code units. -/
def keyUnits {α : Type*} (e : String × α) : JsString × α := (utf16 e.1.toList, e.2)

theorem ofJsonValues_eq_map (vs : List Json) : ofJsonValues vs = vs.map ofJson := by
  induction vs with
  | nil => rfl
  | cons v vs ih => rw [ofJsonValues, ih, List.map_cons]

theorem ofJsonMembers_eq_map (ms : List (String × Json)) :
    ofJsonMembers ms = (KeyMap.mapVal ofJson ms).map keyUnits := by
  induction ms with
  | nil => rfl
  | cons e ms ih => rw [ofJsonMembers, ih]; rfl

/-- The array index a property key stands for. -/
def arrayIndex (key : JsString) : Option Nat :=
  let n := key.foldl (fun n unit ↦ n * 10 + (unit.toNat - '0'.toNat)) 0
  if key = utf16 (Nat.toDigits 10 n) ∧ n < 2 ^ 32 - 1 then some n else none

/-- `Reflect.ownKeys`, each key with its property: array indices in ascending order,
then the other keys in the order of their creation. -/
def ownKeys {α : Type*} (members : List (JsString × α)) : List (JsString × α) :=
  (members.filter fun e ↦ (arrayIndex e.1).isSome).mergeSort
      (fun a b ↦ decide ((arrayIndex a.1).getD 0 ≤ (arrayIndex b.1).getD 0)) ++
    members.filter fun e ↦ !(arrayIndex e.1).isSome

theorem ownKeys_perm {α : Type*} (members : List (JsString × α)) :
    (ownKeys members).Perm members := by
  refine (List.Perm.append_right _ (List.mergeSort_perm _ _)).trans ?_
  exact List.filter_append_perm _ _

/-! ## Strings -/

def assertScalarString (context : String) : JsString → Except CanonicalizationError Unit
  | [] => .ok ()
  | [u] =>
      if isHigh u then fail "invalid_unicode" (context ++ " contains an unpaired high surrogate")
      else if isLow u then fail "invalid_unicode" (context ++ " contains an unpaired low surrogate")
      else .ok ()
  | u :: next :: rest =>
      if isHigh u then
        if isLow next then assertScalarString context rest
        else fail "invalid_unicode" (context ++ " contains an unpaired high surrogate")
      else if isLow u then fail "invalid_unicode" (context ++ " contains an unpaired low surrogate")
      else assertScalarString context (next :: rest)

/-- The loop of `compareUnicodeScalars`.  What is left after a common prefix differs
in length as the whole does. -/
def comparePoints : List Nat → List Nat → Int
  | left :: lefts, right :: rights =>
      if left ≠ right then if left < right then -1 else 1 else comparePoints lefts rights
  | lefts, rights => lefts.length - rights.length

def compareUnicodeScalars (left right : JsString) : Int :=
  comparePoints (codePoints left) (codePoints right)

/-- `codePoint.toString(16).padStart(4, "0")` -/
def hexPadded (codePoint : Nat) : JsString :=
  utf16 ((Nat.toDigits 16 codePoint).leftpad 4 '0')

/-- The body of the loop of `quoteString`. -/
def quoteScalar (codePoint : Nat) : JsString :=
  if codePoint = '"'.toNat then js "\\\""
  else if codePoint = '\\'.toNat then js "\\\\"
  else if codePoint = '\x08'.toNat then js "\\b"
  else if codePoint = '\t'.toNat then js "\\t"
  else if codePoint = '\n'.toNat then js "\\n"
  else if codePoint = '\x0c'.toNat then js "\\f"
  else if codePoint = '\r'.toNat then js "\\r"
  else if codePoint ≤ 0x1f then js "\\u" ++ hexPadded codePoint
  else fromCodePoint codePoint

def quoteString (value : JsString) : Except CanonicalizationError JsString := do
  assertScalarString "string" value
  .ok (unit '"' :: (codePoints value).flatMap quoteScalar ++ [unit '"'])

/-! ## The encoder -/

/-- `elements.join(",")` -/
def join : List JsString → JsString
  | [] => []
  | [p] => p
  | p :: ps => p ++ unit ',' :: join ps

/-- The loop over the sorted keys. -/
def writeEntries : List (JsString × Except CanonicalizationError JsString) →
    Except CanonicalizationError (List JsString)
  | [] => .ok []
  | (key, child) :: rest => do
      assertScalarString "object key" key
      let name ← quoteString key
      let child ← child
      let entries ← writeEntries rest
      .ok ((name ++ unit ':' :: child) :: entries)

/-- `ownKeys.sort(compareUnicodeScalars)` -/
def sortedKeys {α : Type*} (members : List (JsString × α)) : List (JsString × α) :=
  (ownKeys members).mergeSort fun a b ↦ decide (compareUnicodeScalars a.1 b.1 ≤ 0)

mutual

/-- `canonicalizeInner`.  The children of an object are encoded where they stand and
looked at in the order of the keys. -/
def canonicalizeInner : JsValue → Except CanonicalizationError JsString
  | .null => .ok (js "null")
  | .boolean value => .ok (if value then js "true" else js "false")
  | .string value => quoteString value
  | .number value =>
      if !value.isSafeInteger then fail "invalid_number" "numbers must be finite safe integers"
      else if value = .negativeZero then fail "invalid_number" "negative zero is not canonical"
      else .ok value.toText
  | .array values => do
      let elements ← canonicalizeValues values
      .ok (unit '[' :: join elements ++ [unit ']'])
  | .object members => do
      let entries ← writeEntries (sortedKeys (canonicalizeMembers members))
      .ok (unit '\x7b' :: join entries ++ [unit '\x7d'])

def canonicalizeValues : List JsValue → Except CanonicalizationError (List JsString)
  | [] => .ok []
  | v :: vs => do
      let element ← canonicalizeInner v
      let elements ← canonicalizeValues vs
      .ok (element :: elements)

def canonicalizeMembers : List (JsString × JsValue) →
    List (JsString × Except CanonicalizationError JsString)
  | [] => []
  | (key, v) :: ms => (key, canonicalizeInner v) :: canonicalizeMembers ms

end

/-! ## The budget -/

/-- The values that `enforceValueBudget` finds under one. -/
def children : JsValue → List JsValue
  | .array values => values
  | .object members => (ownKeys members).map Prod.snd
  | .null | .boolean _ | .number _ | .string _ => []

/-- The loop of `enforceValueBudget`, the end of the stack first. -/
def enforceLoop {ν : Type*} (children : ν → List ν) :
    List (ν × Nat) → Nat → Except CanonicalizationError Unit :=
  Budget.walk children maxTransportNodes maxTransportNestingDepth
    ⟨"resource_limit", js s!"JSON value exceeds {maxTransportNodes} nodes"⟩
    ⟨"resource_limit", js s!"JSON value exceeds nesting depth {maxTransportNestingDepth}"⟩

def enforceValueBudget (root : JsValue) : Except CanonicalizationError Unit :=
  enforceLoop children [(root, 1)] 0

/-- Return the canonical encoding of the ETP JSON subset. -/
def canonicalJson (value : JsValue) : Except CanonicalizationError JsString := do
  enforceValueBudget value
  canonicalizeInner value

end Etp.TypeScript
