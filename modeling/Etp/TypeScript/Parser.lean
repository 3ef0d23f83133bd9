import Etp.TypeScript.Canonical

/-!
# The strict JSON parser

`StrictJsonParser` is a recursive-descent parser over the code units of its source.
Its fields are the `Cursor`: what is left of the source, how far it has read and how
many values it has entered.  A method takes the cursor and returns its result with the
cursor it leaves behind, or the error it throws.

The loops and the recursion run on a fuel argument, which `parseStrictJson` sets from
the length of the source; `Failure.outOfFuel` is no behaviour of the source and never
comes out (`parseStrictJson_ne_outOfFuel`).
-/

namespace Etp.TypeScript

open JsString

inductive Failure where
  | outOfFuel
  | thrown (error : CanonicalizationError)
deriving DecidableEq, Repr

/-- The fields of `StrictJsonParser`. -/
structure Cursor where
  rest : JsString
  index : Nat
  nodes : Nat
deriving DecidableEq, Repr

namespace Cursor

def advance (c : Cursor) (n : Nat) : Cursor :=
  { c with rest := c.rest.drop n, index := c.index + n }

@[simp] theorem advance_rest (c : Cursor) (n : Nat) : (c.advance n).rest = c.rest.drop n := rfl

@[simp] theorem advance_index (c : Cursor) (n : Nat) : (c.advance n).index = c.index + n := rfl

@[simp] theorem advance_nodes (c : Cursor) (n : Nat) : (c.advance n).nodes = c.nodes := rfl

/-- `this.source[this.index]` -/
def current (c : Cursor) : Option UInt16 := c.rest.head?

/-- The error of `fail`. -/
def failure (code message : String) : Failure := .thrown ⟨code, js message⟩

/-- The error of `this.invalid`. -/
def invalid (c : Cursor) (message : String) : Failure :=
  .thrown ⟨"invalid_json", js (message ++ s!" at offset {c.index}")⟩

/-! ## Lexemes -/

def isWhitespace (u : UInt16) : Bool :=
  u = unit ' ' ∨ u = unit '\t' ∨ u = unit '\r' ∨ u = unit '\n'

def skipWhitespace (c : Cursor) : Cursor := c.advance (c.rest.takeWhile isWhitespace).length

/-- `take`: the cursor after the expected unit, if it is there. -/
def take (c : Cursor) (expected : Char) : Option Cursor :=
  if c.current = some (unit expected) then some (c.advance 1) else none

/-- `if (!this.take(expected)) this.invalid(message)` -/
def expect (c : Cursor) (expected : Char) (message : String) : Except Failure Cursor :=
  okOr (c.take expected) (c.invalid message)

def keyword (c : Cursor) (token : String) (value : JsValue) :
    Except Failure (JsValue × Cursor) := do
  rejectIf (c.rest.take token.length ≠ js token) (c.invalid ("expected '" ++ token ++ "'"))
  .ok (value, c.advance token.length)

/-! ## Strings -/

def hexDigit (u : UInt16) : Option Nat :=
  if '0'.toNat ≤ u.toNat ∧ u.toNat ≤ '9'.toNat then some (u.toNat - '0'.toNat)
  else if 'a'.toNat ≤ u.toNat ∧ u.toNat ≤ 'f'.toNat then some (u.toNat - 'a'.toNat + 10)
  else if 'A'.toNat ≤ u.toNat ∧ u.toNat ≤ 'F'.toNat then some (u.toNat - 'A'.toNat + 10)
  else none

def hexUnit (c : Cursor) : Except Failure (Nat × Cursor) :=
  match c.rest with
  | x :: y :: z :: w :: _ =>
      match hexDigit x, hexDigit y, hexDigit z, hexDigit w with
      | some x, some y, some z, some w => .ok (((x * 16 + y) * 16 + z) * 16 + w, c.advance 4)
      | _, _, _, _ => .error (c.invalid "invalid Unicode escape")
  | _ => .error (c.invalid "invalid Unicode escape")

/-- The table `simple`. -/
def simple : List (UInt16 × UInt16) :=
  [(unit '"', unit '"'), (unit '\\', unit '\\'), (unit '/', unit '/'), (unit 'b', unit '\x08'),
    (unit 'f', unit '\x0c'), (unit 'n', unit '\n'), (unit 'r', unit '\r'), (unit 't', unit '\t')]

/-- A `\u` escape, after its first two units. -/
def unicodeEscape (c : Cursor) : Except Failure (JsString × Cursor) := do
  let (first, c) ← c.hexUnit
  if 0xd800 ≤ first ∧ first ≤ 0xdbff then do
    rejectIf (c.rest.take 2 ≠ js "\\u")
      (c.invalid "high surrogate must be followed by a low surrogate escape")
    let (second, c) ← (c.advance 2).hexUnit
    rejectIf (¬(0xdc00 ≤ second ∧ second ≤ 0xdfff))
      (c.invalid "high surrogate must be followed by a low surrogate escape")
    .ok (fromCodePoint (pairPoint first second), c)
  else if 0xdc00 ≤ first ∧ first ≤ 0xdfff then .error (c.invalid "unpaired low surrogate escape")
  else .ok ([.ofNat first], c)

/-- An escape, after its reverse solidus. -/
def escape (c : Cursor) : Except Failure (JsString × Cursor) :=
  match c.current.bind (fun u ↦ List.lookup u simple) with
  | some unescaped => .ok ([unescaped], c.advance 1)
  | none => do
      rejectIf (c.current ≠ some (unit 'u')) (c.invalid "invalid string escape")
      (c.advance 1).unicodeEscape

/-- A unit of a string that is neither a quotation mark nor a reverse solidus. -/
def unescaped (c : Cursor) (u : UInt16) : Except Failure (JsString × Cursor) :=
  if u.toNat ≤ 0x1f then .error (c.invalid "unescaped control character in string")
  else if isHigh u then
    match c.rest with
    | _ :: next :: _ =>
        if isLow next then .ok ([u, next], c.advance 2)
        else .error (c.invalid "unpaired high surrogate")
    | _ => .error (c.invalid "unpaired high surrogate")
  else if isLow u then .error (c.invalid "unpaired low surrogate")
  else .ok ([u], c.advance 1)

/-- The loop of `string`. -/
def stringLoop : Nat → JsString → Cursor → Except Failure (JsString × Cursor)
  | 0, _, _ => .error .outOfFuel
  | fuel + 1, result, c =>
      match c.current with
      | none => .error (c.invalid "unterminated string")
      | some u =>
          if u = unit '"' then .ok (result, c.advance 1)
          else if u = unit '\\' then do
            let (piece, c) ← (c.advance 1).escape
            stringLoop fuel (result ++ piece) c
          else do
            let (piece, c) ← c.unescaped u
            stringLoop fuel (result ++ piece) c

def string (c : Cursor) : Except Failure (JsString × Cursor) :=
  stringLoop c.rest.length [] (c.advance 1)

/-! ## Numbers -/

def isDigit (u : UInt16) : Bool := '0'.toNat ≤ u.toNat ∧ u.toNat ≤ '9'.toNat

def isNonzeroDigit (u : UInt16) : Bool := '1'.toNat ≤ u.toNat ∧ u.toNat ≤ '9'.toNat

/-- The value of a run of decimal digits. -/
def digitsValue (ds : JsString) : Nat := ds.foldl (fun n u ↦ 10 * n + (u.toNat - '0'.toNat)) 0

/-- `Number(token)` for a token of decimal digits after an optional minus sign. -/
def toNumber (token : JsString) : JsNumber :=
  if token.head? = some (unit '-') then
    if digitsValue token.tail = 0 then .negativeZero else .ofInt (-(digitsValue token.tail))
  else .ofInt (digitsValue token)

/-- The digits of a number. -/
def numberDigits (c : Cursor) : Except Failure Cursor :=
  match c.take '0' with
  | some c => do
      rejectIf (c.current.any isDigit) (c.invalid "leading zero in number")
      .ok c
  | none => do
      rejectIf (¬c.current.any isNonzeroDigit) (c.invalid "invalid integer")
      let c := c.advance 1
      .ok (c.advance (c.rest.takeWhile isDigit).length)

/-- The sign of a number. -/
def numberSign (c : Cursor) : Except Failure Cursor :=
  match c.take '-' with
  | some c => do
      rejectIf (c.rest = []) (c.invalid "incomplete number")
      .ok c
  | none => .ok c

/-- The steps of `number` after its digits. -/
def numberValue (start c : Cursor) : Except Failure (JsValue × Cursor) := do
  rejectIf (c.current ∈ [some (unit '.'), some (unit 'e'), some (unit 'E')])
    (failure "invalid_number_syntax" s!"non-integer JSON number form at offset {start.index}")
  let token := start.rest.take (c.index - start.index)
  let result := toNumber token
  rejectIf (¬result.isSafeInteger ∨ result = .negativeZero)
    (.thrown ⟨"invalid_number", js "number is not a canonical safe integer: " ++ token⟩)
  .ok (.number result, c)

def number (start : Cursor) : Except Failure (JsValue × Cursor) := do
  let c ← start.numberSign
  let c ← c.numberDigits
  start.numberValue c

/-! ## Values -/

/-- The tests at the start of `value`. -/
def enter (c : Cursor) (depth : Nat) : Except Failure Cursor := do
  rejectIf (depth > maxTransportNestingDepth)
    (failure "transport_limit" s!"JSON value exceeds nesting depth {maxTransportNestingDepth}")
  rejectIf (c.nodes + 1 > maxTransportNodes)
    (failure "transport_limit" s!"JSON value exceeds {maxTransportNodes} nodes")
  .ok { c with nodes := c.nodes + 1 }

/-- `object` up to its loop. -/
def object (c : Cursor) (loop : Cursor → Except Failure (List (JsString × JsValue) × Cursor)) :
    Except Failure (JsValue × Cursor) :=
  let c := (c.advance 1).skipWhitespace
  match c.take '\x7d' with
  | some c => .ok (.object [], c)
  | none => do
      let (members, c) ← loop c
      .ok (.object members, c)

/-- `array` up to its loop. -/
def array (c : Cursor) (loop : Cursor → Except Failure (List JsValue × Cursor)) :
    Except Failure (JsValue × Cursor) :=
  let c := (c.advance 1).skipWhitespace
  match c.take ']' with
  | some c => .ok (.array [], c)
  | none => do
      let (elements, c) ← loop c
      .ok (.array elements, c)

/-- A member of an object up to its value; the keys before it are those of `keys`. -/
def memberKey (c : Cursor) (keys : List JsString) : Except Failure (JsString × Cursor) := do
  rejectIf (c.current ≠ some (unit '"')) (c.invalid "expected an object key")
  let (key, c) ← c.string
  rejectIf (key ∈ keys) (.thrown ⟨"duplicate_key",
    js s!"duplicate JSON object key at offset {c.index}: " ++ key⟩)
  let c ← c.skipWhitespace.expect ':' "expected ':' after object key"
  .ok (key, c.skipWhitespace)

mutual

def value : Nat → Nat → Cursor → Except Failure (JsValue × Cursor)
  | 0, _, _ => .error .outOfFuel
  | fuel + 1, depth, c => do
      let c ← c.enter depth
      if c.current = some (unit '\x7b') then c.object (objectLoop fuel depth [])
      else if c.current = some (unit '[') then c.array (arrayLoop fuel depth)
      else if c.current = some (unit '"') then do
        let (s, c) ← c.string
        .ok (.string s, c)
      else if c.current = some (unit 't') then c.keyword "true" (.boolean true)
      else if c.current = some (unit 'f') then c.keyword "false" (.boolean false)
      else if c.current = some (unit 'n') then c.keyword "null" .null
      else if c.current = some (unit '-') ∨ c.current.any isDigit then c.number
      else .error (c.invalid "expected a JSON value")

/-- The loop of `object`; the members of the result are the ones still to be read. -/
def objectLoop : Nat → Nat → List JsString → Cursor →
    Except Failure (List (JsString × JsValue) × Cursor)
  | 0, _, _, _ => .error .outOfFuel
  | fuel + 1, depth, keys, c => do
      let (key, c) ← c.memberKey keys
      let (v, c) ← value fuel (depth + 1) c
      match c.skipWhitespace.take '\x7d' with
      | some c => .ok ([(key, v)], c)
      | none => do
          let c ← c.skipWhitespace.expect ',' "expected ',' or '\x7d' in object"
          let (members, c) ← objectLoop fuel depth (key :: keys) c.skipWhitespace
          .ok ((key, v) :: members, c)

/-- The loop of `array`; the elements of the result are the ones still to be read. -/
def arrayLoop : Nat → Nat → Cursor → Except Failure (List JsValue × Cursor)
  | 0, _, _ => .error .outOfFuel
  | fuel + 1, depth, c => do
      let (v, c) ← value fuel (depth + 1) c
      match c.skipWhitespace.take ']' with
      | some c => .ok ([v], c)
      | none => do
          let c ← c.skipWhitespace.expect ',' "expected ',' or ']' in array"
          let (elements, c) ← arrayLoop fuel depth c.skipWhitespace
          .ok (v :: elements, c)

end

end Cursor

/-- `new StrictJsonParser(source).parse()` -/
def parse (source : JsString) : Except Failure JsValue := do
  let c : Cursor := ⟨source, 0, 0⟩
  let (value, c) ← Cursor.value (2 * source.length + 1) 1 c.skipWhitespace
  let c := c.skipWhitespace
  rejectIf (c.rest ≠ []) (c.invalid "unexpected trailing input")
  let _ ← (canonicalJson value).mapError .thrown
  .ok value

/-- Parse the ETP JSON subset and reject duplicate keys or invalid numbers. -/
def parseStrictJson (text : JsString) : Except Failure JsValue := do
  rejectIf ((toBuffer text).length > maxTransportInputBytes)
    (Cursor.failure "transport_limit" s!"JSON input exceeds {maxTransportInputBytes} UTF-8 bytes")
  parse text

end Etp.TypeScript
