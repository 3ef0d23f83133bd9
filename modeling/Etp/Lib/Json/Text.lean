import Mathlib

/-!
# JSON values and their minimal text

`Json` is the JSON data model restricted to integers.  `Json.text` writes a
value without insignificant whitespace, members in the order the value lists
them, integers in minimal decimal notation, and strings with the short escapes
for the quotation mark, the reverse solidus and five control characters, and
`\u00xx` for the remaining ones below U+0020.

The writer treats the first element of an array and the first member of an
object apart, so that its recursion is the one a parser makes.
-/

namespace Etp

/-- A JSON value whose numbers are integers. -/
inductive Json where
  | null
  | bool (b : Bool)
  | num (n : Int)
  | str (s : String)
  | arr (values : List Json)
  | obj (members : List (String × Json))
deriving Repr, Inhabited

namespace Json

/-! ## Size -/

mutual

/-- The number of values in a tree, the root included. -/
def nodes : Json → Nat
  | arr values => nodesValues values + 1
  | obj members => nodesMembers members + 1
  | null | bool _ | num _ | str _ => 1

def nodesValues : List Json → Nat
  | [] => 0
  | v :: vs => v.nodes + nodesValues vs

def nodesMembers : List (String × Json) → Nat
  | [] => 0
  | (_, v) :: ms => v.nodes + nodesMembers ms

end

mutual

/-- The nesting depth of a tree, a leaf having depth 1. -/
def height : Json → Nat
  | arr values => heightValues values + 1
  | obj members => heightMembers members + 1
  | null | bool _ | num _ | str _ => 1

def heightValues : List Json → Nat
  | [] => 0
  | v :: vs => max v.height (heightValues vs)

def heightMembers : List (String × Json) → Nat
  | [] => 0
  | (_, v) :: ms => max v.height (heightMembers ms)

end

/-! ## Text -/

/-- The spelling of one scalar value inside a string literal. -/
def escapeChar (c : Char) : List Char :=
  if c = '"' then ['\\', '"']
  else if c = '\\' then ['\\', '\\']
  else if c = '\x08' then ['\\', 'b']
  else if c = '\t' then ['\\', 't']
  else if c = '\n' then ['\\', 'n']
  else if c = '\x0c' then ['\\', 'f']
  else if c = '\r' then ['\\', 'r']
  else if c.toNat < 0x20 then
    ['\\', 'u', '0', '0', Nat.digitChar (c.toNat / 16), Nat.digitChar (c.toNat % 16)]
  else [c]

/-- A string literal. -/
def quote (s : String) : List Char := '"' :: s.toList.flatMap escapeChar ++ ['"']

/-- Minimal decimal notation. -/
def decimal : Int → List Char
  | .ofNat n => Nat.toDigits 10 n
  | .negSucc n => '-' :: Nat.toDigits 10 (n + 1)

mutual

/-- The minimal text of a value. -/
def text : Json → List Char
  | null => ['n', 'u', 'l', 'l']
  | bool true => ['t', 'r', 'u', 'e']
  | bool false => ['f', 'a', 'l', 's', 'e']
  | num n => decimal n
  | str s => quote s
  | arr [] => ['[', ']']
  | arr (v :: vs) => '[' :: (v.text ++ tailText vs)
  | obj [] => ['{', '}']
  | obj ((k, v) :: ms) => '{' :: (quote k ++ ':' :: (v.text ++ tailMembersText ms))

/-- The rest of an array after an element. -/
def tailText : List Json → List Char
  | [] => [']']
  | v :: vs => ',' :: (v.text ++ tailText vs)

/-- The rest of an object after a member. -/
def tailMembersText : List (String × Json) → List Char
  | [] => ['}']
  | (k, v) :: ms => ',' :: (quote k ++ ':' :: (v.text ++ tailMembersText ms))

end

end Json

end Etp
