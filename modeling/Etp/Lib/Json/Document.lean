import Etp.Lib.Utf16

/-!
# JSON documents

`Document ν` is the JSON data model over code units, with numbers of any type.  An object
lists its members in order and may repeat a name, so that the same type serves for the
syntax tree of a text, whose numbers are its numerals, and for the value a reader makes
of it.

`Document.value` is that value: a repeated name keeps the place of its first member and the
value of its last.
-/

namespace Etp

/-- A JSON document with numbers in `ν`. -/
inductive Document (ν : Type) where
  | null
  | boolean (b : Bool)
  | number (n : ν)
  | string (s : JsString)
  | array (values : List (Document ν))
  | object (members : List (JsString × Document ν))
deriving Inhabited

namespace Document

/-- The units of a fixed text: a literal name or the name of a member. -/
def keyword (s : String) : JsString := JsString.utf16 s.toList

variable {ν μ : Type}

/-! ## Size -/

mutual

/-- The number of values in a document, the root included. -/
def nodes : Document ν → Nat
  | array values => nodesValues values + 1
  | object members => nodesMembers members + 1
  | null | boolean _ | number _ | string _ => 1

def nodesValues : List (Document ν) → Nat
  | [] => 0
  | v :: vs => v.nodes + nodesValues vs

def nodesMembers : List (JsString × Document ν) → Nat
  | [] => 0
  | (_, v) :: ms => v.nodes + nodesMembers ms

end

mutual

/-- The nesting depth of a document, a leaf having depth 1. -/
def height : Document ν → Nat
  | array values => heightValues values + 1
  | object members => heightMembers members + 1
  | null | boolean _ | number _ | string _ => 1

def heightValues : List (Document ν) → Nat
  | [] => 0
  | v :: vs => max v.height (heightValues vs)

def heightMembers : List (JsString × Document ν) → Nat
  | [] => 0
  | (_, v) :: ms => max v.height (heightMembers ms)

end

/-! ## Names -/

mutual

/-- No object at any depth has two members of one name. -/
def Distinct : Document ν → Prop
  | array values => DistinctValues values
  | object members => (members.map Prod.fst).Nodup ∧ DistinctMembers members
  | null | boolean _ | number _ | string _ => True

def DistinctValues : List (Document ν) → Prop
  | [] => True
  | v :: vs => v.Distinct ∧ DistinctValues vs

def DistinctMembers : List (JsString × Document ν) → Prop
  | [] => True
  | (_, v) :: ms => v.Distinct ∧ DistinctMembers ms

end

/-- Set a member of an object: in its place if the name is there, at the end otherwise. -/
def assign (name : JsString) (v : Document ν) :
    List (JsString × Document ν) → List (JsString × Document ν)
  | [] => [(name, v)]
  | (k, w) :: ms => if k = name then (k, v) :: ms else (k, w) :: assign name v ms

mutual

/-- The value of a syntax tree whose numerals denote numbers by `f`. -/
def value (f : μ → ν) : Document μ → Document ν
  | null => null
  | boolean b => boolean b
  | number n => number (f n)
  | string s => string s
  | array values => array (valueValues f values)
  | object members => object (valueMembers f members [])

def valueValues (f : μ → ν) : List (Document μ) → List (Document ν)
  | [] => []
  | v :: vs => v.value f :: valueValues f vs

/-- The members so far, extended by those of the text. -/
def valueMembers (f : μ → ν) :
    List (JsString × Document μ) → List (JsString × Document ν) → List (JsString × Document ν)
  | [], acc => acc
  | (k, v) :: ms, acc => valueMembers f ms (assign k (v.value f) acc)

end

@[simp] theorem nodes_pos (v : Document ν) : 0 < v.nodes := by
  cases v <;> simp [nodes]

@[simp] theorem height_pos (v : Document ν) : 0 < v.height := by
  cases v <;> simp [height]

end Document

end Etp
