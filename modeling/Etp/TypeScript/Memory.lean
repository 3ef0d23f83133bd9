import Etp.TypeScript.Encoding

/-!
# Values in memory

`canonicalJson` on the values that a program holds: primitives of every type, and
references to objects.  A `Graph` gives every object its kind, its prototype and its own
properties, data properties or accessors, under strings or symbols.  What an accessor
returns does not change in the course of a call.

Both passes of the source are here.  `enforceValueBudget` walks over the own data
properties of every object, by their descriptors.  `canonicalizeInner` reads the elements
of an array by their index, whatever kind of property stands there, and only then looks at
the other keys; the properties of an object it takes from their descriptors.

Every nested call is made for an object that is not among its ancestors, so that the
number of objects bounds the recursion (`canonicalJson_ne_outOfFuel`).
-/

namespace Etp.TypeScript.Memory

open JsString

/-! ## Objects -/

/-- A value.  A number that is not an integer, `NaN` among them, is `none`. -/
inductive Value (α : Type) where
  | undefined
  | null
  | boolean (b : Bool)
  | number (n : Option JsNumber)
  | bigint
  | symbol
  | string (s : JsString)
  | reference (a : α)
deriving DecidableEq

inductive Key where
  | name (s : JsString)
  | symbol (n : Nat)
deriving DecidableEq

/-- An own property.  For an accessor, what its getter returns, or `none` if it throws. -/
inductive Property (α : Type) where
  | data (v : Value α) (enumerable : Bool)
  | accessor (result : Option (Value α)) (enumerable : Bool)
deriving DecidableEq

inductive Kind where
  | ordinary
  | array (length : Nat)
  | callable
deriving DecidableEq

inductive Prototype where
  | null
  | objectPrototype
  | other
deriving DecidableEq

/-- The array index that a key stands for. -/
def Key.arrayIndex : Key → Option Nat
  | .name s => TypeScript.arrayIndex s
  | .symbol _ => none

/-- An object with its own properties in the order of their creation, without the `length` of
an array.  The array indices among the keys of an array are below its length. -/
structure Object (α : Type) where
  kind : Kind
  prototype : Prototype
  own : List (Key × Property α)
  distinct : (own.map Prod.fst).Nodup
  indices : ∀ length, kind = .array length → length < 2 ^ 32 ∧
    ∀ e ∈ own, e.1 ≠ .name (js "length") ∧ ∀ i, e.1.arrayIndex = some i → i < length

/-- The objects of a program. -/
abbrev Graph (α : Type) := α → Object α

section Objects

variable {α : Type}

/-- The value that reading the property gives. -/
def Property.read : Property α → Option (Value α)
  | .data v _ => some v
  | .accessor result _ => result

/-- The value of a data property. -/
def Property.value? : Property α → Option (Value α)
  | .data v _ => some v
  | .accessor _ _ => none

/-- The value of an enumerable data property. -/
def Property.enumerableValue? : Property α → Option (Value α)
  | .data v true => some v
  | _ => none

def Object.get (o : Object α) (key : Key) : Option (Property α) := o.own.lookup key

/-- The own properties under strings. -/
def Object.names (o : Object α) : List (JsString × Property α) :=
  o.own.filterMap fun e ↦ match e.1 with
    | .name s => some (s, e.2)
    | .symbol _ => none

/-- The own properties under symbols. -/
def Object.symbols (o : Object α) : List (Property α) :=
  o.own.filterMap fun e ↦ match e.1 with
    | .name _ => none
    | .symbol _ => some e.2

/-- The own properties in the order of `Reflect.ownKeys`. -/
def Object.properties (o : Object α) : List (Property α) :=
  (ownKeys o.names).map Prod.snd ++ o.symbols

/-- The key of an element. -/
def indexKey (i : Nat) : Key := .name (utf16 (Nat.toDigits 10 i))

/-- The pattern `^(0|[1-9][0-9]*)$` -/
def isIndexName : JsString → Bool
  | [] => false
  | u :: us =>
      (u = unit '0' ∧ us = []) ∨
        ('1'.toNat ≤ u.toNat ∧ u.toNat ≤ '9'.toNat ∧
          us.all fun v ↦ '0'.toNat ≤ v.toNat ∧ v.toNat ≤ '9'.toNat)

/-- A key that is none of the `extraKeys`. -/
def isIndexKey : Key → Bool
  | .name s => isIndexName s
  | .symbol _ => false

end Objects

/-! ## The budget -/

section Budget

variable {α : Type} (g : Graph α)

/-- The values that `enforceValueBudget` finds under one. -/
def children : Value α → List (Value α)
  | .reference a => if (g a).kind = .callable then [] else
      (g a).properties.filterMap Property.value?
  | _ => []

def enforceValueBudget (root : Value α) : Except CanonicalizationError Unit :=
  enforceLoop (children g) [(root, 1)] 0

end Budget

/-! ## The encoder -/

inductive GraphFailure where
  | outOfFuel
  | getter
  | thrown (error : CanonicalizationError)
deriving DecidableEq

/-- A computation of the source on strings and trees. -/
def lift {β : Type} (x : Except CanonicalizationError β) : Except GraphFailure β :=
  x.mapError .thrown

/-- The error of `fail`. -/
def failure (code message : String) : GraphFailure := .thrown ⟨code, js message⟩

section Encoder

variable {α : Type}

/-- The loop over the indices of an array. -/
def arrayElements (o : Object α) (inner : Value α → Except GraphFailure JsString) :
    Nat → Nat → Except GraphFailure (List JsString)
  | 0, _ => .ok []
  | remaining + 1, index => do
      let p ← okOr (o.get (indexKey index))
        (failure "sparse_array" "sparse arrays are not canonical JSON")
      let v ← okOr p.read .getter
      let element ← inner v
      let elements ← arrayElements o inner remaining (index + 1)
      .ok (element :: elements)

def canonicalizeArray (o : Object α) (length : Nat)
    (inner : Value α → Except GraphFailure JsString) : Except GraphFailure JsString := do
  let elements ← arrayElements o inner length 0
  rejectIf (¬o.own.all fun e ↦ isIndexKey e.1)
    (failure "array_property" "arrays cannot carry named or symbolic properties")
  .ok (unit '[' :: join elements ++ [unit ']'])

/-- The loop over the sorted keys of an object. -/
def writeProperties (inner : Value α → Except GraphFailure JsString) :
    List (JsString × Property α) → Except GraphFailure (List JsString)
  | [] => .ok []
  | (key, p) :: rest => do
      lift (assertScalarString "object key" key)
      let v ← okOr p.enumerableValue?
        (failure "object_property" "object properties must be enumerable data properties")
      let name ← lift (quoteString key)
      let child ← inner v
      let entries ← writeProperties inner rest
      .ok ((name ++ unit ':' :: child) :: entries)

def canonicalizeObject (o : Object α) (inner : Value α → Except GraphFailure JsString) :
    Except GraphFailure JsString := do
  rejectIf (o.prototype = .other)
    (failure "non_plain_object" "only plain objects are canonical JSON objects")
  rejectIf (o.symbols ≠ []) (failure "symbol_key" "JSON object keys must be strings")
  let entries ← writeProperties inner (sortedKeys o.names)
  .ok (unit '\x7b' :: join entries ++ [unit '\x7d'])

/-- The error for a value of another type. -/
def unsupported (type : String) : GraphFailure :=
  failure "unsupported_type" ("unsupported JSON value type: " ++ type)

variable [DecidableEq α] (g : Graph α)

def canonicalizeInner : Nat → List α → Value α → Except GraphFailure JsString
  | _, _, .null => lift (TypeScript.canonicalizeInner .null)
  | _, _, .boolean b => lift (TypeScript.canonicalizeInner (.boolean b))
  | _, _, .string s => lift (TypeScript.canonicalizeInner (.string s))
  | _, _, .number (some n) => lift (TypeScript.canonicalizeInner (.number n))
  | _, _, .number none =>
      .error (failure "invalid_number" "numbers must be finite safe integers")
  | _, _, .undefined => .error (unsupported "undefined")
  | _, _, .bigint => .error (unsupported "bigint")
  | _, _, .symbol => .error (unsupported "symbol")
  | 0, _, .reference _ => .error .outOfFuel
  | fuel + 1, ancestors, .reference a => do
      rejectIf ((g a).kind = .callable) (unsupported "function")
      rejectIf (a ∈ ancestors) (failure "cyclic_value" "cyclic values cannot be canonicalized")
      match (g a).kind with
      | .array length => canonicalizeArray (g a) length (canonicalizeInner fuel (a :: ancestors))
      | _ => canonicalizeObject (g a) (canonicalizeInner fuel (a :: ancestors))

/-- Return the canonical encoding of the ETP JSON subset. -/
def canonicalJson [Fintype α] (v : Value α) : Except GraphFailure JsString := do
  lift (enforceValueBudget g v)
  canonicalizeInner g (Fintype.card α + 1) [] v

end Encoder

/-! ## What the budget bounds -/

section Bounds

variable {α : Type} (g : Graph α)

/-- The value fits the budget. -/
def WithinBudget (v : Value α) : Prop :=
  Budget.fitsIn (children g) maxTransportNestingDepth v = true ∧
    Budget.nodesWithin (children g) maxTransportNestingDepth v ≤ maxTransportNodes

theorem enforceValueBudget_eq_ok {v : Value α} {u : Unit} :
    enforceValueBudget g v = .ok u ↔ WithinBudget g v := by
  rw [enforceValueBudget, enforceLoop, Budget.walk_eq_ok _ _ (Nat.zero_le _)]
  simp [WithinBudget]

end Bounds

/-! ## The recursion ends -/

section Termination

variable {α : Type}

theorem lift_ne_outOfFuel {β : Type} (x : Except CanonicalizationError β) :
    lift x ≠ .error .outOfFuel := by
  cases x <;> simp [lift, Except.mapError]

theorem arrayElements_ne_outOfFuel {o : Object α} {inner : Value α → Except GraphFailure JsString}
    (h : ∀ v, inner v ≠ .error .outOfFuel) (remaining index : Nat) :
    arrayElements o inner remaining index ≠ .error .outOfFuel := by
  induction remaining generalizing index with
  | zero => simp [arrayElements]
  | succ remaining ih =>
      simp [arrayElements, failure, bind_eq_error, okOr_eq_error, h, ih]

theorem canonicalizeArray_ne_outOfFuel {o : Object α}
    {inner : Value α → Except GraphFailure JsString} (h : ∀ v, inner v ≠ .error .outOfFuel)
    (length : Nat) : canonicalizeArray o length inner ≠ .error .outOfFuel := by
  simp [canonicalizeArray, failure, bind_eq_error, rejectIf_eq_error,
    arrayElements_ne_outOfFuel h]

theorem writeProperties_ne_outOfFuel {inner : Value α → Except GraphFailure JsString}
    (h : ∀ v, inner v ≠ .error .outOfFuel) (properties : List (JsString × Property α)) :
    writeProperties inner properties ≠ .error .outOfFuel := by
  induction properties with
  | nil => simp [writeProperties]
  | cons e properties ih =>
      simp [writeProperties, failure, bind_eq_error, okOr_eq_error, lift_ne_outOfFuel, h, ih]

theorem canonicalizeObject_ne_outOfFuel {o : Object α}
    {inner : Value α → Except GraphFailure JsString} (h : ∀ v, inner v ≠ .error .outOfFuel) :
    canonicalizeObject o inner ≠ .error .outOfFuel := by
  simp [canonicalizeObject, failure, bind_eq_error, rejectIf_eq_error,
    writeProperties_ne_outOfFuel h]

variable [DecidableEq α] (g : Graph α)

/-- The ancestors are different objects, so that they and the fuel together exceed the
objects at every call. -/
theorem canonicalizeInner_ne_outOfFuel [Fintype α] (fuel : Nat) (ancestors : List α) (v : Value α)
    (hnodup : ancestors.Nodup) (hfuel : Fintype.card α < fuel + ancestors.length) :
    canonicalizeInner g fuel ancestors v ≠ .error .outOfFuel := by
  induction fuel generalizing ancestors v with
  | zero =>
      have hcard := hnodup.length_le_card
      omega
  | succ fuel ih =>
      cases v with
      | null | boolean | string => exact lift_ne_outOfFuel _
      | undefined | bigint | symbol => simp [canonicalizeInner, unsupported, failure]
      | number n =>
          cases n with
          | none => simp [canonicalizeInner, failure]
          | some n => exact lift_ne_outOfFuel _
      | reference a =>
          simp only [canonicalizeInner, ne_eq, bind_eq_error, rejectIf_eq_error, unsupported,
            failure, reduceCtorEq, and_false, rejectIf_eq_ok, exists_const, false_or, not_and]
          intro _ hfresh
          have hinner : ∀ w, canonicalizeInner g fuel (a :: ancestors) w ≠ .error .outOfFuel := by
            intro w
            refine ih _ w (List.nodup_cons.mpr ⟨hfresh, hnodup⟩) ?_
            rw [List.length_cons]
            omega
          cases (g a).kind with
          | array length => exact canonicalizeArray_ne_outOfFuel hinner length
          | ordinary | callable => exact canonicalizeObject_ne_outOfFuel hinner

/-- The encoder always ends with a text or with an error of the source. -/
theorem canonicalJson_ne_outOfFuel [Fintype α] (v : Value α) :
    canonicalJson g v ≠ .error .outOfFuel := by
  have hinner := canonicalizeInner_ne_outOfFuel g (Fintype.card α + 1) [] v .nil (by simp)
  simp [canonicalJson, bind_eq_error, lift_ne_outOfFuel, hinner]

end Termination

end Etp.TypeScript.Memory
