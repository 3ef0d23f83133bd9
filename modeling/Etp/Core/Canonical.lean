import Etp.Core.Text
import Etp.Lib.Json.Sorted

/-!
# Canonical JSON and record commitments

`canonical_json` turns a record into a `serde_json::Value`, checks its depth and
node count, and writes it with the members of every object in byte order.
`hash_record` hashes a domain, a zero byte and that text.

`canonicalJson_eq_ok` says exactly when the encoding succeeds and what it is: the
minimal text of the value with its objects sorted, whenever the value fits the
budget and its integers are safe.  `canonicalText_injective` is the consequence
every commitment rests on.
-/

namespace Etp.Core

open Json (joinComma)

/-! ## The budget -/

/-- The first lines of `validate_value_budget`: the depth and the count at one
value.  `checked_add` cannot overflow below the node limit. -/
def enterValue (depth nodes : Nat) : Except ProtocolError Nat := do
  rejectIf (depth > maxCanonicalNestingDepth) (.resourceLimit "JSON nesting depth")
  rejectIf (nodes + 1 > maxCanonicalNodes) (.resourceLimit "JSON nodes")
  .ok (nodes + 1)

mutual

/-- `validate_value_budget`, returning the counter it updates. -/
def validateValueBudget : Json → Nat → Nat → Except ProtocolError Nat
  | .arr values, depth, nodes => do
      let nodes ← enterValue depth nodes
      validateValuesBudget values (depth + 1) nodes
  | .obj members, depth, nodes => do
      let nodes ← enterValue depth nodes
      validateMembersBudget members (depth + 1) nodes
  | .null, depth, nodes | .bool _, depth, nodes | .num _, depth, nodes | .str _, depth, nodes =>
      enterValue depth nodes

def validateValuesBudget : List Json → Nat → Nat → Except ProtocolError Nat
  | [], _, nodes => .ok nodes
  | v :: vs, depth, nodes => do
      let nodes ← validateValueBudget v depth nodes
      validateValuesBudget vs depth nodes

def validateMembersBudget : List (String × Json) → Nat → Nat → Except ProtocolError Nat
  | [], _, nodes => .ok nodes
  | (_, v) :: ms, depth, nodes => do
      let nodes ← validateValueBudget v depth nodes
      validateMembersBudget ms depth nodes

end

theorem enterValue_eq_ok {depth nodes n : Nat} :
    enterValue depth nodes = .ok n ↔
      n = nodes + 1 ∧ depth ≤ maxCanonicalNestingDepth ∧ nodes + 1 ≤ maxCanonicalNodes := by
  simp only [enterValue, bind_eq_ok, rejectIf_eq_ok, exists_const, Except.ok.injEq]
  omega

/-- The state in which the walk over the children of a value starts: their depth
is one more, and the count is still within its limit. -/
def BudgetOpen (depth nodes : Nat) : Prop :=
  depth ≤ maxCanonicalNestingDepth + 1 ∧ nodes ≤ maxCanonicalNodes

mutual

theorem validateValueBudget_eq_ok : ∀ (v : Json) (depth nodes : Nat) {n : Nat},
    validateValueBudget v depth nodes = .ok n ↔
      n = nodes + v.nodes ∧ depth + v.height ≤ maxCanonicalNestingDepth + 1 ∧
        nodes + v.nodes ≤ maxCanonicalNodes
  | .null, _, _, _ | .bool _, _, _, _ | .num _, _, _, _ | .str _, _, _, _ => by
      rw [validateValueBudget, enterValue_eq_ok]
      simp only [Json.nodes, Json.height]
      omega
  | .arr vs, depth, nodes, n => by
      simp only [validateValueBudget, bind_eq_ok, enterValue_eq_ok, Json.nodes, Json.height]
      constructor
      · rintro ⟨m, ⟨rfl, h₁, h₂⟩, h⟩
        have := (validateValuesBudget_eq_ok vs (depth + 1) (nodes + 1) ⟨by omega, h₂⟩).mp h
        omega
      · rintro ⟨rfl, h₁, h₂⟩
        refine ⟨nodes + 1, ⟨rfl, by omega, by omega⟩, ?_⟩
        exact (validateValuesBudget_eq_ok vs _ _ ⟨by omega, by omega⟩).mpr (by omega)
  | .obj ms, depth, nodes, n => by
      simp only [validateValueBudget, bind_eq_ok, enterValue_eq_ok, Json.nodes, Json.height]
      constructor
      · rintro ⟨m, ⟨rfl, h₁, h₂⟩, h⟩
        have := (validateMembersBudget_eq_ok ms (depth + 1) (nodes + 1) ⟨by omega, h₂⟩).mp h
        omega
      · rintro ⟨rfl, h₁, h₂⟩
        refine ⟨nodes + 1, ⟨rfl, by omega, by omega⟩, ?_⟩
        exact (validateMembersBudget_eq_ok ms _ _ ⟨by omega, by omega⟩).mpr (by omega)

theorem validateValuesBudget_eq_ok : ∀ (vs : List Json) (depth nodes : Nat) {n : Nat},
    BudgetOpen depth nodes →
    (validateValuesBudget vs depth nodes = .ok n ↔
      n = nodes + Json.nodesValues vs ∧
        depth + Json.heightValues vs ≤ maxCanonicalNestingDepth + 1 ∧
        nodes + Json.nodesValues vs ≤ maxCanonicalNodes)
  | [], depth, nodes, n, ⟨h₁, h₂⟩ => by
      simp only [validateValuesBudget, Json.nodesValues, Json.heightValues, Except.ok.injEq]
      omega
  | v :: vs, depth, nodes, n, ⟨h₁, h₂⟩ => by
      simp only [validateValuesBudget, bind_eq_ok, validateValueBudget_eq_ok v depth nodes,
        Json.nodesValues, Json.heightValues]
      constructor
      · rintro ⟨m, ⟨rfl, h₃, h₄⟩, h⟩
        have := (validateValuesBudget_eq_ok vs depth _ ⟨h₁, h₄⟩).mp h
        omega
      · rintro ⟨rfl, h₃, h₄⟩
        refine ⟨_, ⟨rfl, by omega, by omega⟩, ?_⟩
        exact (validateValuesBudget_eq_ok vs depth _ ⟨h₁, by omega⟩).mpr (by omega)

theorem validateMembersBudget_eq_ok : ∀ (ms : List (String × Json)) (depth nodes : Nat) {n : Nat},
    BudgetOpen depth nodes →
    (validateMembersBudget ms depth nodes = .ok n ↔
      n = nodes + Json.nodesMembers ms ∧
        depth + Json.heightMembers ms ≤ maxCanonicalNestingDepth + 1 ∧
        nodes + Json.nodesMembers ms ≤ maxCanonicalNodes)
  | [], depth, nodes, n, ⟨h₁, h₂⟩ => by
      simp only [validateMembersBudget, Json.nodesMembers, Json.heightMembers, Except.ok.injEq]
      omega
  | (k, v) :: ms, depth, nodes, n, ⟨h₁, h₂⟩ => by
      simp only [validateMembersBudget, bind_eq_ok, validateValueBudget_eq_ok v depth nodes,
        Json.nodesMembers, Json.heightMembers]
      constructor
      · rintro ⟨m, ⟨rfl, h₃, h₄⟩, h⟩
        have := (validateMembersBudget_eq_ok ms depth _ ⟨h₁, h₄⟩).mp h
        omega
      · rintro ⟨rfl, h₃, h₄⟩
        refine ⟨_, ⟨rfl, by omega, by omega⟩, ?_⟩
        exact (validateMembersBudget_eq_ok ms depth _ ⟨h₁, by omega⟩).mpr (by omega)

end

/-! ## The encoder -/

/-- The `Value::Number` arm: `as_i64`, then `as_u64`, then neither. -/
def encodeNumber (n : Int) : Except ProtocolError (List Char) :=
  if -2 ^ 63 ≤ n ∧ n < 2 ^ 63 then
    if n.natAbs > maxSafeInteger then .error .unsafeJsonNumber else .ok (Json.decimal n)
  else if 0 ≤ n ∧ n < 2 ^ 64 then
    if n > maxSafeInteger then .error .unsafeJsonNumber else .ok (Json.decimal n)
  else .error .unsafeJsonNumber

/-- The loop over the ordered members: the name, a colon and the child's text. -/
def writeMembers : List (String × Except ProtocolError (List Char)) →
    Except ProtocolError (List (List Char))
  | [] => .ok []
  | (key, child) :: ordered => do
      let child ← child
      let rest ← writeMembers ordered
      .ok ((Json.quote key ++ ':' :: child) :: rest)

mutual

/-- `encode_canonical_value`.  The children of an object are encoded where they
stand and then put in the order of a `BTreeMap`; the source orders them first,
which gives the same text and the same error. -/
def encodeCanonicalValue : Json → Except ProtocolError (List Char)
  | .null => .ok ['n', 'u', 'l', 'l']
  | .bool true => .ok ['t', 'r', 'u', 'e']
  | .bool false => .ok ['f', 'a', 'l', 's', 'e']
  | .num n => encodeNumber n
  | .str s => .ok (Json.quote s)
  | .arr values => do
      let children ← encodeValues values
      .ok ('[' :: joinComma children ++ [']'])
  | .obj members => do
      let ordered := KeyMap.collect (encodeMembers members)
      let children ← writeMembers ordered
      .ok ('{' :: joinComma children ++ ['}'])

def encodeValues : List Json → Except ProtocolError (List (List Char))
  | [] => .ok []
  | v :: vs => do
      let child ← encodeCanonicalValue v
      let rest ← encodeValues vs
      .ok (child :: rest)

def encodeMembers : List (String × Json) → List (String × Except ProtocolError (List Char))
  | [] => []
  | (key, v) :: ms => (key, encodeCanonicalValue v) :: encodeMembers ms

end

/-- The text of a value whose integers are safe. -/
def safeText (v : Json) : Except ProtocolError (List Char) :=
  if v.bounded maxSafeInteger then .ok v.text else .error .unsafeJsonNumber

theorem safeText_eq_ok {v : Json} {t : List Char} :
    safeText v = .ok t ↔ v.bounded maxSafeInteger = true ∧ t = v.text := by
  unfold safeText
  split <;> simp [*, eq_comm]

theorem encodeNumber_eq (n : Int) : encodeNumber n = safeText (.num n) := by
  unfold encodeNumber safeText maxSafeInteger
  simp only [Json.bounded, decide_eq_true_eq, Json.text]
  split_ifs <;> first | rfl | omega

theorem writeMembers_safeText (ms : List (String × Json)) :
    writeMembers (KeyMap.mapVal safeText ms) =
      if Json.boundedMembers maxSafeInteger ms then .ok (ms.map Json.memberText)
      else .error .unsafeJsonNumber := by
  induction ms with
  | nil => rfl
  | cons e ms ih =>
      obtain ⟨k, v⟩ := e
      have hcons : KeyMap.mapVal safeText ((k, v) :: ms) =
          (k, safeText v) :: KeyMap.mapVal safeText ms := rfl
      rw [hcons, writeMembers, ih, Json.boundedMembers, safeText]
      by_cases hv : v.bounded maxSafeInteger <;>
        by_cases hms : Json.boundedMembers maxSafeInteger ms <;>
        simp [Json.memberText, hv, hms, bind, Except.bind]

mutual

/-- The encoder writes the text of the sorted value. -/
theorem encodeCanonicalValue_eq : ∀ v : Json, encodeCanonicalValue v = safeText v.sortKeys
  | .null | .bool true | .bool false | .str _ => rfl
  | .num n => encodeNumber_eq n
  | .arr vs => by
      rw [encodeCanonicalValue, encodeValues_eq vs, Json.sortKeys, safeText, Json.bounded]
      by_cases h : Json.boundedValues maxSafeInteger (Json.sortKeysValues vs) <;>
        simp [h, Json.text_arr, bind, Except.bind]
  | .obj ms => by
      rw [encodeCanonicalValue, encodeMembers_eq ms, KeyMap.collect_mapVal, writeMembers_safeText,
        Json.sortKeys, safeText, Json.bounded]
      by_cases h : Json.boundedMembers maxSafeInteger (KeyMap.collect (Json.sortKeysMembers ms)) <;>
        simp [h, Json.text_obj, bind, Except.bind]

theorem encodeValues_eq : ∀ vs : List Json, encodeValues vs =
    if Json.boundedValues maxSafeInteger (Json.sortKeysValues vs) then
      .ok ((Json.sortKeysValues vs).map Json.text)
    else .error .unsafeJsonNumber
  | [] => rfl
  | v :: vs => by
      rw [encodeValues, encodeCanonicalValue_eq v, encodeValues_eq vs, Json.sortKeysValues,
        Json.boundedValues, safeText]
      by_cases hv : v.sortKeys.bounded maxSafeInteger <;>
        by_cases hvs : Json.boundedValues maxSafeInteger (Json.sortKeysValues vs) <;>
        simp [hv, hvs, bind, Except.bind]

theorem encodeMembers_eq : ∀ ms : List (String × Json),
    encodeMembers ms = KeyMap.mapVal safeText (Json.sortKeysMembers ms)
  | [] => rfl
  | (k, v) :: ms => by
      rw [encodeMembers, encodeCanonicalValue_eq v, encodeMembers_eq ms]
      rfl

end

/-! ## Records -/

/-- A serialized struct, `serde_json::to_value`: its fields in a
`serde_json::Map`, which is a `BTreeMap`. -/
def serializeStruct (fields : List (String × Json)) : Json := .obj (KeyMap.collect fields)

/-- `serde::Serialize` for a struct: its fields in declaration order. -/
class Serialize (α : Type*) where
  fields : α → List (String × Json)

def Serialize.toValue {α : Type*} [Serialize α] (record : α) : Json :=
  serializeStruct (Serialize.fields record)

def canonicalJson {α : Type*} [Serialize α] (record : α) : Except ProtocolError (List UInt8) := do
  let value := Serialize.toValue record
  let _ ← validateValueBudget value 1 0
  let output ← encodeCanonicalValue value
  .ok (utf8 (String.ofList output))

/-- The canonical text of a record, whether or not it is within the budget. -/
def canonicalText {α : Type*} [Serialize α] (record : α) : String :=
  String.ofList (Serialize.toValue record).sortKeys.text

/-- A value that `canonical_json` can encode. -/
structure Encodable (v : Json) : Prop where
  height : v.height ≤ maxCanonicalNestingDepth
  nodes : v.nodes ≤ maxCanonicalNodes
  bounded : v.sortKeys.bounded maxSafeInteger = true

section Serialize

variable {α : Type*} [Serialize α] {record : α} {bytes : List UInt8}

theorem canonicalJson_eq_ok :
    canonicalJson record = .ok bytes ↔
      Encodable (Serialize.toValue record) ∧ bytes = utf8 (canonicalText record) := by
  simp only [canonicalJson, bind_eq_ok, validateValueBudget_eq_ok, encodeCanonicalValue_eq,
    safeText_eq_ok, Except.ok.injEq, canonicalText]
  constructor
  · rintro ⟨_, ⟨-, h₁, h₂⟩, _, ⟨h₃, rfl⟩, rfl⟩
    exact ⟨⟨by omega, by omega, h₃⟩, rfl⟩
  · rintro ⟨⟨h₁, h₂, h₃⟩, rfl⟩
    exact ⟨_, ⟨rfl, by omega, by omega⟩, _, ⟨h₃, rfl⟩, rfl⟩

theorem canonicalJson_of_encodable (h : Encodable (Serialize.toValue record)) :
    canonicalJson record = .ok (utf8 (canonicalText record)) := canonicalJson_eq_ok.mpr ⟨h, rfl⟩

end Serialize

/-- `canonical_json` on a `serde_json::Value`, which `to_value` leaves as it is. -/
def canonicalValue (value : Json) : Except ProtocolError (List UInt8) := do
  let _ ← validateValueBudget value 1 0
  let output ← encodeCanonicalValue value
  .ok (utf8 (String.ofList output))

theorem canonicalValue_eq_ok {v : Json} {bytes : List UInt8} :
    canonicalValue v = .ok bytes ↔
      Encodable v ∧ bytes = utf8 (String.ofList v.sortKeys.text) := by
  simp only [canonicalValue, bind_eq_ok, validateValueBudget_eq_ok, encodeCanonicalValue_eq,
    safeText_eq_ok, Except.ok.injEq]
  constructor
  · rintro ⟨_, ⟨-, h₁, h₂⟩, _, ⟨h₃, rfl⟩, rfl⟩
    exact ⟨⟨by omega, by omega, h₃⟩, rfl⟩
  · rintro ⟨⟨h₁, h₂, h₃⟩, rfl⟩
    exact ⟨_, ⟨rfl, by omega, by omega⟩, _, ⟨h₃, rfl⟩, rfl⟩

/-- Equal canonical texts are texts of equal sorted values. -/
theorem canonicalText_injective {α β : Type*} [Serialize α] [Serialize β] {a : α} {b : β}
    (h : canonicalText a = canonicalText b) :
    (Serialize.toValue a).sortKeys = (Serialize.toValue b).sortKeys :=
  Json.text_injective (String.ofList_injective h)

/-- A separator that the prefixes do not contain makes the split unique. -/
theorem eq_of_separated {b : UInt8} {x y z w : List UInt8} (hx : b ∉ x) (hy : b ∉ y)
    (h : x ++ b :: z = y ++ b :: w) : x = y ∧ z = w := by
  induction x generalizing y with
  | nil =>
      cases y with
      | nil => exact ⟨rfl, (List.cons.inj h).2⟩
      | cons c y => exact absurd (by simp [(List.cons.inj h).1]) hy
  | cons c x ih =>
      cases y with
      | nil => exact absurd (by simp [(List.cons.inj h).1]) hx
      | cons d y =>
          simp only [List.mem_cons, not_or, List.cons_append, List.cons.injEq] at hx hy h
          obtain ⟨rfl, hw⟩ := ih hx.2 hy.2 h.2
          exact ⟨by rw [h.1], hw⟩

variable [Sha256]

/-- The bytes that `hash_record` feeds to SHA-256. -/
def hashInput {α : Type*} [Serialize α] (domain : String) (record : α) : List UInt8 :=
  utf8 domain ++ 0 :: utf8 (canonicalText record)

def hashRecord {α : Type*} [Serialize α] (domain : String) (record : α) :
    Except ProtocolError Digest32 := do
  let canonical ← canonicalJson record
  .ok (Digest32.fromPayload (utf8 domain ++ 0 :: canonical))

theorem hashRecord_eq_ok {α : Type*} [Serialize α] {domain : String} {record : α} {d : Digest32} :
    hashRecord domain record = .ok d ↔
      Encodable (Serialize.toValue record) ∧ d = .fromPayload (hashInput domain record) := by
  simp only [hashRecord, bind_eq_ok, canonicalJson_eq_ok, Except.ok.injEq, hashInput]
  constructor
  · rintro ⟨_, ⟨h, rfl⟩, rfl⟩
    exact ⟨h, rfl⟩
  · rintro ⟨h, rfl⟩
    exact ⟨_, ⟨h, rfl⟩, rfl⟩

end Etp.Core
