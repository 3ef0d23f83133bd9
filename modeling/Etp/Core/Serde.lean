import Etp.Core.Canonical

/-!
# Derived serialization

What `serde` derives for a struct with `deny_unknown_fields`, read through
`serde_json`: an object with known and distinct names, or an array of the fields
in declaration order; an absent or `null` optional field is `None`; a unit
variant is its name, or an object whose only member has that name and the value
`null`.  Every failure is the same `ProtocolError::Json`, so a reader returns an
`Option`.

The second half is about records whose fields are integers, texts and lists of
texts (`PlainFields`): such a record is within the budget, and its text has a
length that the lengths of its fields bound.
-/

namespace Etp.Core

/-! ## Readers -/

/-- `u64`: a number within 64 bits. -/
def readU64 : Json → Option Nat
  | .num n => if 0 ≤ n ∧ n < 2 ^ 64 then some n.toNat else none
  | _ => none

/-- `String` -/
def readText : Json → Option String
  | .str s => some s
  | _ => none

/-- `Digest32`, from its text. -/
def readDigest (v : Json) : Option Digest32 := do
  let s ← readText v
  (Digest32.parse s).toOption

variable {α : Type*}

/-- `Option`: `null` is the absent value. -/
def readOption (read : Json → Option α) : Json → Option (Option α)
  | .null => some none
  | v => (read v).map some

/-- `Vec`: every item has to be read. -/
def readVec (read : Json → Option α) : Json → Option (List α)
  | .arr vs => vs.mapM read
  | _ => none

/-- A unit variant of an enumeration, as its name or as an object with the name over `null`. -/
def readVariant (variants : List (String × α)) : Json → Option α
  | .str s => variants.lookup s
  | .obj [(s, .null)] => variants.lookup s
  | _ => none

/-- The members of a struct with the given field names. -/
def structMembers (names : List String) : Json → Option (List (String × Json))
  | .obj ms => if (ms.map Prod.fst).Nodup ∧ ∀ k ∈ ms.map Prod.fst, k ∈ names then some ms else none
  | .arr vs => if vs.length = names.length then some (names.zip vs) else none
  | _ => none

/-- A field that has no default. -/
def requiredField (read : Json → Option α) (ms : List (String × Json)) (name : String) :
    Option α := (ms.lookup name).bind read

/-- An `Option` field, which is absent when its member is. -/
def optionalField (read : Json → Option α) (ms : List (String × Json)) (name : String) :
    Option (Option α) :=
  match ms.lookup name with
  | none => some none
  | some v => readOption read v

/-- `serde::Deserialize` for a struct: the names of its fields and how its
members are read. -/
class Deserialize (α : Type*) where
  names : List String
  read : List (String × Json) → Option α

def Deserialize.fromValue [Deserialize α] (v : Json) : Option α :=
  (structMembers (names α) v).bind read

/-! ### Reading what was written -/

/-- A number within 64 bits is read as it was written. -/
@[simp] theorem readU64_num {n : Nat} (h : n < 2 ^ 64) : readU64 (.num n) = some n := by
  rw [readU64, if_pos ⟨by omega, by omega⟩, Int.toNat_natCast]

@[simp] theorem readDigest_str (d : Digest32) : readDigest (.str d.asStr) = some d := by
  simp [readDigest, readText, Except.toOption]

/-- A list is read as it was written, if its items are. -/
theorem readVec_arr {read : Json → Option α} {write : α → Json} {l : List α}
    (h : ∀ a ∈ l, read (write a) = some a) : readVec read (.arr (l.map write)) = some l := by
  rw [readVec]
  induction l with
  | nil => rfl
  | cons a l ih =>
      simp [h a (by simp), ih fun b hb ↦ h b (by simp [hb])]

/-- `Option<T>` as serde writes it. -/
def writeOption (write : α → Json) : Option α → Json
  | none => .null
  | some a => write a

/-- An optional value is read as it was written, if no value is written as `null`. -/
theorem readOption_writeOption {read : Json → Option α} {write : α → Json} {o : Option α}
    (h : ∀ a ∈ o, read (write a) = some a ∧ write a ≠ .null) :
    readOption read (writeOption write o) = some o := by
  cases o with
  | none => rfl
  | some a =>
      obtain ⟨h₁, h₂⟩ := h a rfl
      rw [writeOption, readOption]
      · rw [h₁]; rfl
      · exact h₂

/-- The members of a written structure are its fields, whatever their order. -/
theorem structMembers_serializeStruct {fields : List (String × Json)} {names : List String}
    (h : fields.map Prod.fst = names) (hn : names.Nodup) :
    structMembers names (serializeStruct fields) = some (KeyMap.collect fields) := by
  have hperm := KeyMap.collect_perm (m := fields) (by rwa [h])
  rw [serializeStruct, structMembers, if_pos]
  refine ⟨(KeyMap.sorted_collect fields).nodup, fun k hk ↦ ?_⟩
  rw [← h]
  exact (hperm.map Prod.fst).mem_iff.mp hk

section Fields

variable {read : Json → Option α} {ms fields : List (String × Json)} {name : String} {v : Json}

/-- The members hold what the fields do. -/
def SameLookups (ms fields : List (String × Json)) : Prop :=
  ∀ name, ms.lookup name = fields.lookup name

theorem sameLookups_collect (h : (fields.map Prod.fst).Nodup) :
    SameLookups (KeyMap.collect fields) fields := KeyMap.lookup_collect_of_nodup h

/-- A field is read from every object with the members of the structure. -/
theorem SameLookups.required (h : SameLookups ms fields) {a : α}
    (hv : fields.lookup name = some v) (hr : read v = some a) :
    requiredField read ms name = some a := by
  rw [requiredField, h name, hv, Option.bind_some, hr]

theorem SameLookups.optional (h : SameLookups ms fields) {a : Option α}
    (hv : fields.lookup name = some v) (hr : readOption read v = some a) :
    optionalField read ms name = some a := by
  rw [optionalField, h name, hv]
  exact hr

end Fields

/-! ## Plain fields -/

/-- An integer, a text or a list of texts, with bounds on its size. -/
structure PlainValue (v : Json) (nodes bytes : Nat) : Prop where
  sorted : v.sortKeys = v
  height : v.height ≤ 2
  bounded : v.bounded maxSafeInteger = true
  nodes_le : v.nodes ≤ nodes
  bytes_le : Json.bytesOf v.text ≤ bytes

theorem plain_null : PlainValue .null 1 16 :=
  ⟨rfl, by decide, rfl, le_rfl, by decide⟩

/-- A safe integer is one node and has few digits. -/
theorem plain_num {n : Nat} (h : n ≤ maxSafeInteger) : PlainValue (.num n) 1 16 :=
  ⟨rfl, by simp [Json.height], by simpa [Json.bounded] using h, le_rfl,
    Json.bytesOf_decimal (by simp only [maxSafeInteger] at h; omega) (by omega)⟩

/-- A character of a text takes at most six bytes in the canonical form. -/
theorem plain_str {s : String} {k : Nat} (h : byteLen s ≤ k) : PlainValue (.str s) 1 (6 * k + 2) :=
  ⟨rfl, by simp [Json.height], rfl, le_rfl, by
    have := Json.bytesOf_quote s
    simp only [byteLen] at h
    simp only [Json.text]
    omega⟩

theorem byteLen_digest (d : Digest32) : byteLen d.asStr = 71 := by
  have h := d.valid
  simp only [validateDigestText, bind_eq_ok, okOr_eq_ok, rejectIf_eq_ok, not_or, not_not] at h
  obtain ⟨hex, hstrip, hlen, -⟩ := h
  unfold stripPrefix at hstrip
  split_ifs at hstrip with hp
  obtain ⟨rest, hrest⟩ := hp
  cases hstrip
  rw [← hrest, List.drop_left, utf8, String.toList_ofList] at hlen
  have hpre : (digestPrefix.flatMap String.utf8EncodeChar).length = 7 := by decide
  rw [byteLen, utf8, ← hrest, List.flatMap_append, List.length_append, hpre, hlen]

/-- A digest has 71 characters. -/
theorem plain_digest (d : Digest32) : PlainValue (.str d.asStr) 1 428 :=
  plain_str (k := 71) (byteLen_digest d).le

theorem plain_writeOption {write : α → Json} {o : Option α} {n b : Nat} (hn : 1 ≤ n)
    (hb : 16 ≤ b) (h : ∀ a ∈ o, PlainValue (write a) n b) :
    PlainValue (writeOption write o) n b := by
  cases o with
  | none => exact { plain_null with nodes_le := hn, bytes_le := plain_null.bytes_le.trans hb }
  | some a => exact h a rfl

/-- The nodes and the bytes of a list of texts. -/
theorem plain_strings {l : List String} {len k : Nat} (hl : l.length ≤ len)
    (h : ∀ s ∈ l, byteLen s ≤ k) :
    PlainValue (.arr (l.map .str)) (len + 1) (len * (6 * k + 3) + 2) where
  sorted := by
    rw [Json.sortKeys, Json.sortKeysValues_eq_map, List.map_map]
    rfl
  height := by
    have : Json.heightValues (l.map .str) ≤ 1 :=
      Json.heightValues_le_iff.mpr fun v hv ↦ by
        obtain ⟨s, -, rfl⟩ := List.mem_map.mp hv
        simp [Json.height]
    simp only [Json.height]
    omega
  bounded := Json.boundedValues_iff.mpr fun v hv ↦ by
    obtain ⟨s, -, rfl⟩ := List.mem_map.mp hv
    rfl
  nodes_le := by
    have : (l.map fun s ↦ Json.nodes (.str s)).sum = l.length := by
      simp [Json.nodes]
    rw [Json.nodes, Json.nodesValues_eq_sum, List.map_map]
    simp only [Function.comp_def, this]
    omega
  bytes_le := by
    have hsum : ((l.map Json.str).map fun v ↦ Json.bytesOf v.text + 1).sum ≤
        l.length * (6 * k + 3) := by
      have := List.sum_le_card_nsmul ((l.map Json.str).map fun v ↦ Json.bytesOf v.text + 1)
        (6 * k + 3) fun x hx ↦ by
          simp only [List.map_map, List.mem_map, Function.comp_def] at hx
          obtain ⟨s, hs, rfl⟩ := hx
          have := (plain_str (h s hs)).bytes_le
          omega
      simpa using this
    have hmul := Nat.mul_le_mul_right (6 * k + 3) hl
    exact (Json.bytesOf_arr _).trans (by omega)

/-- Fields of a struct that are all plain, with bounds on their total size. -/
structure PlainFields (fields : List (String × Json)) (nodes bytes : Nat) : Prop where
  sorted : ∀ e ∈ fields, e.2.sortKeys = e.2
  height : ∀ e ∈ fields, e.2.height ≤ 2
  bounded : ∀ e ∈ fields, e.2.bounded maxSafeInteger = true
  nodes_le : (fields.map fun e ↦ e.2.nodes).sum ≤ nodes
  bytes_le : (fields.map fun e ↦ 6 * (utf8 e.1).length + Json.bytesOf e.2.text + 4).sum ≤ bytes

namespace PlainFields

variable {fields : List (String × Json)} {n b : Nat}

theorem nil : PlainFields [] 0 0 := ⟨by simp, by simp, by simp, by simp, by simp⟩

theorem cons {k : String} {v : Json} {n' b' : Nat} (hv : PlainValue v n b)
    (hf : PlainFields fields n' b') (hk : byteLen k ≤ 32 := by decide) :
    PlainFields ((k, v) :: fields) (n + n') (b + 196 + b') where
  sorted := by simpa using ⟨hv.sorted, fun a c h ↦ hf.sorted (a, c) h⟩
  height := by simpa using ⟨hv.height, fun a c h ↦ hf.height (a, c) h⟩
  bounded := by simpa using ⟨hv.bounded, fun a c h ↦ hf.bounded (a, c) h⟩
  nodes_le := by
    have h₁ := hv.nodes_le
    have h₂ := hf.nodes_le
    simp only [List.map_cons, List.sum_cons]
    omega
  bytes_le := by
    have h₁ := hv.bytes_le
    have h₂ := hf.bytes_le
    simp only [byteLen] at hk
    simp only [List.map_cons, List.sum_cons]
    omega

/-- Sorting a struct with plain fields changes nothing. -/
theorem sortKeys_eq (h : PlainFields fields n b) :
    (serializeStruct fields).sortKeys = serializeStruct fields := by
  have hmap : KeyMap.mapVal Json.sortKeys fields = fields := by
    refine (List.map_congr_left fun e he ↦ ?_).trans (List.map_id fields)
    rw [h.sorted e he]
    rfl
  rw [serializeStruct, Json.sortKeys, Json.sortKeysMembers_eq_mapVal, ← KeyMap.collect_mapVal,
    hmap, (KeyMap.sorted_collect fields).collect_eq]

/-- A structure of plain fields is within the limits of the canonical form. -/
theorem encodable (h : PlainFields fields n b) (hnodup : (fields.map Prod.fst).Nodup)
    (hn : n + 1 ≤ maxCanonicalNodes) : Encodable (serializeStruct fields) where
  height := by
    have : Json.heightMembers (KeyMap.collect fields) ≤ 2 :=
      Json.heightMembers_le_iff.mpr fun e he ↦
        h.height e ((KeyMap.collect_perm hnodup).mem_iff.mp he)
    simp only [serializeStruct, Json.height, maxCanonicalNestingDepth]
    omega
  nodes := by
    have hsum := ((KeyMap.collect_perm hnodup).map fun e ↦ e.2.nodes).sum_eq
    have := h.nodes_le
    rw [serializeStruct, Json.nodes, Json.nodesMembers_eq_sum, hsum]
    omega
  bounded := by
    rw [h.sortKeys_eq]
    exact Json.boundedMembers_iff.mpr fun e he ↦
      h.bounded e ((KeyMap.collect_perm hnodup).mem_iff.mp he)

/-- The bytes of the canonical form of a structure of plain fields. -/
theorem bytesOf_le (h : PlainFields fields n b) (hnodup : (fields.map Prod.fst).Nodup) :
    Json.bytesOf (serializeStruct fields).text ≤ b + 2 := by
  have hsum := ((KeyMap.collect_perm hnodup).map fun e ↦
    6 * (utf8 e.1).length + Json.bytesOf e.2.text + 4).sum_eq
  have h₁ := Json.bytesOf_obj (KeyMap.collect fields)
  have h₂ := h.bytes_le
  rw [hsum] at h₁
  exact h₁.trans (by omega)

end PlainFields

end Etp.Core
