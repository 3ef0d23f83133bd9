import Etp.TypeScript.Memory
import Etp.TypeScript.Numerals

/-!
# What the encoder accepts in memory

A value in memory that the encoder accepts unfolds into a tree, and its encoding is the one
of the tree.  `Unfolds` relates the two; it leaves open what an array must be.  The encoder
reads an array by its indices (`ReadArray`), whereas a plain array has its elements as data
properties and no other own property (`PlainArray`).

The two differ by two slips (`Overlooked`): the element of an array may be an accessor, and
the pattern for the other keys lets a name such as `4294967295` pass, which is no array
index.  `canonicalJson_plain_iff` says that nothing else goes wrong.
-/

namespace Etp.TypeScript

open JsString

/-! ## Trees -/

mutual

/-- The number of values in a tree, the root included. -/
def JsValue.nodes : JsValue → Nat
  | .array values => JsValue.nodesValues values + 1
  | .object members => JsValue.nodesMembers members + 1
  | .null | .boolean _ | .number _ | .string _ => 1

def JsValue.nodesValues : List JsValue → Nat
  | [] => 0
  | v :: vs => v.nodes + JsValue.nodesValues vs

def JsValue.nodesMembers : List (JsString × JsValue) → Nat
  | [] => 0
  | (_, v) :: ms => v.nodes + JsValue.nodesMembers ms

end

mutual

/-- The number of levels of a tree. -/
def JsValue.height : JsValue → Nat
  | .array values => JsValue.heightValues values + 1
  | .object members => JsValue.heightMembers members + 1
  | .null | .boolean _ | .number _ | .string _ => 1

def JsValue.heightValues : List JsValue → Nat
  | [] => 0
  | v :: vs => max v.height (JsValue.heightValues vs)

def JsValue.heightMembers : List (JsString × JsValue) → Nat
  | [] => 0
  | (_, v) :: ms => max v.height (JsValue.heightMembers ms)

end

mutual

/-- Its numbers are safe integers other than `-0`, its strings and names Unicode text. -/
def JsValue.Encodable : JsValue → Prop
  | .array values => JsValue.EncodableValues values
  | .object members => JsValue.EncodableMembers members
  | .number n => n.isSafeInteger = true ∧ n ≠ .negativeZero
  | .string s => WellFormed s
  | .null | .boolean _ => True

def JsValue.EncodableValues : List JsValue → Prop
  | [] => True
  | v :: vs => v.Encodable ∧ JsValue.EncodableValues vs

def JsValue.EncodableMembers : List (JsString × JsValue) → Prop
  | [] => True
  | (key, v) :: ms => (WellFormed key ∧ v.Encodable) ∧ JsValue.EncodableMembers ms

end

/-- The values right under a value. -/
def JsValue.subtrees : JsValue → List JsValue
  | .array values => values
  | .object members => members.map Prod.snd
  | .null | .boolean _ | .number _ | .string _ => []

namespace JsValue

theorem nodesValues_eq_sum (vs : List JsValue) : nodesValues vs = (vs.map nodes).sum := by
  induction vs with
  | nil => rfl
  | cons v vs ih => simp [nodesValues, ih]

theorem nodesMembers_eq (ms : List (JsString × JsValue)) :
    nodesMembers ms = nodesValues (ms.map Prod.snd) := by
  induction ms with
  | nil => rfl
  | cons e ms ih => simp [nodesMembers, nodesValues, ih]

theorem heightValues_le_iff {vs : List JsValue} {h : Nat} :
    heightValues vs ≤ h ↔ ∀ v ∈ vs, v.height ≤ h := by
  induction vs with
  | nil => simp [heightValues]
  | cons v vs ih => simp [heightValues, ih]

theorem heightMembers_eq (ms : List (JsString × JsValue)) :
    heightMembers ms = heightValues (ms.map Prod.snd) := by
  induction ms with
  | nil => rfl
  | cons e ms ih => simp [heightMembers, heightValues, ih]

theorem measures : Budget.Measures subtrees nodes height where
  nodes_eq t := by cases t <;> simp [nodes, subtrees, nodesMembers_eq, nodesValues_eq_sum]
  height_pos t := by cases t <;> simp [height]
  height_le_iff t h := by
    cases t <;> simp [height, subtrees, heightMembers_eq, heightValues_le_iff]

end JsValue

theorem exists_quoteString_iff {s : JsString} : (∃ t, quoteString s = .ok t) ↔ WellFormed s := by
  simp only [quoteString, bind_eq_ok, Except.ok.injEq]
  constructor
  · rintro ⟨t, u, hu, -⟩
    exact assertScalarString_eq_ok.mp hu
  · intro h
    exact ⟨_, (), assertScalarString_eq_ok.mpr h, rfl⟩

theorem exists_writeEntries_iff
    {entries : List (JsString × Except CanonicalizationError JsString)} :
    (∃ ts, writeEntries entries = .ok ts) ↔
      ∀ e ∈ entries, WellFormed e.1 ∧ ∃ t, e.2 = .ok t := by
  induction entries with
  | nil => simp [writeEntries]
  | cons e entries ih =>
      obtain ⟨key, child⟩ := e
      rw [List.forall_mem_cons, ← ih]
      simp only [writeEntries, bind_eq_ok, Except.ok.injEq]
      constructor
      · rintro ⟨_, _, hkey, _, -, t, ht, ts, hts, -⟩
        exact ⟨⟨assertScalarString_eq_ok.mp hkey, t, ht⟩, ts, hts⟩
      · rintro ⟨⟨hkey, t, ht⟩, ts, hts⟩
        obtain ⟨name, hname⟩ := exists_quoteString_iff.mpr hkey
        exact ⟨_, (), assertScalarString_eq_ok.mpr hkey, name, hname, t, ht, ts, hts, rfl⟩

mutual

/-- The encoder succeeds on exactly these trees. -/
theorem exists_canonicalizeInner_iff : ∀ v : JsValue,
    (∃ t, canonicalizeInner v = .ok t) ↔ v.Encodable
  | .null => iff_of_true ⟨_, rfl⟩ trivial
  | .boolean _ => iff_of_true ⟨_, rfl⟩ trivial
  | .string _ => exists_quoteString_iff
  | .number n => by
      rw [canonicalizeInner, JsValue.Encodable]
      by_cases hzero : n = .negativeZero
      · subst hzero
        simp [fail, JsNumber.isSafeInteger]
      · by_cases hsafe : n.isSafeInteger = true <;> simp [hsafe, hzero, fail]
  | .array vs => by
      rw [JsValue.Encodable, ← exists_canonicalizeValues_iff vs]
      simp [canonicalizeInner]
  | .object ms => by
      rw [JsValue.Encodable, ← exists_canonicalizeMembers_iff ms]
      have hiff : (∃ t, canonicalizeInner (.object ms) = .ok t) ↔
          ∃ ts, writeEntries (sortedKeys (canonicalizeMembers ms)) = .ok ts := by
        simp [canonicalizeInner]
      rw [hiff, exists_writeEntries_iff]
      exact forall_congr' fun e ↦ imp_congr_left (sortedKeys_perm _).mem_iff

theorem exists_canonicalizeValues_iff : ∀ vs : List JsValue,
    (∃ ts, canonicalizeValues vs = .ok ts) ↔ JsValue.EncodableValues vs
  | [] => iff_of_true ⟨_, rfl⟩ trivial
  | v :: vs => by
      rw [JsValue.EncodableValues, ← exists_canonicalizeInner_iff v,
        ← exists_canonicalizeValues_iff vs]
      simp only [canonicalizeValues, bind_eq_ok, Except.ok.injEq]
      constructor
      · rintro ⟨_, t, ht, ts, hts, -⟩
        exact ⟨⟨t, ht⟩, ts, hts⟩
      · rintro ⟨⟨t, ht⟩, ts, hts⟩
        exact ⟨_, t, ht, ts, hts, rfl⟩

theorem exists_canonicalizeMembers_iff : ∀ ms : List (JsString × JsValue),
    (∀ e ∈ canonicalizeMembers ms, WellFormed e.1 ∧ ∃ t, e.2 = .ok t) ↔
      JsValue.EncodableMembers ms
  | [] => by simp [canonicalizeMembers, JsValue.EncodableMembers]
  | (key, v) :: ms => by
      rw [canonicalizeMembers, List.forall_mem_cons, JsValue.EncodableMembers,
        exists_canonicalizeMembers_iff ms, exists_canonicalizeInner_iff v]

end

/-! ## Sorted keys -/

/-- Sorting looks at the keys alone. -/
theorem sortedKeys_map {β γ : Type} (f : β → γ) (ms : List (JsString × β)) :
    sortedKeys (ms.map fun e ↦ (e.1, f e.2)) = (sortedKeys ms).map fun e ↦ (e.1, f e.2) := by
  have hsort : ∀ {r : JsString → JsString → Bool} (l : List (JsString × β)),
      (l.map fun e ↦ (e.1, f e.2)).mergeSort (fun a b ↦ r a.1 b.1) =
        (l.mergeSort fun a b ↦ r a.1 b.1).map fun e ↦ (e.1, f e.2) := by
    intro r l
    exact (List.map_mergeSort (r := fun a b : JsString × β ↦ r a.1 b.1)
      (s := fun a b : JsString × γ ↦ r a.1 b.1) (f := fun e : JsString × β ↦ (e.1, f e.2))
      fun _ _ _ _ ↦ rfl).symm
  have hown : ownKeys (ms.map fun e ↦ (e.1, f e.2)) =
      (ownKeys ms).map fun e ↦ (e.1, f e.2) := by
    rw [ownKeys, ownKeys, List.map_append, List.filter_map, List.filter_map]
    exact congrArg₂ _
      (hsort (r := fun a b ↦ decide ((arrayIndex a).getD 0 ≤ (arrayIndex b).getD 0)) _) rfl
  rw [sortedKeys, hown]
  exact hsort (r := fun a b ↦ decide (compareUnicodeScalars a b ≤ 0)) _

namespace Memory

/-! ## Unfolding -/

section Unfolding

variable {α : Type}

/-- What the encoder asks of an array: it can be read at every index below its length, and
its other keys look like indices. -/
structure ReadArray (o : Object α) (vs : List (Value α)) : Prop where
  kind : o.kind = .array vs.length
  element : ∀ (i : Nat) (v : Value α), vs[i]? = some v →
    ∃ p, o.get (indexKey i) = some p ∧ p.read = some v
  keys : ∀ e ∈ o.own, isIndexKey e.1 = true

/-- An array whose own properties besides its length are the data properties at the indices
below it. -/
structure PlainArray (o : Object α) (vs : List (Value α)) : Prop where
  kind : o.kind = .array vs.length
  element : ∀ (i : Nat) (v : Value α), vs[i]? = some v →
    ∃ enumerable, o.get (indexKey i) = some (.data v enumerable)
  own : ∀ e ∈ o.own, ∃ i < vs.length, e.1 = indexKey i

/-- An object of the language whose own properties are enumerable data properties under
strings. -/
structure PlainObject (o : Object α) (ms : List (JsString × Value α)) : Prop where
  kind : o.kind = .ordinary
  prototype : o.prototype ≠ .other
  own : o.own = ms.map fun m ↦ (.name m.1, .data m.2 true)

variable (g : Graph α) (Array : Object α → List (Value α) → Prop)

mutual

/-- The value unfolds into the tree; its arrays are those of `Array`. -/
inductive Unfolds : Value α → JsValue → Prop
  | null : Unfolds .null .null
  | boolean (b : Bool) : Unfolds (.boolean b) (.boolean b)
  | number (n : JsNumber) : Unfolds (.number (some n)) (.number n)
  | string (s : JsString) : Unfolds (.string s) (.string s)
  | array {a : α} {vs : List (Value α)} {ts : List JsValue} (h : Array (g a) vs)
      (hs : UnfoldsValues vs ts) : Unfolds (.reference a) (.array ts)
  | object {a : α} {ms : List (JsString × Value α)} {ts : List (JsString × JsValue)}
      (h : PlainObject (g a) ms) (hs : UnfoldsMembers ms ts) : Unfolds (.reference a) (.object ts)

inductive UnfoldsValues : List (Value α) → List JsValue → Prop
  | nil : UnfoldsValues [] []
  | cons {v : Value α} {t : JsValue} {vs : List (Value α)} {ts : List JsValue}
      (h : Unfolds v t) (hs : UnfoldsValues vs ts) : UnfoldsValues (v :: vs) (t :: ts)

inductive UnfoldsMembers : List (JsString × Value α) → List (JsString × JsValue) → Prop
  | nil : UnfoldsMembers [] []
  | cons {key : JsString} {v : Value α} {t : JsValue} {ms : List (JsString × Value α)}
      {ts : List (JsString × JsValue)} (h : Unfolds v t) (hs : UnfoldsMembers ms ts) :
      UnfoldsMembers ((key, v) :: ms) ((key, t) :: ts)

end

section Related

variable {g Array}

theorem UnfoldsValues.forall₂ : ∀ {vs : List (Value α)} {ts : List JsValue},
    UnfoldsValues g Array vs ts → List.Forall₂ (Unfolds g Array) vs ts
  | _, _, .nil => .nil
  | _, _, .cons h hs => .cons h hs.forall₂

theorem UnfoldsMembers.forall₂ : ∀ {ms : List (JsString × Value α)}
    {ts : List (JsString × JsValue)}, UnfoldsMembers g Array ms ts →
    List.Forall₂ (Unfolds g Array) (ms.map Prod.snd) (ts.map Prod.snd)
  | _, _, .nil => .nil
  | _, _, .cons h hs => .cons h hs.forall₂

end Related

/-- The tree has been read off the value the way the encoder does. -/
abbrev Reads (v : Value α) (t : JsValue) : Prop := Unfolds g ReadArray v t

/-- The value is a plain tree in memory. -/
abbrev IsPlain (v : Value α) (t : JsValue) : Prop := Unfolds g PlainArray v t

end Unfolding

section Reading

variable {α : Type} {g : Graph α}

theorem ReadArray.eq {o : Object α} {vs ws : List (Value α)} (h : ReadArray o vs)
    (h' : ReadArray o ws) : vs = ws := by
  have hlength : vs.length = ws.length := Kind.array.inj (h.kind.symm.trans h'.kind)
  refine List.ext_getElem hlength fun i hi hi' ↦ ?_
  obtain ⟨p, hp, hv⟩ := h.element i _ (List.getElem?_eq_getElem hi)
  obtain ⟨q, hq, hw⟩ := h'.element i _ (List.getElem?_eq_getElem hi')
  rw [hp] at hq
  obtain rfl := Option.some.inj hq
  exact Option.some.inj (hv.symm.trans hw)

theorem PlainObject.eq {o : Object α} {ms ns : List (JsString × Value α)} (h : PlainObject o ms)
    (h' : PlainObject o ns) : ms = ns := by
  have heq := h.own.symm.trans h'.own
  refine List.map_injective_iff.mpr ?_ heq
  rintro ⟨k, v⟩ ⟨k', v'⟩ hkv
  simpa using hkv

mutual

/-- A value is read in one way. -/
theorem Unfolds.eq : ∀ {v : Value α} {t t' : JsValue}, Reads g v t → Reads g v t' → t = t'
  | _, _, _, .null, .null => rfl
  | _, _, _, .boolean _, .boolean _ => rfl
  | _, _, _, .number _, .number _ => rfl
  | _, _, _, .string _, .string _ => rfl
  | _, _, _, .array h hs, .array h' hs' => by
      obtain rfl := h.eq h'
      rw [hs.eq hs']
  | _, _, _, .array h _, .object h' _ => by cases h.kind.symm.trans h'.kind
  | _, _, _, .object h _, .array h' _ => by cases h.kind.symm.trans h'.kind
  | _, _, _, .object h hs, .object h' hs' => by
      obtain rfl := h.eq h'
      rw [hs.eq hs']

theorem UnfoldsValues.eq : ∀ {vs : List (Value α)} {ts ts' : List JsValue},
    UnfoldsValues g ReadArray vs ts → UnfoldsValues g ReadArray vs ts' → ts = ts'
  | _, _, _, .nil, .nil => rfl
  | _, _, _, .cons h hs, .cons h' hs' => by rw [h.eq h', hs.eq hs']

theorem UnfoldsMembers.eq : ∀ {ms : List (JsString × Value α)} {ts ts' : List (JsString × JsValue)},
    UnfoldsMembers g ReadArray ms ts → UnfoldsMembers g ReadArray ms ts' → ts = ts'
  | _, _, _, .nil, .nil => rfl
  | _, _, _, .cons h hs, .cons h' hs' => by rw [h.eq h', hs.eq hs']

end

end Reading

/-! ## The encoding of what is read -/

section Encoding

variable {α : Type} {g : Graph α}

theorem lift_ok {β : Type} (a : β) : lift (.ok a : Except CanonicalizationError β) = .ok a := rfl

theorem lift_bind {β γ : Type} (x : Except CanonicalizationError β)
    (f : β → Except CanonicalizationError γ) : lift (x >>= f) = lift x >>= fun a ↦ lift (f a) := by
  cases x <;> rfl

theorem lift_eq_ok {β : Type} {x : Except CanonicalizationError β} {a : β} :
    lift x = .ok a ↔ x = .ok a := mapError_eq_ok

theorem arrayElements_eq {o : Object α} {inner : Value α → Except GraphFailure JsString}
    {vs : List (Value α)} {k : Nat} (h : ∀ (i : Nat) (v : Value α), vs[i]? = some v →
      ∃ p, o.get (indexKey (k + i)) = some p ∧ p.read = some v) :
    arrayElements o inner vs.length k = vs.mapM inner := by
  induction vs generalizing k with
  | nil => rfl
  | cons v vs ih =>
      obtain ⟨p, hp, hv⟩ := h 0 v rfl
      have hrest := ih (k := k + 1) fun i w hw ↦ by
        rw [Nat.add_assoc, Nat.add_comm 1 i]
        exact h (i + 1) w hw
      rw [Nat.add_zero] at hp
      rw [List.length_cons, arrayElements, hp, okOr_some, ok_bind, hv, okOr_some, ok_bind, hrest,
        List.mapM_cons]
      rfl

theorem writeProperties_eq {inner : Value α → Except GraphFailure JsString}
    {ms : List (JsString × Value α)}
    {entries : List (JsString × Except CanonicalizationError JsString)}
    (h : (ms.map fun m ↦ (m.1, inner m.2)) = entries.map fun e ↦ (e.1, lift e.2)) :
    writeProperties inner (ms.map fun m ↦ (m.1, .data m.2 true)) = lift (writeEntries entries) := by
  induction ms generalizing entries with
  | nil =>
      cases entries with
      | nil => rfl
      | cons e entries => cases h
  | cons m ms ih =>
      cases entries with
      | nil => cases h
      | cons e entries =>
          obtain ⟨key, child⟩ := e
          simp only [List.map_cons, List.cons.injEq, Prod.mk.injEq] at h
          obtain ⟨⟨rfl, hinner⟩, hrest⟩ := h
          simp only [List.map_cons, writeProperties, ih hrest, hinner, writeEntries,
            Property.enumerableValue?, okOr_some, ok_bind, lift_bind, lift_ok]

theorem names_of_plain {o : Object α} {ms : List (JsString × Value α)} (h : PlainObject o ms) :
    o.names = (ms.map fun m ↦ (m.1, .data m.2 true)) ∧ o.symbols = [] := by
  rw [Object.names, Object.symbols, h.own, List.filterMap_map, List.filterMap_map]
  refine ⟨?_, List.filterMap_eq_nil_iff.mpr fun _ _ ↦ rfl⟩
  rw [← List.filterMap_eq_map]
  rfl

theorem canonicalizeArray_of_read {o : Object α} {vs : List (Value α)} (h : ReadArray o vs)
    (inner : Value α → Except GraphFailure JsString) {ts : List JsValue}
    (hts : vs.mapM inner = lift (canonicalizeValues ts)) :
    canonicalizeArray o vs.length inner = lift (TypeScript.canonicalizeInner (.array ts)) := by
  have helements : arrayElements o inner vs.length 0 = vs.mapM inner :=
    arrayElements_eq fun i v hv ↦ by
      rw [Nat.zero_add]
      exact h.element i v hv
  have hkeys : ¬¬(o.own.all fun e ↦ isIndexKey e.1) = true :=
    not_not.mpr (List.all_eq_true.mpr h.keys)
  rw [canonicalizeArray, helements, hts, TypeScript.canonicalizeInner, lift_bind]
  simp only [rejectIf_false hkeys, ok_bind, lift_ok]

theorem canonicalizeObject_of_plain {o : Object α} {ms : List (JsString × Value α)}
    (h : PlainObject o ms) (inner : Value α → Except GraphFailure JsString)
    {ts : List (JsString × JsValue)} (hts : (ms.map fun m ↦ (m.1, inner m.2)) =
      (canonicalizeMembers ts).map fun e ↦ (e.1, lift e.2)) :
    canonicalizeObject o inner = lift (TypeScript.canonicalizeInner (.object ts)) := by
  obtain ⟨hnames, hsymbols⟩ := names_of_plain h
  have hsorted : ((sortedKeys ms).map fun m ↦ (m.1, inner m.2)) =
      (sortedKeys (canonicalizeMembers ts)).map fun e ↦ (e.1, lift e.2) := by
    rw [← sortedKeys_map inner, hts, sortedKeys_map lift]
  rw [canonicalizeObject, hnames, hsymbols, sortedKeys_map fun v ↦ Property.data v true,
    writeProperties_eq hsorted, TypeScript.canonicalizeInner, lift_bind]
  simp only [rejectIf_false h.prototype, rejectIf_false (not_not.mpr rfl), ok_bind, lift_ok]

section Fresh

variable [Fintype α]

/-- A call for a value of that size: every ancestor unfolds into more, and not all objects are
ancestors. -/
structure Fresh (g : Graph α) (fuel : Nat) (ancestors : List α) (size : Nat) : Prop where
  fuel : Fintype.card α < fuel + ancestors.length
  nodup : ancestors.Nodup
  larger : ∀ b ∈ ancestors, ∃ t, Reads g (.reference b) t ∧ size < t.nodes

theorem Fresh.not_mem {fuel : Nat} {ancestors : List α} {a : α} {t : JsValue}
    (h : Fresh g fuel ancestors t.nodes) (ht : Reads g (.reference a) t) : a ∉ ancestors := by
  intro hmem
  obtain ⟨t', ht', hlt⟩ := h.larger a hmem
  rw [ht.eq ht'] at hlt
  exact lt_irrefl _ hlt

theorem Fresh.exists_succ {fuel : Nat} {ancestors : List α} {size : Nat}
    (h : Fresh g fuel ancestors size) : ∃ n, fuel = n + 1 := by
  have hfuel := h.fuel
  have hcard := h.nodup.length_le_card
  exact ⟨fuel - 1, by omega⟩

theorem Fresh.child {fuel : Nat} {ancestors : List α} {a : α} {t : JsValue}
    (h : Fresh g (fuel + 1) ancestors t.nodes) (ht : Reads g (.reference a) t) {size : Nat}
    (hsize : size < t.nodes) : Fresh g fuel (a :: ancestors) size where
  fuel := by
    have := h.fuel
    rw [List.length_cons]
    omega
  nodup := List.nodup_cons.mpr ⟨h.not_mem ht, h.nodup⟩
  larger := List.forall_mem_cons.mpr ⟨⟨t, ht, hsize⟩, fun b hb ↦ by
    obtain ⟨t', ht', hlt⟩ := h.larger b hb
    exact ⟨t', ht', hsize.trans hlt⟩⟩

variable [DecidableEq α]

mutual

/-- The encoder writes the tree it reads. -/
theorem canonicalizeInner_of_reads : ∀ {v : Value α} {t : JsValue}, Reads g v t →
    ∀ {fuel : Nat} {ancestors : List α}, Fresh g fuel ancestors t.nodes →
    canonicalizeInner g fuel ancestors v = lift (TypeScript.canonicalizeInner t)
  | _, _, .null, _, _, _ => by rw [canonicalizeInner]
  | _, _, .boolean _, _, _, _ => by rw [canonicalizeInner]
  | _, _, .number _, _, _, _ => by rw [canonicalizeInner]
  | _, _, .string _, _, _, _ => by rw [canonicalizeInner]
  | _, _, @Unfolds.array _ _ _ a _ ts h hs, fuel, ancestors, hfresh => by
      have ht : Reads g (.reference a) (.array ts) := .array h hs
      obtain ⟨n, rfl⟩ := hfresh.exists_succ
      have hts := @mapM_of_reads _ _ hs n (a :: ancestors)
        fun size hsize ↦ hfresh.child ht (by rw [JsValue.nodes]; omega)
      rw [canonicalizeInner, h.kind, rejectIf_false (by simp), ok_bind,
        rejectIf_false (hfresh.not_mem ht), ok_bind]
      exact canonicalizeArray_of_read h _ hts
  | _, _, @Unfolds.object _ _ _ a _ ts h hs, fuel, ancestors, hfresh => by
      have ht : Reads g (.reference a) (.object ts) := .object h hs
      obtain ⟨n, rfl⟩ := hfresh.exists_succ
      have hts := @map_of_reads _ _ hs n (a :: ancestors)
        fun size hsize ↦ hfresh.child ht (by rw [JsValue.nodes]; omega)
      rw [canonicalizeInner, h.kind, rejectIf_false (by simp), ok_bind,
        rejectIf_false (hfresh.not_mem ht), ok_bind]
      exact canonicalizeObject_of_plain h _ hts

theorem mapM_of_reads : ∀ {vs : List (Value α)} {ts : List JsValue},
    UnfoldsValues g ReadArray vs ts → ∀ {fuel : Nat} {ancestors : List α},
    (∀ size ≤ JsValue.nodesValues ts, Fresh g fuel ancestors size) →
    vs.mapM (canonicalizeInner g fuel ancestors) = lift (canonicalizeValues ts)
  | _, _, .nil, _, _, _ => rfl
  | _, _, .cons h hs, _, _, hfresh => by
      rw [JsValue.nodesValues] at hfresh
      rw [List.mapM_cons, canonicalizeInner_of_reads h (hfresh _ (by omega)),
        mapM_of_reads hs fun size hsize ↦ hfresh size (by omega), canonicalizeValues, lift_bind]
      simp only [lift_bind, lift_ok]
      rfl

theorem map_of_reads : ∀ {ms : List (JsString × Value α)} {ts : List (JsString × JsValue)},
    UnfoldsMembers g ReadArray ms ts → ∀ {fuel : Nat} {ancestors : List α},
    (∀ size ≤ JsValue.nodesMembers ts, Fresh g fuel ancestors size) →
    (ms.map fun m ↦ (m.1, canonicalizeInner g fuel ancestors m.2)) =
      (canonicalizeMembers ts).map fun e ↦ (e.1, lift e.2)
  | _, _, .nil, _, _, _ => rfl
  | _, _, .cons h hs, _, _, hfresh => by
      rw [JsValue.nodesMembers] at hfresh
      rw [List.map_cons, canonicalizeInner_of_reads h (hfresh _ (by omega)),
        map_of_reads hs fun size hsize ↦ hfresh size (by omega), canonicalizeMembers, List.map_cons]

end

end Fresh

end Encoding

/-! ## What is encoded has been read -/

section Accepted

variable {α : Type} {g : Graph α}

theorem exists_of_arrayElements {o : Object α} {inner : Value α → Except GraphFailure JsString}
    {n k : Nat} {elements : List JsString} (h : arrayElements o inner n k = .ok elements) :
    ∃ vs : List (Value α), vs.length = n ∧ (∀ (i : Nat) (v : Value α), vs[i]? = some v →
      ∃ p, o.get (indexKey (k + i)) = some p ∧ p.read = some v) ∧
      ∀ v ∈ vs, ∃ s, inner v = .ok s := by
  induction n generalizing k elements with
  | zero => exact ⟨[], rfl, by simp, by simp⟩
  | succ n ih =>
      simp only [arrayElements, bind_eq_ok, okOr_eq_ok, Except.ok.injEq] at h
      obtain ⟨p, hp, v, hv, s, hs, elements, helements, -⟩ := h
      obtain ⟨vs, rfl, hvs, hinner⟩ := ih helements
      refine ⟨v :: vs, rfl, fun i w hw ↦ ?_, List.forall_mem_cons.mpr ⟨⟨s, hs⟩, hinner⟩⟩
      cases i with
      | zero =>
          obtain rfl : v = w := Option.some.inj hw
          exact ⟨p, hp, hv⟩
      | succ i =>
          obtain ⟨q, hq, hread⟩ := hvs i w hw
          rw [Nat.add_assoc, Nat.add_comm 1 i] at hq
          exact ⟨q, hq, hread⟩

theorem exists_of_canonicalizeArray {o : Object α}
    {inner : Value α → Except GraphFailure JsString} {n : Nat} {s : JsString}
    (hkind : o.kind = .array n) (h : canonicalizeArray o n inner = .ok s) :
    ∃ vs, ReadArray o vs ∧ ∀ v ∈ vs, ∃ t, inner v = .ok t := by
  simp only [canonicalizeArray, bind_eq_ok, rejectIf_eq_ok, not_not, List.all_eq_true] at h
  obtain ⟨elements, helements, -, hkeys, -⟩ := h
  obtain ⟨vs, rfl, hvs, hinner⟩ := exists_of_arrayElements helements
  refine ⟨vs, ⟨hkind, fun i v hv ↦ ?_, hkeys⟩, hinner⟩
  have := hvs i v hv
  rwa [Nat.zero_add] at this

theorem forall_of_writeProperties {inner : Value α → Except GraphFailure JsString}
    {props : List (JsString × Property α)} {entries : List JsString}
    (h : writeProperties inner props = .ok entries) :
    ∀ e ∈ props, ∃ v, e.2 = .data v true ∧ ∃ s, inner v = .ok s := by
  induction props generalizing entries with
  | nil => simp
  | cons e props ih =>
      obtain ⟨key, p⟩ := e
      simp only [writeProperties, bind_eq_ok, okOr_eq_ok] at h
      obtain ⟨-, -, v, hv, -, -, s, hs, entries, hentries, -⟩ := h
      refine List.forall_mem_cons.mpr ⟨⟨v, ?_, s, hs⟩, ih hentries⟩
      cases p with
      | data w enumerable =>
          cases enumerable with
          | true => rw [Option.some.inj hv]
          | false => cases hv
      | accessor result enumerable => cases hv

/-- Own properties under strings only, all of them enumerable data properties. -/
theorem exists_members {own : List (Key × Property α)} {P : Value α → Prop}
    (hsymbols : ∀ e ∈ own, ∃ s, e.1 = .name s)
    (hdata : ∀ e ∈ own, ∃ v, e.2 = .data v true ∧ P v) :
    ∃ ms : List (JsString × Value α), (own = ms.map fun m ↦ (.name m.1, .data m.2 true)) ∧
      ∀ m ∈ ms, P m.2 := by
  induction own with
  | nil => exact ⟨[], rfl, by simp⟩
  | cons e own ih =>
      rw [List.forall_mem_cons] at hsymbols hdata
      obtain ⟨ms, rfl, hms⟩ := ih hsymbols.2 hdata.2
      obtain ⟨key, p⟩ := e
      obtain ⟨s, rfl⟩ := hsymbols.1
      obtain ⟨v, rfl, hv⟩ := hdata.1
      exact ⟨(s, v) :: ms, rfl, List.forall_mem_cons.mpr ⟨hv, hms⟩⟩

theorem mem_names {o : Object α} {s : JsString} {p : Property α} :
    (s, p) ∈ o.names ↔ (Key.name s, p) ∈ o.own := by
  rw [Object.names, List.mem_filterMap]
  constructor
  · rintro ⟨⟨key, q⟩, hmem, heq⟩
    cases key with
    | name s' =>
        simp only [Option.some.injEq, Prod.mk.injEq] at heq
        obtain ⟨rfl, rfl⟩ := heq
        exact hmem
    | symbol n => cases heq
  · intro h
    exact ⟨_, h, rfl⟩

theorem exists_of_canonicalizeObject {o : Object α}
    {inner : Value α → Except GraphFailure JsString} {s : JsString} (hkind : o.kind = .ordinary)
    (h : canonicalizeObject o inner = .ok s) :
    ∃ ms, PlainObject o ms ∧ ∀ m ∈ ms, ∃ t, inner m.2 = .ok t := by
  simp only [canonicalizeObject, bind_eq_ok, rejectIf_eq_ok, not_not] at h
  obtain ⟨-, hprototype, -, hsymbols, entries, hentries, -⟩ := h
  have hnames : ∀ e ∈ o.own, ∃ s, e.1 = .name s := by
    rintro ⟨key, p⟩ hmem
    cases key with
    | name s => exact ⟨s, rfl⟩
    | symbol n =>
        have := List.filterMap_eq_nil_iff.mp hsymbols _ hmem
        cases this
  have hdata : ∀ e ∈ o.own, ∃ v, e.2 = .data v true ∧ ∃ t, inner v = .ok t := by
    rintro ⟨key, p⟩ hmem
    obtain ⟨s, rfl⟩ := hnames _ hmem
    exact forall_of_writeProperties hentries (s, p)
      ((sortedKeys_perm o.names).mem_iff.mpr (mem_names.mpr hmem))
  obtain ⟨ms, hown, hms⟩ := exists_members hnames hdata
  exact ⟨ms, ⟨hkind, hprototype, hown⟩, hms⟩

theorem exists_unfoldsValues {A : Object α → List (Value α) → Prop} {vs : List (Value α)}
    (h : ∀ v ∈ vs, ∃ t, Unfolds g A v t) : ∃ ts, UnfoldsValues g A vs ts := by
  induction vs with
  | nil => exact ⟨[], .nil⟩
  | cons v vs ih =>
      rw [List.forall_mem_cons] at h
      obtain ⟨t, ht⟩ := h.1
      obtain ⟨ts, hts⟩ := ih h.2
      exact ⟨t :: ts, .cons ht hts⟩

theorem exists_unfoldsMembers {A : Object α → List (Value α) → Prop}
    {ms : List (JsString × Value α)} (h : ∀ m ∈ ms, ∃ t, Unfolds g A m.2 t) :
    ∃ ts, UnfoldsMembers g A ms ts := by
  induction ms with
  | nil => exact ⟨[], .nil⟩
  | cons m ms ih =>
      rw [List.forall_mem_cons] at h
      obtain ⟨t, ht⟩ := h.1
      obtain ⟨ts, hts⟩ := ih h.2
      exact ⟨(m.1, t) :: ts, .cons ht hts⟩

variable [DecidableEq α]

theorem reads_of_canonicalizeInner {fuel : Nat} {ancestors : List α} {v : Value α} {s : JsString}
    (h : canonicalizeInner g fuel ancestors v = .ok s) : ∃ t, Reads g v t := by
  induction fuel generalizing ancestors v s with
  | zero =>
      cases v with
      | null => exact ⟨_, .null⟩
      | boolean b => exact ⟨_, .boolean b⟩
      | string s => exact ⟨_, .string s⟩
      | number n =>
          cases n with
          | some n => exact ⟨_, .number n⟩
          | none => cases h
      | undefined | bigint | symbol | reference _ => cases h
  | succ fuel ih =>
      cases v with
      | null => exact ⟨_, .null⟩
      | boolean b => exact ⟨_, .boolean b⟩
      | string s => exact ⟨_, .string s⟩
      | number n =>
          cases n with
          | some n => exact ⟨_, .number n⟩
          | none => cases h
      | undefined | bigint | symbol => cases h
      | reference a =>
          simp only [canonicalizeInner, bind_eq_ok, rejectIf_eq_ok] at h
          obtain ⟨-, hcallable, -, -, h⟩ := h
          cases hkind : (g a).kind with
          | callable => exact absurd hkind hcallable
          | array length =>
              rw [hkind] at h
              obtain ⟨vs, hread, hvs⟩ := exists_of_canonicalizeArray hkind h
              obtain ⟨ts, hts⟩ := exists_unfoldsValues fun v hv ↦ (hvs v hv).elim fun _ ↦ ih
              exact ⟨_, .array hread hts⟩
          | ordinary =>
              rw [hkind] at h
              obtain ⟨ms, hplain, hms⟩ := exists_of_canonicalizeObject hkind h
              obtain ⟨ts, hts⟩ := exists_unfoldsMembers fun m hm ↦ (hms m hm).elim fun _ ↦ ih
              exact ⟨_, .object hplain hts⟩

variable [Fintype α]

theorem canonicalizeInner_of_root {v : Value α} {t : JsValue} (h : Reads g v t) :
    canonicalizeInner g (Fintype.card α + 1) [] v = lift (TypeScript.canonicalizeInner t) :=
  canonicalizeInner_of_reads h ⟨by simp, List.nodup_nil, by simp⟩

/-- What the encoder accepts: a value within the budget that it can read as a tree. -/
theorem canonicalJson_eq_ok {v : Value α} {s : JsString} : canonicalJson g v = .ok s ↔
    WithinBudget g v ∧ ∃ t, Reads g v t ∧ TypeScript.canonicalizeInner t = .ok s := by
  simp only [canonicalJson, bind_eq_ok, lift_eq_ok, enforceValueBudget_eq_ok, exists_const]
  refine and_congr_right fun _ ↦ ?_
  constructor
  · intro h
    obtain ⟨t, ht⟩ := reads_of_canonicalizeInner h
    rw [canonicalizeInner_of_root ht, lift_eq_ok] at h
    exact ⟨t, ht, h⟩
  · rintro ⟨t, ht, h⟩
    rw [canonicalizeInner_of_root ht, h]
    rfl

end Accepted

/-! ## The budget of a plain tree -/

section Plain

variable {α : Type} {g : Graph α}

theorem properties_perm (o : Object α) : o.properties.Perm (o.own.map Prod.snd) := by
  refine (((ownKeys_perm o.names).map Prod.snd).append_right _).trans ?_
  rw [Object.names, Object.symbols]
  induction o.own with
  | nil => exact .refl _
  | cons e own ih =>
      obtain ⟨key, p⟩ := e
      cases key with
      | name s => exact ih.cons p
      | symbol n => exact List.perm_middle.trans (ih.cons p)

/-- The values under an object, as the budget finds them. -/
theorem children_perm {a : α} (h : (g a).kind ≠ .callable) :
    (children g (.reference a)).Perm (((g a).own.map Prod.snd).filterMap Property.value?) := by
  rw [children, if_neg h]
  exact (properties_perm (g a)).filterMap _

theorem children_of_object {a : α} {ms : List (JsString × Value α)} (h : PlainObject (g a) ms) :
    (children g (.reference a)).Perm (ms.map Prod.snd) := by
  refine (children_perm (by rw [h.kind]; simp)).trans ?_
  rw [h.own, List.map_map, List.filterMap_map, ← List.filterMap_eq_map]
  exact .refl _

theorem indexKey_injective : Function.Injective indexKey := by
  intro i j h
  have hdigits := utf16_injective (Key.name.inj h)
  rw [← Nat.ofDigitChars_ten_toDigits (n := i), ← Nat.ofDigitChars_ten_toDigits (n := j), hdigits]

theorem Object.get_eq_some {o : Object α} {key : Key} {p : Property α} :
    o.get key = some p ↔ (key, p) ∈ o.own := KeyMap.lookup_eq_some_iff o.distinct

theorem children_of_array {a : α} {vs : List (Value α)} (h : PlainArray (g a) vs) :
    (children g (.reference a)).Perm vs := by
  have helement : ∀ i : Fin vs.length, ∃ enumerable,
      (g a).get (indexKey i) = some (.data vs[i] enumerable) :=
    fun i ↦ h.element i vs[i] (List.getElem?_eq_getElem i.isLt)
  choose enumerable hget using helement
  obtain ⟨entry, hentry⟩ : ∃ entry : Fin vs.length → Key × Property α,
      ∀ i, entry i = (indexKey i, .data vs[i] (enumerable i)) := ⟨_, fun _ ↦ rfl⟩
  have hown : (g a).own.Perm ((List.finRange vs.length).map entry) := by
    have hnodup : ((List.finRange vs.length).map entry).Nodup := by
      refine (List.nodup_finRange _).map fun i j hij ↦ ?_
      rw [hentry, hentry] at hij
      exact Fin.ext (indexKey_injective (Prod.mk.inj hij).1)
    refine (List.perm_ext_iff_of_nodup (g a).distinct.of_map hnodup).mpr ?_
    rintro ⟨key, p⟩
    simp only [List.mem_map, List.mem_finRange, true_and, hentry, Prod.mk.injEq]
    constructor
    · intro hmem
      obtain ⟨i, hi, rfl⟩ := h.own _ hmem
      have hp := Object.get_eq_some.mpr hmem
      rw [hget ⟨i, hi⟩] at hp
      exact ⟨⟨i, hi⟩, rfl, Option.some.inj hp⟩
    · rintro ⟨i, rfl, rfl⟩
      exact Object.get_eq_some.mp (hget i)
  have hvalues : (fun i ↦ Property.value? (entry i).2) = fun i ↦ some vs[i] := by
    funext i
    rw [hentry]
    rfl
  refine (children_perm (by rw [h.kind]; simp)).trans (((hown.map Prod.snd).filterMap _).trans ?_)
  rw [List.map_map, List.filterMap_map]
  show ((List.finRange vs.length).filterMap fun i ↦ Property.value? (entry i).2).Perm vs
  rw [hvalues, List.filterMap_eq_map']
  exact List.Perm.of_eq (List.map_getElem_finRange vs)

/-- The budget sees a plain value as the tree it is. -/
theorem unfolding_isPlain : Budget.Unfolding (children g) JsValue.subtrees (IsPlain g) := by
  rintro v t (_ | _ | _ | _ | ⟨h, hs⟩ | ⟨h, hs⟩)
  · exact ⟨[], .refl _, .nil⟩
  · exact ⟨[], .refl _, .nil⟩
  · exact ⟨[], .refl _, .nil⟩
  · exact ⟨[], .refl _, .nil⟩
  · exact ⟨_, (children_of_array h).symm, hs.forall₂⟩
  · exact ⟨_, (children_of_object h).symm, hs.forall₂⟩

/-- A plain value within the budget is a tree within the limits. -/
theorem bounds_of_withinBudget {v : Value α} {t : JsValue} (h : IsPlain g v t)
    (hbudget : WithinBudget g v) : t.height ≤ 64 ∧ t.nodes ≤ 100000 := by
  have hheight := (unfolding_isPlain.fitsIn_iff JsValue.measures h).mp hbudget.1
  have hnodes := hbudget.2
  rw [unfolding_isPlain.nodesWithin_eq JsValue.measures h hheight] at hnodes
  exact ⟨hheight, hnodes⟩

end Plain

/-! ## Arrays with properties that are overlooked -/

section Overlooked

variable {α : Type} {g : Graph α}

/-- The object is reached from the value by reading own properties. -/
inductive Reaches (g : Graph α) : Value α → α → Prop
  | here (a : α) : Reaches g (.reference a) a
  | there {a b : α} {e : Key × Property α} {v : Value α} (he : e ∈ (g a).own)
      (hv : e.2.read = some v) (h : Reaches g v b) : Reaches g (.reference a) b

/-- An own property that the encoder takes for an element of the array although it is none:
its name is the numeral of a number that is no array index, or it is an accessor. -/
def Overlooked (e : Key × Property α) : Prop :=
  (∃ n ≥ 2 ^ 32 - 1, e.1 = indexKey n) ∨ ∃ result enumerable, e.2 = .accessor result enumerable

/-- An array with such a property. -/
def Overlooks (o : Object α) : Prop :=
  (∃ length, o.kind = .array length) ∧ ∃ e ∈ o.own, Overlooked e

/-- The names that pass the pattern are the numerals. -/
theorem exists_of_isIndexName {s : JsString} (h : isIndexName s = true) :
    ∃ n, s = utf16 (Nat.toDigits 10 n) := by
  cases s with
  | nil => cases h
  | cons u us =>
      simp only [isIndexName, decide_eq_true_eq, List.all_eq_true] at h
      rcases h with ⟨rfl, rfl⟩ | ⟨hlow, hhigh, hall⟩
      · exact ⟨0, rfl⟩
      · have hone : '1'.toNat = '0'.toNat + 1 := rfl
        have hdigits : ∀ w ∈ u :: us, Cursor.isDigit w = true := by
          refine List.forall_mem_cons.mpr ⟨decide_eq_true ⟨by omega, hhigh⟩, fun w hw ↦ ?_⟩
          exact decide_eq_true (hall w hw)
        obtain ⟨ds, hds, heq, -⟩ := exists_digits_of_forall hdigits
        have hleading : ds.head? ≠ some '0' := by
          intro hzero
          obtain ⟨ds, rfl⟩ : ∃ ds', ds = '0' :: ds' := by
            cases ds with
            | nil => cases hzero
            | cons d ds => exact ⟨ds, by rw [Option.some.inj hzero]⟩
          rw [utf16_cons_of_lt (by decide), List.cons.injEq] at heq
          rw [heq.1, toNat_unit (by decide)] at hlow
          omega
        have hnil : ds ≠ [] := by
          rintro rfl
          cases heq
        have hds' : Json.Digits ds := ⟨hnil, hds, fun hzero ↦ absurd hzero hleading⟩
        exact ⟨_, by rw [heq, hds'.toDigits_eq]⟩

theorem arrayIndex_indexKey {n : Nat} (h : n < 2 ^ 32 - 1) : (indexKey n).arrayIndex = some n := by
  have hvalue : (utf16 (Nat.toDigits 10 n)).foldl
      (fun n unit ↦ n * 10 + (unit.toNat - '0'.toNat)) 0 = n := by
    have hmul : (fun (n : Nat) (unit : UInt16) ↦ n * 10 + (unit.toNat - '0'.toNat)) =
        fun n unit ↦ 10 * n + (unit.toNat - '0'.toNat) := by
      funext m u
      rw [Nat.mul_comm]
    have hdigits := digitsValue_utf16 fun d hd ↦ Json.isDigit_of_mem_toDigits (n := n) hd
    rw [hmul]
    exact hdigits.trans Nat.ofDigitChars_ten_toDigits
  rw [indexKey, Key.arrayIndex, arrayIndex, hvalue]
  exact if_pos ⟨rfl, h⟩

theorem ReadArray.plain {o : Object α} {vs : List (Value α)} (h : ReadArray o vs)
    (hnone : ¬Overlooks o) : PlainArray o vs := by
  have hall : ∀ e ∈ o.own, ¬Overlooked e := fun e he hover ↦ hnone ⟨⟨_, h.kind⟩, e, he, hover⟩
  refine ⟨h.kind, fun i v hv ↦ ?_, fun e he ↦ ?_⟩
  · obtain ⟨p, hp, hread⟩ := h.element i v hv
    cases p with
    | data w enumerable =>
        obtain rfl : w = v := Option.some.inj hread
        exact ⟨enumerable, hp⟩
    | accessor result enumerable =>
        exact absurd (.inr ⟨result, enumerable, rfl⟩) (hall _ (Object.get_eq_some.mp hp))
  · obtain ⟨⟨s⟩ | n, p⟩ := e
    · obtain ⟨n, rfl⟩ := exists_of_isIndexName (h.keys _ he)
      have hlt : n < 2 ^ 32 - 1 := by
        by_contra hge
        exact hall _ he (.inl ⟨n, not_lt.mp hge, rfl⟩)
      exact ⟨n, ((o.indices _ h.kind).2 _ he).2 n (arrayIndex_indexKey hlt), rfl⟩
    · cases h.keys _ he

theorem PlainArray.exists_getElem? {o : Object α} {vs : List (Value α)} (h : PlainArray o vs)
    {e : Key × Property α} (he : e ∈ o.own) : ∃ i v enumerable, vs[i]? = some v ∧
      i < vs.length ∧ e = (indexKey i, .data v enumerable) := by
  obtain ⟨key, p⟩ := e
  obtain ⟨i, hi, rfl⟩ := h.own _ he
  obtain ⟨enumerable, hget⟩ := h.element i _ (List.getElem?_eq_getElem hi)
  rw [Object.get_eq_some.mpr he] at hget
  exact ⟨i, _, enumerable, List.getElem?_eq_getElem hi, hi, by rw [Option.some.inj hget]⟩

theorem PlainArray.not_overlooks {o : Object α} {vs : List (Value α)} (h : PlainArray o vs) :
    ¬Overlooks o := by
  rintro ⟨-, e, he, hover⟩
  obtain ⟨i, v, enumerable, -, hi, rfl⟩ := h.exists_getElem? he
  rcases hover with ⟨n, hn, hkey⟩ | ⟨_, _, hproperty⟩
  · obtain rfl := indexKey_injective hkey
    have hlength := (o.indices _ h.kind).1
    omega
  · cases hproperty

mutual

/-- What is read is plain, if no array reached has a property that is overlooked. -/
theorem isPlain_of_reads : ∀ {v : Value α} {t : JsValue}, Reads g v t →
    (∀ a, Reaches g v a → ¬Overlooks (g a)) → IsPlain g v t
  | _, _, .null, _ => .null
  | _, _, .boolean b, _ => .boolean b
  | _, _, .number n, _ => .number n
  | _, _, .string s, _ => .string s
  | _, _, .array (a := a) h hs, hreaches => by
      refine .array (h.plain (hreaches a (.here a))) (isPlain_of_readsValues hs fun v hv b hb ↦ ?_)
      obtain ⟨i, hi⟩ := List.mem_iff_getElem?.mp hv
      obtain ⟨p, hp, hread⟩ := h.element i v hi
      exact hreaches b (.there (Object.get_eq_some.mp hp) hread hb)
  | _, _, .object h hs, hreaches => by
      refine .object h (isPlain_of_readsMembers hs fun m hm b hb ↦ ?_)
      refine hreaches b (.there (e := (.name m.1, .data m.2 true)) ?_ rfl hb)
      rw [h.own]
      exact List.mem_map_of_mem hm

theorem isPlain_of_readsValues : ∀ {vs : List (Value α)} {ts : List JsValue},
    UnfoldsValues g ReadArray vs ts →
    (∀ v ∈ vs, ∀ a, Reaches g v a → ¬Overlooks (g a)) → UnfoldsValues g PlainArray vs ts
  | _, _, .nil, _ => .nil
  | _, _, .cons h hs, hreaches =>
      .cons (isPlain_of_reads h (hreaches _ (by simp)))
        (isPlain_of_readsValues hs fun v hv ↦ hreaches v (List.mem_cons_of_mem _ hv))

theorem isPlain_of_readsMembers : ∀ {ms : List (JsString × Value α)}
    {ts : List (JsString × JsValue)}, UnfoldsMembers g ReadArray ms ts →
    (∀ m ∈ ms, ∀ a, Reaches g m.2 a → ¬Overlooks (g a)) → UnfoldsMembers g PlainArray ms ts
  | _, _, .nil, _ => .nil
  | _, _, @UnfoldsMembers.cons _ _ _ key v _ _ _ h hs, hreaches =>
      .cons (isPlain_of_reads h (hreaches (key, v) (List.mem_cons_self ..)))
        (isPlain_of_readsMembers hs fun m hm ↦ hreaches m (List.mem_cons_of_mem _ hm))

end

theorem UnfoldsValues.getElem? {A : Object α → List (Value α) → Prop} :
    ∀ {vs : List (Value α)} {ts : List JsValue}, UnfoldsValues g A vs ts →
    ∀ {i : Nat} {v : Value α}, vs[i]? = some v → ∃ t, Unfolds g A v t
  | _, _, .nil, _, _, hv => by cases hv
  | _, _, .cons h _, 0, _, hv => ⟨_, Option.some.inj hv ▸ h⟩
  | _, _, .cons _ hs, _ + 1, _, hv => hs.getElem? hv

theorem UnfoldsMembers.mem {A : Object α → List (Value α) → Prop} :
    ∀ {ms : List (JsString × Value α)} {ts : List (JsString × JsValue)},
    UnfoldsMembers g A ms ts → ∀ {m : JsString × Value α}, m ∈ ms → ∃ t, Unfolds g A m.2 t
  | _, _, .nil, _, hm => by cases hm
  | _, _, .cons h hs, m, hm => by
      rcases List.mem_cons.mp hm with rfl | hm
      · exact ⟨_, h⟩
      · exact hs.mem hm

/-- No array reached from a plain value has such a property. -/
theorem not_overlooks_of_reaches {v : Value α} {a : α} (h : Reaches g v a) {t : JsValue}
    (ht : IsPlain g v t) : ¬Overlooks (g a) := by
  induction h generalizing t with
  | here a =>
      cases ht with
      | array h _ => exact h.not_overlooks
      | object h _ =>
          rintro ⟨⟨length, hkind⟩, -⟩
          cases h.kind.symm.trans hkind
  | @there a b e w he hread _ ih =>
      cases ht with
      | array h hs =>
          obtain ⟨i, v, enumerable, hv, -, rfl⟩ := h.exists_getElem? he
          obtain rfl : v = w := Option.some.inj hread
          obtain ⟨t, ht⟩ := hs.getElem? hv
          exact ih ht
      | object h hs =>
          rw [h.own, List.mem_map] at he
          obtain ⟨m, hm, rfl⟩ := he
          obtain rfl : m.2 = w := Option.some.inj hread
          obtain ⟨t, ht⟩ := hs.mem hm
          exact ih ht

end Overlooked

/-! ## The result -/

section Result

variable {α : Type} [Fintype α] [DecidableEq α]

/-- The value is a plain tree within the limits, with leaves that the format has, and the
encoding is the one of the whole tree. -/
def PlainTree (g : Graph α) (v : Value α) (s : JsString) : Prop :=
  ∃ t, IsPlain g v t ∧ t.height ≤ 64 ∧ t.nodes ≤ 100000 ∧ t.Encodable ∧
    TypeScript.canonicalizeInner t = .ok s

/-- The value fits the budget and can be read as a tree that the format has. -/
def Admitted (g : Graph α) (v : Value α) : Prop :=
  WithinBudget g v ∧ ∃ t, Reads g v t ∧ t.Encodable

/-- What the encoder accepts is a plain tree, encoded as a whole, unless the value is
admitted and an array in it has a property past the array indices or an accessor. -/
theorem canonicalJson_plain_iff (g : Graph α) (v : Value α) :
    (∀ s, canonicalJson g v = .ok s → PlainTree g v s) ↔
      ¬(Admitted g v ∧ ∃ a, Reaches g v a ∧ Overlooks (g a)) := by
  constructor
  · rintro h ⟨⟨hbudget, t, ht, hencodable⟩, a, ha, hover⟩
    obtain ⟨s, hs⟩ := (exists_canonicalizeInner_iff t).mpr hencodable
    obtain ⟨t', hplain, -⟩ := h s (canonicalJson_eq_ok.mpr ⟨hbudget, t, ht, hs⟩)
    exact not_overlooks_of_reaches ha hplain hover
  · intro h s hs
    obtain ⟨hbudget, t, ht, hencode⟩ := canonicalJson_eq_ok.mp hs
    have hencodable := (exists_canonicalizeInner_iff t).mp ⟨s, hencode⟩
    have hplain := isPlain_of_reads ht fun a ha hover ↦
      h ⟨⟨hbudget, t, ht, hencodable⟩, a, ha, hover⟩
    obtain ⟨hheight, hnodes⟩ := bounds_of_withinBudget hplain hbudget
    exact ⟨t, hplain, hheight, hnodes, hencodable, hencode⟩

end Result

/-- The empty array with a property under the first name that is no array index. -/
def oddArray : Graph Unit := fun _ ↦
  { kind := .array 0
    prototype := .other
    own := [(.name (js "4294967295"), .data (.boolean true) true)]
    distinct := by decide
    indices := by
      rintro _ ⟨⟩
      decide }

theorem children_oddArray : children oddArray (.reference ()) = [.boolean true] :=
  List.perm_singleton.mp (children_perm fun h ↦ by cases h)

theorem withinBudget_oddArray : WithinBudget oddArray (.reference ()) := by
  constructor
  · rw [maxTransportNestingDepth, Budget.fitsIn, children_oddArray]
    rfl
  · rw [maxTransportNestingDepth, Budget.nodesWithin, children_oddArray]
    decide

/-- The encoder leaves that property out. -/
theorem canonicalJson_oddArray :
    canonicalJson oddArray (.reference ()) = .ok (js "[]") ∧
      ¬PlainTree oddArray (.reference ()) (js "[]") := by
  have hread : ReadArray (oddArray ()) [] :=
    ⟨rfl, by simp, fun e he ↦ by rw [List.mem_singleton.mp he]; decide⟩
  refine ⟨canonicalJson_eq_ok.mpr ⟨withinBudget_oddArray, .array [], .array hread .nil, rfl⟩, ?_⟩
  rintro ⟨t, ht, -⟩
  refine not_overlooks_of_reaches (.here ()) ht ⟨⟨0, rfl⟩, _, List.mem_singleton.mpr rfl, ?_⟩
  exact .inl ⟨4294967295, le_refl _, rfl⟩

end Memory

end Etp.TypeScript
