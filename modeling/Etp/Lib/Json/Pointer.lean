import Etp.Lib.Json.Document

/-!
# Pointers and patches

JSON Pointer (RFC 6901) and JSON Patch (RFC 6902) on documents.  A pointer is a list of
reference tokens after it is read; a token names a member of an object or, as a decimal
number, an element of an array.  Every operation but `test` changes one container, the
parent of the place it points to (`editAt`).

`get?_applyAll` is what a patch cannot do: a value that is no container and whose path
runs through objects only is still there after operations that point neither to it nor to
one of its ancestors.
-/

namespace Etp.Document

open JsString

variable {ν : Type}

/-! ## Pointers -/

/-- The reference token that a piece of a pointer spells: `~1` stands for a solidus and
`~0` for a tilde. -/
def unescapeToken : JsString → Option JsString
  | [] => some []
  | [u] => if u = unit '~' then none else some [u]
  | u :: v :: rest =>
      if u = unit '~' then
        if v = unit '0' then (unescapeToken rest).map (unit '~' :: ·)
        else if v = unit '1' then (unescapeToken rest).map (unit '/' :: ·)
        else none
      else (unescapeToken (v :: rest)).map (u :: ·)

/-- The reference tokens of a pointer. -/
def pointerTokens : JsString → Option (List JsString)
  | [] => some []
  | u :: rest => if u = unit '/' then (rest.splitOn (unit '/')).mapM unescapeToken else none

/-- The element of an array that a token refers to. -/
def elementIndex (token : JsString) : Option Nat :=
  let n := token.foldl (fun n u ↦ n * 10 + (u.toNat - '0'.toNat)) 0
  if token = utf16 (Nat.toDigits 10 n) then some n else none

/-- The value that a list of reference tokens leads to. -/
def get? : Document ν → List JsString → Option (Document ν)
  | v, [] => some v
  | array vs, token :: path => do
      let i ← elementIndex token
      let v ← vs[i]?
      get? v path
  | object ms, token :: path => do
      let v ← ms.lookup token
      get? v path
  | _, _ :: _ => none

/-- The value that a pointer refers to. -/
def evaluate (pointer : JsString) (v : Document ν) : Option (Document ν) := do
  let path ← pointerTokens pointer
  get? v path

/-! ## Equality -/

section Equality

variable [Setoid ν] [DecidableRel fun a b : ν ↦ a ≈ b]

mutual

/-- The equality of RFC 6902: numbers are equal numerically, objects whatever the order of
their members. -/
def same : Document ν → Document ν → Bool
  | null, null => true
  | boolean a, boolean b => a == b
  | number a, number b => decide (a ≈ b)
  | string a, string b => a == b
  | array vs, array ws => sameValues vs ws
  | object ms, object ns => ms.length == ns.length && sameMembers ms ns
  | _, _ => false

def sameValues : List (Document ν) → List (Document ν) → Bool
  | [], [] => true
  | v :: vs, w :: ws => same v w && sameValues vs ws
  | _, _ => false

def sameMembers : List (JsString × Document ν) → List (JsString × Document ν) → Bool
  | [], _ => true
  | (k, v) :: ms, ns =>
      (match ns.lookup k with
        | some w => same v w
        | none => false) && sameMembers ms ns

end

end Equality

/-- A value without parts. -/
def isScalar : Document ν → Bool
  | array _ | object _ => false
  | null | boolean _ | number _ | string _ => true

/-- Between scalars the equality is transitive, and only a scalar equals one. -/
theorem same_trans_of_isScalar [Setoid ν] [DecidableRel fun a b : ν ↦ a ≈ b]
    {v w u : Document ν} (hscalar : w.isScalar = true) (h : same v w = true)
    (hw : same w u = true) : v.isScalar = true ∧ same v u = true := by
  cases w with
  | array _ | object _ => cases hscalar
  | null =>
      cases v <;> simp only [same, Bool.false_eq_true] at h
      exact ⟨rfl, hw⟩
  | boolean b =>
      cases v <;> simp only [same, Bool.false_eq_true, beq_iff_eq] at h
      subst h
      exact ⟨rfl, hw⟩
  | string s =>
      cases v <;> simp only [same, Bool.false_eq_true, beq_iff_eq] at h
      subst h
      exact ⟨rfl, hw⟩
  | number n =>
      cases v <;> simp only [same, Bool.false_eq_true, decide_eq_true_eq] at h
      cases u <;> simp only [same, Bool.false_eq_true, decide_eq_true_eq] at hw
      exact ⟨rfl, decide_eq_true (Setoid.trans h hw)⟩

/-! ## Patches -/

/-- Change the container that all tokens but the last lead to. -/
def editAt (edit : JsString → Document ν → Option (Document ν)) :
    List JsString → Document ν → Option (Document ν)
  | [], _ => none
  | [token], v => edit token v
  | token :: next :: path, array vs => do
      let i ← elementIndex token
      let v ← vs[i]?
      let v ← editAt edit (next :: path) v
      some (array (vs.set i v))
  | token :: next :: path, object ms => do
      let v ← ms.lookup token
      let v ← editAt edit (next :: path) v
      some (object (assign token v ms))
  | _ :: _ :: _, _ => none

def addTo (v : Document ν) (token : JsString) : Document ν → Option (Document ν)
  | array vs =>
      if token = [unit '-'] then some (array (vs ++ [v]))
      else do
        let i ← elementIndex token
        if i ≤ vs.length then some (array (vs.insertIdx i v)) else none
  | object ms => some (object (assign token v ms))
  | _ => none

def removeFrom (token : JsString) : Document ν → Option (Document ν)
  | array vs => do
      let i ← elementIndex token
      if i < vs.length then some (array (vs.eraseIdx i)) else none
  | object ms =>
      if (ms.lookup token).isSome then some (object (ms.filter fun m ↦ m.1 ≠ token)) else none
  | _ => none

def replaceIn (v : Document ν) (token : JsString) : Document ν → Option (Document ν)
  | array vs => do
      let i ← elementIndex token
      if i < vs.length then some (array (vs.set i v)) else none
  | object ms => if (ms.lookup token).isSome then some (object (assign token v ms)) else none
  | _ => none

/-- An operation of a patch. -/
inductive Operation (ν : Type) where
  | add (path : List JsString) (v : Document ν)
  | remove (path : List JsString)
  | replace (path : List JsString) (v : Document ν)
  | move (source path : List JsString)
  | copy (source path : List JsString)
  | test (path : List JsString) (v : Document ν)

/-- `add`: at the root it replaces the whole document. -/
def add (path : List JsString) (v d : Document ν) : Option (Document ν) :=
  if path = [] then some v else editAt (addTo v) path d

section Apply

variable [Setoid ν] [DecidableRel fun a b : ν ↦ a ≈ b]

/-- The document after an operation that succeeds. -/
def apply : Operation ν → Document ν → Option (Document ν)
  | .add path v, d => add path v d
  | .remove path, d => editAt removeFrom path d
  | .replace path v, d => if path = [] then some v else editAt (replaceIn v) path d
  | .move source path, d => do
      let v ← get? d source
      let d ← editAt removeFrom source d
      add path v d
  | .copy source path, d => do
      let v ← get? d source
      add path v d
  | .test path v, d => do
      let w ← get? d path
      if same w v then some d else none

/-- The operations in order, each on the document the one before it left. -/
def applyAll : List (Operation ν) → Document ν → Option (Document ν)
  | [], d => some d
  | op :: ops, d => do
      let d ← apply op d
      applyAll ops d

end Apply

/-- The operation that a value stands for.  Further members are ignored. -/
def readOperation : Document ν → Option (Operation ν)
  | object ms => do
      let pointer (name : String) : Option (List JsString) :=
        match ms.lookup (keyword name) with
        | some (string s) => pointerTokens s
        | _ => none
      let v := ms.lookup (keyword "value")
      let path ← pointer "path"
      match ms.lookup (keyword "op") with
      | some (string op) =>
          if op = keyword "add" then v.map (.add path)
          else if op = keyword "remove" then some (.remove path)
          else if op = keyword "replace" then v.map (.replace path)
          else if op = keyword "move" then (pointer "from").map (.move · path)
          else if op = keyword "copy" then (pointer "from").map (.copy · path)
          else if op = keyword "test" then v.map (.test path)
          else none
      | _ => none
  | _ => none

/-- Apply a patch document. -/
def applyPatch [Setoid ν] [DecidableRel fun a b : ν ↦ a ≈ b] (patch d : Document ν) :
    Option (Document ν) :=
  match patch with
  | array ops => do
      let ops ← ops.mapM readOperation
      applyAll ops d
  | _ => none

/-! ## What an edit leaves in place -/

theorem lookup_assign_self (name : JsString) (v : Document ν) (ms : List (JsString × Document ν)) :
    (assign name v ms).lookup name = some v := by
  induction ms with
  | nil => simp [assign]
  | cons m ms ih =>
      obtain ⟨k, w⟩ := m
      rw [assign]
      split_ifs with h
      · simp [h]
      · rw [List.lookup_cons, beq_false_of_ne (Ne.symm h)]
        exact ih

theorem lookup_assign_ne {name k : JsString} (h : k ≠ name) (v : Document ν)
    (ms : List (JsString × Document ν)) : (assign name v ms).lookup k = ms.lookup k := by
  induction ms with
  | nil => simp [assign, h]
  | cons m ms ih =>
      obtain ⟨k', w⟩ := m
      rw [assign]
      split_ifs with hk
      · subst hk
        rw [List.lookup_cons, List.lookup_cons, beq_false_of_ne h]
      · rw [List.lookup_cons, List.lookup_cons, ih]

theorem lookup_filter_ne {name k : JsString} (h : k ≠ name) (ms : List (JsString × Document ν)) :
    (ms.filter fun m ↦ m.1 ≠ name).lookup k = ms.lookup k := by
  induction ms with
  | nil => rfl
  | cons m ms ih =>
      obtain ⟨k', w⟩ := m
      by_cases hk : k' = name
      · subst hk
        rw [List.filter_cons_of_neg (by simp), ih, List.lookup_cons, beq_false_of_ne h]
      · rw [List.filter_cons_of_pos (by simpa using hk), List.lookup_cons, List.lookup_cons, ih]

/-- An edit of one member, and of objects and arrays only. -/
structure Local (edit : JsString → Document ν → Option (Document ν)) : Prop where
  object : ∀ {token ms d}, edit token (object ms) = some d →
    ∃ ns, d = Document.object ns ∧ ∀ k, k ≠ token → ns.lookup k = ms.lookup k
  scalar : ∀ {token v}, v.isScalar = true → edit token v = none

theorem local_addTo (v : Document ν) : Local (addTo v) where
  object h := ⟨_, (Option.some.inj h).symm, fun _ hk ↦ lookup_assign_ne hk v _⟩
  scalar {_ w} h := by
    cases w with
    | array _ | object _ => cases h
    | null | boolean _ | number _ | string _ => rfl

theorem local_removeFrom : Local (removeFrom (ν := ν)) where
  object h := by
    simp only [removeFrom, Option.ite_none_right_eq_some, Option.some.injEq] at h
    exact ⟨_, h.2.symm, fun _ hk ↦ lookup_filter_ne hk _⟩
  scalar {_ w} h := by
    cases w with
    | array _ | object _ => cases h
    | null | boolean _ | number _ | string _ => rfl

theorem local_replaceIn (v : Document ν) : Local (replaceIn v) where
  object h := by
    simp only [replaceIn, Option.ite_none_right_eq_some, Option.some.injEq] at h
    exact ⟨_, h.2.symm, fun _ hk ↦ lookup_assign_ne hk v _⟩
  scalar {_ w} h := by
    cases w with
    | array _ | object _ => cases h
    | null | boolean _ | number _ | string _ => rfl

/-- A path that no array has: none of its tokens is an index. -/
def Named (path : List JsString) : Prop := ∀ token ∈ path, elementIndex token = none

/-- A value at a path of names stands in an object. -/
theorem exists_of_get?_cons {d v : Document ν} {token : JsString} {path : List JsString}
    (hnamed : Named (token :: path)) (h : get? d (token :: path) = some v) :
    ∃ ms w, d = object ms ∧ ms.lookup token = some w ∧ get? w path = some v := by
  have htoken := hnamed token (by simp)
  cases d with
  | object ms =>
      simp only [get?, Option.bind_eq_bind, Option.bind_eq_some_iff] at h
      obtain ⟨w, hw, h⟩ := h
      exact ⟨ms, w, rfl, hw, h⟩
  | array vs => simp [get?, htoken] at h
  | null | boolean _ | number _ | string _ => cases h

theorem editAt_of_isScalar {edit : JsString → Document ν → Option (Document ν)}
    (hlocal : Local edit) {v : Document ν} (hv : v.isScalar = true) (path : List JsString) :
    editAt edit path v = none := by
  match path with
  | [] => rfl
  | [_] => exact hlocal.scalar hv
  | _ :: _ :: _ =>
      cases v with
      | array _ | object _ => cases hv
      | null | boolean _ | number _ | string _ => rfl

/-- An edit keeps what lies neither at its place nor below it, as long as it cannot go below
a value that is no container. -/
theorem get?_editAt {edit : JsString → Document ν → Option (Document ν)} (hlocal : Local edit)
    {v : Document ν} (hv : v.isScalar = true) {target : List JsString} {d d' : Document ν}
    {path : List JsString} (hnamed : Named path) (hget : get? d path = some v)
    (htarget : ¬target <+: path) (hedit : editAt edit target d = some d') :
    get? d' path = some v := by
  induction path generalizing d d' target with
  | nil =>
      obtain rfl : d = v := Option.some.inj hget
      rw [editAt_of_isScalar hlocal hv] at hedit
      cases hedit
  | cons token path ih =>
      obtain ⟨ms, w, rfl, hw, hpath⟩ := exists_of_get?_cons hnamed hget
      have hrest : Named path := fun t ht ↦ hnamed t (List.mem_cons_of_mem _ ht)
      match target with
      | [] => exact absurd List.nil_prefix htarget
      | [t] =>
          obtain ⟨ns, rfl, hns⟩ := hlocal.object hedit
          have hne : token ≠ t := by
            rintro rfl
            exact htarget (by simp)
          simp only [get?, hns token hne, hw, Option.bind_eq_bind, Option.bind_some, hpath]
      | t :: next :: target =>
          simp only [editAt, Option.bind_eq_bind, Option.bind_eq_some_iff, Option.some.injEq]
            at hedit
          obtain ⟨x, hx, y, hy, rfl⟩ := hedit
          by_cases hne : token = t
          · -- The edit goes on below the same member.
            subst hne
            obtain rfl : w = x := Option.some.inj (hw.symm.trans hx)
            have hbelow : ¬(next :: target) <+: path := fun h ↦ htarget (by simpa using h)
            have := ih hrest hpath hbelow hy
            simp only [get?, lookup_assign_self, Option.bind_eq_bind, Option.bind_some, this]
          · simp only [get?, lookup_assign_ne hne, hw, Option.bind_eq_bind, Option.bind_some, hpath]

section Keeps

variable [Setoid ν] [DecidableRel fun a b : ν ↦ a ≈ b]

/-- The operation points neither to the place nor to one of its ancestors, unless it is a
test, and brings no value from elsewhere. -/
def Avoids (path : List JsString) : Operation ν → Prop
  | .add target _ | .remove target | .replace target _ => ¬target <+: path
  | .move _ _ | .copy _ _ => False
  | .test _ _ => True

theorem get?_apply {v : Document ν} (hv : v.isScalar = true) {path : List JsString}
    (hnamed : Named path) {op : Operation ν} (hop : Avoids path op) {d d' : Document ν}
    (hget : get? d path = some v) (happly : apply op d = some d') : get? d' path = some v := by
  cases op with
  | add target w =>
      have hne : target ≠ [] := fun h ↦ hop (by rw [h]; exact List.nil_prefix)
      rw [apply, add, if_neg hne] at happly
      exact get?_editAt (local_addTo w) hv hnamed hget hop happly
  | remove target => exact get?_editAt local_removeFrom hv hnamed hget hop happly
  | replace target w =>
      have hne : target ≠ [] := fun h ↦ hop (by rw [h]; exact List.nil_prefix)
      rw [apply, if_neg hne] at happly
      exact get?_editAt (local_replaceIn w) hv hnamed hget hop happly
  | move source target => exact hop.elim
  | copy source target => exact hop.elim
  | test target w =>
      simp only [apply, Option.bind_eq_bind, Option.bind_eq_some_iff,
        Option.ite_none_right_eq_some, Option.some.injEq] at happly
      obtain ⟨-, -, -, rfl⟩ := happly
      exact hget

/-- A value that is no container, at a path of names, outlives a patch that avoids it. -/
theorem get?_applyAll {v : Document ν} (hv : v.isScalar = true) {path : List JsString}
    (hnamed : Named path) {ops : List (Operation ν)} (hops : ∀ op ∈ ops, Avoids path op)
    {d d' : Document ν} (hget : get? d path = some v) (happly : applyAll ops d = some d') :
    get? d' path = some v := by
  induction ops generalizing d with
  | nil =>
      obtain rfl : d = d' := Option.some.inj happly
      exact hget
  | cons op ops ih =>
      simp only [applyAll, Option.bind_eq_bind, Option.bind_eq_some_iff] at happly
      obtain ⟨e, he, happly⟩ := happly
      exact ih (fun op' hop' ↦ hops op' (List.mem_cons_of_mem _ hop'))
        (get?_apply hv hnamed (hops op (by simp)) hget he) happly

end Keeps

end Etp.Document
