import Etp.Lib.Json.Pointer
import Etp.Profiles.Scanner
import Etp.TypeScript.Canonical

/-!
# Accepted patches

The section of `validateKubernetes` on the patch: the bytes of the patch and their digest,
the two leading tests of the committed `uid` and `resourceVersion`, the write set, and the
operations after them.  The sections before and after it, on the target and on the
evidence, can only turn a vector down, and are parameters; so are the functions of the
platform that the section calls.

`patch_keeps_identity` follows an accepted patch over an arbitrary document.  The leading
tests find the two committed values there, and no later operation reaches them: an
operation that is no test points neither to them nor to an object around them, and one
that points below them fails, since a committed value that a test can find has no parts.
-/

namespace Etp.Profiles

open JsString Document

/-! ## The platform -/

/-- The functions of the platform. -/
structure Platform where
  /-- `Buffer.from(text, "base64url")` -/
  fromBase64url : JsString → List UInt8
  /-- `bytes.toString("base64url")` -/
  toBase64url : List UInt8 → JsString
  /-- `createHash("sha256").update(bytes).digest("hex")` under the prefix of `sha256` -/
  sha256 : List UInt8 → JsString
  /-- `new TextDecoder("utf-8", { fatal: true }).decode(bytes)` -/
  decodeUtf8 : List UInt8 → Option JsString

/-- The text of a number, as `JSON.stringify` writes it. -/
class NumberText (ν : Type) where
  toText : ν → JsString

/-! ## `JSON.stringify` -/

/-- The spelling of a code unit; `lone` tells of a surrogate that is in no pair. -/
def stringifyUnit (lone : Bool) (u : UInt16) : JsString :=
  if u = unit '\x08' then keyword "\\b"
  else if u = unit '\t' then keyword "\\t"
  else if u = unit '\n' then keyword "\\n"
  else if u = unit '\x0c' then keyword "\\f"
  else if u = unit '\r' then keyword "\\r"
  else if u = unit '"' then keyword "\\\""
  else if u = unit '\\' then keyword "\\\\"
  else if u.toNat < 0x20 ∨ lone then keyword "\\u" ++ TypeScript.hexPadded u.toNat
  else [u]

def stringifyUnits : JsString → JsString
  | [] => []
  | [u] => stringifyUnit (isHigh u || isLow u) u
  | u :: v :: rest =>
      if isHigh u ∧ isLow v then u :: v :: stringifyUnits rest
      else stringifyUnit (isHigh u || isLow u) u ++ stringifyUnits (v :: rest)

def quote (s : JsString) : JsString := unit '"' :: (stringifyUnits s ++ [unit '"'])

section Stringify

variable {ν : Type} [NumberText ν]

mutual

/-- `JSON.stringify`.  The members of an object are written where they stand and put in the
order of `ownKeys`. -/
def stringify : Document ν → JsString
  | .null => keyword "null"
  | .boolean b => keyword (if b then "true" else "false")
  | .number n => NumberText.toText n
  | .string s => quote s
  | .array values => unit '[' :: (TypeScript.join (stringifyValues values) ++ [unit ']'])
  | .object members =>
      unit '\x7b' :: (TypeScript.join ((TypeScript.ownKeys (stringifyMembers members)).map
        fun m ↦ quote m.1 ++ unit ':' :: m.2) ++ [unit '\x7d'])

def stringifyValues : List (Document ν) → List JsString
  | [] => []
  | v :: vs => stringify v :: stringifyValues vs

def stringifyMembers : List (JsString × Document ν) → List (JsString × JsString)
  | [] => []
  | (k, v) :: ms => (k, stringify v) :: stringifyMembers ms

end

end Stringify

/-! ## Pointers of the profile -/

/-- The pattern `~(?![01])` is found. -/
def hasBadEscape : JsString → Bool
  | [] => false
  | [u] => u = unit '~'
  | u :: v :: rest =>
      (u = unit '~' ∧ v ≠ unit '0' ∧ v ≠ unit '1') || hasBadEscape (v :: rest)

def validJsonPointer {ν : Type} : Document ν → Bool
  | .string path => path.head? = some (unit '/') && !hasBadEscape path
  | _ => false

/-- `token.replaceAll(pattern, replacement)` for a pattern of two units -/
def replaceAll (first second replacement : UInt16) : JsString → JsString
  | [] => []
  | [u] => [u]
  | u :: v :: rest =>
      if u = first ∧ v = second then replacement :: replaceAll first second replacement rest
      else u :: replaceAll first second replacement (v :: rest)

def jsonPointerTokens (path : JsString) : Option (List JsString) :=
  if validJsonPointer (ν := Unit) (.string path) then
    some ((path.tail.splitOn (unit '/')).map fun token ↦
      replaceAll (unit '~') (unit '0') (unit '~')
        (replaceAll (unit '~') (unit '1') (unit '/') token))
  else none

def uidPath : List JsString := [keyword "metadata", keyword "uid"]

def resourceVersionPath : List JsString := [keyword "metadata", keyword "resourceVersion"]

/-- `tokens` is a prefix of the protected path, the whole path included. -/
def overwritesProtectedMetadata (path : JsString) : Bool :=
  match jsonPointerTokens path with
  | none => false
  | some tokens => [uidPath, resourceVersionPath].any fun protectedPath ↦
      tokens.length ≤ protectedPath.length && tokens.isPrefixOf protectedPath

/-! ## The write set -/

/-- The bytes of a string, compared as `Buffer` compares them. -/
def bytesOf (s : JsString) : List Nat := (toBuffer s).map UInt8.toNat

def byBytes (left right : JsString) : Prop := bytesOf left ≤ bytesOf right

instance : DecidableRel byBytes := fun left right ↦
  inferInstanceAs (Decidable (bytesOf left ≤ bytesOf right))

instance : Std.Total byBytes := ⟨fun left right ↦ le_total (bytesOf left) (bytesOf right)⟩

instance : IsTrans JsString byBytes := ⟨fun _ _ _ ↦ le_trans⟩

/-- `[...new Set(paths)]`: a path stands where it occurs first. -/
def unique (paths : List JsString) : List JsString := paths.reverse.dedup.reverse

/-- `[...new Set(paths)].sort((left, right) => Buffer.from(left).compare(Buffer.from(right)))` -/
def sortedUnique (paths : List JsString) : List JsString := (unique paths).insertionSort byBytes

/-! ## The section on the patch -/

section Validate

variable {ν : Type}

/-- `value?.name` -/
def property (v : Document ν) (name : String) : Option (Document ν) :=
  match v with
  | .object members => members.lookup (keyword name)
  | _ => none

/-- `value === text` -/
def isText (v : Option (Document ν)) (text : JsString) : Bool :=
  match v with
  | some (.string s) => s = text
  | _ => false

/-- `left === right` for values of different documents: arrays and objects are never the same. -/
def strictlyEqual [Setoid ν] [DecidableRel fun a b : ν ↦ a ≈ b] (left right : Document ν) : Bool :=
  left.isScalar && same left right

/-- `exactKeys` -/
def exactKeys (v : Document ν) (required optional : List String) (code : String) :
    Except ProfileFailure Unit :=
  match v with
  | .object members => do
      required.forM fun key ↦
        assert (members.lookup (keyword key)).isSome code (keyword "missing " ++ keyword key)
      (TypeScript.ownKeys members).forM fun m ↦
        assert (m.1 ∈ (required ++ optional).map keyword) code (keyword "unknown " ++ m.1)
  | _ => .error (.profile code (keyword "expected a document object"))

/-- The text under a name that has one. -/
def textAt (v : Document ν) (name code : String) (message : JsString) :
    Except ProfileFailure JsString :=
  match property v name with
  | some (.string s) => .ok s
  | _ => .error (.profile code message)

/-- The operations of the profile. -/
def permitted : List JsString :=
  [keyword "add", keyword "remove", keyword "replace", keyword "test"]

/-- The body of the loop over the operations, with the paths of `mutationPaths` so far. -/
def checkOperation (writeSet : List JsString) (operation : Document ν)
    (mutationPaths : List JsString) : Except ProfileFailure (List JsString) := do
  let op ← textAt operation "op" "K8S_PATCH_OPERATION" (keyword "patch operation is not permitted")
  assert (op ∈ permitted) "K8S_PATCH_OPERATION" (keyword "patch operation is not permitted")
  exactKeys operation ["op", "path"] (if op = keyword "remove" then [] else ["value"])
    "PROFILE_SCHEMA"
  assert (op = keyword "remove" ∨ (property operation "value").isSome) "PROFILE_SCHEMA"
    (op ++ keyword " requires value")
  let path ← textAt operation "path" "K8S_JSON_POINTER"
    (keyword "patch path is not a valid JSON Pointer")
  assert (validJsonPointer (.string path : Document ν)) "K8S_JSON_POINTER"
    (keyword "patch path is not a valid JSON Pointer")
  if op = keyword "test" then .ok mutationPaths
  else do
    assert (!overwritesProtectedMetadata path) "K8S_PATCH_IMMUTABLE_METADATA" (keyword
      "identity and concurrency metadata cannot be overwritten directly or through an ancestor")
    assert (path ∈ writeSet) "K8S_PATCH_WRITE_SET"
      (keyword "write path " ++ path ++ keyword " is not in the resource claim")
    .ok (mutationPaths ++ [path])

/-- The loop over the operations after the two tests. -/
def checkOperations (writeSet : List JsString) :
    List (Document ν) → List JsString → Except ProfileFailure (List JsString)
  | [], mutationPaths => .ok mutationPaths
  | operation :: operations, mutationPaths => do
      let mutationPaths ← checkOperation writeSet operation mutationPaths
      checkOperations writeSet operations mutationPaths

/-- An operation that tests a committed value. -/
def checkTest [Setoid ν] [DecidableRel fun a b : ν ↦ a ≈ b] (operation : Option (Document ν))
    (path : String) (committed : Document ν) (code message : String) :
    Except ProfileFailure Unit :=
  assert (∃ v ∈ operation, isText (property v "op") (keyword "test") ∧
    isText (property v "path") (keyword path) ∧
    ∃ w ∈ property v "value", strictlyEqual w committed) code (keyword message)

/-- The members of the documents that the section reads. -/
structure KubernetesPatch (ν : Type) where
  patchUtf8Base64url : JsString
  patchSha256 : JsString
  operations : Document ν
  uid : Document ν
  resourceVersion : Document ν
  writeSet : Document ν

/-- The texts of a list of texts. -/
def textsOf : List (Document ν) → Option (List JsString)
  | [] => some []
  | .string s :: vs => (textsOf vs).map (s :: ·)
  | _ :: _ => none

/-- The paths of a nonempty array of pointers. -/
def writeSetPaths (writeSet : Document ν) : Option (List JsString) :=
  match writeSet with
  | .array paths => if paths ≠ [] ∧ paths.all validJsonPointer then textsOf paths else none
  | _ => none

/-- The elements of an array. -/
def elements : Document ν → Option (List (Document ν))
  | .array vs => some vs
  | _ => none

variable [Numbers ν] [NumberText ν] [Setoid ν] [DecidableRel fun a b : ν ↦ a ≈ b]

/-- The operations that the bytes of a patch stand for. -/
def decodePatch (platform : Platform) (bytes : List UInt8) :
    Except ProfileFailure (Document ν) := do
  let failure := ProfileFailure.profile "K8S_PATCH_JSON"
    (keyword "patch bytes are not strict UTF-8 JSON")
  let text ← okOr (platform.decodeUtf8 bytes) failure
  match parseJsonWithoutDuplicateKeys text with
  | .error .syntaxError => .error failure
  | result => result

/-- The section on the patch, as the operations it accepts. -/
def validatePatch (platform : Platform) (v : KubernetesPatch ν) :
    Except ProfileFailure (List (Document ν)) := do
  let patchBytes := platform.fromBase64url v.patchUtf8Base64url
  assert (platform.toBase64url patchBytes = v.patchUtf8Base64url) "K8S_PATCH_ENCODING"
    (keyword "patch must use unpadded canonical base64url")
  assert (platform.sha256 patchBytes = v.patchSha256) "K8S_PATCH_DIGEST"
    (keyword "patch digest mismatch")
  let decoded ← decodePatch platform patchBytes
  assert (stringify decoded = stringify v.operations) "K8S_PATCH_BYTES_MISMATCH"
    (keyword "parsed patch bytes differ from committed operations")
  let decoded ← okOr (elements decoded)
    (.profile "K8S_PATCH_SHAPE" (keyword "patch operation count is out of bounds"))
  assert (3 ≤ decoded.length ∧ decoded.length ≤ 256) "K8S_PATCH_SHAPE"
    (keyword "patch operation count is out of bounds")
  checkTest decoded[0]? "/metadata/uid" v.uid "K8S_PATCH_UID_TEST"
    "first operation must test the committed UID"
  checkTest decoded[1]? "/metadata/resourceVersion" v.resourceVersion "K8S_PATCH_RV_TEST"
    "second operation must test the committed resourceVersion"
  let writeSet ← okOr (writeSetPaths v.writeSet)
    (.profile "K8S_JSON_POINTER" (keyword "write set contains an invalid JSON Pointer"))
  assert (writeSet = sortedUnique writeSet) "K8S_WRITE_SET_CANONICAL"
    (keyword "write set must be sorted and unique")
  let mutationPaths ← checkOperations writeSet (decoded.drop 2) []
  assert (sortedUnique mutationPaths = writeSet) "K8S_PATCH_WRITE_SET_MISMATCH"
    (keyword "claim write set must equal the patch mutation set")
  .ok decoded

/-- `validateKubernetes`: the sections before the one on the patch, that one, and those after
it. -/
def validateKubernetesPatch (platform : Platform) (before after : Except ProfileFailure Unit)
    (v : KubernetesPatch ν) : Except ProfileFailure (List (Document ν)) := do
  before
  let operations ← validatePatch platform v
  after
  .ok operations

end Validate

/-! ## Tokens -/

theorem replaceAll_cons {first second replacement u : UInt16} (hu : u ≠ first) (us : JsString) :
    replaceAll first second replacement (u :: us) =
      u :: replaceAll first second replacement us := by
  cases us with
  | nil => rfl
  | cons v us => rw [replaceAll, if_neg fun h ↦ hu h.1]

theorem replaceAll_match (first second replacement : UInt16) (us : JsString) :
    replaceAll first second replacement (first :: second :: us) =
      replacement :: replaceAll first second replacement us := by
  rw [replaceAll, if_pos ⟨rfl, rfl⟩]

theorem replaceAll_mismatch {first second replacement v : UInt16} (hv : v ≠ second)
    (us : JsString) :
    replaceAll first second replacement (first :: v :: us) =
      first :: replaceAll first second replacement (v :: us) := by
  rw [replaceAll, if_neg fun h ↦ hv h.2]

/-- The two replacements, in this order, read the escapes of a token. -/
theorem replaceAll_of_unescapeToken {us token : JsString} (h : unescapeToken us = some token) :
    replaceAll (unit '~') (unit '0') (unit '~') (replaceAll (unit '~') (unit '1') (unit '/') us) =
      token := by
  fun_induction unescapeToken us generalizing token with
  | case1 => exact Option.some.inj h
  | case2 => cases h
  | case3 u hu =>
      obtain rfl := Option.some.inj h
      rfl
  | case4 rest ih =>
      obtain ⟨t, ht, rfl⟩ := Option.map_eq_some_iff.mp h
      rw [replaceAll_mismatch (by decide), replaceAll_cons (u := unit '0') (by decide),
        replaceAll_match, ih ht]
  | case5 rest hv ih =>
      obtain ⟨t, ht, rfl⟩ := Option.map_eq_some_iff.mp h
      rw [replaceAll_match, replaceAll_cons (by decide), ih ht]
  | case6 => cases h
  | case7 u v rest hu ih =>
      obtain ⟨t, ht, rfl⟩ := Option.map_eq_some_iff.mp h
      rw [replaceAll_cons hu, replaceAll_cons hu, ih ht]

/-- The profile reads the tokens of a pointer as RFC 6901 does. -/
theorem jsonPointerTokens_of_pointerTokens {ν : Type} {path : JsString} {tokens : List JsString}
    (hvalid : validJsonPointer (.string path : Document ν) = true)
    (h : pointerTokens path = some tokens) : jsonPointerTokens path = some tokens := by
  have hvalid' : validJsonPointer (.string path : Document Unit) = true := hvalid
  rw [jsonPointerTokens, if_pos hvalid', Option.some.injEq]
  simp only [validJsonPointer, Bool.and_eq_true, decide_eq_true_eq] at hvalid
  cases path with
  | nil => cases hvalid.1
  | cons u rest =>
      rw [pointerTokens, if_pos (Option.some.inj hvalid.1)] at h
      rw [List.tail_cons]
      generalize rest.splitOn (unit '/') = pieces at h
      induction pieces generalizing tokens with
      | nil => simpa using h
      | cons piece pieces ih =>
          simp only [List.mapM_cons, Option.bind_eq_bind, Option.bind_eq_some_iff,
            Option.pure_def, Option.some.injEq] at h
          obtain ⟨token, htoken, tokens, htokens, rfl⟩ := h
          rw [List.map_cons, replaceAll_of_unescapeToken htoken, ih htokens]

theorem not_prefix_of_overwrites {path : JsString} {tokens : List JsString}
    (htokens : jsonPointerTokens path = some tokens)
    (h : overwritesProtectedMetadata path = false) :
    ¬tokens <+: uidPath ∧ ¬tokens <+: resourceVersionPath := by
  have key : ∀ protectedPath ∈ [uidPath, resourceVersionPath], ¬tokens <+: protectedPath := by
    intro protectedPath hmem hpre
    have htrue : overwritesProtectedMetadata path = true := by
      rw [overwritesProtectedMetadata, htokens]
      refine List.any_eq_true.mpr ⟨protectedPath, hmem, ?_⟩
      rw [Bool.and_eq_true, decide_eq_true_eq, List.isPrefixOf_iff_prefix]
      exact ⟨hpre.length_le, hpre⟩
    rw [h] at htrue
    cases htrue
  exact ⟨key _ (by simp), key _ (by simp)⟩

/-! ## Operations -/

section Operations

variable {ν : Type}

/-- An operation that the loop lets pass. -/
structure Permitted (operation : Document ν) (op path : JsString) : Prop where
  name : property operation "op" = some (.string op)
  listed : op ∈ permitted
  pointer : property operation "path" = some (.string path)
  valid : validJsonPointer (.string path : Document ν) = true
  protects : op ≠ keyword "test" → overwritesProtectedMetadata path = false

/-- The path of an operation that is no test. -/
def mutationPath (operation : Document ν) : Option JsString :=
  match property operation "op", property operation "path" with
  | some (.string op), some (.string path) => if op = keyword "test" then none else some path
  | _, _ => none

theorem textAt_eq_ok {v : Document ν} {name code : String} {message s : JsString} :
    textAt v name code message = .ok s ↔ property v name = some (.string s) := by
  unfold textAt
  constructor
  · intro h
    split at h
    · next s' hs =>
        rw [hs, Except.ok.inj h]
    · cases h
  · intro h
    rw [h]

theorem assert_eq_ok {condition : Prop} [Decidable condition] {code : String} {message : JsString}
    {u : Unit} : assert condition code message = .ok u ↔ condition := by
  rw [assert, rejectIf_eq_ok, not_not]

theorem checkOperation_eq_ok {writeSet mutationPaths result : List JsString}
    {operation : Document ν}
    (h : checkOperation writeSet operation mutationPaths = .ok result) :
    (∃ op path, Permitted operation op path) ∧
      result = mutationPaths ++ (mutationPath operation).toList := by
  simp only [checkOperation, bind_eq_ok, assert_eq_ok, exists_const, textAt_eq_ok] at h
  obtain ⟨op, hop, hpermitted, -, -, -, path, hpath, hvalid, h⟩ := h
  split_ifs at h with htest
  · obtain rfl := Except.ok.inj h
    exact ⟨⟨op, path, hop, hpermitted, hpath, hvalid, fun hne ↦ absurd htest hne⟩,
      by simp [mutationPath, hop, hpath, htest]⟩
  · simp only [bind_eq_ok, assert_eq_ok, exists_const, Except.ok.injEq, Bool.not_eq_true'] at h
    obtain ⟨hprotects, -, rfl⟩ := h
    exact ⟨⟨op, path, hop, hpermitted, hpath, hvalid, fun _ ↦ hprotects⟩,
      by simp [mutationPath, hop, hpath, htest]⟩

theorem checkOperations_eq_ok {writeSet mutationPaths result : List JsString}
    {operations : List (Document ν)}
    (h : checkOperations writeSet operations mutationPaths = .ok result) :
    (∀ operation ∈ operations, ∃ op path, Permitted operation op path) ∧
      result = mutationPaths ++ operations.filterMap mutationPath := by
  induction operations generalizing mutationPaths with
  | nil =>
      obtain rfl := Except.ok.inj h
      simp
  | cons operation operations ih =>
      simp only [checkOperations, bind_eq_ok] at h
      obtain ⟨paths, hpaths, h⟩ := h
      obtain ⟨hpermitted, rfl⟩ := checkOperation_eq_ok hpaths
      obtain ⟨hall, rfl⟩ := ih h
      refine ⟨List.forall_mem_cons.mpr ⟨hpermitted, hall⟩, ?_⟩
      cases hpath : mutationPath operation with
      | none => simp [hpath]
      | some path => simp [hpath]

/-- The value that a name of the operation has for a reader of RFC 6902. -/
theorem property_object (ms : List (JsString × Document ν)) (name : String) :
    property (.object ms) name = ms.lookup (keyword name) := rfl

theorem exists_object_of_property {v w : Document ν} {name : String}
    (h : property v name = some w) :
    ∃ ms, v = .object ms := by
  cases v with
  | object ms => exact ⟨ms, rfl⟩
  | null | boolean _ | number _ | string _ | array _ => cases h

/-- An operation that the loop lets pass reaches neither of the protected places. -/
theorem Permitted.avoids {operation : Document ν} {op path : JsString}
    (h : Permitted operation op path) {o : Operation ν} (ho : readOperation operation = some o) :
    Avoids uidPath o ∧ Avoids resourceVersionPath o := by
  obtain ⟨ms, rfl⟩ := exists_object_of_property h.name
  have hop := h.name
  have hpath := h.pointer
  rw [property_object] at hop hpath
  simp only [readOperation, hop, hpath, Option.bind_eq_bind, Option.bind_eq_some_iff] at ho
  obtain ⟨tokens, htokens, ho⟩ := ho
  have hsafe : op ≠ keyword "test" → ¬tokens <+: uidPath ∧ ¬tokens <+: resourceVersionPath :=
    fun hne ↦ not_prefix_of_overwrites (jsonPointerTokens_of_pointerTokens h.valid htokens)
      (h.protects hne)
  have hmem := h.listed
  simp only [permitted, List.mem_cons, List.not_mem_nil, or_false] at hmem
  rcases hmem with rfl | rfl | rfl | rfl
  · rw [if_pos rfl, Option.map_eq_some_iff] at ho
    obtain ⟨v, -, rfl⟩ := ho
    exact hsafe (by decide)
  · rw [if_neg (by decide), if_pos rfl] at ho
    obtain rfl := Option.some.inj ho
    exact hsafe (by decide)
  · rw [if_neg (by decide), if_neg (by decide), if_pos rfl, Option.map_eq_some_iff] at ho
    obtain ⟨v, -, rfl⟩ := ho
    exact hsafe (by decide)
  · rw [if_neg (by decide), if_neg (by decide), if_neg (by decide), if_neg (by decide),
      if_neg (by decide), if_pos rfl, Option.map_eq_some_iff] at ho
    obtain ⟨v, -, rfl⟩ := ho
    exact ⟨trivial, trivial⟩

end Operations

/-! ## The two tests -/

section Tests

variable {ν : Type} [Setoid ν] [DecidableRel fun a b : ν ↦ a ≈ b]

/-- The pointer leads to the committed value. -/
def HoldsAt (pointer : String) (committed d : Document ν) : Prop :=
  ∃ v, evaluate (keyword pointer) d = some v ∧ strictlyEqual v committed = true

/-- What a test compares with a committed value is that value. -/
theorem strictlyEqual_of_same {v w committed : Document ν} (h : same v w = true)
    (hw : strictlyEqual w committed = true) :
    v.isScalar = true ∧ strictlyEqual v committed = true := by
  rw [strictlyEqual, Bool.and_eq_true] at hw
  obtain ⟨hv, hsame⟩ := same_trans_of_isScalar hw.1 h hw.2
  rw [strictlyEqual, Bool.and_eq_true]
  exact ⟨hv, hv, hsame⟩

omit [Setoid ν] [DecidableRel fun a b : ν ↦ a ≈ b] in
theorem isText_eq_true {v : Option (Document ν)} {text : JsString} :
    isText v text = true ↔ v = some (.string text) := by
  unfold isText
  constructor
  · intro h
    split at h
    · exact congrArg (fun s ↦ some (Document.string s)) (of_decide_eq_true h)
    · cases h
  · rintro rfl
    simp

/-- An operation that tests a committed value succeeds only where the value is, and changes
nothing. -/
theorem apply_of_checkTest {operation : Document ν} {path code message : String}
    {committed : Document ν} {tokens : List JsString} {u : Unit}
    (hcheck : checkTest (some operation) path committed code message = .ok u)
    (htokens : pointerTokens (keyword path) = some tokens) {o : Operation ν}
    (ho : readOperation operation = some o) :
    ∀ {d d' : Document ν}, apply o d = some d' → d' = d ∧
      ∃ v, get? d tokens = some v ∧ v.isScalar = true ∧ strictlyEqual v committed = true := by
  rw [checkTest, assert_eq_ok] at hcheck
  obtain ⟨v, hv, hop, hpath, w, hw, hequal⟩ := hcheck
  obtain rfl : operation = v := Option.some.inj hv
  rw [isText_eq_true] at hop hpath
  obtain ⟨ms, rfl⟩ := exists_object_of_property hop
  rw [property_object] at hop hpath
  replace hw : ms.lookup (keyword "value") = some w := hw
  obtain rfl : Operation.test tokens w = o := by
    simp only [readOperation, hop, hpath, htokens, Option.bind_eq_bind, Option.bind_some] at ho
    rw [if_neg (by decide), if_neg (by decide), if_neg (by decide), if_neg (by decide),
      if_neg (by decide), if_pos trivial, hw] at ho
    exact Option.some.inj ho
  intro d d' happly
  simp only [apply, Option.bind_eq_bind, Option.bind_eq_some_iff, Option.ite_none_right_eq_some,
    Option.some.injEq] at happly
  obtain ⟨x, hx, hsame, rfl⟩ := happly
  exact ⟨rfl, x, hx, strictlyEqual_of_same hsame hequal⟩

theorem mutationPath_of_checkTest {operation : Document ν} {path code message : String}
    {committed : Document ν} (h : checkTest (some operation) path committed code message = .ok ()) :
    mutationPath operation = none := by
  rw [checkTest, assert_eq_ok] at h
  obtain ⟨v, hv, hop, hpath, -⟩ := h
  obtain rfl : operation = v := Option.some.inj hv
  rw [isText_eq_true] at hop hpath
  simp [mutationPath, hop, hpath]

/-- A committed value that was found once is still found after the rest of the patch. -/
theorem holds_before_and_after {d d' : Document ν} {pointer : String} {tokens : List JsString}
    {committed v : Document ν} (htokens : pointerTokens (keyword pointer) = some tokens)
    (hnamed : Named tokens) (hget : get? d tokens = some v) (hscalar : v.isScalar = true)
    (hcommitted : strictlyEqual v committed = true) {ops : List (Operation ν)}
    (hops : ∀ op ∈ ops, Avoids tokens op) (happly : applyAll ops d = some d') :
    HoldsAt pointer committed d ∧ HoldsAt pointer committed d' := by
  have hafter := get?_applyAll hscalar hnamed hops hget happly
  exact ⟨⟨v, by simp [evaluate, htokens, hget], hcommitted⟩,
    v, by simp [evaluate, htokens, hafter], hcommitted⟩

end Tests

/-! ## The write set -/

theorem textsOf_eq_some {ν : Type} {vs : List (Document ν)} {paths : List JsString} :
    textsOf vs = some paths ↔ vs = paths.map .string := by
  induction vs generalizing paths with
  | nil => simp [textsOf]
  | cons v vs ih =>
      cases v with
      | string s =>
          simp only [textsOf, Option.map_eq_some_iff, ih]
          constructor
          · rintro ⟨rest, rfl, rfl⟩
            rfl
          · intro h
            cases paths with
            | nil => cases h
            | cons path paths =>
                simp only [List.map_cons, List.cons.injEq, Document.string.injEq] at h
                exact ⟨paths, h.2, by rw [h.1]⟩
      | null | boolean _ | number _ | array _ | object _ =>
          cases paths <;> simp [textsOf]

theorem writeSetPaths_eq_some {ν : Type} {writeSet : Document ν} {paths : List JsString}
    (h : writeSetPaths writeSet = some paths) : writeSet = .array (paths.map .string) := by
  cases writeSet with
  | array vs =>
      simp only [writeSetPaths, Option.ite_none_right_eq_some, textsOf_eq_some] at h
      rw [h.2]
  | null | boolean _ | number _ | string _ | object _ => cases h

theorem mem_sortedUnique {paths : List JsString} {path : JsString} :
    path ∈ sortedUnique paths ↔ path ∈ paths := by
  simp [sortedUnique, unique, List.mem_insertionSort]

theorem nodup_sortedUnique (paths : List JsString) : (sortedUnique paths).Nodup := by
  rw [sortedUnique, (List.perm_insertionSort byBytes _).nodup_iff, unique, List.nodup_reverse]
  exact List.nodup_dedup _

theorem pairwise_sortedUnique (paths : List JsString) : (sortedUnique paths).Pairwise byBytes :=
  List.pairwise_insertionSort byBytes _

theorem mutationPath_eq_some {ν : Type} {operation : Document ν} {path : JsString} :
    mutationPath operation = some path ↔ ∃ op, property operation "op" = some (.string op) ∧
      op ≠ keyword "test" ∧ property operation "path" = some (.string path) := by
  unfold mutationPath
  constructor
  · intro h
    split at h
    · next op path' hop hpath =>
        split_ifs at h with htest
        obtain rfl := Option.some.inj h
        exact ⟨op, hop, htest, hpath⟩
    · cases h
  · rintro ⟨op, hop, htest, hpath⟩
    rw [hop, hpath]
    exact if_neg htest

/-! ## Accepted patches -/

section Accepted

variable {ν : Type} [Numbers ν] [NumberText ν] [Setoid ν] [DecidableRel fun a b : ν ↦ a ≈ b]

theorem pointerTokens_uid : pointerTokens (keyword "/metadata/uid") = some uidPath := by decide

theorem pointerTokens_resourceVersion :
    pointerTokens (keyword "/metadata/resourceVersion") = some resourceVersionPath := by decide

theorem named_protected : Named uidPath ∧ Named resourceVersionPath := by
  refine ⟨?_, ?_⟩ <;> simp only [Named, uidPath, resourceVersionPath, List.forall_mem_cons] <;>
    exact ⟨by decide, by decide, by simp⟩

omit [Numbers ν] [NumberText ν] [Setoid ν] [DecidableRel fun a b : ν ↦ a ≈ b] in
theorem mem_of_mapM_readOperation {vs : List (Document ν)} {ops : List (Operation ν)}
    (h : vs.mapM readOperation = some ops) {op : Operation ν} (hop : op ∈ ops) :
    ∃ v ∈ vs, readOperation v = some op := by
  induction vs generalizing ops with
  | nil =>
      obtain rfl : [] = ops := by simpa using h
      cases hop
  | cons v vs ih =>
      simp only [List.mapM_cons, Option.bind_eq_bind, Option.bind_eq_some_iff, Option.pure_def,
        Option.some.injEq] at h
      obtain ⟨o, ho, os, hos, rfl⟩ := h
      rcases List.mem_cons.mp hop with rfl | hmem
      · exact ⟨v, by simp, ho⟩
      · obtain ⟨w, hw, hread⟩ := ih hos hmem
        exact ⟨w, List.mem_cons_of_mem _ hw, hread⟩

/-- The parts of an accepted patch. -/
structure Accepted (platform : Platform) (v : KubernetesPatch ν) (operations : List (Document ν))
    (paths : List JsString) : Prop where
  decoded : decodePatch platform (platform.fromBase64url v.patchUtf8Base64url) =
    .ok (.array operations)
  tests : ∃ uidTest rvTest rest, operations = uidTest :: rvTest :: rest ∧
    (∃ code message, checkTest (some uidTest) "/metadata/uid" v.uid code message = .ok ()) ∧
    (∃ code message, checkTest (some rvTest) "/metadata/resourceVersion" v.resourceVersion code
      message = .ok ()) ∧
    (∀ operation ∈ rest, ∃ op path, Permitted operation op path) ∧
    paths = sortedUnique (rest.filterMap mutationPath)
  writeSet : v.writeSet = .array (paths.map .string)

theorem accepted_of_validatePatch {platform : Platform} {v : KubernetesPatch ν}
    {operations : List (Document ν)} (h : validatePatch platform v = .ok operations) :
    ∃ paths, Accepted platform v operations paths := by
  simp only [validatePatch, bind_eq_ok, assert_eq_ok, exists_const, okOr_eq_ok,
    Except.ok.injEq] at h
  obtain ⟨-, -, decoded, hdecoded, -, operations', hshape, ⟨hmin, -⟩, _, huid, _, hrv, paths,
    hpaths, -, mutations, hmutations, hwrites, rfl⟩ := h
  obtain rfl : decoded = .array operations' := by
    cases decoded with
    | array vs => rw [Option.some.inj hshape]
    | null | boolean _ | number _ | string _ | object _ => cases hshape
  obtain ⟨uidTest, rvTest, rest, rfl⟩ : ∃ u r rest, operations' = u :: r :: rest := by
    rcases operations' with _ | ⟨u, _ | ⟨r, rest⟩⟩
    · simp at hmin
    · simp at hmin
    · exact ⟨u, r, rest, rfl⟩
  obtain ⟨hpermitted, rfl⟩ := checkOperations_eq_ok hmutations
  exact ⟨paths, hdecoded, ⟨uidTest, rvTest, rest, rfl, ⟨_, _, huid⟩, ⟨_, _, hrv⟩, hpermitted,
    hwrites.symm⟩, writeSetPaths_eq_some hpaths⟩

omit [NumberText ν] in
theorem Accepted.holds {platform : Platform} {v : KubernetesPatch ν}
    {operations : List (Document ν)} {paths : List JsString}
    (h : Accepted platform v operations paths) {d d' : Document ν}
    (happly : applyPatch (.array operations) d = some d') :
    (HoldsAt "/metadata/uid" v.uid d ∧ HoldsAt "/metadata/uid" v.uid d') ∧
      (HoldsAt "/metadata/resourceVersion" v.resourceVersion d ∧
        HoldsAt "/metadata/resourceVersion" v.resourceVersion d') := by
  obtain ⟨uidTest, rvTest, rest, rfl, ⟨_, _, huid⟩, ⟨_, _, hrv⟩, hpermitted, -⟩ := h.tests
  simp only [applyPatch, List.mapM_cons, Option.bind_eq_bind, Option.bind_eq_some_iff,
    Option.pure_def, Option.some.injEq] at happly
  obtain ⟨_, ⟨o₁, ho₁, _, ⟨o₂, ho₂, ops, hops, rfl⟩, rfl⟩, happly⟩ := happly
  simp only [applyAll, Option.bind_eq_bind, Option.bind_eq_some_iff] at happly
  obtain ⟨d₁, h₁, d₂, h₂, happly⟩ := happly
  -- The two tests change nothing and find the committed values.
  obtain ⟨rfl, u, hu, hscalar, hequal⟩ := apply_of_checkTest huid pointerTokens_uid ho₁ h₁
  obtain ⟨rfl, r, hr, hscalar', hequal'⟩ :=
    apply_of_checkTest hrv pointerTokens_resourceVersion ho₂ h₂
  have havoids : ∀ op ∈ ops, Avoids uidPath op ∧ Avoids resourceVersionPath op := by
    intro op hop
    obtain ⟨operation, hmem, hread⟩ := mem_of_mapM_readOperation hops hop
    obtain ⟨_, _, hp⟩ := hpermitted operation hmem
    exact hp.avoids hread
  exact ⟨holds_before_and_after pointerTokens_uid named_protected.1 hu hscalar hequal
      (fun op hop ↦ (havoids op hop).1) happly,
    holds_before_and_after pointerTokens_resourceVersion named_protected.2 hr hscalar' hequal'
      (fun op hop ↦ (havoids op hop).2) happly⟩

omit [NumberText ν] in
theorem Accepted.paths_eq {platform : Platform} {v : KubernetesPatch ν}
    {operations : List (Document ν)} {paths : List JsString}
    (h : Accepted platform v operations paths) :
    paths = sortedUnique (operations.filterMap mutationPath) := by
  obtain ⟨uidTest, rvTest, rest, rfl, ⟨_, _, huid⟩, ⟨_, _, hrv⟩, -, rfl⟩ := h.tests
  rw [List.filterMap_cons_none (mutationPath_of_checkTest huid),
    List.filterMap_cons_none (mutationPath_of_checkTest hrv)]

/-- An accepted patch cannot change the identity of an object.  Where its operations succeed on
a document, the committed `uid` and `resourceVersion` stand in that document and in the
result; and the write set is the sorted list of the paths of the operations that are no
tests, without repetition. -/
theorem patch_keeps_identity (platform : Platform) (before after : Except ProfileFailure Unit)
    (v : KubernetesPatch ν) (operations : List (Document ν))
    (h : validateKubernetesPatch platform before after v = .ok operations) :
    decodePatch platform (platform.fromBase64url v.patchUtf8Base64url) = .ok (.array operations) ∧
    (∀ d d' : Document ν, applyPatch (.array operations) d = some d' →
      (HoldsAt "/metadata/uid" v.uid d ∧ HoldsAt "/metadata/uid" v.uid d') ∧
        (HoldsAt "/metadata/resourceVersion" v.resourceVersion d ∧
          HoldsAt "/metadata/resourceVersion" v.resourceVersion d')) ∧
    ∃ paths, v.writeSet = .array (paths.map .string) ∧
      paths = sortedUnique (operations.filterMap mutationPath) ∧
      paths.Nodup ∧ paths.Pairwise byBytes ∧
      ∀ path, path ∈ paths ↔ ∃ operation ∈ operations, ∃ op,
        property operation "op" = some (.string op) ∧ op ≠ keyword "test" ∧
          property operation "path" = some (.string path) := by
  simp only [validateKubernetesPatch, bind_eq_ok, Except.ok.injEq] at h
  obtain ⟨-, -, _, hpatch, -, -, rfl⟩ := h
  obtain ⟨paths, haccepted⟩ := accepted_of_validatePatch hpatch
  refine ⟨haccepted.decoded, fun d d' happly ↦ haccepted.holds happly, paths, haccepted.writeSet,
    haccepted.paths_eq, ?_, ?_, fun path ↦ ?_⟩
  · rw [haccepted.paths_eq]
    exact nodup_sortedUnique _
  · rw [haccepted.paths_eq]
    exact pairwise_sortedUnique _
  · rw [haccepted.paths_eq, mem_sortedUnique, List.mem_filterMap]
    exact exists_congr fun operation ↦ and_congr_right fun _ ↦ mutationPath_eq_some

end Accepted

/-! ### A patch -/

/-- A number as the numeral that denotes it. -/
structure NumeralText where
  text : JsString
deriving DecidableEq

instance : Numbers NumeralText := ⟨NumeralText.mk⟩

instance : NumberText NumeralText := ⟨NumeralText.text⟩

instance : Setoid NumeralText := ⟨Eq, eq_equivalence⟩

instance : DecidableRel fun a b : NumeralText ↦ a ≈ b :=
  fun a b ↦ inferInstanceAs (Decidable (a = b))

/-- The bytes of an ASCII text. -/
def asciiBytes (text : JsString) : List UInt8 := text.map fun u ↦ .ofNat u.toNat

/-- The text of an operation. -/
def operationText (op path value : String) : JsString :=
  ["\x7b\"op\":\"", op, "\",\"path\":\"", path, "\",\"value\":", value, "\x7d"].flatMap keyword

def pausePatch : JsString :=
  unit '[' :: (operationText "test" "/metadata/uid" "\"3f9e5ca0\"" ++ unit ',' ::
    (operationText "test" "/metadata/resourceVersion" "\"41\"" ++ unit ',' ::
      (operationText "replace" "/spec/paused" "true" ++ [unit ']'])))

def pauseBase64url : JsString := [
  "W3sib3AiOiJ0ZXN0IiwicGF0aCI6Ii9tZXRhZG",
  "F0YS91aWQiLCJ2YWx1ZSI6IjNmOWU1Y2EwIn0s",
  "eyJvcCI6InRlc3QiLCJwYXRoIjoiL21ldGFkYX",
  "RhL3Jlc291cmNlVmVyc2lvbiIsInZhbHVlIjoi",
  "NDEifSx7Im9wIjoicmVwbGFjZSIsInBhdGgiOi",
  "Ivc3BlYy9wYXVzZWQiLCJ2YWx1ZSI6dHJ1ZX1d"].flatMap keyword

def pauseSha256 : JsString := [
  "sha256:829c6a76a9d5fb9e68e67d1cf9922831",
  "4c23f29133b657f756db16e5141f070e"].flatMap keyword

/-- The platform, on the bytes of this patch. -/
def pausePlatform : Platform where
  fromBase64url s := if s = pauseBase64url then asciiBytes pausePatch else []
  toBase64url bytes := if bytes = asciiBytes pausePatch then pauseBase64url else []
  sha256 bytes := if bytes = asciiBytes pausePatch then pauseSha256 else []
  decodeUtf8 bytes := if bytes = asciiBytes pausePatch then some pausePatch else none

def operationValue (op path : String) (v : Document NumeralText) : Document NumeralText :=
  .object [(keyword "op", .string (keyword op)), (keyword "path", .string (keyword path)),
    (keyword "value", v)]

def pauseVector : KubernetesPatch NumeralText where
  patchUtf8Base64url := pauseBase64url
  patchSha256 := pauseSha256
  operations := .array [operationValue "test" "/metadata/uid" (.string (keyword "3f9e5ca0")),
    operationValue "test" "/metadata/resourceVersion" (.string (keyword "41")),
    operationValue "replace" "/spec/paused" (.boolean true)]
  uid := .string (keyword "3f9e5ca0")
  resourceVersion := .string (keyword "41")
  writeSet := .array [.string (keyword "/spec/paused")]

def pausedObject : Document NumeralText :=
  .object [(keyword "metadata", .object [(keyword "uid", .string (keyword "3f9e5ca0")),
      (keyword "resourceVersion", .string (keyword "41"))]),
    (keyword "spec", .object [(keyword "paused", .boolean false)])]

theorem exists_of_isOk {ε α : Type} {x : Except ε α} (h : x.isOk = true) : ∃ a, x = .ok a := by
  cases x with
  | ok a => exact ⟨a, rfl⟩
  | error e => cases h

theorem patch_keeps_identity_pause :
    ∃ operations,
      validateKubernetesPatch pausePlatform (.ok ()) (.ok ()) pauseVector = .ok operations ∧
      (∀ d d' : Document NumeralText, applyPatch (.array operations) d = some d' →
        HoldsAt "/metadata/uid" (.string (keyword "3f9e5ca0")) d' ∧
          HoldsAt "/metadata/resourceVersion" (.string (keyword "41")) d') := by
  obtain ⟨operations, h⟩ := exists_of_isOk (x := validateKubernetesPatch pausePlatform (.ok ())
    (.ok ()) pauseVector) (by decide +kernel)
  obtain ⟨-, hholds, -⟩ := patch_keeps_identity pausePlatform (.ok ()) (.ok ()) pauseVector
    operations h
  exact ⟨operations, h, fun d d' happly ↦
    ⟨(hholds d d' happly).1.2, (hholds d d' happly).2.2⟩⟩

/-- The patch succeeds on an object of that identity. -/
example : (((validateKubernetesPatch pausePlatform (.ok ()) (.ok ()) pauseVector).toOption.bind
    fun operations ↦ applyPatch (.array operations) pausedObject)).isSome = true := by
  decide +kernel

end Etp.Profiles
