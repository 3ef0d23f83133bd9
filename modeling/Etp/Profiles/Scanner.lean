import Etp.Lib.Json.Reader
import Etp.Lib.Result

/-!
# Parsing without duplicate keys

`parseJsonWithoutDuplicateKeys` lets `JSON.parse` read its source and then walks over the
same text once more, for the names of the members, the depth and the number of values.
The walk does not check the text: it takes a string to end at the first quotation mark
that no reverse solidus precedes, and any other token at the next delimiter.

`source[index]` is the head of the part of the source that is left.  The recursion runs on
a fuel argument; that it runs out is an error of its own, which never comes out.

On a text of the grammar the walk stays aligned with the syntax tree (`scanValue_spells`),
and what it then decides is whether the tree is within the limits and names no member
twice.
-/

namespace Etp.Profiles

open JsString Document

/-! ## Errors -/

/-- What `parseJsonWithoutDuplicateKeys` may throw. -/
inductive ProfileFailure where
  | outOfFuel
  | syntaxError
  | profile (code : String) (message : JsString)
deriving DecidableEq, Repr

/-- `assert(condition, code, message)` -/
def assert (condition : Prop) [Decidable condition] (code : String) (message : JsString) :
    Except ProfileFailure Unit := rejectIf (¬condition) (.profile code message)

/-! ## The parser -/

/-- The numbers that `JSON.parse` makes of numerals. -/
class Numbers (ν : Type) where
  ofNumeral : JsString → ν

/-- `JSON.parse` -/
def jsonParse {ν : Type} [Numbers ν] (source : JsString) : Option (Document ν) :=
  (parseText source).map (value Numbers.ofNumeral)

/-- The variables `index` and `nodes`. -/
structure Scan where
  rest : JsString
  nodes : Nat
deriving DecidableEq, Repr

/-- The loop of `stringToken`: what follows the closing quotation mark. -/
def stringEnd : JsString → Option JsString
  | [] => none
  | [u] => if u = unit '"' then some [] else none
  | u :: v :: rest =>
      if u = unit '\\' then stringEnd rest
      else if u = unit '"' then some (v :: rest)
      else stringEnd (v :: rest)

/-- `stringToken`.  The slice begins with a quotation mark, so that a value of it is a string. -/
def stringToken (source : JsString) : Except ProfileFailure (JsString × JsString) := do
  assert (source.head? = some (unit '"')) "PROFILE_JSON" (keyword "expected a JSON string")
  let rest ← okOr (stringEnd source.tail)
    (.profile "PROFILE_JSON" (keyword "unterminated JSON string"))
  match parseText (source.take (source.length - rest.length)) with
  | some (.string key) => .ok (key, rest)
  | _ => .error .syntaxError

mutual

/-- `value` -/
def scanValue : Nat → Nat → Scan → Except ProfileFailure Scan
  | 0, _, _ => .error .outOfFuel
  | fuel + 1, depth, c => do
      let nodes := c.nodes + 1
      assert (depth ≤ 64 ∧ nodes ≤ 100000) "PROFILE_JSON_LIMIT"
        (keyword "JSON structure exceeds profile limits")
      let rest := skipWs c.rest
      if rest.head? = some (unit '\x7b') then
        let rest := skipWs rest.tail
        if rest.head? = some (unit '\x7d') then .ok ⟨rest.tail, nodes⟩
        else scanMembers fuel depth [] ⟨rest, nodes⟩
      else if rest.head? = some (unit '[') then
        let rest := skipWs rest.tail
        if rest.head? = some (unit ']') then .ok ⟨rest.tail, nodes⟩
        else scanElements fuel depth ⟨rest, nodes⟩
      else if rest.head? = some (unit '"') then do
        let (_, rest) ← stringToken rest
        .ok ⟨rest, nodes⟩
      else .ok ⟨rest.dropWhile fun u ↦ !isDelimiter u, nodes⟩

/-- The loop of `object`. -/
def scanMembers : Nat → Nat → List JsString → Scan → Except ProfileFailure Scan
  | 0, _, _, _ => .error .outOfFuel
  | fuel + 1, depth, keys, c => do
      let (key, rest) ← stringToken c.rest
      assert (key ∉ keys) "PROFILE_DUPLICATE_KEY" (keyword "duplicate JSON key: " ++ key)
      let rest := skipWs rest
      assert (rest.head? = some (unit ':')) "PROFILE_JSON" (keyword "expected ':' after JSON key")
      let c ← scanValue fuel (depth + 1) ⟨rest.tail, c.nodes⟩
      let rest := skipWs c.rest
      if rest.head? = some (unit '\x7d') then .ok ⟨rest.tail, c.nodes⟩
      else do
        assert (rest.head? = some (unit ',')) "PROFILE_JSON"
          (keyword "expected ',' between object members")
        scanMembers fuel depth (key :: keys) ⟨skipWs rest.tail, c.nodes⟩

/-- The loop of `array`. -/
def scanElements : Nat → Nat → Scan → Except ProfileFailure Scan
  | 0, _, _ => .error .outOfFuel
  | fuel + 1, depth, c => do
      let c ← scanValue fuel (depth + 1) c
      let rest := skipWs c.rest
      if rest.head? = some (unit ']') then .ok ⟨rest.tail, c.nodes⟩
      else do
        assert (rest.head? = some (unit ',')) "PROFILE_JSON"
          (keyword "expected ',' between array elements")
        scanElements fuel depth ⟨rest.tail, c.nodes⟩

end

def parseJsonWithoutDuplicateKeys {ν : Type} [Numbers ν] (source : JsString) :
    Except ProfileFailure (Document ν) := do
  let parsed ← okOr (jsonParse source) .syntaxError
  let c ← scanValue (source.length + 1) 1 ⟨skipWs source, 0⟩
  assert (skipWs c.rest = []) "PROFILE_JSON" (keyword "unexpected trailing JSON input")
  .ok parsed

/-! ## Decisions -/

/-- The codes with which the walk turns a text of the grammar down. -/
def refusals : List String := ["PROFILE_DUPLICATE_KEY", "PROFILE_JSON_LIMIT"]

/-- The computation returns `a` if `good` holds, and refuses the text otherwise. -/
def Decides {α : Type} (good : Prop) (a : α) (result : Except ProfileFailure α) : Prop :=
  good ∧ result = .ok a ∨
    ¬good ∧ ∃ code ∈ refusals, ∃ message, result = .error (.profile code message)

section Decides

variable {α β : Type} {good good' : Prop} {a : α} {b : β}

theorem Decides.ok : Decides True a (.ok a) := .inl ⟨trivial, rfl⟩

theorem Decides.assert [Decidable good] {code : String} (hcode : code ∈ refusals)
    (message : JsString) : Decides good () (assert good code message) := by
  by_cases h : good
  · exact .inl ⟨h, rejectIf_false (not_not.mpr h)⟩
  · exact .inr ⟨h, code, hcode, message, rejectIf_true h⟩

theorem Decides.bind {x : Except ProfileFailure α} {f : α → Except ProfileFailure β}
    (hx : Decides good a x) (hf : good → Decides good' b (f a)) :
    Decides (good ∧ good') b (x >>= f) := by
  rcases hx with ⟨hgood, rfl⟩ | ⟨hbad, code, hcode, message, rfl⟩
  · rcases hf hgood with ⟨hgood', hok⟩ | ⟨hbad', code, hcode, message, herror⟩
    · exact .inl ⟨⟨hgood, hgood'⟩, hok⟩
    · exact .inr ⟨fun h ↦ hbad' h.2, code, hcode, message, herror⟩
  · exact .inr ⟨fun h ↦ hbad h.1, code, hcode, message, rfl⟩

theorem Decides.congr {x : Except ProfileFailure α} (hx : Decides good a x) (h : good ↔ good') :
    Decides good' a x := by
  rwa [← propext h]

end Decides

@[simp] theorem assert_of {condition : Prop} [Decidable condition] (h : condition) (code : String)
    (message : JsString) : assert condition code message = .ok () := rejectIf_false (not_not.mpr h)

/-! ## Strings -/

theorem stringEnd_cons {u : UInt16} (hsolidus : u ≠ unit '\\') (hquote : u ≠ unit '"')
    (us : JsString) : stringEnd (u :: us) = stringEnd us := by
  cases us with
  | nil => simp [stringEnd, hquote]
  | cons v us => rw [stringEnd, if_neg hsolidus, if_neg hquote]

theorem stringEnd_escape (u : UInt16) (us : JsString) :
    stringEnd (unit '\\' :: u :: us) = stringEnd us := by
  rw [stringEnd, if_pos rfl]

theorem hexDigit_ne {u : UInt16} {n : Nat} (h : hexDigit u = some n) :
    u ≠ unit '\\' ∧ u ≠ unit '"' := by
  constructor
  · rintro rfl
    cases h
  · rintro rfl
    cases h

theorem stringEnd_unit {u : UInt16} {sp : JsString} (h : UnitSpelling u sp) (us : JsString) :
    stringEnd (sp ++ us) = stringEnd us := by
  cases h with
  | raw _ hquote hsolidus => exact stringEnd_cons hsolidus hquote us
  | short _ => exact stringEnd_escape _ us
  | unicode ha hb hc hd =>
      simp only [List.cons_append, List.nil_append]
      rw [stringEnd_escape, stringEnd_cons (hexDigit_ne ha).1 (hexDigit_ne ha).2,
        stringEnd_cons (hexDigit_ne hb).1 (hexDigit_ne hb).2,
        stringEnd_cons (hexDigit_ne hc).1 (hexDigit_ne hc).2,
        stringEnd_cons (hexDigit_ne hd).1 (hexDigit_ne hd).2]

theorem stringEnd_units {s us : JsString} (h : UnitsSpelling s us) (rest : JsString) :
    stringEnd (us ++ unit '"' :: rest) = some rest := by
  induction h with
  | nil => cases rest <;> rfl
  | cons hu _ ih => rw [List.append_assoc, stringEnd_unit hu, ih]

/-- A string literal is one token of the walk, and its name is what it spells. -/
theorem stringToken_append {s lit : JsString} (h : StringLiteral s lit) (rest : JsString) :
    stringToken (lit ++ rest) = .ok (s, rest) := by
  have hparse : parseText lit = some (.string s) :=
    parseText_eq_some.mpr ⟨[], lit, [], ws_nil, ws_nil, .string h, by simp⟩
  have hslice : (lit ++ rest).take ((lit ++ rest).length - rest.length) = lit := by
    rw [List.length_append, Nat.add_sub_cancel]
    exact List.take_left' rfl
  obtain ⟨us, hus, hend⟩ : ∃ us, lit = unit '"' :: us ∧ stringEnd (us ++ rest) = some rest := by
    cases h with
    | quoted h =>
        refine ⟨_, rfl, ?_⟩
        rw [List.append_assoc, List.singleton_append, stringEnd_units h]
  have hhead : (lit ++ rest).head? = some (unit '"') := by rw [hus]; rfl
  have htail : (lit ++ rest).tail = us ++ rest := by rw [hus]; rfl
  rw [stringToken, assert_of hhead, ok_bind, htail, hend, okOr_some, ok_bind, hslice, hparse]

/-! ## The walk -/

/-- The tree may stand at that depth after that many values. -/
def Admits (depth nodes : Nat) (t : Tree) : Prop :=
  t.Distinct ∧ depth + t.height ≤ 65 ∧ nodes + t.nodes ≤ 100000

def AdmitsValues (depth nodes : Nat) (vs : List Tree) : Prop :=
  DistinctValues vs ∧ depth + heightValues vs ≤ 65 ∧ nodes + nodesValues vs ≤ 100000

/-- The members may follow members of those names. -/
def AdmitsMembers (keys : List JsString) (depth nodes : Nat) (ms : List (JsString × Tree)) : Prop :=
  ((ms.map Prod.fst).Nodup ∧ ∀ k ∈ ms.map Prod.fst, k ∉ keys) ∧ DistinctMembers ms ∧
    depth + heightMembers ms ≤ 65 ∧ nodes + nodesMembers ms ≤ 100000

section Admits

variable {depth nodes : Nat} {keys : List JsString} {k : JsString} {t : Tree} {vs : List Tree}
  {ms : List (JsString × Tree)}

theorem admits_leaf (hdistinct : t.Distinct) (hheight : t.height = 1) (hnodes : t.nodes = 1) :
    (depth ≤ 64 ∧ nodes + 1 ≤ 100000) ∧ True ↔ Admits depth nodes t := by
  rw [Admits, hheight, hnodes]
  constructor
  · rintro ⟨⟨hdepth, hcount⟩, -⟩
    exact ⟨hdistinct, by omega, hcount⟩
  · rintro ⟨-, hdepth, hcount⟩
    exact ⟨⟨by omega, hcount⟩, trivial⟩

theorem admits_array (hne : vs ≠ []) :
    (depth ≤ 64 ∧ nodes + 1 ≤ 100000) ∧ AdmitsValues (depth + 1) (nodes + 1) vs ↔
      Admits depth nodes (array vs) := by
  have hheight : 0 < heightValues vs := by
    obtain ⟨v, vs, rfl⟩ := List.exists_cons_of_ne_nil hne
    exact lt_max_of_lt_left (height_pos v)
  simp only [Admits, AdmitsValues, Distinct, Document.height, Document.nodes]
  constructor
  · rintro ⟨-, hdistinct, hdepth, hcount⟩
    exact ⟨hdistinct, by omega, by omega⟩
  · rintro ⟨hdistinct, hdepth, hcount⟩
    exact ⟨⟨by omega, by omega⟩, hdistinct, by omega, by omega⟩

theorem admits_object (hne : ms ≠ []) :
    (depth ≤ 64 ∧ nodes + 1 ≤ 100000) ∧ AdmitsMembers [] (depth + 1) (nodes + 1) ms ↔
      Admits depth nodes (object ms) := by
  have hheight : 0 < heightMembers ms := by
    obtain ⟨⟨k, v⟩, ms, rfl⟩ := List.exists_cons_of_ne_nil hne
    exact lt_max_of_lt_left (height_pos v)
  simp only [Admits, AdmitsMembers, Distinct, Document.height, Document.nodes]
  constructor
  · rintro ⟨-, ⟨hnodup, -⟩, hdistinct, hdepth, hcount⟩
    exact ⟨⟨hnodup, hdistinct⟩, by omega, by omega⟩
  · rintro ⟨⟨hnodup, hdistinct⟩, hdepth, hcount⟩
    exact ⟨⟨by omega, by omega⟩, ⟨hnodup, by simp⟩, hdistinct, by omega, by omega⟩

theorem admitsValues_singleton : Admits depth nodes t ∧ True ↔ AdmitsValues depth nodes [t] := by
  simp [Admits, AdmitsValues, DistinctValues, heightValues, nodesValues]

theorem admitsValues_cons : Admits depth nodes t ∧ AdmitsValues depth (nodes + t.nodes) vs ↔
    AdmitsValues depth nodes (t :: vs) := by
  simp only [Admits, AdmitsValues, DistinctValues, heightValues, nodesValues]
  constructor
  · rintro ⟨⟨hd, hh, hn⟩, hds, hhs, hns⟩
    exact ⟨⟨hd, hds⟩, by omega, by omega⟩
  · rintro ⟨⟨hd, hds⟩, hh, hn⟩
    exact ⟨⟨hd, by omega, by omega⟩, hds, by omega, by omega⟩

theorem admitsMembers_singleton :
    k ∉ keys ∧ Admits depth nodes t ∧ True ↔ AdmitsMembers keys depth nodes [(k, t)] := by
  simp [Admits, AdmitsMembers, DistinctMembers, heightMembers, nodesMembers]

theorem admitsMembers_cons :
    k ∉ keys ∧ Admits depth nodes t ∧ AdmitsMembers (k :: keys) depth (nodes + t.nodes) ms ↔
      AdmitsMembers keys depth nodes ((k, t) :: ms) := by
  simp only [Admits, AdmitsMembers, DistinctMembers, heightMembers, nodesMembers, List.map_cons,
    List.nodup_cons, List.forall_mem_cons]
  constructor
  · rintro ⟨hk, ⟨hd, hh, hn⟩, ⟨hnodup, hkeys⟩, hds, hhs, hns⟩
    refine ⟨⟨⟨fun hmem ↦ hkeys k hmem (by simp), hnodup⟩, hk, fun k' hk' hmem ↦ ?_⟩, ⟨hd, hds⟩,
      by omega, by omega⟩
    exact hkeys k' hk' (List.mem_cons_of_mem _ hmem)
  · rintro ⟨⟨⟨hmem, hnodup⟩, hk, hkeys⟩, ⟨hd, hds⟩, hh, hn⟩
    refine ⟨hk, ⟨hd, by omega, by omega⟩, ⟨hnodup, fun k' hk' hmem' ↦ ?_⟩, hds, by omega, by omega⟩
    rcases List.mem_cons.mp hmem' with rfl | hmem'
    · exact hmem hk'
    · exact hkeys k' hk' hmem'

end Admits

theorem scanValue_bare {fuel depth nodes : Nat} {t : Tree} {w us rest : JsString} (hw : Ws w)
    (hus : Spells t us) (hbare : Bare us) (hrest : Ends rest) :
    Decides ((depth ≤ 64 ∧ nodes + 1 ≤ 100000) ∧ True) ⟨rest, nodes + 1⟩
      (scanValue (fuel + 1) depth ⟨w ++ (us ++ rest), nodes⟩) := by
  have hplain : ∀ u ∈ us, (!isDelimiter u) = true := fun u hu ↦ by
    rw [isDelimiter_of_isPlain (hbare.plain u hu)]
    rfl
  have hdrop := dropWhile_append_stops hplain hrest
  obtain ⟨v, us', rfl⟩ := List.exists_cons_of_ne_nil hbare.ne_nil
  have hv := hbare.plain v (by simp)
  simp only [isPlain, Bool.and_eq_true, bne_iff_ne] at hv
  have hhead : ∀ u : UInt16, v ≠ u → ((v :: us') ++ rest).head? ≠ some u :=
    fun u hu h ↦ hu (Option.some.inj h)
  rw [scanValue, skipWs_append hw (hus.stops rest), if_neg (hhead _ hv.2),
    if_neg (hhead _ hv.1.2), if_neg (hhead _ hv.1.1.2), hdrop]
  exact (Decides.assert (by decide) _).bind fun _ ↦ Decides.ok

theorem nodes_array (nodes : Nat) (vs : List Tree) :
    nodes + (array vs).nodes = nodes + 1 + nodesValues vs := by
  rw [Document.nodes]
  omega

theorem nodes_object (nodes : Nat) (ms : List (JsString × Tree)) :
    nodes + (object ms).nodes = nodes + 1 + nodesMembers ms := by
  rw [Document.nodes]
  omega

mutual

/-- Where a value is spelled, the walk leaves what follows it and decides whether it is
admitted. -/
theorem scanValue_spells : ∀ {t : Tree} {us : JsString}, Spells t us → ∀ {w rest : JsString},
    Ws w → Ends rest → ∀ {fuel : Nat}, us.length < fuel → ∀ depth nodes : Nat,
    Decides (Admits depth nodes t) ⟨rest, nodes + t.nodes⟩
      (scanValue fuel depth ⟨w ++ (us ++ rest), nodes⟩)
  | _, _, _, _, _, _, _, 0, hfuel, _, _ => absurd hfuel (Nat.not_lt_zero _)
  | _, _, .null, _, _, hw, hrest, fuel + 1, _, _, _ =>
      (scanValue_bare hw .null bare_null hrest).congr (admits_leaf trivial rfl rfl)
  | _, _, .boolean b, _, _, hw, hrest, fuel + 1, _, _, _ =>
      (scanValue_bare hw (.boolean b) (bare_boolean b) hrest).congr (admits_leaf trivial rfl rfl)
  | _, _, .number h, _, _, hw, hrest, fuel + 1, _, _, _ =>
      (scanValue_bare hw (.number h) h.bare hrest).congr (admits_leaf trivial rfl rfl)
  | _, _, @Spells.string _ lit h, w, rest, hw, _, fuel + 1, _, depth, nodes => by
      have hhead : (lit ++ rest).head? = some (unit '"') := by
        cases h
        rfl
      rw [scanValue, skipWs_append hw ((Spells.string h).stops rest)]
      dsimp only
      rw [hhead, if_neg (by decide), if_neg (by decide), if_pos rfl, stringToken_append h rest]
      refine Decides.congr ?_ (admits_leaf trivial rfl rfl)
      exact (Decides.assert (by decide) _).bind fun _ ↦ Decides.ok
  | _, _, @Spells.arrayEmpty w' hw', w, rest, hw, _, fuel + 1, _, depth, nodes => by
      have hskip : skipWs ((w' ++ [unit ']']) ++ rest) = unit ']' :: rest := by
        rw [List.append_assoc, List.singleton_append, skipWs_append hw' (stops_ws_cons rfl _)]
      rw [scanValue, skipWs_append hw ((Spells.arrayEmpty hw').stops rest)]
      dsimp only
      rw [List.cons_append, List.head?_cons, if_neg (by decide), if_pos rfl, List.tail_cons, hskip,
        List.head?_cons, if_pos rfl, List.tail_cons]
      refine Decides.congr ?_ (admits_leaf trivial rfl rfl)
      exact (Decides.assert (by decide) _).bind fun _ ↦ Decides.ok
  | _, _, @Spells.array vs w' us hw' h, w, rest, hw, _, fuel + 1, hfuel, depth, nodes => by
      simp only [List.length_cons, List.length_append] at hfuel
      have hvalues := @scanElements_spells _ _ h _ rest ws_nil fuel (by omega) depth (nodes + 1)
      have hskip : skipWs ((w' ++ us) ++ rest) = us ++ rest := by
        rw [List.append_assoc, skipWs_append hw' (h.stops rest)]
      rw [scanValue, skipWs_append hw ((Spells.array hw' h).stops rest)]
      dsimp only
      rw [List.cons_append, List.head?_cons, if_neg (by decide), if_pos rfl, List.tail_cons, hskip,
        if_neg (head?_ne h.starts rfl rest)]
      rw [nodes_array]
      exact ((Decides.assert (by decide) _).bind fun _ ↦ hvalues).congr (admits_array h.ne_nil)
  | _, _, @Spells.objectEmpty w' hw', w, rest, hw, _, fuel + 1, _, depth, nodes => by
      have hskip : skipWs ((w' ++ [unit '\x7d']) ++ rest) = unit '\x7d' :: rest := by
        rw [List.append_assoc, List.singleton_append, skipWs_append hw' (stops_ws_cons rfl _)]
      rw [scanValue, skipWs_append hw ((Spells.objectEmpty hw').stops rest)]
      dsimp only
      rw [List.cons_append, List.head?_cons, if_pos rfl, List.tail_cons, hskip,
        List.head?_cons, if_pos rfl, List.tail_cons]
      refine Decides.congr ?_ (admits_leaf ⟨List.nodup_nil, trivial⟩ rfl rfl)
      exact (Decides.assert (by decide) _).bind fun _ ↦ Decides.ok
  | _, _, @Spells.object ms w' us hw' h, w, rest, hw, _, fuel + 1, hfuel, depth, nodes => by
      simp only [List.length_cons, List.length_append] at hfuel
      have hmembers := @scanMembers_spells _ _ h rest fuel (by omega) [] depth (nodes + 1)
      have hskip : skipWs ((w' ++ us) ++ rest) = us ++ rest := by
        rw [List.append_assoc, skipWs_append hw' (h.stops rest)]
      have hstarts : ∃ v rest, us = v :: rest ∧ isDelimiter v = false :=
        h.starts.elim fun rest h ↦ ⟨_, rest, h, rfl⟩
      rw [scanValue, skipWs_append hw ((Spells.object hw' h).stops rest)]
      dsimp only
      rw [List.cons_append, List.head?_cons, if_pos rfl, List.tail_cons, hskip,
        if_neg (head?_ne hstarts rfl rest)]
      rw [nodes_object]
      exact ((Decides.assert (by decide) _).bind fun _ ↦ hmembers).congr (admits_object h.ne_nil)

/-- The loop over the elements of an array. -/
theorem scanElements_spells : ∀ {vs : List Tree} {us : JsString}, SpellsValues vs us →
    ∀ {w rest : JsString}, Ws w → ∀ {fuel : Nat}, us.length < fuel → ∀ depth nodes : Nat,
    Decides (AdmitsValues (depth + 1) nodes vs) ⟨rest, nodes + nodesValues vs⟩
      (scanElements fuel depth ⟨w ++ (us ++ rest), nodes⟩)
  | _, _, _, _, _, _, 0, hfuel, _, _ => absurd hfuel (Nat.not_lt_zero _)
  | _, _, @SpellsValues.last v u w' h hw', w, rest, hw, fuel + 1, hfuel, depth, nodes => by
      simp only [List.length_append, List.length_singleton] at hfuel
      have hvalue := scanValue_spells h hw (ends_ws hw' (u := unit ']') rfl rest)
        (show _ < fuel by omega) (depth + 1) nodes
      simp only [List.append_assoc, List.singleton_append]
      rw [scanElements]
      refine (hvalue.bind fun _ ↦ ?_).congr admitsValues_singleton
      rw [skipWs_append hw' (stops_ws_cons rfl _)]
      exact Decides.ok
  | _, _, @SpellsValues.cons v vs u w₁ w₂ us h hw₁ hw₂ hs, w, rest, hw, fuel + 1, hfuel, depth,
      nodes => by
      simp only [List.length_append, List.length_cons] at hfuel
      have hvalue := scanValue_spells h hw (ends_ws hw₁ (u := unit ',') rfl (w₂ ++ (us ++ rest)))
        (show _ < fuel by omega) (depth + 1) nodes
      have hvalues := @scanElements_spells _ _ hs _ rest hw₂ fuel (by omega) depth (nodes + v.nodes)
      rw [Nat.add_assoc] at hvalues
      simp only [List.append_assoc, List.cons_append]
      rw [scanElements]
      refine (hvalue.bind fun _ ↦ ?_).congr admitsValues_cons
      rw [skipWs_append hw₁ (stops_ws_cons rfl _)]
      dsimp only
      rw [List.head?_cons, if_neg (by decide), assert_of rfl, ok_bind]
      exact hvalues

/-- The loop over the members of an object. -/
theorem scanMembers_spells : ∀ {ms : List (JsString × Tree)} {us : JsString},
    SpellsMembers ms us → ∀ {rest : JsString} {fuel : Nat}, us.length < fuel →
    ∀ (keys : List JsString) (depth nodes : Nat),
    Decides (AdmitsMembers keys (depth + 1) nodes ms) ⟨rest, nodes + nodesMembers ms⟩
      (scanMembers fuel depth keys ⟨us ++ rest, nodes⟩)
  | _, _, _, _, 0, hfuel, _, _, _ => absurd hfuel (Nat.not_lt_zero _)
  | _, _, @SpellsMembers.last k v lit w w' u w'' hk hw hw' h hw'', rest, fuel + 1, hfuel, keys,
      depth, nodes => by
      simp only [List.length_append, List.length_cons] at hfuel
      have hvalue := scanValue_spells h hw' (ends_ws hw'' (u := unit '\x7d') rfl rest)
        (show _ < fuel by omega) (depth + 1) nodes
      simp only [List.append_assoc, List.cons_append, List.nil_append]
      rw [scanMembers, stringToken_append hk, ok_bind]
      refine ((Decides.assert (by decide) _).bind fun _ ↦ ?_).congr admitsMembers_singleton
      rw [skipWs_append hw (stops_ws_cons rfl _)]
      dsimp only
      rw [List.head?_cons, assert_of rfl, ok_bind]
      refine hvalue.bind fun _ ↦ ?_
      rw [skipWs_append hw'' (stops_ws_cons rfl _)]
      exact Decides.ok
  | _, _, @SpellsMembers.cons k v ms lit w w' u w'' w₃ us hk hw hw' h hw'' hw₃ hs, rest, fuel + 1,
      hfuel, keys, depth, nodes => by
      simp only [List.length_append, List.length_cons] at hfuel
      have hvalue := scanValue_spells h hw' (ends_ws hw'' (u := unit ',') rfl (w₃ ++ (us ++ rest)))
        (show _ < fuel by omega) (depth + 1) nodes
      have hmembers := @scanMembers_spells _ _ hs rest fuel (by omega) (k :: keys) depth
        (nodes + v.nodes)
      rw [Nat.add_assoc] at hmembers
      simp only [List.append_assoc, List.cons_append]
      rw [scanMembers, stringToken_append hk, ok_bind]
      refine ((Decides.assert (by decide) _).bind fun _ ↦ ?_).congr admitsMembers_cons
      rw [skipWs_append hw (stops_ws_cons rfl _)]
      dsimp only
      rw [List.head?_cons, assert_of rfl, ok_bind]
      refine hvalue.bind fun _ ↦ ?_
      rw [skipWs_append hw'' (stops_ws_cons rfl _)]
      dsimp only
      rw [List.head?_cons, if_neg (by decide), assert_of rfl, ok_bind, List.tail_cons,
        skipWs_append hw₃ (hs.stops rest)]
      exact hmembers

end

/-! ## Whole texts -/

/-- The limits of the profiles. -/
def WithinLimits (t : Tree) : Prop := t.height ≤ 64 ∧ t.nodes ≤ 100000

section Texts

variable {ν : Type} [Numbers ν] {s : JsString} {t : Tree}

/-- `JSON.parse` reads the texts of the grammar. -/
theorem jsonParse_eq_some {v : Document ν} :
    jsonParse s = some v ↔ ∃ t, Text t s ∧ t.value Numbers.ofNumeral = v := by
  rw [jsonParse, Option.map_eq_some_iff]
  exact exists_congr fun t ↦ and_congr_left fun _ ↦ parseText_eq_some

theorem jsonParse_of_text (h : Text t s) :
    jsonParse s = some (t.value Numbers.ofNumeral : Document ν) := jsonParse_eq_some.mpr ⟨t, h, rfl⟩

theorem admits_root : Admits 1 0 t ∧ True ↔ t.Distinct ∧ WithinLimits t := by
  unfold Admits WithinLimits
  constructor
  · rintro ⟨⟨hdistinct, hheight, hnodes⟩, -⟩
    exact ⟨hdistinct, by omega, by omega⟩
  · rintro ⟨hdistinct, hheight, hnodes⟩
    exact ⟨⟨hdistinct, by omega, by omega⟩, trivial⟩

theorem decides_text (h : Text t s) :
    Decides (t.Distinct ∧ WithinLimits t) (t.value Numbers.ofNumeral : Document ν)
      (parseJsonWithoutDuplicateKeys s) := by
  have hparse := jsonParse_of_text (ν := ν) h
  obtain ⟨w, u, w', hw, hw', hu, rfl⟩ := h
  have hfuel : u.length < (w ++ (u ++ w')).length + 1 := by
    simp only [List.length_append]
    omega
  have hwalk := scanValue_spells hu ws_nil (ends_of_ws hw') hfuel 1 0
  rw [parseJsonWithoutDuplicateKeys, hparse, okOr_some, ok_bind, skipWs_append hw (hu.stops w')]
  refine Decides.congr (hwalk.bind fun _ ↦ ?_) admits_root
  rw [assert_of (skipWs_of_ws hw'), ok_bind]
  exact Decides.ok

/-- A source is parsed exactly if it is a JSON text that names no member of an object twice,
at most 64 levels deep and of at most 100,000 values.  The walk never fails in any other
way: it stays aligned with every text that `JSON.parse` accepts. -/
theorem duplicateScan_exact (s : JsString) :
    (∀ v : Document ν, jsonParse s = some v ↔ ∃ t, Text t s ∧ t.value Numbers.ofNumeral = v) ∧
    (∀ v : Document ν, parseJsonWithoutDuplicateKeys s = .ok v ↔
      jsonParse s = some v ∧ ∀ t, Text t s → t.Distinct ∧ t.height ≤ 64 ∧ t.nodes ≤ 100000) ∧
    (parseJsonWithoutDuplicateKeys s : Except ProfileFailure (Document ν)) ≠ .error .outOfFuel ∧
    ((parseJsonWithoutDuplicateKeys s : Except ProfileFailure (Document ν)) = .error .syntaxError ↔
      (jsonParse s : Option (Document ν)) = none) ∧
    ∀ message, (parseJsonWithoutDuplicateKeys s : Except ProfileFailure (Document ν)) ≠
      .error (.profile "PROFILE_JSON" message) := by
  refine ⟨fun v ↦ jsonParse_eq_some, ?_⟩
  cases hparse : (jsonParse s : Option (Document ν)) with
  | none =>
      have hfail : (parseJsonWithoutDuplicateKeys s : Except ProfileFailure (Document ν)) =
          .error .syntaxError := by
        rw [parseJsonWithoutDuplicateKeys, hparse]
        rfl
      simp [hfail]
  | some v₀ =>
      obtain ⟨t, ht, rfl⟩ := jsonParse_eq_some.mp hparse
      have hall : (∀ t', Text t' s → t'.Distinct ∧ t'.height ≤ 64 ∧ t'.nodes ≤ 100000) ↔
          t.Distinct ∧ WithinLimits t := by
        constructor
        · intro h
          exact h t ht
        · intro h t' ht'
          rwa [ht'.unique ht]
      simp only [hall]
      rcases decides_text (ν := ν) ht with ⟨hgood, hok⟩ | ⟨hbad, code, hcode, message, herror⟩
      · simp [hok, hgood]
      · have hne : code ≠ "PROFILE_JSON" := by
          rintro rfl
          exact absurd hcode (by decide)
        simp [herror, hbad, hne]

end Texts

end Etp.Profiles
