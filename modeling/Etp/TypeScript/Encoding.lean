import Etp.TypeScript.Canonical

/-!
# What the TypeScript encoder writes

`canonicalJson_ofJson` describes the encoder on the JavaScript value of a JSON value:
it succeeds when the value fits the budget and its integers are safe, and then
writes the minimal text of the sorted value.  `canonicalJson_agrees` compares it
with the Rust encoder.
-/

namespace Etp.TypeScript

open JsString

/-! ## Strings -/

theorem utf16_ascii {c : Char} (h : c.toNat < 0x80) (cs : List Char) :
    utf16 (c :: cs) = unit c :: utf16 cs := utf16_cons_of_lt (by omega) cs

theorem assertScalarString_encode_append (context : String) (c : Char) (rest : JsString) :
    assertScalarString context (encode c ++ rest) = assertScalarString context rest := by
  have hc := not_surrogate c
  by_cases h : c.toNat < 0x10000
  · have hhigh : isHigh (unit c) = false := by
      simp only [isHigh, toNat_unit h, decide_eq_false_iff_not]
      omega
    have hlow : isLow (unit c) = false := by
      simp only [isLow, toNat_unit h, decide_eq_false_iff_not]
      omega
    rw [encode_of_lt h]
    cases rest <;> simp [assertScalarString, hhigh, hlow]
  · have hhigh : isHigh (.ofNat (0xd800 + (c.toNat - 0x10000) / 0x400)) = true := by
      rw [isHigh, toNat_ofNat (by omega), decide_eq_true_eq]
      omega
    have hlow : isLow (.ofNat (0xdc00 + (c.toNat - 0x10000) % 0x400)) = true := by
      rw [isLow, toNat_ofNat (by omega), decide_eq_true_eq]
      omega
    rw [encode, fromCodePoint, if_neg h, List.cons_append, List.singleton_append,
      assertScalarString, if_pos hhigh, if_pos hlow]

/-- The strings that pass `assertScalarString` are the Unicode texts. -/
theorem assertScalarString_eq_ok {context : String} {s : JsString} :
    assertScalarString context s = .ok () ↔ WellFormed s := by
  constructor
  · intro h
    fun_induction assertScalarString context s with
    | case1 => exact ⟨[], rfl⟩
    | case2 u hu => cases h
    | case3 u hu hl => cases h
    | case4 u hu hl =>
        obtain ⟨c, hc, -⟩ := exists_encode_unit (by simpa using hu) (by simpa using hl)
        exact ⟨[c], by rw [utf16_cons, hc]; rfl⟩
    | case5 u next rest hu hl ih =>
        obtain ⟨cs, rfl⟩ := ih h
        simp only [isHigh, isLow, decide_eq_true_eq] at hu hl
        obtain ⟨c, -, hc⟩ := exists_encode_pair hu hl
        rw [UInt16.ofNat_toNat, UInt16.ofNat_toNat] at hc
        exact ⟨c :: cs, by rw [utf16_cons, hc]; rfl⟩
    | case6 u next rest hu hl => cases h
    | case7 u next rest hu hl => cases h
    | case8 u next rest hu hl ih =>
        obtain ⟨cs, hcs⟩ := ih h
        obtain ⟨c, hc, -⟩ := exists_encode_unit (by simpa using hu) (by simpa using hl)
        exact ⟨c :: cs, by rw [utf16_cons, hc, ← hcs]; rfl⟩
  · rintro ⟨cs, rfl⟩
    induction cs with
    | nil => rfl
    | cons c cs ih => rw [utf16_cons, assertScalarString_encode_append, ih]

theorem assertScalarString_utf16 (context : String) (cs : List Char) :
    assertScalarString context (utf16 cs) = .ok () :=
  assertScalarString_eq_ok.mpr ⟨cs, rfl⟩

theorem quoteScalar_control : ∀ n < 0x20, js "\\u" ++ hexPadded n =
    utf16 ['\\', 'u', '0', '0', Nat.digitChar (n / 16), Nat.digitChar (n % 16)] := by
  decide

theorem quoteScalar_toNat (c : Char) : quoteScalar c.toNat = utf16 (Json.escapeChar c) := by
  have hiff : ∀ d : Char, c.toNat = d.toNat ↔ c = d := fun d ↦ Char.toNat_inj
  unfold quoteScalar Json.escapeChar
  simp only [hiff]
  split_ifs with h₁ h₂ h₃ h₄ h₅ h₆ h₇ h₈ h₉
  all_goals try first | rfl | omega
  · exact quoteScalar_control c.toNat h₉
  · rw [utf16_cons, utf16_nil, List.append_nil]
    rfl

theorem quoteString_utf16 (s : String) :
    quoteString (utf16 s.toList) = .ok (utf16 (Json.quote s)) := by
  have hbody : (codePoints (utf16 s.toList)).flatMap quoteScalar =
      utf16 (s.toList.flatMap Json.escapeChar) := by
    rw [codePoints_utf16, utf16_flatMap, List.flatMap_map]
    exact congrArg (s.toList.flatMap ·) (funext quoteScalar_toNat)
  rw [quoteString, assertScalarString_utf16, hbody, Json.quote, List.cons_append,
    List.cons_append, utf16_ascii (by decide), utf16_append]
  rfl

/-! ## Key order -/

theorem comparePoints_pos_iff (xs ys : List Nat) : 0 < comparePoints xs ys ↔ ys < xs := by
  induction xs generalizing ys with
  | nil => cases ys <;> simp [comparePoints]
  | cons x xs ih =>
      cases ys with
      | nil => simp [comparePoints]
      | cons y ys =>
          rw [comparePoints, List.cons_lt_cons_iff]
          split_ifs with hne hlt
          · have : ¬(y < x ∨ y = x ∧ ys < xs) := by omega
            simp [this]
          · have : y < x := by omega
            simp [this]
          · rw [ih, not_not.mp hne]
            simp

theorem compareUnicodeScalars_le_zero_iff (s t : JsString) :
    compareUnicodeScalars s t ≤ 0 ↔ codePoints s ≤ codePoints t := by
  rw [← not_lt, ← not_lt, compareUnicodeScalars, comparePoints_pos_iff]

theorem map_toNat_lt_map_toNat {l m : List Char} (h : l < m) :
    l.map Char.toNat < m.map Char.toNat := by
  induction h with
  | nil => simp
  | rel hlt => exact List.cons_lt_cons_iff.mpr (.inl hlt)
  | cons _ ih => exact List.cons_lt_cons_iff.mpr (.inr ⟨rfl, ih⟩)

theorem codePoints_lt_of_byteLt {a b : String} (h : ByteLt a b) :
    codePoints (utf16 a.toList) < codePoints (utf16 b.toList) := by
  rw [codePoints_utf16, codePoints_utf16]
  exact map_toNat_lt_map_toNat (byteLt_iff.mp h)

theorem sortedKeys_perm {α : Type*} (members : List (JsString × α)) :
    (sortedKeys members).Perm members :=
  (List.mergeSort_perm _ _).trans (ownKeys_perm members)

theorem sortedKeys_pairwise {α : Type*} (members : List (JsString × α)) :
    (sortedKeys members).Pairwise fun a b ↦ codePoints a.1 ≤ codePoints b.1 := by
  have h := @List.pairwise_mergeSort _
    (fun a b : JsString × α ↦ decide (compareUnicodeScalars a.1 b.1 ≤ 0))
    (fun a b c hab hbc ↦ by
      simp only [compareUnicodeScalars_le_zero_iff, decide_eq_true_eq] at hab hbc ⊢
      exact hab.trans hbc)
    (fun a b ↦ by
      simp only [compareUnicodeScalars_le_zero_iff, Bool.or_eq_true, decide_eq_true_eq]
      exact le_total _ _)
    (ownKeys members)
  exact h.imp fun hab ↦ (compareUnicodeScalars_le_zero_iff _ _).mp (of_decide_eq_true hab)

/-- Sorting the keys of an object gives the order of the `BTreeMap`. -/
theorem sortedKeys_keyUnits {α : Type*} {ms : List (String × α)} (h : (ms.map Prod.fst).Nodup) :
    sortedKeys (ms.map keyUnits) = (KeyMap.collect ms).map keyUnits := by
  have hperm : (sortedKeys (ms.map keyUnits)).Perm ((KeyMap.collect ms).map keyUnits) :=
    (sortedKeys_perm _).trans ((KeyMap.collect_perm h).symm.map _)
  refine hperm.eq_of_pairwise ?_ (sortedKeys_pairwise _) ?_
  · intro a b ha hb hab hba
    obtain ⟨e, he, rfl⟩ := List.mem_map.mp ((sortedKeys_perm _).subset ha)
    obtain ⟨e', he', rfl⟩ := List.mem_map.mp hb
    have he' := (KeyMap.collect_perm h).subset he'
    have hkey := le_antisymm hab hba
    rw [keyUnits, keyUnits, codePoints_utf16, codePoints_utf16] at hkey
    have hfst : e.1 = e'.1 :=
      String.toList_inj.mp (List.map_injective_iff.mpr (fun _ _ ↦ Char.toNat_inj.mp) hkey)
    rw [(List.inj_on_of_nodup_map h) he he' hfst]
  · refine List.pairwise_map.mpr ((KeyMap.sorted_collect ms).imp fun hab ↦ ?_)
    exact (codePoints_lt_of_byteLt hab).le

/-! ## The encoder -/

theorem join_map_utf16 (ps : List (List Char)) :
    join (ps.map utf16) = utf16 (Json.joinComma ps) := by
  match ps with
  | [] => rfl
  | [p] => rfl
  | p :: q :: ps =>
      have ih := join_map_utf16 (q :: ps)
      show utf16 p ++ unit ',' :: join ((q :: ps).map utf16) =
        utf16 (p ++ ',' :: Json.joinComma (q :: ps))
      rw [ih, utf16_append, utf16_ascii (by decide)]

/-- The units of the text of a value whose integers are safe. -/
def safeUnits (v : Json) : Except CanonicalizationError JsString :=
  if v.bounded JsNumber.maxSafe then .ok (utf16 v.text)
  else fail "invalid_number" "numbers must be finite safe integers"

theorem safeUnits_eq_ok {v : Json} {t : JsString} :
    safeUnits v = .ok t ↔ v.bounded JsNumber.maxSafe = true ∧ t = utf16 v.text := by
  unfold safeUnits
  split <;> simp [*, fail, eq_comm]

theorem canonicalizeInner_number (n : Int) :
    canonicalizeInner (.number (.ofInt n)) = safeUnits (.num n) := by
  rw [canonicalizeInner, JsNumber.isSafeInteger_ofInt, safeUnits, Json.bounded]
  by_cases h : n.natAbs ≤ JsNumber.maxSafe
  · rw [JsNumber.ofInt_of_le h]
    simp [h, JsNumber.toText, Json.text]
  · simp [h]

theorem writeEntries_safeUnits (ms : List (String × Json)) :
    writeEntries ((KeyMap.mapVal safeUnits ms).map keyUnits) =
      if Json.boundedMembers JsNumber.maxSafe ms then
        .ok ((ms.map Json.memberText).map utf16)
      else fail "invalid_number" "numbers must be finite safe integers" := by
  induction ms with
  | nil => rfl
  | cons e ms ih =>
      obtain ⟨k, v⟩ := e
      have hcons : (KeyMap.mapVal safeUnits ((k, v) :: ms)).map keyUnits =
          (utf16 k.toList, safeUnits v) :: (KeyMap.mapVal safeUnits ms).map keyUnits := rfl
      have hmember : utf16 (Json.memberText (k, v)) =
          utf16 (Json.quote k) ++ unit ':' :: utf16 v.text := by
        rw [Json.memberText, utf16_append, utf16_ascii (by decide)]
      rw [hcons, writeEntries, assertScalarString_utf16, quoteString_utf16, ih,
        Json.boundedMembers, safeUnits]
      by_cases hv : v.bounded JsNumber.maxSafe <;>
        by_cases hms : Json.boundedMembers JsNumber.maxSafe ms <;>
        simp [hv, hms, hmember, fail]

mutual

/-- The encoder writes the text of the sorted value. -/
theorem canonicalizeInner_ofJson : ∀ {v : Json}, v.Distinct →
    canonicalizeInner (ofJson v) = safeUnits v.sortKeys
  | .null, _ | .bool true, _ | .bool false, _ => rfl
  | .num n, _ => canonicalizeInner_number n
  | .str s, _ => quoteString_utf16 s
  | .arr vs, h => by
      have hvs := canonicalizeValues_ofJson fun v (hv : v ∈ vs) ↦ by
        cases h with | arr h => exact h v hv
      rw [ofJson, canonicalizeInner, hvs, Json.sortKeys, safeUnits, Json.bounded]
      by_cases hb : Json.boundedValues JsNumber.maxSafe (Json.sortKeysValues vs)
      · rw [if_pos hb, if_pos hb, ok_bind, join_map_utf16, Json.text_arr, List.cons_append,
          List.cons_append, utf16_ascii (by decide), utf16_append]
        rfl
      · rw [if_neg hb, if_neg hb]
        rfl
  | .obj ms, h => by
      have hms := canonicalizeMembers_ofJson fun e (he : e ∈ ms) ↦ by
        cases h with | obj _ h => exact h e he
      have hkeys : ((KeyMap.mapVal safeUnits (Json.sortKeysMembers ms)).map Prod.fst).Nodup := by
        cases h with
        | obj hkeys _ =>
            rw [Json.sortKeysMembers_eq_mapVal]
            simpa [KeyMap.mapVal, Function.comp_def] using hkeys
      rw [ofJson, canonicalizeInner, hms, sortedKeys_keyUnits hkeys, KeyMap.collect_mapVal,
        writeEntries_safeUnits, Json.sortKeys, safeUnits, Json.bounded]
      by_cases hb : Json.boundedMembers JsNumber.maxSafe (KeyMap.collect (Json.sortKeysMembers ms))
      · rw [if_pos hb, if_pos hb, ok_bind, join_map_utf16, Json.text_obj, List.cons_append,
          List.cons_append, utf16_ascii (by decide), utf16_append]
        rfl
      · rw [if_neg hb, if_neg hb]
        rfl

theorem canonicalizeValues_ofJson : ∀ {vs : List Json}, (∀ v ∈ vs, v.Distinct) →
    canonicalizeValues (ofJsonValues vs) =
      if Json.boundedValues JsNumber.maxSafe (Json.sortKeysValues vs) then
        .ok (((Json.sortKeysValues vs).map Json.text).map utf16)
      else fail "invalid_number" "numbers must be finite safe integers"
  | [], _ => rfl
  | v :: vs, h => by
      rw [ofJsonValues, canonicalizeValues, canonicalizeInner_ofJson (h v (by simp)),
        canonicalizeValues_ofJson fun w hw ↦ h w (List.mem_cons_of_mem _ hw),
        Json.sortKeysValues, Json.boundedValues, safeUnits]
      by_cases hv : v.sortKeys.bounded JsNumber.maxSafe <;>
        by_cases hvs : Json.boundedValues JsNumber.maxSafe (Json.sortKeysValues vs) <;>
        simp [hv, hvs, fail]

theorem canonicalizeMembers_ofJson : ∀ {ms : List (String × Json)}, (∀ e ∈ ms, e.2.Distinct) →
    canonicalizeMembers (ofJsonMembers ms) =
      (KeyMap.mapVal safeUnits (Json.sortKeysMembers ms)).map keyUnits
  | [], _ => rfl
  | (k, v) :: ms, h => by
      rw [ofJsonMembers, canonicalizeMembers, canonicalizeInner_ofJson (h (k, v) (by simp)),
        canonicalizeMembers_ofJson fun e he ↦ h e (List.mem_cons_of_mem _ he)]
      rfl

end

/-! ## The budget -/

/-- The values right under a JSON value. -/
def jsonChildren : Json → List Json
  | .arr values => values
  | .obj members => members.map Prod.snd
  | .null | .bool _ | .num _ | .str _ => []

theorem nodes_eq_children (v : Json) : v.nodes = ((jsonChildren v).map Json.nodes).sum + 1 := by
  cases v <;>
    simp [Json.nodes, jsonChildren, Json.nodesValues_eq_sum, Json.nodesMembers_eq_sum,
      Function.comp_def]

theorem height_le_iff_children (v : Json) (h : Nat) :
    v.height ≤ h + 1 ↔ ∀ w ∈ jsonChildren v, w.height ≤ h := by
  cases v <;>
    simp only [Json.height, jsonChildren, Nat.add_le_add_iff_right, Json.heightValues_le_iff,
      Json.heightMembers_le_iff, List.forall_mem_map, List.not_mem_nil, false_imp_iff, implies_true,
      Nat.le_add_left]

theorem measures_json : Budget.Measures jsonChildren Json.nodes Json.height where
  nodes_eq := nodes_eq_children
  height_pos v := by cases v <;> simp [Json.height]
  height_le_iff := height_le_iff_children

theorem children_ofJson (v : Json) :
    (children (ofJson v)).Perm ((jsonChildren v).map ofJson) := by
  cases v with
  | null | bool _ | num _ | str _ => exact .nil
  | arr vs => exact .of_eq (ofJsonValues_eq_map vs)
  | obj ms =>
      refine ((ownKeys_perm (ofJsonMembers ms)).map Prod.snd).trans (.of_eq ?_)
      simp [ofJsonMembers_eq_map, jsonChildren, KeyMap.mapVal, keyUnits, Function.comp_def]

/-- The walk over the value of a JSON value is one over the JSON value. -/
theorem unfolding_ofJson :
    Budget.Unfolding children jsonChildren fun value v ↦ value = ofJson v := by
  rintro _ v rfl
  refine ⟨_, (children_ofJson v).symm, ?_⟩
  rw [List.forall₂_map_left_iff]
  exact List.forall₂_same.mpr fun _ _ ↦ rfl

theorem enforceValueBudget_eq_ok (v : Json) :
    enforceValueBudget (ofJson v) = .ok () ↔
      v.height ≤ maxTransportNestingDepth ∧ v.nodes ≤ maxTransportNodes :=
  unfolding_ofJson.walk_eq_ok measures_json rfl

/-! ## Both encoders -/

/-- **The TypeScript encoding of a JSON value.** -/
theorem canonicalJson_ofJson {v : Json} (hv : v.Distinct) {t : JsString} :
    canonicalJson (ofJson v) = .ok t ↔ Core.Encodable v ∧ t = utf16 v.sortKeys.text := by
  rw [canonicalJson, bind_eq_ok, canonicalizeInner_ofJson hv]
  constructor
  · rintro ⟨⟨⟩, hbudget, h⟩
    obtain ⟨hheight, hnodes⟩ := (enforceValueBudget_eq_ok v).mp hbudget
    obtain ⟨hbounded, rfl⟩ := safeUnits_eq_ok.mp h
    exact ⟨⟨hheight, hnodes, hbounded⟩, rfl⟩
  · rintro ⟨⟨hheight, hnodes, hbounded⟩, rfl⟩
    exact ⟨⟨⟩, (enforceValueBudget_eq_ok v).mpr ⟨hheight, hnodes⟩,
      safeUnits_eq_ok.mpr ⟨hbounded, rfl⟩⟩

/-- **Both encoders agree.**  On a JSON value in which no object repeats a name, either both
encoders fail, or both succeed and write the same bytes. -/
theorem canonicalJson_agrees (v : Json) (hv : v.Distinct) :
    ((∃ bytes, Core.canonicalValue v = .ok bytes) ↔ ∃ t, canonicalJson (ofJson v) = .ok t) ∧
      ∀ bytes t, Core.canonicalValue v = .ok bytes → canonicalJson (ofJson v) = .ok t →
        toBuffer t = bytes := by
  simp only [Core.canonicalValue_eq_ok, canonicalJson_ofJson hv]
  refine ⟨⟨?_, ?_⟩, ?_⟩
  · rintro ⟨_, h, rfl⟩
    exact ⟨_, h, rfl⟩
  · rintro ⟨_, h, rfl⟩
    exact ⟨_, h, rfl⟩
  · rintro _ _ ⟨_, rfl⟩ ⟨_, rfl⟩
    exact toBuffer_utf16 _

/-- Keys out of order, one of them outside the Basic Multilingual Plane. -/
def unsortedMembers : Json :=
  .obj [("😀", .num (-7)), ("～", .arr [.null, .str "\n"])]

theorem distinct_unsortedMembers : unsortedMembers.Distinct := by
  refine .obj (by decide) fun e he ↦ ?_
  simp only [List.mem_cons, List.not_mem_nil, or_false] at he
  rcases he with rfl | rfl
  · exact .num _
  · refine .arr fun v hv ↦ ?_
    simp only [List.mem_cons, List.not_mem_nil, or_false] at hv
    rcases hv with rfl | rfl
    · exact .null
    · exact .str _

theorem canonicalJson_agrees_unsortedMembers :
    ((∃ bytes, Core.canonicalValue unsortedMembers = .ok bytes) ↔
        ∃ t, canonicalJson (ofJson unsortedMembers) = .ok t) ∧
      ∀ bytes t, Core.canonicalValue unsortedMembers = .ok bytes →
        canonicalJson (ofJson unsortedMembers) = .ok t → toBuffer t = bytes :=
  canonicalJson_agrees unsortedMembers distinct_unsortedMembers

end Etp.TypeScript
