import Etp.Lib.Json.RoundTrip
import Etp.Lib.KeyMap

/-!
# Values whose objects are maps

`Json.sortKeys` replaces every object of a value by the map of its members.  The
rest of the file is what a size limit needs: the number of nodes, the height, the
magnitude of the integers and the length of the text of an object do not depend
on the order of its members.
-/

namespace Etp.Json

/-! ## Sorted values -/

mutual

/-- The value whose objects are all maps: members sorted by name, the last
member of a name kept. -/
def sortKeys : Json → Json
  | arr values => arr (sortKeysValues values)
  | obj members => obj (KeyMap.collect (sortKeysMembers members))
  | null => null
  | bool b => bool b
  | num n => num n
  | str s => str s

def sortKeysValues : List Json → List Json
  | [] => []
  | v :: vs => v.sortKeys :: sortKeysValues vs

def sortKeysMembers : List (String × Json) → List (String × Json)
  | [] => []
  | (k, v) :: ms => (k, v.sortKeys) :: sortKeysMembers ms

end

theorem sortKeysValues_eq_map (vs : List Json) : sortKeysValues vs = vs.map sortKeys := by
  induction vs with
  | nil => rfl
  | cons v vs ih => rw [sortKeysValues, ih, List.map_cons]

theorem sortKeysMembers_eq_mapVal (ms : List (String × Json)) :
    sortKeysMembers ms = KeyMap.mapVal sortKeys ms := by
  induction ms with
  | nil => rfl
  | cons e ms ih => obtain ⟨k, v⟩ := e; rw [sortKeysMembers, ih]; rfl

mutual

/-- Every integer of the value has at most the given magnitude. -/
def bounded (limit : Nat) : Json → Bool
  | arr values => boundedValues limit values
  | obj members => boundedMembers limit members
  | num n => n.natAbs ≤ limit
  | null | bool _ | str _ => true

def boundedValues (limit : Nat) : List Json → Bool
  | [] => true
  | v :: vs => v.bounded limit && boundedValues limit vs

def boundedMembers (limit : Nat) : List (String × Json) → Bool
  | [] => true
  | (_, v) :: ms => v.bounded limit && boundedMembers limit ms

end

/-- Texts separated by commas. -/
def joinComma : List (List Char) → List Char
  | [] => []
  | [p] => p
  | p :: ps => p ++ ',' :: joinComma ps

def memberText (e : String × Json) : List Char := quote e.1 ++ ':' :: e.2.text

theorem append_tailText (p : List Char) (vs : List Json) :
    p ++ tailText vs = joinComma (p :: vs.map text) ++ [']'] := by
  induction vs generalizing p with
  | nil => simp [tailText, joinComma]
  | cons v vs ih => simp [tailText, joinComma, ih]

theorem text_arr (vs : List Json) : (arr vs).text = '[' :: joinComma (vs.map text) ++ [']'] := by
  cases vs with
  | nil => simp [text, joinComma]
  | cons v vs => simp [text, append_tailText]

theorem append_tailMembersText (p : List Char) (ms : List (String × Json)) :
    p ++ tailMembersText ms = joinComma (p :: ms.map memberText) ++ ['}'] := by
  induction ms generalizing p with
  | nil => simp [tailMembersText, joinComma]
  | cons e ms ih =>
      have := ih (memberText e)
      simp only [memberText, List.cons_append, List.append_assoc] at this
      simp [tailMembersText, joinComma, memberText, this]

theorem text_obj (ms : List (String × Json)) :
    (obj ms).text = '{' :: joinComma (ms.map memberText) ++ ['}'] := by
  cases ms with
  | nil => simp [text, joinComma]
  | cons e ms =>
      have := append_tailMembersText (memberText e) ms
      simp only [memberText, List.cons_append, List.append_assoc] at this
      simp [text, memberText, this]

/-! ## Objects and arrays as sums over their parts -/

theorem nodesMembers_eq_sum (ms : List (String × Json)) :
    nodesMembers ms = (ms.map fun e ↦ e.2.nodes).sum := by
  induction ms with
  | nil => rfl
  | cons e ms ih => simp [nodesMembers, ih]

theorem nodesValues_eq_sum (vs : List Json) : nodesValues vs = (vs.map nodes).sum := by
  induction vs with
  | nil => rfl
  | cons v vs ih => simp [nodesValues, ih]

theorem heightMembers_le_iff {ms : List (String × Json)} {h : Nat} :
    heightMembers ms ≤ h ↔ ∀ e ∈ ms, e.2.height ≤ h := by
  induction ms with
  | nil => simp [heightMembers]
  | cons e ms ih => simp [heightMembers, ih]

theorem heightValues_le_iff {vs : List Json} {h : Nat} :
    heightValues vs ≤ h ↔ ∀ v ∈ vs, v.height ≤ h := by
  induction vs with
  | nil => simp [heightValues]
  | cons v vs ih => simp [heightValues, ih]

theorem boundedMembers_iff {limit : Nat} {ms : List (String × Json)} :
    boundedMembers limit ms = true ↔ ∀ e ∈ ms, e.2.bounded limit = true := by
  induction ms with
  | nil => simp [boundedMembers]
  | cons e ms ih => simp [boundedMembers, ih]

theorem boundedValues_iff {limit : Nat} {vs : List Json} :
    boundedValues limit vs = true ↔ ∀ v ∈ vs, v.bounded limit = true := by
  induction vs with
  | nil => simp [boundedValues]
  | cons v vs ih => simp [boundedValues, ih]

/-! ## The length of a text -/

/-- The number of bytes of a text in UTF-8. -/
def bytesOf (cs : List Char) : Nat := (cs.flatMap String.utf8EncodeChar).length

@[simp] theorem bytesOf_nil : bytesOf [] = 0 := rfl

@[simp] theorem bytesOf_append (cs ds : List Char) :
    bytesOf (cs ++ ds) = bytesOf cs + bytesOf ds := by simp [bytesOf]

theorem bytesOf_cons (c : Char) (cs : List Char) :
    bytesOf (c :: cs) = (String.utf8EncodeChar c).length + bytesOf cs := by simp [bytesOf]

theorem bytesOf_ascii {cs : List Char} (h : ∀ c ∈ cs, c.toNat < 0x80) :
    bytesOf cs = cs.length := by
  induction cs with
  | nil => rfl
  | cons c cs ih =>
      have hc : c.val.toNat ≤ 0x7f := by
        have := h c (by simp)
        exact Nat.lt_succ_iff.mp this
      have h₁ : (String.utf8EncodeChar c).length = 1 := by
        simp only [String.utf8EncodeChar]
        rw [if_pos hc]
        rfl
      rw [bytesOf_cons, h₁, ih fun d hd ↦ h d (by simp [hd]), List.length_cons]
      omega

theorem length_utf8EncodeChar_pos (c : Char) : 0 < (String.utf8EncodeChar c).length :=
  List.length_pos_of_ne_nil (utf8EncodeChar_ne_nil c)

theorem bytesOf_escapeChar (c : Char) :
    bytesOf (escapeChar c) ≤ 6 * (String.utf8EncodeChar c).length := by
  have hpos := length_utf8EncodeChar_pos c
  have short : ∀ {d : Char}, d.toNat < 0x80 → bytesOf ['\\', d] ≤
      6 * (String.utf8EncodeChar c).length := by
    intro d hd
    rw [bytesOf_ascii (by simp [hd])]
    simp only [List.length_cons, List.length_nil]
    omega
  have hdigit : ∀ n < 16, (Nat.digitChar n).toNat < 0x80 := by decide
  unfold escapeChar
  split_ifs
  · exact short (by decide)
  · exact short (by decide)
  · exact short (by decide)
  · exact short (by decide)
  · exact short (by decide)
  · exact short (by decide)
  · exact short (by decide)
  · have h₁ := hdigit (c.toNat / 16) (by omega)
    have h₂ := hdigit (c.toNat % 16) (by omega)
    rw [bytesOf_ascii (by simp [h₁, h₂])]
    simp only [List.length_cons, List.length_nil]
    omega
  · simp only [bytesOf_cons, bytesOf_nil]
    omega

/-- A string literal is at most six times as long as its string, plus the
quotation marks. -/
theorem bytesOf_quote (s : String) : bytesOf (quote s) ≤ 6 * (utf8 s).length + 2 := by
  have key : ∀ l : List Char, bytesOf (l.flatMap escapeChar) ≤ 6 * bytesOf l := by
    intro l
    induction l with
    | nil => simp
    | cons c l ih =>
        have := bytesOf_escapeChar c
        simp only [List.flatMap_cons, bytesOf_append, bytesOf_cons]
        omega
  have hq : bytesOf ['"'] = 1 := by decide
  have := key s.toList
  have hs : bytesOf s.toList = (utf8 s).length := rfl
  rw [quote, List.cons_append, bytesOf_cons, bytesOf_append, hq]
  have hc : (String.utf8EncodeChar '"').length = 1 := by decide
  omega

/-- Without control characters only the quotation mark and the reverse solidus are escaped. -/
theorem bytesOf_quote_printable {s : String} (h : ∀ c ∈ s.toList, 0x20 ≤ c.toNat) :
    bytesOf (quote s) ≤ 2 * (utf8 s).length + 2 := by
  have hone : ∀ c : Char, 0x20 ≤ c.toNat →
      bytesOf (escapeChar c) ≤ 2 * (String.utf8EncodeChar c).length := by
    intro c hc
    have hpos := length_utf8EncodeChar_pos c
    by_cases hq : c = '"'
    · subst hq
      decide
    by_cases hb : c = '\\'
    · subst hb
      decide
    have hne : ∀ d : Char, d.toNat < 0x20 → c ≠ d := by
      rintro d hd rfl
      omega
    have hesc : escapeChar c = [c] := by
      unfold escapeChar
      rw [if_neg hq, if_neg hb, if_neg (hne _ (by decide)), if_neg (hne _ (by decide)),
        if_neg (hne _ (by decide)), if_neg (hne _ (by decide)), if_neg (hne _ (by decide)),
        if_neg (by omega)]
    rw [hesc, bytesOf_cons, bytesOf_nil]
    omega
  have key : ∀ l : List Char, (∀ c ∈ l, 0x20 ≤ c.toNat) →
      bytesOf (l.flatMap escapeChar) ≤ 2 * bytesOf l := by
    intro l hl
    induction l with
    | nil => simp
    | cons c l ih =>
        have h₁ := hone c (hl c (by simp))
        have h₂ := ih fun d hd ↦ hl d (by simp [hd])
        simp only [List.flatMap_cons, bytesOf_append, bytesOf_cons]
        omega
  have hs : bytesOf s.toList = (utf8 s).length := rfl
  have hq : bytesOf ['"'] = 1 := by decide
  have hc : (String.utf8EncodeChar '"').length = 1 := by decide
  have := key s.toList h
  rw [quote, List.cons_append, bytesOf_cons, bytesOf_append, hq]
  omega

theorem bytesOf_toDigits {n k : Nat} (h : n < 10 ^ k) (hk : 0 < k) :
    bytesOf (Nat.toDigits 10 n) ≤ k := by
  rw [bytesOf_ascii fun c hc ↦ ?_]
  · exact (Nat.length_toDigits_le_iff (by omega) hk).mpr h
  · have := isDigit_of_mem_toDigits hc
    simp only [Char.isDigit, Bool.and_eq_true, decide_eq_true_eq] at this
    have h₂ : c.val.toNat ≤ 57 := this.2
    exact Nat.lt_of_le_of_lt h₂ (by omega)

theorem bytesOf_decimal {n : Nat} {k : Nat} (h : n < 10 ^ k) (hk : 0 < k) :
    bytesOf (decimal n) ≤ k := bytesOf_toDigits h hk

theorem bytesOf_joinComma (ps : List (List Char)) :
    bytesOf (joinComma ps) ≤ (ps.map fun p ↦ bytesOf p + 1).sum := by
  match ps with
  | [] => simp [joinComma]
  | [p] => simp [joinComma]
  | p :: q :: ps =>
      have ih := bytesOf_joinComma (q :: ps)
      have hc : (String.utf8EncodeChar ',').length = 1 := by decide
      simp only [joinComma, bytesOf_append, bytesOf_cons, List.map_cons, List.sum_cons] at ih ⊢
      omega

theorem bytesOf_arr (vs : List Json) :
    bytesOf (arr vs).text ≤ (vs.map fun v ↦ bytesOf v.text + 1).sum + 2 := by
  have h := bytesOf_joinComma (vs.map text)
  have h₁ : (String.utf8EncodeChar '[').length = 1 := by decide
  have h₂ : (String.utf8EncodeChar ']').length = 1 := by decide
  rw [List.map_map] at h
  simp only [text_arr, List.cons_append, bytesOf_append, bytesOf_cons, bytesOf_nil, h₁, h₂]
  exact (Nat.add_le_add_left (Nat.add_le_add_right h 1) 1).trans (by
    simp only [Function.comp_def]; omega)

theorem bytesOf_obj (ms : List (String × Json)) :
    bytesOf (obj ms).text ≤
      (ms.map fun e ↦ 6 * (utf8 e.1).length + bytesOf e.2.text + 4).sum + 2 := by
  have h := bytesOf_joinComma (ms.map memberText)
  have h₁ : (String.utf8EncodeChar '{').length = 1 := by decide
  have h₂ : (String.utf8EncodeChar '}').length = 1 := by decide
  have h₃ : (String.utf8EncodeChar ':').length = 1 := by decide
  have hsum : (ms.map fun e ↦ bytesOf (memberText e) + 1).sum ≤
      (ms.map fun e ↦ 6 * (utf8 e.1).length + bytesOf e.2.text + 4).sum := by
    refine List.sum_le_sum fun e _ ↦ ?_
    have := bytesOf_quote e.1
    simp only [memberText, bytesOf_append, bytesOf_cons, h₃]
    omega
  rw [List.map_map] at h
  simp only [text_obj, List.cons_append, bytesOf_append, bytesOf_cons, bytesOf_nil, h₁, h₂]
  exact (Nat.add_le_add_left (Nat.add_le_add_right (h.trans hsum) 1) 1).trans (by omega)

/-! No value is shorter than its parts. -/

theorem sum_le_bytesOf_joinComma (ps : List (List Char)) :
    (ps.map bytesOf).sum ≤ bytesOf (joinComma ps) := by
  induction ps with
  | nil => rfl
  | cons p ps ih =>
      cases ps with
      | nil => simp [joinComma]
      | cons q ps =>
          rw [joinComma, bytesOf_append, bytesOf_cons, List.map_cons, List.sum_cons]
          · omega
          · simp

theorem sum_le_bytesOf_arr (vs : List Json) :
    (vs.map fun v ↦ bytesOf v.text).sum ≤ bytesOf (arr vs).text := by
  have h := sum_le_bytesOf_joinComma (vs.map text)
  rw [List.map_map] at h
  rw [text_arr, List.cons_append, bytesOf_cons, bytesOf_append]
  exact (h.trans (Nat.le_add_right _ _)).trans (Nat.le_add_left _ _)

theorem sum_le_bytesOf_obj (ms : List (String × Json)) :
    (ms.map fun e ↦ bytesOf (memberText e)).sum ≤ bytesOf (obj ms).text := by
  have h := sum_le_bytesOf_joinComma (ms.map memberText)
  rw [List.map_map] at h
  rw [text_obj, List.cons_append, bytesOf_cons, bytesOf_append]
  exact (h.trans (Nat.le_add_right _ _)).trans (Nat.le_add_left _ _)

theorem bytesOf_member_le {ms : List (String × Json)} {e : String × Json} (he : e ∈ ms) :
    bytesOf e.2.text ≤ bytesOf (obj ms).text := by
  have hmember : bytesOf e.2.text ≤ bytesOf (memberText e) := by
    rw [memberText, bytesOf_append, bytesOf_cons, ← Nat.add_assoc]
    exact Nat.le_add_left _ _
  refine hmember.trans ((List.single_le_sum (by simp) _ ?_).trans (sum_le_bytesOf_obj ms))
  exact List.mem_map.mpr ⟨e, he, rfl⟩

end Etp.Json
