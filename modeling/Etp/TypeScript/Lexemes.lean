import Etp.TypeScript.Parser
import Etp.TypeScript.Encoding

/-!
# The lexemes of the strict parser

Each lexeme has two lemmas.  The first says that what the parser accepts is derived by
the grammar, and that the cursor has moved past exactly that text (`Consumes`).  The
second says that the parser accepts what the grammar derives, wherever it stands: it
leaves the rest of the source and counts no value (`Leaves`).
-/

namespace Etp.TypeScript

open JsString Json Cursor

/-- The cursor has read the text and entered that many values. -/
structure Consumes (c : Cursor) (cs : List Char) (n : Nat) (c' : Cursor) : Prop where
  rest : c.rest = utf16 cs ++ c'.rest
  nodes : c'.nodes = c.nodes + n

/-- A cursor that moves over one text and then over another moves over both. -/
theorem Consumes.trans {c c' c'' : Cursor} {cs ds : List Char} {n m : Nat}
    (h : Consumes c cs n c') (h' : Consumes c' ds m c'') : Consumes c (cs ++ ds) (n + m) c'' where
  rest := by rw [h.rest, h'.rest, utf16_append, List.append_assoc]
  nodes := by rw [h'.nodes, h.nodes, Nat.add_assoc]

/-- The call returns the value and leaves that rest of the source and that many values. -/
def Leaves {α : Type} (result : Except Failure (α × Cursor)) (a : α) (rest : JsString)
    (nodes : Nat) : Prop :=
  ∃ c, result = .ok (a, c) ∧ c.rest = rest ∧ c.nodes = nodes

/-! ## Units -/

theorem exists_unit_of_lt {u : UInt16} (h : u.toNat < 0x80) :
    ∃ c : Char, unit c = u ∧ c.toNat = u.toNat := by
  have hv : u.toNat.isValidChar := by
    unfold Nat.isValidChar
    omega
  exact ⟨.ofNat u.toNat, by rw [unit, toNat_charOfNat hv, UInt16.ofNat_toNat], toNat_charOfNat hv⟩

theorem Consumes.unit {c : Cursor} {d : Char} (h : c.rest.head? = some (unit d))
    (hd : d.toNat < 0x80) : Consumes c [d] 0 (c.advance 1) where
  rest := by
    rw [utf16_ascii hd, utf16_nil, advance_rest]
    cases hr : c.rest with
    | nil => simp [hr] at h
    | cons u rest =>
        obtain rfl : u = JsString.unit d := by simpa [hr] using h
        rfl
  nodes := rfl

/-- `take` moves over its character. -/
theorem Consumes.of_take {c c' : Cursor} {d : Char} (h : c.take d = some c')
    (hd : d.toNat < 0x80) : Consumes c [d] 0 c' := by
  simp only [take, Option.ite_none_right_eq_some, Option.some.injEq] at h
  obtain ⟨hcur, rfl⟩ := h
  exact .unit hcur hd

theorem take_of_rest {c : Cursor} {d : Char} {rest : JsString} (h : c.rest = unit d :: rest) :
    c.take d = some (c.advance 1) := by
  rw [take, current, h]
  exact if_pos rfl

/-- `take` leaves another character where it is. -/
theorem take_of_ne {c : Cursor} {d : Char} {u : UInt16} {rest : JsString}
    (h : c.rest = u :: rest) (hne : u ≠ unit d) : c.take d = none := by
  rw [take, current, h]
  exact if_neg fun h ↦ hne (Option.some.inj h)

theorem Consumes.of_expect {c c' : Cursor} {d : Char} {message : String}
    (h : c.expect d message = .ok c') (hd : d.toNat < 0x80) : Consumes c [d] 0 c' :=
  .of_take (okOr_eq_ok.mp h) hd

theorem expect_of_rest {c : Cursor} {d : Char} {message : String} {rest : JsString}
    (h : c.rest = unit d :: rest) : c.expect d message = .ok (c.advance 1) := by
  rw [expect, take_of_rest h, okOr_some]

/-! ## White space -/

theorem isWhitespace_unit {c : Char} (h : isWs c = true) :
    c.toNat < 0x80 ∧ isWhitespace (unit c) = true := by
  simp only [isWs, decide_eq_true_eq] at h
  rcases h with rfl | rfl | rfl | rfl <;> decide

theorem exists_ws_of_isWhitespace {u : UInt16} (h : isWhitespace u = true) :
    ∃ c, isWs c = true ∧ unit c = u := by
  simp only [isWhitespace, decide_eq_true_eq] at h
  rcases h with rfl | rfl | rfl | rfl
  · exact ⟨' ', rfl, rfl⟩
  · exact ⟨'\t', rfl, rfl⟩
  · exact ⟨'\r', rfl, rfl⟩
  · exact ⟨'\n', rfl, rfl⟩

/-- White space of the source is white space of a text. -/
theorem exists_ws_of_forall {us : JsString} (h : ∀ u ∈ us, isWhitespace u = true) :
    ∃ w, Ws w ∧ us = utf16 w := by
  induction us with
  | nil => exact ⟨[], ws_nil, rfl⟩
  | cons u us ih =>
      obtain ⟨w, hw, rfl⟩ := ih fun v hv ↦ h v (List.mem_cons_of_mem _ hv)
      obtain ⟨d, hd, rfl⟩ := exists_ws_of_isWhitespace (h u (by simp))
      refine ⟨d :: w, List.forall_mem_cons.mpr ⟨hd, hw⟩, ?_⟩
      rw [utf16_ascii (isWhitespace_unit hd).1]

theorem drop_length_takeWhile {α : Type*} (p : α → Bool) (l : List α) :
    l.drop (l.takeWhile p).length = l.dropWhile p := by
  have h := List.takeWhile_append_dropWhile (p := p) (l := l)
  calc l.drop (l.takeWhile p).length
      = (l.takeWhile p ++ l.dropWhile p).drop (l.takeWhile p).length := by rw [h]
    _ = l.dropWhile p := List.drop_left

/-- `skipWhitespace` leaves the rest after the white space. -/
theorem skipWhitespace_rest (c : Cursor) :
    c.skipWhitespace.rest = c.rest.dropWhile isWhitespace :=
  drop_length_takeWhile isWhitespace c.rest

@[simp] theorem skipWhitespace_nodes (c : Cursor) : c.skipWhitespace.nodes = c.nodes := rfl

/-- `skipWhitespace` moves over white space only. -/
theorem exists_consumes_skipWhitespace (c : Cursor) :
    ∃ w, Ws w ∧ Consumes c w 0 c.skipWhitespace := by
  obtain ⟨w, hw, htake⟩ := exists_ws_of_forall
    fun u (hu : u ∈ c.rest.takeWhile isWhitespace) ↦ List.mem_takeWhile_imp hu
  refine ⟨w, hw, ?_, rfl⟩
  rw [skipWhitespace_rest, ← htake, List.takeWhile_append_dropWhile]

/-- A source that does not go on with white space. -/
def Solid (rest : JsString) : Prop := ∀ u ∈ rest.head?, isWhitespace u = false

/-- White space is skipped up to the text behind it. -/
theorem skipWhitespace_of_rest {c : Cursor} {w : List Char} {rest : JsString} (hw : Ws w)
    (h : c.rest = utf16 w ++ rest) (hrest : Solid rest) : c.skipWhitespace.rest = rest := by
  rw [skipWhitespace_rest, h]
  clear h
  induction w with
  | nil =>
      cases rest with
      | nil => rfl
      | cons u rest => simp [hrest u rfl]
  | cons d w ih =>
      obtain ⟨hascii, hws⟩ := isWhitespace_unit (hw d (by simp))
      rw [utf16_ascii hascii, List.cons_append, List.dropWhile_cons_of_pos hws]
      exact ih fun e he ↦ hw e (List.mem_cons_of_mem _ he)

theorem solid_unit {d : Char} (hd : d.toNat < 0x80) (hws : isWs d = false) (rest : JsString) :
    Solid (unit d :: rest) := by
  intro u hu
  obtain rfl : unit d = u := by simpa using hu
  cases h : isWhitespace (unit d) with
  | false => rfl
  | true =>
      obtain ⟨e, he, heq⟩ := exists_ws_of_isWhitespace h
      rw [unit_inj (by have := (isWhitespace_unit he).1; omega) (by omega)] at heq
      rw [heq, hws] at he
      cases he

/-! ## Hexadecimal digits -/

theorem hexDigit_eq_hexValue {u : UInt16} {d : Char} (h : d.toNat = u.toNat) :
    hexDigit u = hexValue d := by
  unfold hexDigit hexValue
  simp only [Char.le_def, UInt32.le_iff_toNat_le]
  rw [← h]
  rfl

theorem toNat_lt_of_hexDigit {u : UInt16} {n : Nat} (h : hexDigit u = some n) :
    u.toNat < 0x80 := by
  have h₁ : '9'.toNat = 57 := rfl
  have h₂ : 'f'.toNat = 102 := rfl
  have h₃ : 'F'.toNat = 70 := rfl
  unfold hexDigit at h
  split_ifs at h <;> omega

theorem exists_hexValue {u : UInt16} {n : Nat} (h : hexDigit u = some n) :
    ∃ d : Char, unit d = u ∧ d.toNat < 0x80 ∧ hexValue d = some n := by
  have hlt := toNat_lt_of_hexDigit h
  obtain ⟨d, hd, hnat⟩ := exists_unit_of_lt hlt
  exact ⟨d, hd, by omega, by rw [← hexDigit_eq_hexValue hnat, h]⟩

theorem hexDigit_unit {d : Char} {n : Nat} (h : hexValue d = some n) :
    d.toNat < 0x80 ∧ hexDigit (unit d) = some n := by
  have hlt : d.toNat < 0x80 := by
    have h₁ : '9'.toNat = 57 := rfl
    have h₂ : 'f'.toNat = 102 := rfl
    have h₃ : 'F'.toNat = 70 := rfl
    unfold hexValue at h
    simp only [Char.le_def, UInt32.le_iff_toNat_le] at h
    have hval : d.val.toNat = d.toNat := rfl
    have h₄ : '9'.val.toNat = 57 := rfl
    have h₅ : 'f'.val.toNat = 102 := rfl
    have h₆ : 'F'.val.toNat = 70 := rfl
    split_ifs at h <;> omega
  exact ⟨hlt, by rw [hexDigit_eq_hexValue (toNat_unit (by omega)).symm, h]⟩

/-- What is read as a code unit are four hexadecimal digits of its value. -/
theorem exists_of_hexUnit {c c' : Cursor} {n : Nat} (h : c.hexUnit = .ok (n, c')) :
    ∃ ds, HexUnit n ds ∧ Consumes c ds 0 c' := by
  unfold hexUnit at h
  split at h
  · next x y z w rest hrest =>
      split at h
      · next x' y' z' w' hx hy hz hw =>
          simp only [Except.ok.injEq, Prod.mk.injEq] at h
          obtain ⟨rfl, rfl⟩ := h
          obtain ⟨a, rfl, ha, hx⟩ := exists_hexValue hx
          obtain ⟨b, rfl, hb, hy⟩ := exists_hexValue hy
          obtain ⟨d, rfl, hd, hz⟩ := exists_hexValue hz
          obtain ⟨e, rfl, he, hw⟩ := exists_hexValue hw
          refine ⟨[a, b, d, e], .digits hx hy hz hw, ?_, rfl⟩
          rw [advance_rest, hrest, utf16_ascii ha, utf16_ascii hb, utf16_ascii hd, utf16_ascii he]
          rfl
      · cases h
  · cases h

/-- A code unit is read from its four digits. -/
theorem hexUnit_of_rest {c : Cursor} {n : Nat} {ds : List Char} {rest : JsString}
    (hds : HexUnit n ds) (h : c.rest = utf16 ds ++ rest) :
    Leaves c.hexUnit n rest c.nodes := by
  cases hds with
  | digits ha hb hc hd =>
      obtain ⟨ha', ha⟩ := hexDigit_unit ha
      obtain ⟨hb', hb⟩ := hexDigit_unit hb
      obtain ⟨hc', hc⟩ := hexDigit_unit hc
      obtain ⟨hd', hd⟩ := hexDigit_unit hd
      rw [utf16_ascii ha', utf16_ascii hb', utf16_ascii hc', utf16_ascii hd', utf16_nil] at h
      refine ⟨c.advance 4, ?_, by rw [advance_rest, h]; rfl, rfl⟩
      simp only [hexUnit, h, List.cons_append, List.nil_append, ha, hb, hc, hd]

/-! ## Strings -/

theorem hexValue_lt {d : Char} {n : Nat} (h : hexValue d = some n) : n < 16 := by
  have h₁ : '0'.toNat = 48 ∧ '9'.toNat = 57 := ⟨rfl, rfl⟩
  have h₂ : 'a'.toNat = 97 ∧ 'f'.toNat = 102 := ⟨rfl, rfl⟩
  have h₃ : 'A'.toNat = 65 ∧ 'F'.toNat = 70 := ⟨rfl, rfl⟩
  obtain ⟨hlt, h⟩ := hexDigit_unit h
  unfold hexDigit at h
  split_ifs at h <;> simp only [Option.some.injEq] at h <;> omega

theorem hexUnit_lt {n : Nat} {ds : List Char} (h : HexUnit n ds) : n < 0x10000 := by
  cases h with
  | digits ha hb hc hd =>
      have := hexValue_lt ha
      have := hexValue_lt hb
      have := hexValue_lt hc
      have := hexValue_lt hd
      omega

theorem shortEscapes_ascii : ∀ p ∈ shortEscapes, p.1.toNat < 0x80 ∧ p.2.toNat < 0x80 := by decide

theorem simple_eq_map : simple = shortEscapes.map fun p ↦ (unit p.1, unit p.2) := rfl

/-- The short escapes of the source are those of the grammar. -/
theorem lookup_simple {e d : Char} (h : (e, d) ∈ shortEscapes) :
    List.lookup (unit e) simple = some (unit d) := by
  have key : ∀ p ∈ shortEscapes, List.lookup (unit p.1) simple = some (unit p.2) := by decide
  exact key _ h

/-- What is read as a `\u` escape spells a character. -/
theorem exists_of_unicodeEscape {c c' : Cursor} {piece : JsString}
    (h : c.unicodeEscape = .ok (piece, c')) :
    ∃ d u, piece = encode d ∧ CharSpelling d ('\\' :: 'u' :: u) ∧ Consumes c u 0 c' := by
  simp only [unicodeEscape, bind_eq_ok] at h
  obtain ⟨⟨first, c₁⟩, hfirst, h⟩ := h
  obtain ⟨ds, hds, hc₁⟩ := exists_of_hexUnit hfirst
  have hlt := hexUnit_lt hds
  dsimp only at h
  split_ifs at h with hhigh hlow
  · -- A surrogate pair is two escapes in a row.
    simp only [bind_eq_ok, rejectIf_eq_ok, not_not, exists_const] at h
    obtain ⟨htake, ⟨second, c₂⟩, hsecond, hrange, h⟩ := h
    simp only [Except.ok.injEq, Prod.mk.injEq] at h
    obtain ⟨rfl, rfl⟩ := h
    obtain ⟨es, hes, hc₂⟩ := exists_of_hexUnit hsecond
    obtain ⟨d, hd, -⟩ := exists_encode_pair hhigh hrange
    have hskip : Consumes c₁ ['\\', 'u'] 0 (c₁.advance 2) := by
      refine ⟨?_, rfl⟩
      rw [advance_rest, show utf16 ['\\', 'u'] = c₁.rest.take 2 from htake.symm,
        List.take_append_drop]
    refine ⟨d, ds ++ ('\\' :: 'u' :: es), ?_, ?_, hc₁.trans (hskip.trans hc₂)⟩
    · rw [encode, hd]
    · exact .pair hhigh hrange hds hes hd
  · simp only [Except.ok.injEq, Prod.mk.injEq] at h
    obtain ⟨rfl, rfl⟩ := h
    obtain ⟨d, hd, hnat⟩ := exists_encode_unit (u := .ofNat first)
      (by rw [isHigh, toNat_ofNat hlt]; exact decide_eq_false hhigh)
      (by rw [isLow, toNat_ofNat hlt]; exact decide_eq_false hlow)
    rw [toNat_ofNat hlt] at hnat
    exact ⟨d, ds, hd.symm, .unicode (by rwa [hnat]), hc₁⟩

/-- What is read as an escape spells a character. -/
theorem exists_of_escape {c c' : Cursor} {piece : JsString} (h : c.escape = .ok (piece, c')) :
    ∃ d u, piece = encode d ∧ CharSpelling d ('\\' :: u) ∧ Consumes c u 0 c' := by
  unfold escape at h
  split at h
  · next x hx =>
      simp only [Except.ok.injEq, Prod.mk.injEq] at h
      obtain ⟨rfl, rfl⟩ := h
      obtain ⟨u, hu, hlookup⟩ := Option.bind_eq_some_iff.mp hx
      obtain ⟨l₁, l₂, hl, -⟩ := List.lookup_eq_some_iff.mp hlookup
      have hmem : (u, x) ∈ simple := by rw [hl]; simp
      rw [simple_eq_map, List.mem_map] at hmem
      obtain ⟨⟨e, d⟩, hed, heq⟩ := hmem
      simp only [Prod.mk.injEq] at heq
      obtain ⟨rfl, rfl⟩ := heq
      obtain ⟨he, hd⟩ := shortEscapes_ascii _ hed
      exact ⟨d, [e], (encode_of_lt (hd.trans (by decide))).symm, .short hed, .unit hu he⟩
  · simp only [bind_eq_ok, rejectIf_eq_ok, not_not, exists_const] at h
    obtain ⟨hu, h⟩ := h
    obtain ⟨d, u, hpiece, hd, hc⟩ := exists_of_unicodeEscape h
    exact ⟨d, 'u' :: u, hpiece, hd, (Consumes.unit hu (by decide)).trans hc⟩

/-- What is read outside an escape is a character that spells itself. -/
theorem exists_of_unescaped {c c' : Cursor} {u : UInt16} {piece : JsString}
    (hu : c.current = some u) (hquote : u ≠ unit '"') (hsolidus : u ≠ unit '\\')
    (h : c.unescaped u = .ok (piece, c')) :
    ∃ d, piece = encode d ∧ CharSpelling d [d] ∧ Consumes c [d] 0 c' := by
  have raw : ∀ {d : Char}, 0x20 ≤ d.toNat → (d = '"' → u = unit '"') → (d = '\\' → u = unit '\\') →
      CharSpelling d [d] := fun hctl hq hs ↦
    .raw hctl (fun h ↦ hquote (hq h)) fun h ↦ hsolidus (hs h)
  obtain ⟨rest, hrest⟩ : ∃ rest, c.rest = u :: rest := by
    cases hr : c.rest with
    | nil => simp [current, hr] at hu
    | cons v rest => exact ⟨rest, by rw [show v = u by simpa [current, hr] using hu]⟩
  simp only [unescaped, hrest] at h
  split_ifs at h with hctl hhigh hlow
  · cases rest with
    | nil => cases h
    | cons next rest =>
        dsimp only at h
        split_ifs at h with hnext
        · simp only [Except.ok.injEq, Prod.mk.injEq] at h
          obtain ⟨rfl, rfl⟩ := h
          simp only [isHigh, isLow, decide_eq_true_eq] at hhigh hnext
          obtain ⟨d, hd, henc⟩ := exists_encode_pair hhigh hnext
          rw [UInt16.ofNat_toNat, UInt16.ofNat_toNat] at henc
          have hbig : 0x10000 ≤ d.toNat := hd ▸ le_pairPoint _ _
          refine ⟨d, henc.symm, raw (by omega) ?_ ?_, ?_, rfl⟩
          · rintro rfl
            exact absurd hbig (by decide)
          · rintro rfl
            exact absurd hbig (by decide)
          · rw [advance_rest, hrest, utf16_cons, henc]
            rfl
  · simp only [Except.ok.injEq, Prod.mk.injEq] at h
    obtain ⟨rfl, rfl⟩ := h
    obtain ⟨d, henc, hnat⟩ := exists_encode_unit (by simpa using hhigh) (by simpa using hlow)
    have hunit : ∀ e : Char, e.toNat < 0x80 → d = e → u = unit e := by
      rintro e he rfl
      rw [encode_of_lt (by omega)] at henc
      exact (List.cons.inj henc).1.symm
    refine ⟨d, henc.symm, raw (by omega) (hunit _ (by decide)) (hunit _ (by decide)), ?_, rfl⟩
    rw [advance_rest, hrest, utf16_cons, henc]
    rfl

/-- A character of one code unit is read from its escape. -/
theorem unicodeEscape_of_unit {c : Cursor} {d : Char} {ds : List Char} {rest : JsString}
    (hds : HexUnit d.toNat ds) (h : c.rest = utf16 ds ++ rest) :
    Leaves c.unicodeEscape (encode d) rest c.nodes := by
  obtain ⟨c₁, hunit, hrest, hnodes⟩ := hexUnit_of_rest hds h
  have hd := not_surrogate d
  have hlt := hexUnit_lt hds
  refine ⟨c₁, ?_, hrest, hnodes⟩
  rw [unicodeEscape, hunit, ok_bind]
  dsimp only
  rw [if_neg (by omega), if_neg (by omega), encode_of_lt hlt]
  rfl

/-- A character of two code units is read from its pair of escapes. -/
theorem unicodeEscape_of_pair {c : Cursor} {d : Char} {high low : Nat} {ds es : List Char}
    {rest : JsString} (hhigh : 0xd800 ≤ high ∧ high ≤ 0xdbff) (hlow : 0xdc00 ≤ low ∧ low ≤ 0xdfff)
    (hds : HexUnit high ds) (hes : HexUnit low es) (hd : d.toNat = pairPoint high low)
    (h : c.rest = utf16 (ds ++ '\\' :: 'u' :: es) ++ rest) :
    Leaves c.unicodeEscape (encode d) rest c.nodes := by
  rw [utf16_append, utf16_ascii (by decide), utf16_ascii (by decide), List.append_assoc] at h
  obtain ⟨c₁, hfirst, hrest₁, hnodes₁⟩ := hexUnit_of_rest hds h
  have hskip : (c₁.advance 2).rest = utf16 es ++ rest := by
    rw [advance_rest, hrest₁]
    rfl
  have htake : c₁.rest.take 2 = js "\\u" := by
    rw [hrest₁]
    rfl
  obtain ⟨c₂, hsecond, hrest₂, hnodes₂⟩ := hexUnit_of_rest hes hskip
  refine ⟨c₂, ?_, hrest₂, by rw [hnodes₂, advance_nodes, hnodes₁]⟩
  rw [unicodeEscape, hfirst, ok_bind]
  dsimp only
  rw [if_pos hhigh, rejectIf_false (not_not.mpr htake), ok_bind, hsecond, ok_bind]
  dsimp only
  rw [rejectIf_false (not_not.mpr hlow), ok_bind, encode, hd]

/-- A character is read from each of its escapes. -/
theorem escape_of_rest {c : Cursor} {d : Char} {u : List Char} {rest : JsString}
    (hd : CharSpelling d ('\\' :: u)) (h : c.rest = utf16 u ++ rest) :
    Leaves c.escape (encode d) rest c.nodes := by
  have hu : ∀ {us : List Char}, c.rest = utf16 ('u' :: us) ++ rest →
      c.escape = (c.advance 1).unicodeEscape ∧ (c.advance 1).rest = utf16 us ++ rest := by
    intro us h
    rw [utf16_ascii (by decide), List.cons_append] at h
    have hcur : c.current = some (unit 'u') := by rw [current, h]; rfl
    have hlookup : (c.current.bind fun u ↦ List.lookup u simple) = none := by rw [hcur]; decide
    refine ⟨?_, by rw [advance_rest, h]; rfl⟩
    rw [escape, hlookup]
    dsimp only
    rw [rejectIf_false (not_not.mpr hcur), ok_bind]
  generalize hw : '\\' :: u = w at hd
  cases hd with
  | raw _ _ hsolidus => exact absurd (List.cons.inj hw).1.symm hsolidus
  | @short e d hed =>
      obtain rfl : u = [e] := (List.cons.inj hw).2
      obtain ⟨he, hd⟩ := shortEscapes_ascii _ hed
      rw [utf16_ascii he, utf16_nil] at h
      have hcur : c.current = some (unit e) := by rw [current, h]; rfl
      refine ⟨c.advance 1, ?_, by rw [advance_rest, h]; rfl, rfl⟩
      rw [escape, hcur, Option.bind_some, lookup_simple hed,
        encode_of_lt (hd.trans (by decide))]
  | unicode hds =>
      obtain rfl := (List.cons.inj hw).2
      obtain ⟨heq, hrest⟩ := hu h
      rw [heq]
      exact unicodeEscape_of_unit hds hrest
  | pair hhigh hlow hds hes hd =>
      obtain rfl := (List.cons.inj hw).2
      obtain ⟨heq, hrest⟩ := hu h
      rw [heq]
      exact unicodeEscape_of_pair hhigh hlow hds hes hd hrest

/-- A character that needs no escape is read as it is. -/
theorem unescaped_of_rest {c : Cursor} {d : Char} {rest : JsString} (hctl : 0x20 ≤ d.toNat)
    (h : c.rest = encode d ++ rest) :
    ∃ u, c.current = some u ∧ (∀ e : Char, e.toNat < 0x80 → u = unit e → d = e) ∧
      Leaves (c.unescaped u) (encode d) rest c.nodes := by
  have hd := not_surrogate d
  by_cases hlt : d.toNat < 0x10000
  · have hnat := toNat_unit hlt
    have hhigh : isHigh (unit d) = false := by
      rw [isHigh, hnat]
      exact decide_eq_false (by omega)
    have hlow : isLow (unit d) = false := by
      rw [isLow, hnat]
      exact decide_eq_false (by omega)
    rw [encode_of_lt hlt, List.singleton_append] at h
    refine ⟨unit d, by rw [current, h]; rfl, fun e he heq ↦ ?_, c.advance 1, ?_,
      by rw [advance_rest, h]; rfl, rfl⟩
    · exact (unit_inj hlt (by omega)).mp heq
    · simp only [unescaped, h, hhigh, hlow, hnat, encode_of_lt hlt]
      rw [if_neg (by omega)]
      rfl
  · have hhigh := toNat_ofNat (n := 0xd800 + (d.toNat - 0x10000) / 0x400) (by omega)
    have hlow := toNat_ofNat (n := 0xdc00 + (d.toNat - 0x10000) % 0x400) (by omega)
    have henc : encode d = [.ofNat (0xd800 + (d.toNat - 0x10000) / 0x400),
        .ofNat (0xdc00 + (d.toNat - 0x10000) % 0x400)] := if_neg hlt
    have hh : isHigh (.ofNat (0xd800 + (d.toNat - 0x10000) / 0x400)) = true := by
      rw [isHigh, hhigh]
      exact decide_eq_true (by omega)
    have hl : isLow (.ofNat (0xdc00 + (d.toNat - 0x10000) % 0x400)) = true := by
      rw [isLow, hlow]
      exact decide_eq_true (by omega)
    rw [henc, List.cons_append, List.singleton_append] at h
    refine ⟨_, by rw [current, h]; rfl, fun e he heq ↦ ?_, c.advance 2, ?_,
      by rw [advance_rest, h]; rfl, rfl⟩
    · have := congrArg UInt16.toNat heq
      rw [hhigh, toNat_unit (by omega)] at this
      omega
    · simp only [unescaped, h, hh, hl, hhigh, henc]
      rw [if_neg (by omega)]
      rfl

/-- One turn of the loop reads one spelled scalar value. -/
theorem stringLoop_of_rest {c : Cursor} {d : Char} {u : List Char} {rest : JsString}
    (hd : CharSpelling d u) (h : c.rest = utf16 u ++ rest) (fuel : Nat) (result : JsString) :
    ∃ c', c'.rest = rest ∧ c'.nodes = c.nodes ∧
      stringLoop (fuel + 1) result c = stringLoop fuel (result ++ encode d) c' := by
  have hesc : ∀ {us : List Char}, u = '\\' :: us → ∃ c', c'.rest = rest ∧ c'.nodes = c.nodes ∧
      stringLoop (fuel + 1) result c = stringLoop fuel (result ++ encode d) c' := by
    rintro us rfl
    rw [utf16_ascii (by decide), List.cons_append] at h
    have hcur : c.current = some (unit '\\') := by rw [current, h]; rfl
    obtain ⟨c', hc', hrest, hnodes⟩ := escape_of_rest hd
      (show (c.advance 1).rest = _ ++ rest by rw [advance_rest, h]; rfl)
    refine ⟨c', hrest, hnodes, ?_⟩
    rw [stringLoop, hcur]
    dsimp only
    rw [if_neg (by decide), if_pos rfl, hc', ok_bind]
  cases hd with
  | raw hctl hquote hsolidus =>
      rw [utf16_cons, utf16_nil, List.append_nil] at h
      obtain ⟨v, hcur, hne, c', hc', hrest, hnodes⟩ := unescaped_of_rest hctl h
      refine ⟨c', hrest, hnodes, ?_⟩
      rw [stringLoop, hcur]
      dsimp only
      rw [if_neg fun heq ↦ hquote (hne _ (by decide) heq),
        if_neg fun heq ↦ hsolidus (hne _ (by decide) heq), hc', ok_bind]
  | short _ => exact hesc rfl
  | unicode _ => exact hesc rfl
  | pair _ _ _ _ _ => exact hesc rfl

theorem encode_ne_nil (d : Char) : encode d ≠ [] := by
  unfold encode fromCodePoint
  split <;> simp

theorem length_le_length_utf16 (cs : List Char) : cs.length ≤ (utf16 cs).length := by
  induction cs with
  | nil => rfl
  | cons d cs ih =>
      have := List.length_pos_of_ne_nil (encode_ne_nil d)
      rw [utf16_cons, List.length_append, List.length_cons]
      omega

theorem stringLoop_of_spelling {l us : List Char} (hl : CharsSpelling l us) {c : Cursor}
    {rest : JsString} (h : c.rest = utf16 us ++ unit '"' :: rest) {fuel : Nat}
    (hfuel : us.length < fuel) (result : JsString) :
    Leaves (stringLoop fuel result c) (result ++ utf16 l) rest c.nodes := by
  induction hl generalizing c fuel result with
  | nil =>
      obtain ⟨n, rfl⟩ : ∃ n, fuel = n + 1 := ⟨fuel - 1, by simp at hfuel; omega⟩
      have hcur : c.current = some (unit '"') := by rw [current, h]; rfl
      refine ⟨c.advance 1, ?_, by rw [advance_rest, h]; rfl, rfl⟩
      rw [stringLoop, hcur, utf16_nil, List.append_nil]
      exact if_pos rfl
  | @cons d l u us hd _ ih =>
      rw [List.length_append] at hfuel
      have hpos := hd.length_pos
      obtain ⟨n, rfl⟩ : ∃ n, fuel = n + 1 := ⟨fuel - 1, by omega⟩
      rw [utf16_append, List.append_assoc] at h
      obtain ⟨c₁, hrest, hnodes, heq⟩ := stringLoop_of_rest hd h n result
      rw [heq, ← hnodes, utf16_cons, ← List.append_assoc]
      exact ih hrest (by omega) _

/-- A string is read from each of its literals. -/
theorem string_of_rest {c : Cursor} {s : String} {lit : List Char} {rest : JsString}
    (hs : StringLiteral s lit) (h : c.rest = utf16 lit ++ rest) :
    Leaves c.string (utf16 s.toList) rest c.nodes := by
  cases hs with
  | @quoted us hs =>
      rw [utf16_append, List.append_assoc, utf16_ascii (by decide)] at h
      have hlen := length_le_length_utf16 us
      refine stringLoop_of_spelling hs (c := c.advance 1) ?_ ?_ []
      · rw [advance_rest, h]
        rfl
      · rw [h]
        simp only [List.cons_append, List.length_cons, List.length_append]
        omega

/-- What the loop of `string` takes spells what it gives, up to the quotation mark. -/
theorem exists_of_stringLoop {fuel : Nat} {result s : JsString} {c c' : Cursor}
    (h : stringLoop fuel result c = .ok (s, c')) :
    ∃ l us, s = result ++ utf16 l ∧ CharsSpelling l us ∧ Consumes c (us ++ ['"']) 0 c' := by
  induction fuel generalizing result c with
  | zero => cases h
  | succ fuel ih =>
      have step : ∀ {d : Char} {u : List Char} {c₁ : Cursor}, CharSpelling d u →
          Consumes c u 0 c₁ → stringLoop fuel (result ++ encode d) c₁ = .ok (s, c') →
          ∃ l us, s = result ++ utf16 l ∧ CharsSpelling l us ∧ Consumes c (us ++ ['"']) 0 c' := by
        intro d u c₁ hd hc h
        obtain ⟨l, us, rfl, hl, hc'⟩ := ih h
        refine ⟨d :: l, u ++ us, by rw [utf16_cons, List.append_assoc], .cons hd hl, ?_⟩
        rw [List.append_assoc]
        exact hc.trans hc'
      rw [stringLoop] at h
      cases hcur : c.current with
      | none => simp [hcur] at h
      | some u =>
          rw [hcur] at h
          dsimp only at h
          split_ifs at h with hquote hsolidus
          · simp only [Except.ok.injEq, Prod.mk.injEq] at h
            obtain ⟨rfl, rfl⟩ := h
            exact ⟨[], [], by simp, .nil, .unit (by rw [← hquote]; exact hcur) (by decide)⟩
          · obtain ⟨⟨piece, c₁⟩, hesc, h⟩ := bind_eq_ok.mp h
            obtain ⟨d, us, rfl, hd, hc⟩ := exists_of_escape hesc
            have hstart : Consumes c ['\\'] 0 (c.advance 1) :=
              .unit (by rw [← hsolidus]; exact hcur) (by decide)
            exact step hd (hstart.trans hc) h
          · obtain ⟨⟨piece, c₁⟩, hraw, h⟩ := bind_eq_ok.mp h
            obtain ⟨d, rfl, hd, hc⟩ := exists_of_unescaped hcur hquote hsolidus hraw
            exact step hd hc h

/-- What `string` returns where a quotation mark stands. -/
theorem exists_of_string {c c' : Cursor} {s : JsString} (hquote : c.current = some (unit '"'))
    (h : c.string = .ok (s, c')) :
    ∃ (k : String) (lit : List Char), s = utf16 k.toList ∧ StringLiteral k lit ∧
      Consumes c lit 0 c' := by
  obtain ⟨l, us, rfl, hl, hc⟩ := exists_of_stringLoop h
  have hstart : Consumes c ['"'] 0 (c.advance 1) := .unit hquote (by decide)
  refine ⟨.ofList l, '"' :: us ++ ['"'], by simp, .quoted (by simpa using hl), ?_⟩
  rw [List.cons_append]
  exact hstart.trans hc

end Etp.TypeScript
