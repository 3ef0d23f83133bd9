import Etp.Lib.Json.Sorted

/-!
# The grammar of JSON texts

`Text v cs` says that `cs` is a text of RFC 8259 denoting `v`, for texts whose
numbers are integer literals.  The relation is the grammar itself, rule by rule:
white space around the structural characters, every spelling of a scalar value
inside a string literal, members in the order and with the repetitions they have.

`text_text` says that the minimal text is one of the texts of its value, and
`bytesOf_text_le` that no text of a value is shorter.
-/

namespace Etp.Json

/-! ## Lexemes -/

/-- Insignificant white space. -/
def Ws (cs : List Char) : Prop := ∀ c ∈ cs, isWs c = true

/-- A digit sequence without a leading zero. -/
structure Digits (ds : List Char) : Prop where
  ne_nil : ds ≠ []
  isDigit : ∀ c ∈ ds, c.isDigit = true
  leading : ds.head? = some '0' → ds = ['0']

/-- A number without fraction and exponent, other than `-0`. -/
inductive IntegerLiteral : Int → List Char → Prop
  | nonneg {ds : List Char} (h : Digits ds) : IntegerLiteral (Nat.ofDigitChars 10 ds 0) ds
  | neg {ds : List Char} (h : Digits ds) (hzero : ds ≠ ['0']) :
      IntegerLiteral (-(Nat.ofDigitChars 10 ds 0)) ('-' :: ds)

/-- The characters that may follow a reverse solidus, with the scalar value they denote. -/
def shortEscapes : List (Char × Char) :=
  [('"', '"'), ('\\', '\\'), ('/', '/'), ('b', '\x08'), ('f', '\x0c'), ('n', '\n'), ('r', '\r'),
    ('t', '\t')]

/-- Four hexadecimal digits. -/
inductive HexUnit : Nat → List Char → Prop
  | digits {a b c d : Char} {x y z w : Nat} (ha : hexValue a = some x) (hb : hexValue b = some y)
      (hc : hexValue c = some z) (hd : hexValue d = some w) :
      HexUnit (((x * 16 + y) * 16 + z) * 16 + w) [a, b, c, d]

/-- The spellings of one scalar value inside a string literal. -/
inductive CharSpelling : Char → List Char → Prop
  | raw {c : Char} (hctl : 0x20 ≤ c.toNat) (hquote : c ≠ '"') (hsolidus : c ≠ '\\') :
      CharSpelling c [c]
  | short {e c : Char} (h : (e, c) ∈ shortEscapes) : CharSpelling c ['\\', e]
  | unicode {c : Char} {ds : List Char} (h : HexUnit c.toNat ds) :
      CharSpelling c ('\\' :: 'u' :: ds)
  | pair {c : Char} {high low : Nat} {ds es : List Char} (hhigh : 0xd800 ≤ high ∧ high ≤ 0xdbff)
      (hlow : 0xdc00 ≤ low ∧ low ≤ 0xdfff) (hds : HexUnit high ds) (hes : HexUnit low es)
      (hc : c.toNat = 0x10000 + (high - 0xd800) * 0x400 + (low - 0xdc00)) :
      CharSpelling c ('\\' :: 'u' :: ds ++ '\\' :: 'u' :: es)

/-- The spellings of the contents of a string literal. -/
inductive CharsSpelling : List Char → List Char → Prop
  | nil : CharsSpelling [] []
  | cons {c : Char} {l u us : List Char} (h : CharSpelling c u) (hs : CharsSpelling l us) :
      CharsSpelling (c :: l) (u ++ us)

/-- A string literal. -/
inductive StringLiteral : String → List Char → Prop
  | quoted {s : String} {us : List Char} (h : CharsSpelling s.toList us) :
      StringLiteral s ('"' :: us ++ ['"'])

/-! ## Values -/

mutual

/-- The spellings of a value. -/
inductive Spells : Json → List Char → Prop
  | null : Spells null ['n', 'u', 'l', 'l']
  | true : Spells (bool true) ['t', 'r', 'u', 'e']
  | false : Spells (bool false) ['f', 'a', 'l', 's', 'e']
  | num {n : Int} {ds : List Char} (h : IntegerLiteral n ds) : Spells (num n) ds
  | str {s : String} {u : List Char} (h : StringLiteral s u) : Spells (str s) u
  | arrEmpty {w : List Char} (hw : Ws w) : Spells (arr []) ('[' :: w ++ [']'])
  | arr {vs : List Json} {w us : List Char} (hw : Ws w) (h : SpellsValues vs us) :
      Spells (arr vs) ('[' :: w ++ us)
  | objEmpty {w : List Char} (hw : Ws w) : Spells (obj []) ('{' :: w ++ ['}'])
  | obj {ms : List (String × Json)} {w us : List Char} (hw : Ws w) (h : SpellsMembers ms us) :
      Spells (obj ms) ('{' :: w ++ us)

/-- The spellings of the elements of a nonempty array and its closing bracket. -/
inductive SpellsValues : List Json → List Char → Prop
  | last {v : Json} {u w : List Char} (h : Spells v u) (hw : Ws w) :
      SpellsValues [v] (u ++ (w ++ [']']))
  | cons {v : Json} {vs : List Json} {u w w' us : List Char} (h : Spells v u) (hw : Ws w)
      (hw' : Ws w') (hs : SpellsValues vs us) :
      SpellsValues (v :: vs) (u ++ (w ++ ',' :: (w' ++ us)))

/-- The spellings of the members of a nonempty object and its closing brace. -/
inductive SpellsMembers : List (String × Json) → List Char → Prop
  | last {k : String} {v : Json} {lit w w' u w'' : List Char} (hk : StringLiteral k lit)
      (hw : Ws w) (hw' : Ws w') (h : Spells v u) (hw'' : Ws w'') :
      SpellsMembers [(k, v)] (lit ++ (w ++ ':' :: (w' ++ (u ++ (w'' ++ ['}'])))))
  | cons {k : String} {v : Json} {ms : List (String × Json)}
      {lit w w' u w'' w₃ us : List Char} (hk : StringLiteral k lit)
      (hw : Ws w) (hw' : Ws w') (h : Spells v u) (hw'' : Ws w'') (hw₃ : Ws w₃)
      (hs : SpellsMembers ms us) :
      SpellsMembers ((k, v) :: ms)
        (lit ++ (w ++ ':' :: (w' ++ (u ++ (w'' ++ ',' :: (w₃ ++ us))))))

end

/-- A whole text: one value with nothing but white space around it. -/
def Text (v : Json) (cs : List Char) : Prop :=
  ∃ w u w', Ws w ∧ Ws w' ∧ Spells v u ∧ cs = w ++ (u ++ w')

theorem ws_nil : Ws [] := by simp [Ws]

/-! ## The minimal text -/

theorem digits_toDigits (n : Nat) : Digits (Nat.toDigits 10 n) where
  ne_nil := Nat.toDigits_ne_nil
  isDigit _ hc := isDigit_of_mem_toDigits hc
  leading h := by
    by_cases hn : n = 0
    · rw [hn, Nat.toDigits_zero]
    · exact absurd h (head?_toDigits hn)

theorem integerLiteral_decimal (n : Int) : IntegerLiteral n (decimal n) := by
  cases n with
  | ofNat n =>
      have h := IntegerLiteral.nonneg (digits_toDigits n)
      rwa [Nat.ofDigitChars_ten_toDigits] at h
  | negSucc n =>
      have hzero : Nat.toDigits 10 (n + 1) ≠ ['0'] := fun h ↦
        head?_toDigits (n := n + 1) (by omega) (by rw [h]; rfl)
      have h := IntegerLiteral.neg (digits_toDigits (n + 1)) hzero
      rwa [Nat.ofDigitChars_ten_toDigits] at h

theorem charSpelling_escapeChar (c : Char) : CharSpelling c (escapeChar c) := by
  unfold escapeChar
  split_ifs with h₁ h₂ h₃ h₄ h₅ h₆ h₇ h₈
  · exact .short (by rw [h₁]; decide)
  · exact .short (by rw [h₂]; decide)
  · exact .short (by rw [h₃]; decide)
  · exact .short (by rw [h₄]; decide)
  · exact .short (by rw [h₅]; decide)
  · exact .short (by rw [h₆]; decide)
  · exact .short (by rw [h₇]; decide)
  · have hunit := HexUnit.digits (a := '0') (b := '0') (x := 0) (y := 0) rfl rfl
      (hexValue_digitChar (c.toNat / 16) (by omega)) (hexValue_digitChar (c.toNat % 16) (by omega))
    have hc : ((0 * 16 + 0) * 16 + c.toNat / 16) * 16 + c.toNat % 16 = c.toNat := by omega
    rw [hc] at hunit
    exact .unicode hunit
  · exact .raw (not_lt.mp h₈) h₁ h₂

theorem charsSpelling_flatMap (l : List Char) : CharsSpelling l (l.flatMap escapeChar) := by
  induction l with
  | nil => exact .nil
  | cons c l ih => exact .cons (charSpelling_escapeChar c) ih

theorem stringLiteral_quote (s : String) : StringLiteral s (quote s) :=
  .quoted (charsSpelling_flatMap s.toList)

mutual

/-- The minimal text of a value spells it. -/
theorem spells_text : ∀ v : Json, Spells v v.text
  | null => .null
  | bool true => .true
  | bool false => .false
  | num n => .num (integerLiteral_decimal n)
  | str s => .str (stringLiteral_quote s)
  | arr [] => .arrEmpty ws_nil
  | arr (v :: vs) => by
      have h := Spells.arr ws_nil (spellsValues_text vs v (spells_text v))
      exact h
  | obj [] => .objEmpty ws_nil
  | obj ((k, v) :: ms) => by
      have h := Spells.obj ws_nil (spellsMembers_text ms k v (spells_text v))
      exact h

theorem spellsValues_text : ∀ (vs : List Json) (v : Json), Spells v v.text →
    SpellsValues (v :: vs) (v.text ++ tailText vs)
  | [], _, h => .last h ws_nil
  | w :: vs, _, h => by
      have h' := SpellsValues.cons h ws_nil ws_nil (spellsValues_text vs w (spells_text w))
      exact h'

theorem spellsMembers_text : ∀ (ms : List (String × Json)) (k : String) (v : Json),
    Spells v v.text →
    SpellsMembers ((k, v) :: ms) (quote k ++ ':' :: (v.text ++ tailMembersText ms))
  | [], k, _, h => .last (stringLiteral_quote k) ws_nil ws_nil h ws_nil
  | (k', w) :: ms, k, _, h => by
      have h' := SpellsMembers.cons (stringLiteral_quote k) ws_nil ws_nil h ws_nil ws_nil
        (spellsMembers_text ms k' w (spells_text w))
      exact h'

end

/-- The minimal text of a value is one of its texts. -/
theorem text_text (v : Json) : Text v v.text :=
  ⟨[], v.text, [], ws_nil, ws_nil, spells_text v, by simp⟩

/-! ## Spellings of an integer -/

theorem ofDigitChars_concat (ds : List Char) (d : Char) :
    Nat.ofDigitChars 10 (ds ++ [d]) 0 = 10 * Nat.ofDigitChars 10 ds 0 + (d.toNat - '0'.toNat) := by
  simp [Nat.ofDigitChars, List.foldl_append]

theorem toDigits_digit {d : Char} (h : d.isDigit = true) :
    d.toNat - '0'.toNat < 10 ∧ Nat.toDigits 10 (d.toNat - '0'.toNat) = [d] := by
  simp only [Char.isDigit, Bool.and_eq_true, decide_eq_true_eq] at h
  have h₁ : 48 ≤ d.toNat := h.1
  have h₂ : d.toNat ≤ 57 := h.2
  have hlt : d.toNat - '0'.toNat < 10 := by
    have : '0'.toNat = 48 := rfl
    omega
  refine ⟨hlt, ?_⟩
  rw [Nat.toDigits_of_lt_base hlt]
  have hd : d = Char.ofNat (48 + (d.toNat - '0'.toNat)) := by
    have : 48 + (d.toNat - '0'.toNat) = d.toNat := by
      have : '0'.toNat = 48 := rfl
      omega
    rw [this, Char.ofNat_toNat]
  have key : ∀ n < 10, Nat.digitChar n = Char.ofNat (48 + n) := by decide
  rw [key _ hlt, ← hd]

/-- A digit sequence without a leading zero is the minimal notation of its value. -/
theorem Digits.toDigits_eq {ds : List Char} (h : Digits ds) :
    Nat.toDigits 10 (Nat.ofDigitChars 10 ds 0) = ds := by
  induction ds using List.reverseRecOn with
  | nil => exact absurd rfl h.ne_nil
  | append_singleton ds d ih =>
      obtain ⟨hlt, hd⟩ := toDigits_digit (h.isDigit d (by simp))
      rw [ofDigitChars_concat]
      cases ds with
      | nil => simpa [Nat.ofDigitChars] using hd
      | cons c ds =>
          -- The front part is a digit sequence itself, and it does not start with a zero.
          have hc : c ≠ '0' := by
            rintro rfl
            have := h.leading rfl
            simp at this
          have hfront : Digits (c :: ds) :=
            ⟨by simp, fun e he ↦ h.isDigit e (List.mem_append_left _ he), by simp [hc]⟩
          have hpos : 0 < Nat.ofDigitChars 10 (c :: ds) 0 := by
            refine Nat.pos_of_ne_zero fun hzero ↦ hc ?_
            have hz := ih hfront
            rw [hzero, Nat.toDigits_zero] at hz
            exact (List.cons.inj hz).1.symm
          rw [← Nat.toDigits_append_toDigits (by omega) hpos hlt, ih hfront, hd]

/-- An integer has one literal, its minimal decimal notation. -/
theorem IntegerLiteral.eq_decimal {n : Int} {ds : List Char} (h : IntegerLiteral n ds) :
    ds = decimal n := by
  cases h with
  | nonneg h => exact h.toDigits_eq.symm
  | @neg ds h hzero =>
      have hds := h.toDigits_eq
      cases hn : Nat.ofDigitChars 10 ds 0 with
      | zero =>
          rw [hn, Nat.toDigits_zero] at hds
          exact absurd hds.symm hzero
      | succ m =>
          rw [hn] at hds
          exact congrArg _ hds.symm

/-! ## How a value starts -/

theorem IntegerLiteral.starts {n : Int} {ds : List Char} (h : IntegerLiteral n ds) :
    ∃ d us, ds = d :: us ∧ (d = '-' ∨ d.isDigit = true) := by
  cases h with
  | nonneg h =>
      obtain ⟨d, ds, rfl⟩ := List.exists_cons_of_ne_nil h.ne_nil
      exact ⟨d, ds, rfl, .inr (h.isDigit d (by simp))⟩
  | neg _ _ => exact ⟨_, _, rfl, .inl rfl⟩

/-- The character that starts a value is neither white space nor a closing bracket. -/
structure Opens (d : Char) : Prop where
  ascii : d.toNat < 0x80
  solid : isWs d = false
  not_bracket : d ≠ ']'
  not_brace : d ≠ '}'

theorem opens_digit {d : Char} (h : d.isDigit = true) : Opens d := by
  have hne : ∀ e : Char, e.isDigit = false → d ≠ e := by
    rintro e he rfl
    rw [h] at he
    cases he
  refine ⟨?_, ?_, hne _ rfl, hne _ rfl⟩
  · simp only [Char.isDigit, Bool.and_eq_true, decide_eq_true_eq] at h
    have h₂ : d.toNat ≤ '9'.toNat := h.2
    exact h₂.trans_lt (by decide)
  · rw [isWs, decide_eq_false_iff_not]
    rintro (h' | h' | h' | h') <;> exact hne _ rfl h'

theorem Spells.starts {v : Json} {u : List Char} (h : Spells v u) :
    ∃ d us, u = d :: us ∧ Opens d := by
  have lit : ∀ {d : Char} (us : List Char), (d = 'n' ∨ d = 't' ∨ d = 'f' ∨ d = '"' ∨ d = '[' ∨
      d = '{' ∨ d = '-') → ∃ e es, d :: us = e :: es ∧ Opens e := by
    intro d us hd
    refine ⟨d, us, rfl, ?_⟩
    rcases hd with rfl | rfl | rfl | rfl | rfl | rfl | rfl <;>
      exact ⟨by decide, by decide, by decide, by decide⟩
  cases h with
  | null | true | false | arrEmpty _ | arr _ _ | objEmpty _ | obj _ _ => exact lit _ (by simp)
  | str h =>
      cases h
      exact lit _ (by simp)
  | num h =>
      obtain ⟨d, us, rfl, rfl | hd⟩ := h.starts
      · exact lit us (by simp)
      · exact ⟨d, us, rfl, opens_digit hd⟩

theorem SpellsValues.starts {vs : List Json} {us : List Char} (h : SpellsValues vs us) :
    ∃ d ds, us = d :: ds ∧ Opens d := by
  cases h with
  | last h _ | cons h _ _ _ =>
      obtain ⟨d, ds, rfl, hd⟩ := h.starts
      exact ⟨d, _, rfl, hd⟩

theorem SpellsMembers.starts {ms : List (String × Json)} {us : List Char}
    (h : SpellsMembers ms us) : ∃ ds, us = '"' :: ds := by
  cases h with
  | last hk _ _ _ _ | cons hk _ _ _ _ _ _ =>
      cases hk
      exact ⟨_, rfl⟩

/-! ## The minimal text is the shortest -/

theorem length_le_bytesOf (cs : List Char) : cs.length ≤ bytesOf cs := by
  induction cs with
  | nil => rfl
  | cons c cs ih =>
      have := length_utf8EncodeChar_pos c
      rw [bytesOf_cons, List.length_cons]
      omega

theorem bytesOf_escapeChar_le_six (c : Char) : bytesOf (escapeChar c) ≤ 6 := by
  have hdigit : ∀ n < 16, (Nat.digitChar n).toNat < 0x80 := by decide
  unfold escapeChar
  split_ifs with h₁ h₂ h₃ h₄ h₅ h₆ h₇ h₈
  · decide
  · decide
  · decide
  · decide
  · decide
  · decide
  · decide
  · have h₁ := hdigit (c.toNat / 16) (by omega)
    have h₂ := hdigit (c.toNat % 16) (by omega)
    rw [bytesOf_ascii (by simp [h₁, h₂])]
    simp
  · have : (String.utf8EncodeChar c).length ≤ 4 := by
      simp only [String.utf8EncodeChar]
      split_ifs <;> simp
    rw [bytesOf_cons, bytesOf_nil]
    omega

theorem HexUnit.length {n : Nat} {ds : List Char} (h : HexUnit n ds) : ds.length = 4 := by
  cases h
  rfl

theorem CharSpelling.length_pos {c : Char} {u : List Char} (h : CharSpelling c u) :
    0 < u.length := by
  cases h <;> simp

theorem CharSpelling.bytesOf_le {c : Char} {u : List Char} (h : CharSpelling c u) :
    bytesOf (escapeChar c) ≤ bytesOf u := by
  have hsix := bytesOf_escapeChar_le_six c
  have hlen := length_le_bytesOf u
  cases h with
  | raw hctl hquote hsolidus =>
      have hne : ∀ d : Char, d.toNat < 0x20 → c ≠ d := by
        rintro d hd rfl
        omega
      have hesc : escapeChar c = [c] := by
        unfold escapeChar
        rw [if_neg hquote, if_neg hsolidus, if_neg (hne _ (by decide)), if_neg (hne _ (by decide)),
          if_neg (hne _ (by decide)), if_neg (hne _ (by decide)), if_neg (hne _ (by decide)),
          if_neg (by omega)]
      rw [hesc]
  | @short e c h =>
      have key : ∀ p ∈ shortEscapes, bytesOf (escapeChar p.2) ≤ 2 := by decide
      exact (key _ h).trans hlen
  | unicode h =>
      rw [List.length_cons, List.length_cons, h.length] at hlen
      omega
  | pair _ _ hds hes _ =>
      simp only [List.cons_append, List.length_cons, List.length_append, hds.length,
        hes.length] at hlen ⊢
      omega

theorem CharsSpelling.bytesOf_le {l us : List Char} (h : CharsSpelling l us) :
    bytesOf (l.flatMap escapeChar) ≤ bytesOf us := by
  induction h with
  | nil => rfl
  | cons h _ ih =>
      have := h.bytesOf_le
      rw [List.flatMap_cons, bytesOf_append, bytesOf_append]
      omega

theorem StringLiteral.bytesOf_le {s : String} {u : List Char} (h : StringLiteral s u) :
    bytesOf (quote s) ≤ bytesOf u := by
  cases h with
  | quoted h =>
      have := h.bytesOf_le
      simp only [quote, List.cons_append, bytesOf_cons, bytesOf_append]
      omega

mutual

/-- No spelling of a value is shorter than its minimal text. -/
theorem Spells.bytesOf_le : ∀ {v : Json} {u : List Char}, Spells v u → bytesOf v.text ≤ bytesOf u
  | _, _, .null | _, _, .true | _, _, .false => le_rfl
  | _, _, .num h => by rw [text, h.eq_decimal]
  | _, _, .str h => by rw [text]; exact h.bytesOf_le
  | _, _, .arrEmpty _ => by
      simp only [text, List.cons_append, bytesOf_cons, bytesOf_append]
      omega
  | _, _, .arr _ h => by
      obtain ⟨v, vs, rfl, hle⟩ := h.bytesOf_le
      simp only [text, List.cons_append, bytesOf_cons, bytesOf_append] at hle ⊢
      omega
  | _, _, .objEmpty _ => by
      simp only [text, List.cons_append, bytesOf_cons, bytesOf_append]
      omega
  | _, _, .obj _ h => by
      obtain ⟨k, v, ms, rfl, hle⟩ := h.bytesOf_le
      simp only [text, List.cons_append, bytesOf_cons, bytesOf_append] at hle ⊢
      omega

theorem SpellsValues.bytesOf_le : ∀ {vs : List Json} {us : List Char}, SpellsValues vs us →
    ∃ v vs', vs = v :: vs' ∧ bytesOf (v.text ++ tailText vs') ≤ bytesOf us
  | _, _, .last h _ => by
      have hv := h.bytesOf_le
      refine ⟨_, _, rfl, ?_⟩
      simp only [tailText, bytesOf_append, bytesOf_cons]
      omega
  | _, _, .cons h _ _ hs => by
      have hv := h.bytesOf_le
      obtain ⟨w, ws, rfl, hle⟩ := hs.bytesOf_le
      refine ⟨_, _, rfl, ?_⟩
      simp only [tailText, bytesOf_append, bytesOf_cons] at hle ⊢
      omega

theorem SpellsMembers.bytesOf_le : ∀ {ms : List (String × Json)} {us : List Char},
    SpellsMembers ms us → ∃ k v ms', ms = (k, v) :: ms' ∧
      bytesOf (quote k ++ ':' :: (v.text ++ tailMembersText ms')) ≤ bytesOf us
  | _, _, .last hk _ _ h _ => by
      have hlit := hk.bytesOf_le
      have hv := h.bytesOf_le
      refine ⟨_, _, _, rfl, ?_⟩
      simp only [tailMembersText, bytesOf_append, bytesOf_cons]
      omega
  | _, _, .cons hk _ _ h _ _ hs => by
      have hlit := hk.bytesOf_le
      have hv := h.bytesOf_le
      obtain ⟨k', w, ms', rfl, hle⟩ := hs.bytesOf_le
      refine ⟨_, _, _, rfl, ?_⟩
      simp only [tailMembersText, bytesOf_append, bytesOf_cons] at hle ⊢
      omega

end

/-- No text of a value is shorter than the minimal one. -/
theorem bytesOf_text_le {v : Json} {cs : List Char} (h : Text v cs) :
    bytesOf v.text ≤ bytesOf cs := by
  obtain ⟨w, u, w', -, -, hu, rfl⟩ := h
  have := hu.bytesOf_le
  rw [bytesOf_append, bytesOf_append]
  omega

end Etp.Json
