import Etp.Lib.Json.Document

/-!
# The grammar of JSON over code units

`Spells t us` says that `us` is a spelling of the syntax tree `t` by the rules of RFC 8259:
numbers with fraction and exponent, every escape, white space around the structural
characters.  A string literal may hold any code unit, a lone surrogate among them, as the
JSON of the language itself does.

A value begins with a unit that ends no token (`Spells.starts`), and a value that is no
container and no string consists of such units alone (`Bare`).
-/

namespace Etp.Document

open JsString

/-- A syntax tree: its numbers are numerals. -/
abbrev Tree := Document JsString

/-! ## Units -/

def isWs (u : UInt16) : Bool :=
  u = unit ' ' ∨ u = unit '\t' ∨ u = unit '\r' ∨ u = unit '\n'

/-- The units before which a token without quotation marks ends. -/
def isDelimiter (u : UInt16) : Bool :=
  isWs u ∨ u = unit ',' ∨ u = unit ']' ∨ u = unit '\x7d'

def isDigit (u : UInt16) : Bool := '0'.toNat ≤ u.toNat ∧ u.toNat ≤ '9'.toNat

def hexDigit (u : UInt16) : Option Nat :=
  if '0'.toNat ≤ u.toNat ∧ u.toNat ≤ '9'.toNat then some (u.toNat - '0'.toNat)
  else if 'a'.toNat ≤ u.toNat ∧ u.toNat ≤ 'f'.toNat then some (u.toNat - 'a'.toNat + 10)
  else if 'A'.toNat ≤ u.toNat ∧ u.toNat ≤ 'F'.toNat then some (u.toNat - 'A'.toNat + 10)
  else none

/-- Insignificant white space. -/
def Ws (us : JsString) : Prop := ∀ u ∈ us, isWs u = true

theorem ws_nil : Ws [] := by simp [Ws]

/-! ## Numerals -/

structure Digits (ds : JsString) : Prop where
  ne_nil : ds ≠ []
  isDigit : ∀ u ∈ ds, isDigit u = true

/-- The integer part of a numeral: no leading zero. -/
inductive IntegerPart : JsString → Prop
  | zero : IntegerPart [unit '0']
  | nonzero {u : UInt16} {ds : JsString} (hu : isDigit u = true) (hzero : u ≠ unit '0')
      (hds : ∀ v ∈ ds, isDigit v = true) : IntegerPart (u :: ds)

inductive Fraction : JsString → Prop
  | absent : Fraction []
  | digits {ds : JsString} (h : Digits ds) : Fraction (unit '.' :: ds)

inductive Exponent : JsString → Prop
  | absent : Exponent []
  | digits {e : UInt16} {sign ds : JsString} (he : e = unit 'e' ∨ e = unit 'E')
      (hsign : sign = [] ∨ sign = [unit '+'] ∨ sign = [unit '-']) (h : Digits ds) :
      Exponent (e :: (sign ++ ds))

inductive Numeral : JsString → Prop
  | parts {sign int frac exp : JsString} (hsign : sign = [] ∨ sign = [unit '-'])
      (hint : IntegerPart int) (hfrac : Fraction frac) (hexp : Exponent exp) :
      Numeral (sign ++ (int ++ (frac ++ exp)))

/-! ## Strings -/

/-- The units that may follow a reverse solidus, with the unit they denote. -/
def escapes : List (UInt16 × UInt16) :=
  [(unit '"', unit '"'), (unit '\\', unit '\\'), (unit '/', unit '/'), (unit 'b', unit '\x08'),
    (unit 'f', unit '\x0c'), (unit 'n', unit '\n'), (unit 'r', unit '\r'), (unit 't', unit '\t')]

/-- The spellings of one unit inside a string literal. -/
inductive UnitSpelling : UInt16 → JsString → Prop
  | raw {u : UInt16} (hctl : 0x20 ≤ u.toNat) (hquote : u ≠ unit '"') (hsolidus : u ≠ unit '\\') :
      UnitSpelling u [u]
  | short {e u : UInt16} (h : (e, u) ∈ escapes) : UnitSpelling u [unit '\\', e]
  | unicode {a b c d : UInt16} {x y z w : Nat} (ha : hexDigit a = some x)
      (hb : hexDigit b = some y) (hc : hexDigit c = some z) (hd : hexDigit d = some w) :
      UnitSpelling (.ofNat (((x * 16 + y) * 16 + z) * 16 + w)) [unit '\\', unit 'u', a, b, c, d]

/-- The spellings of the contents of a string literal. -/
inductive UnitsSpelling : JsString → JsString → Prop
  | nil : UnitsSpelling [] []
  | cons {u : UInt16} {s sp us : JsString} (h : UnitSpelling u sp) (hs : UnitsSpelling s us) :
      UnitsSpelling (u :: s) (sp ++ us)

inductive StringLiteral : JsString → JsString → Prop
  | quoted {s us : JsString} (h : UnitsSpelling s us) :
      StringLiteral s (unit '"' :: (us ++ [unit '"']))

/-! ## Values -/

mutual

/-- The spellings of a value. -/
inductive Spells : Tree → JsString → Prop
  | null : Spells null (keyword "null")
  | boolean (b : Bool) : Spells (boolean b) (keyword (if b then "true" else "false"))
  | number {ds : JsString} (h : Numeral ds) : Spells (number ds) ds
  | string {s u : JsString} (h : StringLiteral s u) : Spells (string s) u
  | arrayEmpty {w : JsString} (hw : Ws w) : Spells (array []) (unit '[' :: (w ++ [unit ']']))
  | array {vs : List Tree} {w us : JsString} (hw : Ws w) (h : SpellsValues vs us) :
      Spells (array vs) (unit '[' :: (w ++ us))
  | objectEmpty {w : JsString} (hw : Ws w) :
      Spells (object []) (unit '\x7b' :: (w ++ [unit '\x7d']))
  | object {ms : List (JsString × Tree)} {w us : JsString} (hw : Ws w)
      (h : SpellsMembers ms us) : Spells (object ms) (unit '\x7b' :: (w ++ us))

/-- The spellings of the elements of a nonempty array and its closing bracket. -/
inductive SpellsValues : List Tree → JsString → Prop
  | last {v : Tree} {u w : JsString} (h : Spells v u) (hw : Ws w) :
      SpellsValues [v] (u ++ (w ++ [unit ']']))
  | cons {v : Tree} {vs : List Tree} {u w w' us : JsString} (h : Spells v u) (hw : Ws w)
      (hw' : Ws w') (hs : SpellsValues vs us) :
      SpellsValues (v :: vs) (u ++ (w ++ unit ',' :: (w' ++ us)))

/-- The spellings of the members of a nonempty object and its closing brace. -/
inductive SpellsMembers : List (JsString × Tree) → JsString → Prop
  | last {k : JsString} {v : Tree} {lit w w' u w'' : JsString} (hk : StringLiteral k lit)
      (hw : Ws w) (hw' : Ws w') (h : Spells v u) (hw'' : Ws w'') :
      SpellsMembers [(k, v)] (lit ++ (w ++ unit ':' :: (w' ++ (u ++ (w'' ++ [unit '\x7d'])))))
  | cons {k : JsString} {v : Tree} {ms : List (JsString × Tree)}
      {lit w w' u w'' w₃ us : JsString} (hk : StringLiteral k lit) (hw : Ws w) (hw' : Ws w')
      (h : Spells v u) (hw'' : Ws w'') (hw₃ : Ws w₃) (hs : SpellsMembers ms us) :
      SpellsMembers ((k, v) :: ms)
        (lit ++ (w ++ unit ':' :: (w' ++ (u ++ (w'' ++ unit ',' :: (w₃ ++ us))))))

end

/-- A whole text: one value with nothing but white space around it. -/
def Text (t : Tree) (s : JsString) : Prop :=
  ∃ w u w', Ws w ∧ Ws w' ∧ Spells t u ∧ s = w ++ (u ++ w')

/-! ## Tokens without quotation marks -/

/-- A unit inside such a token. -/
def isPlain (u : UInt16) : Bool :=
  !isDelimiter u && u != unit '"' && u != unit '[' && u != unit '\x7b'

/-- A token without quotation marks and brackets. -/
structure Bare (us : JsString) : Prop where
  ne_nil : us ≠ []
  plain : ∀ u ∈ us, isPlain u = true

theorem isDelimiter_of_isPlain {u : UInt16} (h : isPlain u = true) : isDelimiter u = false := by
  simp only [isPlain, Bool.and_eq_true, Bool.not_eq_true'] at h
  exact h.1.1.1

theorem isPlain_digit {u : UInt16} (h : isDigit u = true) : isPlain u = true := by
  have hne : ∀ c : Char, c.toNat < 48 ∨ 57 < c.toNat → c.toNat < 0x80 → u ≠ unit c := by
    rintro c hc hlt rfl
    rw [isDigit, toNat_unit (hlt.trans (by decide)), decide_eq_true_eq] at h
    have h₀ : '0'.toNat = 48 := rfl
    have h₉ : '9'.toNat = 57 := rfl
    omega
  have hws : isWs u = false := by
    rw [isWs, decide_eq_false_iff_not]
    rintro (h' | h' | h' | h')
    · exact hne ' ' (by decide) (by decide) h'
    · exact hne '\t' (by decide) (by decide) h'
    · exact hne '\r' (by decide) (by decide) h'
    · exact hne '\n' (by decide) (by decide) h'
  have hdelim : isDelimiter u = false := by
    rw [isDelimiter, decide_eq_false_iff_not, hws]
    rintro (h' | h' | h' | h')
    · cases h'
    · exact hne ',' (by decide) (by decide) h'
    · exact hne ']' (by decide) (by decide) h'
    · exact hne '\x7d' (by decide) (by decide) h'
  simp only [isPlain, hdelim, Bool.and_eq_true, bne_iff_ne]
  exact ⟨⟨⟨rfl, hne '"' (by decide) (by decide)⟩, hne '[' (by decide) (by decide)⟩,
    hne '\x7b' (by decide) (by decide)⟩

theorem Digits.plain {ds : JsString} (h : Digits ds) : ∀ u ∈ ds, isPlain u = true :=
  fun u hu ↦ isPlain_digit (h.isDigit u hu)

theorem IntegerPart.bare {ds : JsString} (h : IntegerPart ds) : Bare ds := by
  cases h with
  | zero => exact ⟨by simp, List.all_eq_true.mp rfl⟩
  | nonzero hu _ hds =>
      refine ⟨by simp, fun u hmem ↦ ?_⟩
      rcases List.mem_cons.mp hmem with rfl | hmem
      · exact isPlain_digit hu
      · exact isPlain_digit (hds u hmem)

theorem Numeral.bare {ds : JsString} (h : Numeral ds) : Bare ds := by
  cases h with
  | @parts sign int frac exp hsign hint hfrac hexp =>
      have hs : ∀ u ∈ sign, isPlain u = true := by
        rcases hsign with rfl | rfl
        · simp
        · exact List.all_eq_true.mp rfl
      have hf : ∀ u ∈ frac, isPlain u = true := by
        cases hfrac with
        | absent => simp
        | digits h => exact List.forall_mem_cons.mpr ⟨by decide, h.plain⟩
      have he : ∀ u ∈ exp, isPlain u = true := by
        cases hexp with
        | absent => simp
        | digits he hsign h =>
            refine List.forall_mem_cons.mpr ⟨?_, List.forall_mem_append.mpr ⟨?_, h.plain⟩⟩
            · rcases he with rfl | rfl <;> decide
            · rcases hsign with rfl | rfl | rfl
              · simp
              · exact List.all_eq_true.mp rfl
              · exact List.all_eq_true.mp rfl
      refine ⟨?_, ?_⟩
      · have hne := hint.bare.ne_nil
        simp [hne]
      · simp only [List.forall_mem_append]
        exact ⟨hs, hint.bare.plain, hf, he⟩

theorem bare_null : Bare (keyword "null") := ⟨List.cons_ne_nil _ _, List.all_eq_true.mp rfl⟩

theorem bare_boolean (b : Bool) : Bare (keyword (if b then "true" else "false")) := by
  cases b with
  | true => exact ⟨List.cons_ne_nil _ _, List.all_eq_true.mp rfl⟩
  | false => exact ⟨List.cons_ne_nil _ _, List.all_eq_true.mp rfl⟩

/-! ## How a value starts -/

theorem Spells.starts {t : Tree} {us : JsString} (h : Spells t us) :
    ∃ u rest, us = u :: rest ∧ isDelimiter u = false := by
  have bare : ∀ {us : JsString}, Bare us → ∃ u rest, us = u :: rest ∧ isDelimiter u = false := by
    intro us h
    obtain ⟨u, rest, rfl⟩ := List.exists_cons_of_ne_nil h.ne_nil
    exact ⟨u, rest, rfl, isDelimiter_of_isPlain (h.plain u (by simp))⟩
  cases h with
  | null => exact bare bare_null
  | boolean b => exact bare (bare_boolean b)
  | number h => exact bare h.bare
  | string h =>
      cases h
      exact ⟨_, _, rfl, by decide⟩
  | arrayEmpty _ | array _ _ | objectEmpty _ | object _ _ => exact ⟨_, _, rfl, by decide⟩

theorem SpellsValues.starts {vs : List Tree} {us : JsString} (h : SpellsValues vs us) :
    ∃ u rest, us = u :: rest ∧ isDelimiter u = false := by
  cases h with
  | last h _ | cons h _ _ _ =>
      obtain ⟨u, rest, rfl, hu⟩ := h.starts
      exact ⟨u, _, rfl, hu⟩

theorem SpellsMembers.starts {ms : List (JsString × Tree)} {us : JsString}
    (h : SpellsMembers ms us) : ∃ rest, us = unit '"' :: rest := by
  cases h with
  | last hk _ _ _ _ | cons hk _ _ _ _ _ _ =>
      cases hk
      exact ⟨_, rfl⟩

theorem SpellsValues.ne_nil {vs : List Tree} {us : JsString} (h : SpellsValues vs us) :
    vs ≠ [] := by
  cases h <;> simp

theorem SpellsMembers.ne_nil {ms : List (JsString × Tree)} {us : JsString}
    (h : SpellsMembers ms us) : ms ≠ [] := by
  cases h <;> simp

end Etp.Document
