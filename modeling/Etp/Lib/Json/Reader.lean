import Etp.Lib.Json.Syntax

/-!
# A reader for the grammar

`parseText` is a recursive-descent reader that returns the syntax tree of a text, and
`parseText_eq_some` that it accepts exactly the texts of the grammar.  A text therefore
has one syntax tree.

A lexeme has one lemma in both directions where its reader stops by itself; a token that
ends where the next unit says so has its completeness stated for what may follow it.
-/

namespace Etp.Document

open JsString

/-! ## Numerals -/

/-- The rest after an optional minus sign. -/
def stripMinus : JsString → JsString
  | [] => []
  | u :: us => if u = unit '-' then us else u :: us

/-- The rest after an optional sign. -/
def stripSign : JsString → JsString
  | [] => []
  | u :: us => if u = unit '+' ∨ u = unit '-' then us else u :: us

/-- The rest after the integer part of a numeral. -/
def readInteger : JsString → Option JsString
  | [] => none
  | u :: us =>
      if u = unit '0' then some us
      else if isDigit u then some (us.dropWhile isDigit)
      else none

/-- The rest after one digit or more. -/
def readDigits : JsString → Option JsString
  | [] => none
  | u :: us => if isDigit u then some (us.dropWhile isDigit) else none

/-- The rest after an optional fraction. -/
def readFraction : JsString → Option JsString
  | [] => some []
  | u :: us => if u = unit '.' then readDigits us else some (u :: us)

/-- The rest after an optional exponent. -/
def readExponent : JsString → Option JsString
  | [] => some []
  | u :: us => if u = unit 'e' ∨ u = unit 'E' then readDigits (stripSign us) else some (u :: us)

/-- Whether the text is one numeral from its beginning to its end. -/
def isNumeral (us : JsString) : Bool :=
  (((readInteger (stripMinus us)).bind readFraction).bind readExponent) = some []

/-- What follows does not go on with a unit that `p` accepts. -/
def Stops (p : UInt16 → Bool) (rest : JsString) : Prop := ∀ u ∈ rest.head?, p u = false

theorem dropWhile_append_stops {p : UInt16 → Bool} {us rest : JsString}
    (hus : ∀ u ∈ us, p u = true) (hrest : Stops p rest) : (us ++ rest).dropWhile p = rest := by
  induction us with
  | nil =>
      cases rest with
      | nil => rfl
      | cons v rest =>
          have hv := hrest v rfl
          rw [List.nil_append, List.dropWhile_cons_of_neg (by simp [hv])]
  | cons u us ih =>
      rw [List.cons_append, List.dropWhile_cons_of_pos (hus u (by simp))]
      exact ih fun v hv ↦ hus v (List.mem_cons_of_mem _ hv)

/-- The reader of digits takes all of them. -/
theorem readDigits_append {ds rest : JsString} (h : Digits ds) (hrest : Stops isDigit rest) :
    readDigits (ds ++ rest) = some rest := by
  obtain ⟨u, ds, rfl⟩ := List.exists_cons_of_ne_nil h.ne_nil
  rw [List.cons_append, readDigits, if_pos (h.isDigit u (by simp)),
    dropWhile_append_stops (fun v hv ↦ h.isDigit v (List.mem_cons_of_mem _ hv)) hrest]

/-- What the reader of digits takes are digits. -/
theorem exists_of_readDigits {us rest : JsString} (h : readDigits us = some rest) :
    ∃ ds, Digits ds ∧ us = ds ++ rest := by
  cases us with
  | nil => cases h
  | cons u us =>
      simp only [readDigits, Option.ite_none_right_eq_some, Option.some.injEq] at h
      obtain ⟨hu, rfl⟩ := h
      refine ⟨u :: us.takeWhile isDigit, ⟨by simp, fun v hv ↦ ?_⟩, ?_⟩
      · rcases List.mem_cons.mp hv with rfl | hv
        · exact hu
        · exact List.mem_takeWhile_imp hv
      · rw [List.cons_append, List.takeWhile_append_dropWhile]

/-- The reader of an integer part takes all of it. -/
theorem readInteger_append {ds rest : JsString} (h : IntegerPart ds)
    (hrest : Stops isDigit rest) : readInteger (ds ++ rest) = some rest := by
  cases h with
  | zero => rfl
  | nonzero hu hzero hds =>
      rw [List.cons_append, readInteger, if_neg hzero, if_pos hu, dropWhile_append_stops hds hrest]

/-- What the reader of an integer part takes is one. -/
theorem exists_of_readInteger {us rest : JsString} (h : readInteger us = some rest) :
    ∃ ds, IntegerPart ds ∧ us = ds ++ rest := by
  cases us with
  | nil => cases h
  | cons u us =>
      rw [readInteger] at h
      split_ifs at h with hzero hu
      · obtain rfl := Option.some.inj h
        exact ⟨[u], by rw [hzero]; exact .zero, rfl⟩
      · obtain rfl := Option.some.inj h
        refine ⟨u :: us.takeWhile isDigit,
          .nonzero hu hzero fun v hv ↦ List.mem_takeWhile_imp hv, ?_⟩
        rw [List.cons_append, List.takeWhile_append_dropWhile]

/-- The reader of a fraction takes all of it. -/
theorem readFraction_append {frac rest : JsString} (h : Fraction frac)
    (hrest : Stops isDigit rest) (hdot : rest.head? ≠ some (unit '.')) :
    readFraction (frac ++ rest) = some rest := by
  cases h with
  | absent =>
      cases rest with
      | nil => rfl
      | cons u rest =>
          have hu : u ≠ unit '.' := fun h ↦ hdot (by rw [h]; rfl)
          rw [List.nil_append, readFraction, if_neg hu]
  | digits h =>
      rw [List.cons_append, readFraction, if_pos rfl, readDigits_append h hrest]

/-- What the reader of a fraction takes is one, or nothing. -/
theorem exists_of_readFraction {us rest : JsString} (h : readFraction us = some rest) :
    ∃ frac, Fraction frac ∧ us = frac ++ rest := by
  cases us with
  | nil =>
      obtain rfl := Option.some.inj h
      exact ⟨[], .absent, rfl⟩
  | cons u us =>
      rw [readFraction] at h
      split_ifs at h with hu
      · obtain ⟨ds, hds, rfl⟩ := exists_of_readDigits h
        exact ⟨u :: ds, by rw [hu]; exact .digits hds, rfl⟩
      · obtain rfl := Option.some.inj h
        exact ⟨[], .absent, rfl⟩

theorem stripSign_append {sign ds : JsString}
    (hsign : sign = [] ∨ sign = [unit '+'] ∨ sign = [unit '-']) (h : Digits ds) :
    stripSign (sign ++ ds) = ds := by
  rcases hsign with rfl | rfl | rfl
  · obtain ⟨u, ds, rfl⟩ := List.exists_cons_of_ne_nil h.ne_nil
    have hu := h.isDigit u (by simp)
    have hne : ¬(u = unit '+' ∨ u = unit '-') := by
      rintro (rfl | rfl) <;> cases hu
    rw [List.nil_append, stripSign, if_neg hne]
  · rfl
  · rfl

theorem exists_stripSign (us : JsString) :
    ∃ sign, (sign = [] ∨ sign = [unit '+'] ∨ sign = [unit '-']) ∧ us = sign ++ stripSign us := by
  cases us with
  | nil => exact ⟨[], .inl rfl, rfl⟩
  | cons u us =>
      rw [stripSign]
      split_ifs with hu
      · rcases hu with rfl | rfl
        · exact ⟨_, .inr (.inl rfl), rfl⟩
        · exact ⟨_, .inr (.inr rfl), rfl⟩
      · exact ⟨[], .inl rfl, rfl⟩

theorem readExponent_of {exp : JsString} (h : Exponent exp) : readExponent exp = some [] := by
  cases h with
  | absent => rfl
  | digits he hsign h =>
      rw [readExponent, if_pos he, stripSign_append hsign h]
      have hd := readDigits_append h (show Stops isDigit [] by simp [Stops])
      rwa [List.append_nil] at hd

theorem exponent_of_readExponent {us : JsString} (h : readExponent us = some []) :
    Exponent us := by
  cases us with
  | nil => exact .absent
  | cons u us =>
      rw [readExponent] at h
      split_ifs at h with hu
      · obtain ⟨sign, hsign, hus⟩ := exists_stripSign us
        obtain ⟨ds, hds, hstrip⟩ := exists_of_readDigits h
        rw [hus, hstrip, List.append_nil]
        exact .digits hu hsign hds
      · cases h

/-- What follows the integer part of a numeral. -/
theorem stops_of_exponent {exp : JsString} (h : Exponent exp) :
    Stops isDigit exp ∧ exp.head? ≠ some (unit '.') := by
  cases h with
  | absent => simp [Stops]
  | digits he _ _ =>
      have hne : unit 'e' ≠ unit '.' ∧ unit 'E' ≠ unit '.' := by decide
      rcases he with rfl | rfl
      · exact ⟨by rintro u ⟨⟩; rfl, fun h ↦ hne.1 (Option.some.inj h)⟩
      · exact ⟨by rintro u ⟨⟩; rfl, fun h ↦ hne.2 (Option.some.inj h)⟩

theorem stops_of_fraction {frac exp : JsString} (h : Fraction frac) (hexp : Exponent exp) :
    Stops isDigit (frac ++ exp) := by
  cases h with
  | absent => exact (stops_of_exponent hexp).1
  | digits _ =>
      rintro u ⟨⟩
      rfl

theorem stripMinus_append {sign ds rest : JsString} (hsign : sign = [] ∨ sign = [unit '-'])
    (h : IntegerPart ds) : stripMinus (sign ++ (ds ++ rest)) = ds ++ rest := by
  rcases hsign with rfl | rfl
  · cases h with
    | zero => rfl
    | @nonzero u _ hu _ _ =>
        have hne : u ≠ unit '-' := by
          rintro rfl
          cases hu
        rw [List.nil_append, List.cons_append, stripMinus, if_neg hne]
  · rfl

theorem exists_stripMinus (us : JsString) :
    ∃ sign, (sign = [] ∨ sign = [unit '-']) ∧ us = sign ++ stripMinus us := by
  cases us with
  | nil => exact ⟨[], .inl rfl, rfl⟩
  | cons u us =>
      rw [stripMinus]
      split_ifs with hu
      · exact ⟨_, .inr rfl, by rw [hu]; rfl⟩
      · exact ⟨[], .inl rfl, rfl⟩

/-- The test for a numeral is exact. -/
theorem isNumeral_iff {us : JsString} : isNumeral us = true ↔ Numeral us := by
  rw [isNumeral, decide_eq_true_eq, Option.bind_eq_some_iff]
  constructor
  · rintro ⟨exp, hfrac, hexp⟩
    obtain ⟨rest, hint, hfrac⟩ := Option.bind_eq_some_iff.mp hfrac
    obtain ⟨sign, hsign, hus⟩ := exists_stripMinus us
    obtain ⟨int, hpart, hstrip⟩ := exists_of_readInteger hint
    obtain ⟨frac, htail, rfl⟩ := exists_of_readFraction hfrac
    rw [hus, hstrip]
    exact .parts hsign hpart htail (exponent_of_readExponent hexp)
  · rintro ⟨hsign, hint, hfrac, hexp⟩
    obtain ⟨hstops, hdot⟩ := stops_of_exponent hexp
    refine ⟨_, ?_, readExponent_of hexp⟩
    rw [stripMinus_append hsign hint, readInteger_append hint (stops_of_fraction hfrac hexp),
      Option.bind_some, readFraction_append hfrac hstops hdot]

/-! ## Strings -/

/-- A code unit from its four hexadecimal digits. -/
def readHex : JsString → Option (UInt16 × JsString)
  | a :: b :: c :: d :: rest =>
      match hexDigit a, hexDigit b, hexDigit c, hexDigit d with
      | some x, some y, some z, some w => some (.ofNat (((x * 16 + y) * 16 + z) * 16 + w), rest)
      | _, _, _, _ => none
  | _ => none

/-- What follows a reverse solidus. -/
def readEscape : JsString → Option (UInt16 × JsString)
  | [] => none
  | e :: rest =>
      match List.lookup e escapes with
      | some u => some (u, rest)
      | none => if e = unit 'u' then readHex rest else none

/-- One unit of the contents of a string literal. -/
def readUnit : JsString → Option (UInt16 × JsString)
  | [] => none
  | u :: rest =>
      if u = unit '\\' then readEscape rest
      else if 0x20 ≤ u.toNat ∧ u ≠ unit '"' then some (u, rest)
      else none

/-- The contents of a string literal and its closing quotation mark. -/
def readUnits : Nat → JsString → Option (JsString × JsString)
  | 0, _ => none
  | fuel + 1, us =>
      if us.head? = some (unit '"') then some ([], us.tail)
      else do
        let (u, us) ← readUnit us
        let (s, us) ← readUnits fuel us
        some (u :: s, us)

/-- The contents of a string literal, after its opening quotation mark. -/
def readString (us : JsString) : Option (JsString × JsString) := readUnits (us.length + 1) us

theorem mem_escapes_iff {e u : UInt16} : List.lookup e escapes = some u ↔ (e, u) ∈ escapes := by
  constructor
  · intro h
    obtain ⟨l₁, l₂, hl, -⟩ := List.lookup_eq_some_iff.mp h
    rw [hl]
    simp
  · intro h
    have key : ∀ p ∈ escapes, List.lookup p.1 escapes = some p.2 := by
      simp only [escapes, List.forall_mem_cons]
      exact ⟨rfl, rfl, rfl, rfl, rfl, rfl, rfl, rfl, by simp⟩
    exact key _ h

/-- Four hexadecimal digits are read as the code unit of their value. -/
theorem readHex_eq_some {us rest : JsString} {n : UInt16} :
    readHex us = some (n, rest) ↔ ∃ a b c d x y z w, hexDigit a = some x ∧ hexDigit b = some y ∧
      hexDigit c = some z ∧ hexDigit d = some w ∧ us = a :: b :: c :: d :: rest ∧
      n = .ofNat (((x * 16 + y) * 16 + z) * 16 + w) := by
  constructor
  · intro h
    unfold readHex at h
    split at h
    · next a b c d rest' =>
        split at h
        · next x y z w ha hb hc hd =>
            simp only [Option.some.injEq, Prod.mk.injEq] at h
            obtain ⟨rfl, rfl⟩ := h
            exact ⟨a, b, c, d, x, y, z, w, ha, hb, hc, hd, rfl, rfl⟩
        · cases h
    · cases h
  · rintro ⟨a, b, c, d, x, y, z, w, ha, hb, hc, hd, rfl, rfl⟩
    simp only [readHex, ha, hb, hc, hd]

/-- A unit of a string literal is read from each of its spellings, and from nothing else. -/
theorem readUnit_eq_some {us rest : JsString} {u : UInt16} :
    readUnit us = some (u, rest) ↔ ∃ sp, UnitSpelling u sp ∧ us = sp ++ rest := by
  constructor
  · intro h
    cases us with
    | nil => cases h
    | cons v us =>
        rw [readUnit] at h
        split_ifs at h with hsolidus hraw
        · cases us with
          | nil => cases h
          | cons e us =>
              rw [readEscape] at h
              split at h
              · next w hw =>
                  simp only [Option.some.injEq, Prod.mk.injEq] at h
                  obtain ⟨rfl, rfl⟩ := h
                  exact ⟨_, .short (mem_escapes_iff.mp hw), by rw [hsolidus]; rfl⟩
              · split_ifs at h with he
                obtain ⟨a, b, c, d, x, y, z, w, ha, hb, hc, hd, rfl, rfl⟩ := readHex_eq_some.mp h
                exact ⟨_, .unicode ha hb hc hd, by rw [hsolidus, he]; rfl⟩
        · simp only [Option.some.injEq, Prod.mk.injEq] at h
          obtain ⟨rfl, rfl⟩ := h
          exact ⟨_, .raw hraw.1 hraw.2 hsolidus, rfl⟩
  · rintro ⟨sp, hsp, rfl⟩
    cases hsp with
    | raw hctl hquote hsolidus =>
        rw [List.singleton_append, readUnit, if_neg hsolidus, if_pos ⟨hctl, hquote⟩]
    | short he =>
        rw [List.cons_append, List.singleton_append, readUnit, if_pos rfl, readEscape,
          mem_escapes_iff.mpr he]
    | unicode ha hb hc hd =>
        have hlookup : List.lookup (unit 'u') escapes = none := rfl
        rw [List.cons_append, List.cons_append, readUnit, if_pos rfl, readEscape, hlookup]
        exact readHex_eq_some.mpr ⟨_, _, _, _, _, _, _, _, ha, hb, hc, hd, rfl, rfl⟩

/-- No spelling of a code unit begins with the quotation mark that ends a string. -/
theorem UnitSpelling.starts {u : UInt16} {sp : JsString} (h : UnitSpelling u sp) :
    ∃ v rest, sp = v :: rest ∧ v ≠ unit '"' := by
  cases h with
  | raw _ hquote _ => exact ⟨_, _, rfl, hquote⟩
  | short _ => exact ⟨_, _, rfl, by decide⟩
  | unicode _ _ _ _ => exact ⟨_, _, rfl, by decide⟩

/-- The reader of a string takes every spelling of its code units. -/
theorem readUnits_append {s us rest : JsString} (h : UnitsSpelling s us) {fuel : Nat}
    (hfuel : us.length < fuel) : readUnits fuel (us ++ unit '"' :: rest) = some (s, rest) := by
  induction h generalizing fuel with
  | nil =>
      obtain ⟨n, rfl⟩ : ∃ n, fuel = n + 1 := ⟨fuel - 1, by simp at hfuel; omega⟩
      rfl
  | @cons u s sp us hu _ ih =>
      obtain ⟨v, rest', rfl, hv⟩ := hu.starts
      simp only [List.cons_append, List.length_cons, List.length_append] at hfuel
      obtain ⟨n, rfl⟩ : ∃ n, fuel = n + 1 := ⟨fuel - 1, by omega⟩
      have hread : readUnit ((v :: rest') ++ (us ++ unit '"' :: rest)) =
          some (u, us ++ unit '"' :: rest) := readUnit_eq_some.mpr ⟨_, hu, rfl⟩
      have hne : ((v :: rest') ++ (us ++ unit '"' :: rest)).head? ≠ some (unit '"') :=
        fun h ↦ hv (Option.some.inj h)
      rw [List.append_assoc, readUnits, if_neg hne, hread]
      simp only [Option.bind_eq_bind, Option.bind_some, ih (show _ < n by omega)]

/-- What the reader of a string takes spells the code units that it gives. -/
theorem exists_of_readUnits {fuel : Nat} {us s rest : JsString}
    (h : readUnits fuel us = some (s, rest)) :
    ∃ sp, UnitsSpelling s sp ∧ us = sp ++ unit '"' :: rest := by
  induction fuel generalizing us s with
  | zero => cases h
  | succ fuel ih =>
      rw [readUnits] at h
      split_ifs at h with hquote
      · simp only [Option.some.injEq, Prod.mk.injEq] at h
        obtain ⟨rfl, rfl⟩ := h
        exact ⟨[], .nil, (List.cons_head?_tail hquote).symm⟩
      · simp only [Option.bind_eq_bind, Option.bind_eq_some_iff, Option.some.injEq,
          Prod.mk.injEq, Prod.exists] at h
        obtain ⟨u, us', hu, s', rest', hs, rfl, rfl⟩ := h
        obtain ⟨sp, hsp, rfl⟩ := readUnit_eq_some.mp hu
        obtain ⟨sps, hsps, rfl⟩ := ih hs
        exact ⟨sp ++ sps, .cons hsp hsps, (List.append_assoc _ _ _).symm⟩

/-- The reader of a string is exact. -/
theorem readString_eq_some {us s rest : JsString} :
    readString us = some (s, rest) ↔ ∃ lit, StringLiteral s lit ∧ unit '"' :: us = lit ++ rest := by
  constructor
  · intro h
    obtain ⟨sp, hsp, rfl⟩ := exists_of_readUnits h
    exact ⟨_, .quoted hsp, by simp⟩
  · rintro ⟨lit, hlit, heq⟩
    cases hlit with
    | quoted h =>
        obtain rfl : us = _ ++ unit '"' :: rest := by simpa using heq
        exact readUnits_append h (by simp)

/-! ## Values -/

/-- The rest after the white space. -/
def skipWs (us : JsString) : JsString := us.dropWhile isWs

/-- The tree of a token without quotation marks and brackets. -/
def bareTree (us : JsString) : Option Tree :=
  if us = keyword "null" then some null
  else if us = keyword "true" then some (boolean true)
  else if us = keyword "false" then some (boolean false)
  else if isNumeral us then some (number us)
  else none

/-- The name of a member, up to its value. -/
def readName (us : JsString) : Option (JsString × JsString) :=
  if us.head? = some (unit '"') then do
    let (k, us) ← readString us.tail
    let us := skipWs us
    if us.head? = some (unit ':') then some (k, skipWs us.tail) else none
  else none

mutual

/-- A value and the rest of the text. -/
def readValue : Nat → JsString → Option (Tree × JsString)
  | 0, _ => none
  | _ + 1, [] => none
  | fuel + 1, u :: us =>
      if u = unit '\x7b' then
        let us := skipWs us
        if us.head? = some (unit '\x7d') then some (object [], us.tail)
        else (readMembers fuel us).map fun p ↦ (object p.1, p.2)
      else if u = unit '[' then
        let us := skipWs us
        if us.head? = some (unit ']') then some (array [], us.tail)
        else (readValues fuel us).map fun p ↦ (array p.1, p.2)
      else if u = unit '"' then (readString us).map fun p ↦ (string p.1, p.2)
      else (bareTree ((u :: us).takeWhile fun v ↦ !isDelimiter v)).map fun t ↦
        (t, (u :: us).dropWhile fun v ↦ !isDelimiter v)

/-- The values of an array after its opening bracket, and the rest of the text after the closing
one. -/
def readValues : Nat → JsString → Option (List Tree × JsString)
  | 0, _ => none
  | fuel + 1, us => do
      let (v, us) ← readValue fuel us
      let us := skipWs us
      if us.head? = some (unit ']') then some ([v], us.tail)
      else if us.head? = some (unit ',') then do
        let (vs, us) ← readValues fuel (skipWs us.tail)
        some (v :: vs, us)
      else none

/-- The members of an object after its opening brace, and the rest of the text after the closing
one. -/
def readMembers : Nat → JsString → Option (List (JsString × Tree) × JsString)
  | 0, _ => none
  | fuel + 1, us => do
      let (k, us) ← readName us
      let (v, us) ← readValue fuel us
      let us := skipWs us
      if us.head? = some (unit '\x7d') then some ([(k, v)], us.tail)
      else if us.head? = some (unit ',') then do
        let (ms, us) ← readMembers fuel (skipWs us.tail)
        some ((k, v) :: ms, us)
      else none

end

/-- The syntax tree of a text. -/
def parseText (s : JsString) : Option Tree :=
  (readValue (s.length + 1) (skipWs s)).bind fun p ↦ if skipWs p.2 = [] then some p.1 else none

/-! ### What is read is spelled -/

theorem exists_skipWs (us : JsString) : ∃ w, Ws w ∧ us = w ++ skipWs us :=
  ⟨us.takeWhile isWs, fun _ hu ↦ List.mem_takeWhile_imp hu,
    (List.takeWhile_append_dropWhile).symm⟩

/-- White space, and after it a structural character. -/
theorem exists_skipWs_cons {us : JsString} {u : UInt16} (h : (skipWs us).head? = some u) :
    ∃ w, Ws w ∧ us = w ++ u :: (skipWs us).tail := by
  obtain ⟨w, hw, hus⟩ := exists_skipWs us
  exact ⟨w, hw, by rwa [List.cons_head?_tail h]⟩

/-- A bare word or numeral spells the value that it is read as. -/
theorem spells_of_bareTree {us : JsString} {t : Tree} (h : bareTree us = some t) :
    Spells t us := by
  rw [bareTree] at h
  split_ifs at h with hnull htrue hfalse hnum
  · obtain rfl := Option.some.inj h
    rw [hnull]
    exact .null
  · obtain rfl := Option.some.inj h
    rw [htrue]
    exact .boolean true
  · obtain rfl := Option.some.inj h
    rw [hfalse]
    exact .boolean false
  · obtain rfl := Option.some.inj h
    exact .number (isNumeral_iff.mp hnum)

theorem exists_of_readName {us k rest : JsString} (h : readName us = some (k, rest)) :
    ∃ lit w w', StringLiteral k lit ∧ Ws w ∧ Ws w' ∧
      us = lit ++ (w ++ unit ':' :: (w' ++ rest)) := by
  rw [readName] at h
  split_ifs at h with hquote
  simp only [Option.bind_eq_bind, Option.bind_eq_some_iff, Prod.exists,
    Option.ite_none_right_eq_some, Option.some.injEq, Prod.mk.injEq] at h
  obtain ⟨k', us', hk, hcolon, rfl, rfl⟩ := h
  obtain ⟨lit, hlit, heq⟩ := readString_eq_some.mp hk
  obtain ⟨w, hw, hus'⟩ := exists_skipWs_cons hcolon
  obtain ⟨w', hw', htail⟩ := exists_skipWs (skipWs us').tail
  refine ⟨lit, w, w', hlit, hw, hw', ?_⟩
  rw [← htail, ← hus', ← heq, List.cons_head?_tail hquote]

mutual

/-- What is read as a value spells it. -/
theorem exists_of_readValue : ∀ {fuel : Nat} {us rest : JsString} {t : Tree},
    readValue fuel us = some (t, rest) → ∃ u, Spells t u ∧ us = u ++ rest
  | 0, _, _, _, h => by cases h
  | _ + 1, [], _, _, h => by cases h
  | fuel + 1, u :: us, rest, t, h => by
      rw [readValue] at h
      dsimp only at h
      obtain ⟨w, hw, hus⟩ := exists_skipWs us
      split_ifs at h with hbrace hclose hbracket hclose hquote
      · simp only [Option.some.injEq, Prod.mk.injEq] at h
        obtain ⟨rfl, rfl⟩ := h
        refine ⟨_, .objectEmpty hw, ?_⟩
        rw [List.cons_append, List.append_assoc, List.singleton_append,
          List.cons_head?_tail hclose, ← hus, hbrace]
      · simp only [Option.map_eq_some_iff, Prod.mk.injEq, Prod.exists] at h
        obtain ⟨ms, rest', hms, rfl, rfl⟩ := h
        obtain ⟨sp, hsp, heq⟩ := exists_of_readMembers hms
        exact ⟨_, .object hw hsp, by rw [List.cons_append, List.append_assoc, ← heq, ← hus, hbrace]⟩
      · simp only [Option.some.injEq, Prod.mk.injEq] at h
        obtain ⟨rfl, rfl⟩ := h
        refine ⟨_, .arrayEmpty hw, ?_⟩
        rw [List.cons_append, List.append_assoc, List.singleton_append,
          List.cons_head?_tail hclose, ← hus, hbracket]
      · simp only [Option.map_eq_some_iff, Prod.mk.injEq, Prod.exists] at h
        obtain ⟨vs, rest', hvs, rfl, rfl⟩ := h
        obtain ⟨sp, hsp, heq⟩ := exists_of_readValues hvs
        exact ⟨_, .array hw hsp,
          by rw [List.cons_append, List.append_assoc, ← heq, ← hus, hbracket]⟩
      · simp only [Option.map_eq_some_iff, Prod.mk.injEq, Prod.exists] at h
        obtain ⟨s, rest', hs, rfl, rfl⟩ := h
        obtain ⟨lit, hlit, heq⟩ := readString_eq_some.mp hs
        exact ⟨lit, .string hlit, by rw [← heq, hquote]⟩
      · simp only [Option.map_eq_some_iff, Prod.mk.injEq] at h
        obtain ⟨t', ht, rfl, rfl⟩ := h
        exact ⟨_, spells_of_bareTree ht, List.takeWhile_append_dropWhile.symm⟩

theorem exists_of_readValues : ∀ {fuel : Nat} {us rest : JsString} {vs : List Tree},
    readValues fuel us = some (vs, rest) → ∃ u, SpellsValues vs u ∧ us = u ++ rest
  | 0, _, _, _, h => by cases h
  | fuel + 1, us, rest, vs, h => by
      rw [readValues] at h
      simp only [Option.bind_eq_bind, Option.bind_eq_some_iff, Prod.exists] at h
      obtain ⟨v, us', hv, h⟩ := h
      obtain ⟨u, hu, rfl⟩ := exists_of_readValue hv
      split_ifs at h with hclose hcomma
      · simp only [Option.some.injEq, Prod.mk.injEq] at h
        obtain ⟨rfl, rfl⟩ := h
        obtain ⟨w, hw, hus'⟩ := exists_skipWs_cons hclose
        refine ⟨_, .last hu hw, ?_⟩
        rw [List.append_assoc, List.append_assoc, List.singleton_append, ← hus']
      · simp only [Option.bind_eq_some_iff, Option.some.injEq, Prod.mk.injEq, Prod.exists] at h
        obtain ⟨vs', rest', hvs, rfl, rfl⟩ := h
        obtain ⟨w, hw, hus'⟩ := exists_skipWs_cons hcomma
        obtain ⟨w', hw', htail⟩ := exists_skipWs (skipWs us').tail
        obtain ⟨us, hus, heq⟩ := exists_of_readValues hvs
        refine ⟨_, .cons hu hw hw' hus, ?_⟩
        rw [List.append_assoc, List.append_assoc, List.cons_append, List.append_assoc, ← heq,
          ← htail, ← hus']

theorem exists_of_readMembers : ∀ {fuel : Nat} {us rest : JsString} {ms : List (JsString × Tree)},
    readMembers fuel us = some (ms, rest) → ∃ u, SpellsMembers ms u ∧ us = u ++ rest
  | 0, _, _, _, h => by cases h
  | fuel + 1, us, rest, ms, h => by
      rw [readMembers] at h
      simp only [Option.bind_eq_bind, Option.bind_eq_some_iff, Prod.exists] at h
      obtain ⟨k, us₁, hk, v, us', hv, h⟩ := h
      obtain ⟨lit, w, w', hlit, hw, hw', rfl⟩ := exists_of_readName hk
      obtain ⟨u, hu, rfl⟩ := exists_of_readValue hv
      split_ifs at h with hclose hcomma
      · simp only [Option.some.injEq, Prod.mk.injEq] at h
        obtain ⟨rfl, rfl⟩ := h
        obtain ⟨w'', hw'', hus'⟩ := exists_skipWs_cons hclose
        refine ⟨_, .last hlit hw hw' hu hw'', ?_⟩
        simp only [List.append_assoc, List.cons_append, List.nil_append]
        rw [← hus']
      · simp only [Option.bind_eq_some_iff, Option.some.injEq, Prod.mk.injEq, Prod.exists] at h
        obtain ⟨ms', rest', hms, rfl, rfl⟩ := h
        obtain ⟨w'', hw'', hus'⟩ := exists_skipWs_cons hcomma
        obtain ⟨w₃, hw₃, htail⟩ := exists_skipWs (skipWs us').tail
        obtain ⟨us, hus, heq⟩ := exists_of_readMembers hms
        refine ⟨_, .cons hlit hw hw' hu hw'' hw₃ hus, ?_⟩
        simp only [List.append_assoc, List.cons_append]
        rw [← heq, ← htail, ← hus']

end

/-! ### What is spelled is read -/

/-- A token ends here. -/
def Ends (rest : JsString) : Prop := Stops (fun v ↦ !isDelimiter v) rest

/-- A text that begins with a delimiter ends the bare word before it. -/
theorem ends_cons {u : UInt16} (h : isDelimiter u = true) (rest : JsString) : Ends (u :: rest) := by
  rintro v ⟨⟩
  exact congrArg Bool.not h

theorem ends_ws {w : JsString} (hw : Ws w) {u : UInt16} (h : isDelimiter u = true)
    (rest : JsString) : Ends (w ++ u :: rest) := by
  cases w with
  | nil => exact ends_cons h rest
  | cons v w =>
      refine ends_cons ?_ _
      rw [isDelimiter, hw v (by simp)]
      rfl

theorem stops_ws_cons {u : UInt16} (h : isWs u = false) (rest : JsString) :
    Stops isWs (u :: rest) := by
  rintro v ⟨⟩
  exact h

theorem isWs_of_isDelimiter {u : UInt16} (h : isDelimiter u = false) : isWs u = false := by
  rw [isDelimiter, decide_eq_false_iff_not, not_or] at h
  exact Bool.eq_false_iff.mpr h.1

/-- White space is skipped up to the text behind it. -/
theorem skipWs_append {w us : JsString} (hw : Ws w) (hus : Stops isWs us) :
    skipWs (w ++ us) = us := dropWhile_append_stops hw hus

theorem skipWs_of_ws {w : JsString} (hw : Ws w) : skipWs w = [] := by
  have h := skipWs_append hw (show Stops isWs [] by simp [Stops])
  rwa [List.append_nil] at h

theorem ends_of_ws {w : JsString} (hw : Ws w) : Ends w := by
  rintro v hv
  have := hw v (List.mem_of_mem_head? hv)
  simp [isDelimiter, this]

/-- No spelling of a value begins with white space. -/
theorem Spells.stops {t : Tree} {us : JsString} (h : Spells t us) (rest : JsString) :
    Stops isWs (us ++ rest) := by
  obtain ⟨u, us, rfl, hu⟩ := h.starts
  exact stops_ws_cons (isWs_of_isDelimiter hu) _

theorem SpellsValues.stops {vs : List Tree} {us : JsString} (h : SpellsValues vs us)
    (rest : JsString) : Stops isWs (us ++ rest) := by
  obtain ⟨u, us, rfl, hu⟩ := h.starts
  exact stops_ws_cons (isWs_of_isDelimiter hu) _

theorem SpellsMembers.stops {ms : List (JsString × Tree)} {us : JsString}
    (h : SpellsMembers ms us) (rest : JsString) : Stops isWs (us ++ rest) := by
  obtain ⟨us, rfl⟩ := h.starts
  exact stops_ws_cons rfl _

theorem takeWhile_append_stops {p : UInt16 → Bool} {us rest : JsString}
    (hus : ∀ u ∈ us, p u = true) (hrest : Stops p rest) : (us ++ rest).takeWhile p = us := by
  have hdrop := dropWhile_append_stops hus hrest
  have happ := List.takeWhile_append_dropWhile (p := p) (l := us ++ rest)
  rw [hdrop] at happ
  exact List.append_cancel_right happ

theorem bareTree_numeral {us : JsString} (h : Numeral us) : bareTree us = some (number us) := by
  have hnum := isNumeral_iff.mpr h
  have hne : ∀ s, isNumeral (keyword s) = false → us ≠ keyword s := by
    rintro s hs rfl
    rw [hs] at hnum
    cases hnum
  rw [bareTree, if_neg (hne _ rfl), if_neg (hne _ rfl), if_neg (hne _ rfl), if_pos hnum]

/-- A bare word or numeral is read up to the delimiter behind it. -/
theorem readValue_bare {us rest : JsString} {t : Tree} (h : Bare us) (ht : bareTree us = some t)
    (hrest : Ends rest) (fuel : Nat) : readValue (fuel + 1) (us ++ rest) = some (t, rest) := by
  have hplain : ∀ u ∈ us, (!isDelimiter u) = true := fun u hu ↦ by
    rw [isDelimiter_of_isPlain (h.plain u hu)]
    rfl
  have htake := takeWhile_append_stops hplain hrest
  have hdrop := dropWhile_append_stops hplain hrest
  obtain ⟨u, us, rfl⟩ := List.exists_cons_of_ne_nil h.ne_nil
  have hu := h.plain u (by simp)
  simp only [isPlain, Bool.and_eq_true, bne_iff_ne] at hu
  rw [List.cons_append] at htake hdrop ⊢
  rw [readValue, if_neg hu.2, if_neg hu.1.2, if_neg hu.1.1.2, htake, hdrop, ht]
  rfl

/-- A name is read from every spelling of it. -/
theorem readName_append {k lit w w' rest : JsString} (hk : StringLiteral k lit) (hw : Ws w)
    (hw' : Ws w') (hrest : Stops isWs rest) :
    readName (lit ++ (w ++ unit ':' :: (w' ++ rest))) = some (k, rest) := by
  obtain ⟨us, rfl⟩ : ∃ us, lit = unit '"' :: us := by
    cases hk
    exact ⟨_, rfl⟩
  have hread := readString_eq_some.mpr
    ⟨_, hk, show unit '"' :: (us ++ (w ++ unit ':' :: (w' ++ rest))) = _ from rfl⟩
  rw [List.cons_append, readName, List.head?_cons, if_pos rfl, List.tail_cons, hread]
  simp only [Option.bind_eq_bind, Option.bind_some]
  rw [skipWs_append hw (stops_ws_cons rfl _), List.head?_cons, if_pos rfl, List.tail_cons,
    skipWs_append hw' hrest]

theorem head?_ne {us : JsString} {v : UInt16}
    (hus : ∃ w rest, us = w :: rest ∧ isDelimiter w = false) (hv : isDelimiter v = true)
    (rest : JsString) : (us ++ rest).head? ≠ some v := by
  obtain ⟨w, us, rfl, hw⟩ := hus
  rintro ⟨⟩
  rw [hv] at hw
  cases hw

mutual

/-- Every spelling of a value is read as the value, with fuel for its length. -/
theorem readValue_append : ∀ {t : Tree} {us : JsString}, Spells t us → ∀ {rest : JsString},
    Ends rest → ∀ {fuel : Nat}, us.length < fuel → readValue fuel (us ++ rest) = some (t, rest)
  | _, _, h, _, _, 0, hfuel => absurd hfuel (Nat.not_lt_zero _)
  | _, _, .null, _, hrest, fuel + 1, _ => readValue_bare bare_null rfl hrest fuel
  | _, _, .boolean true, _, hrest, fuel + 1, _ => readValue_bare (bare_boolean true) rfl hrest fuel
  | _, _, .boolean false, _, hrest, fuel + 1, _ =>
      readValue_bare (bare_boolean false) rfl hrest fuel
  | _, _, .number h, _, hrest, fuel + 1, _ => readValue_bare h.bare (bareTree_numeral h) hrest fuel
  | _, _, .string h, rest, _, fuel + 1, _ => by
      cases h with
      | @quoted us h =>
          have hread := readString_eq_some.mpr ⟨_, .quoted h,
            show unit '"' :: ((us ++ [unit '"']) ++ rest) = _ from rfl⟩
          rw [List.cons_append, readValue, if_neg (by decide), if_neg (by decide), if_pos rfl,
            hread]
          rfl
  | _, _, .arrayEmpty hw, rest, _, fuel + 1, _ => by
      rw [List.cons_append, List.append_assoc, readValue, if_neg (by decide), if_pos rfl]
      dsimp only
      rw [List.singleton_append, skipWs_append hw (stops_ws_cons rfl _), List.head?_cons,
        if_pos rfl, List.tail_cons]
  | _, _, .array hw h, rest, _, fuel + 1, hfuel => by
      have hvalues := @readValues_append _ _ h rest fuel
        (by simp only [List.length_cons, List.length_append] at hfuel; omega)
      rw [List.cons_append, List.append_assoc, readValue, if_neg (by decide), if_pos rfl]
      dsimp only
      rw [skipWs_append hw (h.stops rest), if_neg (head?_ne h.starts rfl rest), hvalues]
      rfl
  | _, _, .objectEmpty hw, rest, _, fuel + 1, _ => by
      rw [List.cons_append, List.append_assoc, readValue, if_pos rfl]
      dsimp only
      rw [List.singleton_append, skipWs_append hw (stops_ws_cons rfl _), List.head?_cons,
        if_pos rfl, List.tail_cons]
  | _, _, .object hw h, rest, _, fuel + 1, hfuel => by
      have hmembers := @readMembers_append _ _ h rest fuel
        (by simp only [List.length_cons, List.length_append] at hfuel; omega)
      have hstarts : ∃ w rest, _ = w :: rest ∧ isDelimiter w = false :=
        h.starts.elim fun rest h ↦ ⟨_, rest, h, rfl⟩
      rw [List.cons_append, List.append_assoc, readValue, if_pos rfl]
      dsimp only
      rw [skipWs_append hw (h.stops rest), if_neg (head?_ne hstarts rfl rest), hmembers]
      rfl

theorem readValues_append : ∀ {vs : List Tree} {us : JsString}, SpellsValues vs us →
    ∀ {rest : JsString} {fuel : Nat}, us.length < fuel →
    readValues fuel (us ++ rest) = some (vs, rest)
  | _, _, _, _, 0, hfuel => absurd hfuel (Nat.not_lt_zero _)
  | _, _, .last h hw, rest, fuel + 1, hfuel => by
      simp only [List.length_append, List.length_singleton] at hfuel
      simp only [List.append_assoc, List.singleton_append]
      rw [readValues, readValue_append h (ends_ws hw rfl _) (show _ < fuel by omega)]
      simp only [Option.bind_eq_bind, Option.bind_some]
      rw [skipWs_append hw (stops_ws_cons rfl _), List.head?_cons, if_pos rfl, List.tail_cons]
  | _, _, .cons h hw hw' hs, rest, fuel + 1, hfuel => by
      simp only [List.length_append, List.length_cons] at hfuel
      simp only [List.append_assoc, List.cons_append]
      rw [readValues, readValue_append h (ends_ws hw rfl _) (show _ < fuel by omega)]
      simp only [Option.bind_eq_bind, Option.bind_some]
      rw [skipWs_append hw (stops_ws_cons rfl _), List.head?_cons, if_neg (by decide), if_pos rfl,
        List.tail_cons, skipWs_append hw' (hs.stops rest),
        readValues_append hs (show _ < fuel by omega)]
      rfl

theorem readMembers_append : ∀ {ms : List (JsString × Tree)} {us : JsString},
    SpellsMembers ms us → ∀ {rest : JsString} {fuel : Nat}, us.length < fuel →
    readMembers fuel (us ++ rest) = some (ms, rest)
  | _, _, _, _, 0, hfuel => absurd hfuel (Nat.not_lt_zero _)
  | _, _, .last hk hw hw' h hw'', rest, fuel + 1, hfuel => by
      simp only [List.length_append, List.length_cons] at hfuel
      simp only [List.append_assoc, List.cons_append, List.nil_append]
      rw [readMembers, readName_append hk hw hw' (h.stops _)]
      simp only [Option.bind_eq_bind, Option.bind_some]
      rw [readValue_append h (ends_ws hw'' rfl _) (show _ < fuel by omega)]
      simp only [Option.bind_some]
      rw [skipWs_append hw'' (stops_ws_cons rfl _), List.head?_cons, if_pos rfl, List.tail_cons]
  | _, _, .cons hk hw hw' h hw'' hw₃ hs, rest, fuel + 1, hfuel => by
      simp only [List.length_append, List.length_cons] at hfuel
      simp only [List.append_assoc, List.cons_append]
      rw [readMembers, readName_append hk hw hw' (h.stops _)]
      simp only [Option.bind_eq_bind, Option.bind_some]
      rw [readValue_append h (ends_ws hw'' rfl _) (show _ < fuel by omega)]
      simp only [Option.bind_some]
      rw [skipWs_append hw'' (stops_ws_cons rfl _), List.head?_cons, if_neg (by decide), if_pos rfl,
        List.tail_cons, skipWs_append hw₃ (hs.stops rest),
        readMembers_append hs (show _ < fuel by omega)]
      rfl

end

/-- The reader accepts exactly the texts of the grammar. -/
theorem parseText_eq_some {s : JsString} {t : Tree} : parseText s = some t ↔ Text t s := by
  rw [parseText, Option.bind_eq_some_iff]
  constructor
  · rintro ⟨⟨t', rest⟩, hread, hrest⟩
    simp only [Option.ite_none_right_eq_some, Option.some.injEq] at hrest
    obtain ⟨hrest, rfl⟩ := hrest
    obtain ⟨u, hu, heq⟩ := exists_of_readValue hread
    obtain ⟨w, hw, hs⟩ := exists_skipWs s
    obtain ⟨w', hw', hend⟩ := exists_skipWs rest
    rw [hrest, List.append_nil] at hend
    exact ⟨w, u, w', hw, hw', hu, by rw [hs, heq, hend]⟩
  · rintro ⟨w, u, w', hw, hw', hu, rfl⟩
    refine ⟨(t, w'), ?_, if_pos (skipWs_of_ws hw')⟩
    rw [skipWs_append hw (hu.stops w')]
    exact readValue_append hu (ends_of_ws hw') (by simp only [List.length_append]; omega)

/-- A text has one syntax tree. -/
theorem Text.unique {s : JsString} {t t' : Tree} (h : Text t s) (h' : Text t' s) : t = t' := by
  have heq := parseText_eq_some.mpr h
  rw [parseText_eq_some.mpr h'] at heq
  exact (Option.some.inj heq).symm

end Etp.Document
