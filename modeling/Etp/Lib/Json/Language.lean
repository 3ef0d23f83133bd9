import Etp.Lib.Json.Grammar

/-!
# The language of the reader

`parse` takes exactly the texts of the grammar, each with the value that it denotes
(`parse_eq_some`), so that a text denotes no more than one value.

What is read is spelled by what was consumed, lexeme by lexeme and value by value.  In the
other direction a spelling is read off the front of a longer text.  Only a number needs to
know what follows it, because it goes on as long as there are digits (`EndsNumber`).
-/

namespace Etp.Json

/-! ## Strings -/

/-- The reader of four hexadecimal digits is exact. -/
theorem readHexUnit_eq_some {cs rest : List Char} {n : Nat} :
    readHexUnit cs = some (n, rest) ↔ ∃ ds, HexUnit n ds ∧ cs = ds ++ rest := by
  constructor
  · intro h
    rw [readHexUnit.eq_def] at h
    split at h
    · simp only [Option.bind_eq_bind, Option.bind_eq_some_iff, Option.some.injEq,
        Prod.mk.injEq] at h
      obtain ⟨x, hx, y, hy, z, hz, w, hw, rfl, rfl⟩ := h
      exact ⟨_, .digits hx hy hz hw, rfl⟩
    · cases h
  · rintro ⟨_, ⟨ha, hb, hc, hd⟩, rfl⟩
    simp only [List.cons_append, List.nil_append, readHexUnit, ha, hb, hc, hd,
      Option.bind_eq_bind, Option.bind_some]

theorem hexValue_lt {c : Char} {n : Nat} (h : hexValue c = some n) : n < 16 := by
  have hle : ∀ {a b : Char}, a ≤ b → a.toNat ≤ b.toNat := fun hab ↦ hab
  have h₀ : '0'.toNat = 48 := rfl
  have h₁ : '9'.toNat = 57 := rfl
  have h₂ : 'a'.toNat = 97 := rfl
  have h₃ : 'f'.toNat = 102 := rfl
  have h₄ : 'A'.toNat = 65 := rfl
  have h₅ : 'F'.toNat = 70 := rfl
  rw [hexValue] at h
  split_ifs at h with hd hl hu
  · obtain rfl := Option.some.inj h
    have := hle hd.2
    omega
  · obtain rfl := Option.some.inj h
    have := hle hl.2
    omega
  · obtain rfl := Option.some.inj h
    have := hle hu.2
    omega

theorem HexUnit.lt {n : Nat} {ds : List Char} (h : HexUnit n ds) : n < 0x10000 := by
  obtain ⟨ha, hb, hc, hd⟩ := h
  have := hexValue_lt ha
  have := hexValue_lt hb
  have := hexValue_lt hc
  have := hexValue_lt hd
  omega

theorem toNat_ofNat {n : Nat} (h : n.isValidChar) : (Char.ofNat n).toNat = n := by
  rw [Char.ofNat, dif_pos h]
  rfl

/-- The scalar value of a `\u` escape. -/
theorem readUnicode_eq_some {cs rest : List Char} {c : Char} :
    readUnicode cs = some (c, rest) ↔
      (∃ ds, HexUnit c.toNat ds ∧ cs = ds ++ rest) ∨
      ∃ high low ds es, (0xd800 ≤ high ∧ high ≤ 0xdbff) ∧ (0xdc00 ≤ low ∧ low ≤ 0xdfff) ∧
        HexUnit high ds ∧ HexUnit low es ∧
        c.toNat = 0x10000 + (high - 0xd800) * 0x400 + (low - 0xdc00) ∧
        cs = ds ++ '\\' :: 'u' :: (es ++ rest) := by
  constructor
  · intro h
    simp only [readUnicode, Option.bind_eq_bind, Option.bind_eq_some_iff, Prod.exists] at h
    obtain ⟨first, cs₁, hfirst, h⟩ := h
    obtain ⟨ds, hds, rfl⟩ := readHexUnit_eq_some.mp hfirst
    split_ifs at h with hhigh hlow
    · split at h
      · simp only [Option.bind_eq_some_iff, Option.ite_none_right_eq_some, Option.some.injEq,
          Prod.mk.injEq, Prod.exists] at h
        obtain ⟨second, cs₂, hsecond, hlow, rfl, rfl⟩ := h
        obtain ⟨es, hes, rfl⟩ := readHexUnit_eq_some.mp hsecond
        refine .inr ⟨first, second, ds, es, hhigh, hlow, hds, hes, toNat_ofNat (.inr ?_), rfl⟩
        omega
      · cases h
    · obtain ⟨rfl, rfl⟩ := by simpa only [Option.some.injEq, Prod.mk.injEq] using h
      have hlt := hds.lt
      have hvalid : first.isValidChar := by
        rw [Nat.isValidChar]
        omega
      exact .inl ⟨ds, by rwa [toNat_ofNat hvalid], rfl⟩
  · rintro (⟨ds, hds, rfl⟩ | ⟨high, low, ds, es, hhigh, hlow, hds, hes, hc, rfl⟩)
    · have hvalid : c.toNat.isValidChar := c.valid
      rw [Nat.isValidChar] at hvalid
      have hlt := hds.lt
      rw [readUnicode, readHexUnit_eq_some.mpr ⟨ds, hds, rfl⟩]
      simp only [Option.bind_eq_bind, Option.bind_some]
      rw [if_neg (by omega), if_neg (by omega), Char.ofNat_toNat]
    · rw [readUnicode, readHexUnit_eq_some.mpr ⟨ds, hds, rfl⟩]
      simp only [Option.bind_eq_bind, Option.bind_some]
      rw [if_pos hhigh, readHexUnit_eq_some.mpr ⟨es, hes, rfl⟩, Option.bind_some]
      dsimp only
      rw [if_pos hlow, ← hc, Char.ofNat_toNat]

/-- The reader of an escape is exact. -/
theorem readEscape_eq_some {cs rest : List Char} {c : Char} :
    readEscape cs = some (c, rest) ↔ ∃ u, CharSpelling c ('\\' :: u) ∧ cs = u ++ rest := by
  constructor
  · intro h
    rw [readEscape.eq_def] at h
    split at h
    case h_9 cs =>
      rcases readUnicode_eq_some.mp h with
        ⟨ds, hds, rfl⟩ | ⟨high, low, ds, es, hhigh, hlow, hds, hes, hc, rfl⟩
      · exact ⟨_, .unicode hds, rfl⟩
      · exact ⟨'u' :: (ds ++ '\\' :: 'u' :: es), .pair hhigh hlow hds hes hc, by simp⟩
    case h_10 => cases h
    all_goals
      obtain ⟨rfl, rfl⟩ := by simpa only [Option.some.injEq, Prod.mk.injEq] using h
      exact ⟨[_], .short (by simp [shortEscapes]), rfl⟩
  · rintro ⟨u, hu, rfl⟩
    cases hu with
    | raw _ _ hsolidus => exact absurd rfl hsolidus
    | @short e _ h =>
        simp only [shortEscapes, List.mem_cons, Prod.mk.injEq, List.not_mem_nil, or_false] at h
        rcases h with ⟨rfl, rfl⟩ | ⟨rfl, rfl⟩ | ⟨rfl, rfl⟩ | ⟨rfl, rfl⟩ | ⟨rfl, rfl⟩ | ⟨rfl, rfl⟩ |
          ⟨rfl, rfl⟩ | ⟨rfl, rfl⟩ <;> rfl
    | unicode h =>
        rw [List.cons_append, readEscape]
        exact readUnicode_eq_some.mpr (.inl ⟨_, h, rfl⟩)
    | @pair _ high low ds es hhigh hlow hds hes hc =>
        refine readUnicode_eq_some.mpr (.inr ⟨high, low, ds, es, hhigh, hlow, hds, hes, hc, ?_⟩)
        exact List.append_assoc ds ('\\' :: 'u' :: es) rest

theorem exists_of_readChars {fuel : Nat} {cs rest l : List Char}
    (h : readChars fuel cs = some (l, rest)) :
    ∃ us, CharsSpelling l us ∧ cs = us ++ '"' :: rest := by
  induction fuel generalizing cs l with
  | zero => cases h
  | succ fuel ih =>
      cases cs with
      | nil => cases h
      | cons c cs =>
          rw [readChars] at h
          split_ifs at h with hquote hsolidus hctl
          · obtain ⟨rfl, rfl⟩ := by simpa only [Option.some.injEq, Prod.mk.injEq] using h
            exact ⟨[], .nil, by rw [hquote]; rfl⟩
          · simp only [Option.bind_eq_bind, Option.bind_eq_some_iff, Option.some.injEq,
              Prod.mk.injEq, Prod.exists] at h
            obtain ⟨d, cs', hescape, l', rest', hrest, rfl, rfl⟩ := h
            obtain ⟨u, hu, rfl⟩ := readEscape_eq_some.mp hescape
            obtain ⟨us, hus, rfl⟩ := ih hrest
            refine ⟨_, .cons hu hus, ?_⟩
            rw [hsolidus, List.cons_append, List.cons_append, List.append_assoc]
          · simp only [Option.bind_eq_bind, Option.bind_eq_some_iff, Option.some.injEq,
              Prod.mk.injEq, Prod.exists] at h
            obtain ⟨l', rest', hrest, rfl, rfl⟩ := h
            obtain ⟨us, hus, rfl⟩ := ih hrest
            exact ⟨_, .cons (.raw (not_lt.mp hctl) hquote hsolidus) hus, rfl⟩

theorem readChars_append {l us : List Char} (h : CharsSpelling l us) {fuel : Nat}
    (hfuel : us.length < fuel) (rest : List Char) :
    readChars fuel (us ++ '"' :: rest) = some (l, rest) := by
  induction h generalizing fuel with
  | nil =>
      obtain ⟨fuel, rfl⟩ := Nat.exists_eq_add_one.mpr hfuel
      rfl
  | @cons c l u us h hs ih =>
      obtain ⟨fuel, rfl⟩ := Nat.exists_eq_add_one.mpr (Nat.zero_lt_of_lt hfuel)
      have hpos := h.length_pos
      rw [List.length_append] at hfuel
      have hrest := @ih fuel (by omega)
      rw [List.append_assoc]
      have hescaped : ∀ {u'}, CharSpelling c ('\\' :: u') →
          readChars (fuel + 1) ('\\' :: u' ++ (us ++ '"' :: rest)) = some (c :: l, rest) := by
        intro u' hu
        rw [List.cons_append, readChars, if_neg (by decide), if_pos rfl,
          readEscape_eq_some.mpr ⟨u', hu, rfl⟩]
        simp only [Option.bind_eq_bind, Option.bind_some, hrest]
      cases h with
      | raw hctl hquote hsolidus =>
          rw [List.singleton_append, readChars, if_neg hquote, if_neg hsolidus,
            if_neg (not_lt.mpr hctl), hrest]
          rfl
      | short h => exact hescaped (.short h)
      | unicode h => exact hescaped (.unicode h)
      | pair hhigh hlow hds hes hc => exact hescaped (.pair hhigh hlow hds hes hc)

/-- The reader of a string is exact. -/
theorem readString_eq_some {cs rest : List Char} {s : String} :
    readString cs = some (s, rest) ↔ ∃ us, CharsSpelling s.toList us ∧ cs = us ++ '"' :: rest := by
  simp only [readString, Option.bind_eq_bind, Option.bind_eq_some_iff, Option.some.injEq,
    Prod.mk.injEq, Prod.exists]
  constructor
  · rintro ⟨l, _, h, rfl, rfl⟩
    rw [String.toList_ofList]
    exact exists_of_readChars h
  · rintro ⟨us, hus, rfl⟩
    refine ⟨s.toList, rest, readChars_append hus ?_ rest, String.ofList_toList, rfl⟩
    rw [List.length_append]
    omega

/-! ## Numbers -/

/-- What follows does not go on with the number. -/
def EndsNumber (rest : List Char) : Prop :=
  ∀ c ∈ rest.head?, c.isDigit = false ∧ c ≠ '.' ∧ c ≠ 'e' ∧ c ≠ 'E'

/-- What is read as a natural number are its digits. -/
theorem exists_of_readNat {cs rest : List Char} {n : Nat} (h : readNat cs = some (n, rest)) :
    ∃ ds, Digits ds ∧ n = Nat.ofDigitChars 10 ds 0 ∧ cs = ds ++ rest := by
  rw [readNat] at h
  simp only [Option.ite_none_left_eq_some, Option.some.injEq, Prod.mk.injEq, not_or, not_and,
    not_not] at h
  obtain ⟨⟨hne, hzero, -⟩, rfl, rfl⟩ := h
  exact ⟨_, ⟨hne, fun _ hc ↦ List.mem_takeWhile_imp hc, hzero⟩, rfl,
    List.takeWhile_append_dropWhile.symm⟩

/-- A natural number is read from its digits. -/
theorem readNat_append {ds rest : List Char} (h : Digits ds) (hrest : EndsNumber rest) :
    readNat (ds ++ rest) = some (Nat.ofDigitChars 10 ds 0, rest) := by
  have htake : (ds ++ rest).takeWhile Char.isDigit = ds := by
    rw [List.takeWhile_append_of_pos h.isDigit]
    cases rest with
    | nil => exact List.append_nil ds
    | cons c rest => rw [List.takeWhile_cons_of_neg (by simp [(hrest c rfl).1]), List.append_nil]
  have hdrop : (ds ++ rest).dropWhile Char.isDigit = rest := by
    rw [List.dropWhile_append_of_pos h.isDigit]
    cases rest with
    | nil => rfl
    | cons c rest => rw [List.dropWhile_cons_of_neg (by simp [(hrest c rfl).1])]
  have hend : rest.head? ∉ [some '.', some 'e', some 'E'] := by
    simp only [List.mem_cons, List.not_mem_nil, or_false]
    rintro (hc | hc | hc)
    · exact (hrest _ hc).2.1 rfl
    · exact (hrest _ hc).2.2.1 rfl
    · exact (hrest _ hc).2.2.2 rfl
  rw [readNat, htake, hdrop, if_neg]
  rintro (hnil | ⟨hzero, hne⟩ | hmem)
  · exact h.ne_nil hnil
  · exact hne (h.leading hzero)
  · exact hend hmem

theorem ofDigitChars_eq_zero {ds : List Char} (h : Digits ds) :
    Nat.ofDigitChars 10 ds 0 = 0 ↔ ds = ['0'] := by
  constructor
  · intro hzero
    rw [← h.toDigits_eq, hzero, Nat.toDigits_zero]
  · rintro rfl
    rfl

/-- What is read as an integer is a literal of it. -/
theorem exists_of_readInt {cs rest : List Char} {n : Int} (h : readInt cs = some (n, rest)) :
    ∃ ds, IntegerLiteral n ds ∧ cs = ds ++ rest := by
  rw [readInt.eq_def] at h
  split at h
  · simp only [Option.bind_eq_bind, Option.bind_eq_some_iff, Option.ite_none_left_eq_some,
      Option.some.injEq, Prod.mk.injEq, Prod.exists] at h
    obtain ⟨m, _, hm, hzero, rfl, rfl⟩ := h
    obtain ⟨ds, hds, rfl, rfl⟩ := exists_of_readNat hm
    exact ⟨_, .neg hds (mt (ofDigitChars_eq_zero hds).mpr hzero), rfl⟩
  · simp only [Option.bind_eq_bind, Option.bind_eq_some_iff, Option.some.injEq, Prod.mk.injEq,
      Prod.exists] at h
    obtain ⟨m, _, hm, rfl, rfl⟩ := h
    obtain ⟨ds, hds, rfl, rfl⟩ := exists_of_readNat hm
    exact ⟨_, .nonneg hds, rfl⟩

theorem readInt_append {ds rest : List Char} {n : Int} (h : IntegerLiteral n ds)
    (hrest : EndsNumber rest) : readInt (ds ++ rest) = some (n, rest) := by
  cases h with
  | nonneg h =>
      have hne : ∀ cs, ds ++ rest ≠ '-' :: cs := by
        rintro cs heq
        obtain ⟨d, ds, rfl⟩ := List.exists_cons_of_ne_nil h.ne_nil
        obtain ⟨rfl, -⟩ := List.cons.inj heq
        exact absurd (h.isDigit '-' List.mem_cons_self) (by decide)
      rw [readInt.eq_2 _ hne, readNat_append h hrest]
      rfl
  | neg h hzero =>
      rw [List.cons_append, readInt, readNat_append h hrest]
      simp only [Option.bind_eq_bind, Option.bind_some]
      rw [if_neg (mt (ofDigitChars_eq_zero h).mp hzero)]

/-! ## White space -/

theorem exists_skipWs (cs : List Char) : ∃ w, Ws w ∧ cs = w ++ skipWs cs :=
  ⟨cs.takeWhile isWs, fun _ hc ↦ List.mem_takeWhile_imp hc,
    (List.takeWhile_append_dropWhile).symm⟩

/-- White space, and after it a character that is none. -/
theorem exists_skipWs_cons {cs rest : List Char} {c : Char} (h : skipWs cs = c :: rest) :
    ∃ w, Ws w ∧ cs = w ++ c :: rest := by
  obtain ⟨w, hw, hcs⟩ := exists_skipWs cs
  exact ⟨w, hw, by rwa [h] at hcs⟩

theorem skipWs_append {w : List Char} (hw : Ws w) {c : Char} (hc : isWs c = false)
    (rest : List Char) : skipWs (w ++ c :: rest) = c :: rest := by
  rw [skipWs, List.dropWhile_append_of_pos hw]
  exact skipWs_cons hc rest

theorem skipWs_of_ws {w : List Char} (hw : Ws w) : skipWs w = [] :=
  List.dropWhile_eq_nil_iff.mpr hw

/-- A value opens after the white space before it. -/
theorem skipWs_opens {w u : List Char} (hw : Ws w) (hu : ∃ d us, u = d :: us ∧ Opens d)
    (rest : List Char) : skipWs (w ++ (u ++ rest)) = u ++ rest := by
  obtain ⟨d, us, rfl, hd⟩ := hu
  exact skipWs_append hw hd.solid _

theorem isWs_of_endsNumber {c : Char} (h : isWs c = true) :
    c.isDigit = false ∧ c ≠ '.' ∧ c ≠ 'e' ∧ c ≠ 'E' := by
  rw [isWs, decide_eq_true_iff] at h
  rcases h with rfl | rfl | rfl | rfl <;> decide

theorem endsNumber_of_ws {w : List Char} (hw : Ws w) : EndsNumber w :=
  fun c hc ↦ isWs_of_endsNumber (hw c (List.mem_of_mem_head? hc))

theorem endsNumber_ws_cons {w : List Char} (hw : Ws w) {c : Char}
    (hc : c = ',' ∨ c = ']' ∨ c = '}') (rest : List Char) : EndsNumber (w ++ c :: rest) := by
  cases w with
  | nil =>
      rintro d ⟨⟩
      rcases hc with rfl | rfl | rfl <;> decide
  | cons d w =>
      rintro e ⟨⟩
      exact isWs_of_endsNumber (hw _ List.mem_cons_self)

/-! ## Values -/

theorem readKeyword_eq_some {word cs rest : List Char} {v w : Json} :
    readKeyword word v cs = some (w, rest) ↔ w = v ∧ cs = word ++ rest := by
  rw [readKeyword]
  split_ifs with h
  · obtain ⟨rest', rfl⟩ := List.isPrefixOf_iff_prefix.mp h
    rw [List.drop_left, Option.some.injEq, Prod.mk.injEq, List.append_cancel_left_eq, eq_comm]
  · refine iff_of_false (by rintro ⟨⟩) ?_
    rintro ⟨-, rfl⟩
    exact h (List.isPrefixOf_iff_prefix.mpr (List.prefix_append word rest))

/-! ### What is read is spelled -/

mutual

theorem exists_of_readValue : ∀ {fuel : Nat} {cs rest : List Char} {v : Json},
    readValue fuel cs = some (v, rest) → ∃ u, Spells v u ∧ cs = u ++ rest
  | 0, _, _, _, h => by cases h
  | _ + 1, [], _, _, h => by cases h
  | fuel + 1, c :: cs, rest, v, h => by
      rw [readValue] at h
      obtain ⟨w, hw, hcs⟩ := exists_skipWs cs
      split_ifs at h with hbrace hclose hbracket hclose hquote htrue hfalse hnull
      · simp only [Option.some.injEq, Prod.mk.injEq] at h
        obtain ⟨rfl, rfl⟩ := h
        refine ⟨_, .objEmpty hw, ?_⟩
        rw [List.cons_append, List.cons_append, List.append_assoc, List.singleton_append,
          List.cons_head?_tail hclose, ← hcs, hbrace]
      · simp only [Option.bind_eq_bind, Option.bind_eq_some_iff, Option.some.injEq,
          Prod.mk.injEq, Prod.exists] at h
        obtain ⟨ms, rest', hms, rfl, rfl⟩ := h
        obtain ⟨us, hus, heq⟩ := exists_of_readMembers hms
        refine ⟨_, .obj hw hus, ?_⟩
        rw [List.cons_append, List.cons_append, List.append_assoc, ← heq, ← hcs, hbrace]
      · simp only [Option.some.injEq, Prod.mk.injEq] at h
        obtain ⟨rfl, rfl⟩ := h
        refine ⟨_, .arrEmpty hw, ?_⟩
        rw [List.cons_append, List.cons_append, List.append_assoc, List.singleton_append,
          List.cons_head?_tail hclose, ← hcs, hbracket]
      · simp only [Option.bind_eq_bind, Option.bind_eq_some_iff, Option.some.injEq,
          Prod.mk.injEq, Prod.exists] at h
        obtain ⟨vs, rest', hvs, rfl, rfl⟩ := h
        obtain ⟨us, hus, heq⟩ := exists_of_readValues hvs
        refine ⟨_, .arr hw hus, ?_⟩
        rw [List.cons_append, List.cons_append, List.append_assoc, ← heq, ← hcs, hbracket]
      · simp only [Option.bind_eq_bind, Option.bind_eq_some_iff, Option.some.injEq,
          Prod.mk.injEq, Prod.exists] at h
        obtain ⟨s, rest', hs, rfl, rfl⟩ := h
        obtain ⟨us, hus, rfl⟩ := readString_eq_some.mp hs
        refine ⟨_, .str (.quoted hus), ?_⟩
        rw [List.cons_append, List.cons_append, List.append_assoc, List.singleton_append, hquote]
      · obtain ⟨rfl, heq⟩ := readKeyword_eq_some.mp h
        exact ⟨_, .true, heq⟩
      · obtain ⟨rfl, heq⟩ := readKeyword_eq_some.mp h
        exact ⟨_, .false, heq⟩
      · obtain ⟨rfl, heq⟩ := readKeyword_eq_some.mp h
        exact ⟨_, .null, heq⟩
      · simp only [Option.bind_eq_bind, Option.bind_eq_some_iff, Option.some.injEq,
          Prod.mk.injEq, Prod.exists] at h
        obtain ⟨n, rest', hn, rfl, rfl⟩ := h
        obtain ⟨ds, hds, heq⟩ := exists_of_readInt hn
        exact ⟨ds, .num hds, heq⟩

theorem exists_of_readValues : ∀ {fuel : Nat} {cs rest : List Char} {vs : List Json},
    readValues fuel cs = some (vs, rest) → ∃ us, SpellsValues vs us ∧ cs = us ++ rest
  | 0, _, _, _, h => by cases h
  | fuel + 1, cs, rest, vs, h => by
      rw [readValues] at h
      simp only [Option.bind_eq_bind, Option.bind_eq_some_iff, Prod.exists] at h
      obtain ⟨v, cs', hv, h⟩ := h
      obtain ⟨u, hu, rfl⟩ := exists_of_readValue hv
      split at h
      · rename_i hclose
        simp only [Option.some.injEq, Prod.mk.injEq] at h
        obtain ⟨rfl, rfl⟩ := h
        obtain ⟨w, hw, rfl⟩ := exists_skipWs_cons hclose
        refine ⟨_, .last hu hw, ?_⟩
        simp only [List.append_assoc, List.singleton_append]
      · rename_i cs₂ hcomma
        simp only [Option.bind_eq_some_iff, Option.some.injEq, Prod.mk.injEq, Prod.exists] at h
        obtain ⟨vs', rest', hvs, rfl, rfl⟩ := h
        obtain ⟨w, hw, rfl⟩ := exists_skipWs_cons hcomma
        obtain ⟨w', hw', heq'⟩ := exists_skipWs cs₂
        obtain ⟨us, hus, heq⟩ := exists_of_readValues hvs
        refine ⟨_, .cons hu hw hw' hus, ?_⟩
        simp only [List.append_assoc, List.cons_append]
        rw [← heq, ← heq']
      · cases h

theorem exists_of_readMembers : ∀ {fuel : Nat} {cs rest : List Char}
    {ms : List (String × Json)},
    readMembers fuel cs = some (ms, rest) → ∃ us, SpellsMembers ms us ∧ cs = us ++ rest
  | 0, _, _, _, h => by cases h
  | fuel + 1, cs, rest, ms, h => by
      rw [readMembers.eq_def] at h
      dsimp only at h
      split at h
      · simp only [Option.bind_eq_bind, Option.bind_eq_some_iff, Prod.exists] at h
        obtain ⟨k, cs', hk, h⟩ := h
        obtain ⟨ks, hks, rfl⟩ := readString_eq_some.mp hk
        split at h
        · rename_i cs₁ hcolon
          simp only [Option.bind_eq_some_iff, Prod.exists] at h
          obtain ⟨v, cs₂, hv, h⟩ := h
          obtain ⟨w, hw, rfl⟩ := exists_skipWs_cons hcolon
          obtain ⟨w', hw', hcs₁⟩ := exists_skipWs cs₁
          obtain ⟨u, hu, heq⟩ := exists_of_readValue hv
          rw [heq] at hcs₁
          subst hcs₁
          split at h
          · rename_i hclose
            simp only [Option.some.injEq, Prod.mk.injEq] at h
            obtain ⟨rfl, rfl⟩ := h
            obtain ⟨w'', hw'', rfl⟩ := exists_skipWs_cons hclose
            refine ⟨_, .last (.quoted hks) hw hw' hu hw'', ?_⟩
            simp only [List.append_assoc, List.cons_append, List.nil_append]
          · rename_i cs₃ hcomma
            simp only [Option.bind_eq_some_iff, Option.some.injEq, Prod.mk.injEq,
              Prod.exists] at h
            obtain ⟨ms', rest', hms, rfl, rfl⟩ := h
            obtain ⟨w'', hw'', rfl⟩ := exists_skipWs_cons hcomma
            obtain ⟨w₃, hw₃, hcs₃⟩ := exists_skipWs cs₃
            obtain ⟨us, hus, hrest⟩ := exists_of_readMembers hms
            refine ⟨_, .cons (.quoted hks) hw hw' hu hw'' hw₃ hus, ?_⟩
            simp only [List.append_assoc, List.cons_append, List.nil_append]
            rw [← hrest, ← hcs₃]
          · cases h
        · cases h
      · cases h

end

/-! ### What is spelled is read -/

theorem SpellsMembers.opens {ms : List (String × Json)} {us : List Char}
    (h : SpellsMembers ms us) : ∃ d ds, us = d :: ds ∧ Opens d := by
  obtain ⟨ds, rfl⟩ := h.starts
  exact ⟨'"', ds, rfl, by decide, by decide, by decide, by decide⟩

theorem head?_ne_of_opens {u : List Char} {c : Char} (hu : ∃ d us, u = d :: us ∧ Opens d)
    (hc : c = ']' ∨ c = '}') (rest : List Char) : (u ++ rest).head? ≠ some c := by
  obtain ⟨d, us, rfl, hd⟩ := hu
  rintro ⟨⟩
  rcases hc with rfl | rfl
  · exact hd.not_bracket rfl
  · exact hd.not_brace rfl

theorem readValue_integer {n : Int} {ds rest : List Char} (h : IntegerLiteral n ds)
    (hrest : EndsNumber rest) (fuel : Nat) :
    readValue (fuel + 1) (ds ++ rest) = some (num n, rest) := by
  have hread := readInt_append h hrest
  obtain ⟨d, us, rfl, hd⟩ := h.starts
  have hne : ∀ {c : Char}, c ≠ '-' → c.isDigit = false → d ≠ c := by
    rintro c hminus hdigit rfl
    rcases hd with hd | hd
    · exact hminus hd
    · rw [hdigit] at hd
      cases hd
  rw [List.cons_append] at hread ⊢
  rw [readValue, if_neg (hne (by decide) rfl), if_neg (hne (by decide) rfl),
    if_neg (hne (by decide) rfl), if_neg (hne (by decide) rfl), if_neg (hne (by decide) rfl),
    if_neg (hne (by decide) rfl), hread]
  rfl

mutual

theorem readValue_append : ∀ {v : Json} {u : List Char}, Spells v u → ∀ {rest : List Char},
    EndsNumber rest → ∀ {fuel : Nat}, u.length < fuel →
    readValue fuel (u ++ rest) = some (v, rest)
  | _, _, h, _, _, 0, hfuel => absurd hfuel (Nat.not_lt_zero _)
  | _, _, .null, rest, _, fuel + 1, _ => by simp [readValue, readKeyword]
  | _, _, .true, rest, _, fuel + 1, _ => by simp [readValue, readKeyword]
  | _, _, .false, rest, _, fuel + 1, _ => by simp [readValue, readKeyword]
  | _, _, .num h, _, hrest, fuel + 1, _ => readValue_integer h hrest fuel
  | _, _, .str h, rest, _, fuel + 1, _ => by
      cases h with
      | @quoted us h =>
          have hread := readString_eq_some.mpr ⟨us, h, show us ++ '"' :: rest = _ from rfl⟩
          rw [List.cons_append, List.cons_append, List.append_assoc, List.singleton_append,
            readValue, if_neg (by decide), if_neg (by decide), if_pos rfl, hread]
          rfl
  | _, _, .arrEmpty hw, rest, _, fuel + 1, _ => by
      rw [List.cons_append, List.cons_append, List.append_assoc, List.singleton_append, readValue,
        if_neg (by decide), if_pos rfl, skipWs_append hw rfl, List.head?_cons, if_pos rfl,
        List.tail_cons]
  | _, _, .arr hw h, rest, _, fuel + 1, hfuel => by
      have hvalues := @readValues_append _ _ h rest fuel
        (by simp only [List.cons_append, List.length_cons, List.length_append] at hfuel; omega)
      rw [List.cons_append, List.cons_append, List.append_assoc, readValue, if_neg (by decide),
        if_pos rfl, skipWs_opens hw h.starts, if_neg (head?_ne_of_opens h.starts (.inl rfl) rest),
        hvalues]
      rfl
  | _, _, .objEmpty hw, rest, _, fuel + 1, _ => by
      rw [List.cons_append, List.cons_append, List.append_assoc, List.singleton_append, readValue,
        if_pos rfl, skipWs_append hw rfl, List.head?_cons, if_pos rfl, List.tail_cons]
  | _, _, .obj hw h, rest, _, fuel + 1, hfuel => by
      have hmembers := @readMembers_append _ _ h rest fuel
        (by simp only [List.cons_append, List.length_cons, List.length_append] at hfuel; omega)
      rw [List.cons_append, List.cons_append, List.append_assoc, readValue, if_pos rfl,
        skipWs_opens hw h.opens, if_neg (head?_ne_of_opens h.opens (.inr rfl) rest), hmembers]
      rfl

theorem readValues_append : ∀ {vs : List Json} {us : List Char}, SpellsValues vs us →
    ∀ {rest : List Char} {fuel : Nat}, us.length < fuel →
    readValues fuel (us ++ rest) = some (vs, rest)
  | _, _, _, _, 0, hfuel => absurd hfuel (Nat.not_lt_zero _)
  | _, _, .last h hw, rest, fuel + 1, hfuel => by
      simp only [List.length_append, List.length_singleton] at hfuel
      simp only [List.append_assoc, List.singleton_append]
      rw [readValues, readValue_append h (endsNumber_ws_cons hw (by simp) _)
        (show _ < fuel by omega)]
      simp only [Option.bind_eq_bind, Option.bind_some, @skipWs_append _ hw ']' rfl]
  | _, _, .cons h hw hw' hs, rest, fuel + 1, hfuel => by
      simp only [List.length_append, List.length_cons] at hfuel
      simp only [List.append_assoc, List.cons_append]
      rw [readValues, readValue_append h (endsNumber_ws_cons hw (by simp) _)
        (show _ < fuel by omega)]
      simp only [Option.bind_eq_bind, Option.bind_some, @skipWs_append _ hw ',' rfl]
      rw [skipWs_opens hw' hs.starts, readValues_append hs (show _ < fuel by omega)]
      rfl

theorem readMembers_append : ∀ {ms : List (String × Json)} {us : List Char},
    SpellsMembers ms us → ∀ {rest : List Char} {fuel : Nat}, us.length < fuel →
    readMembers fuel (us ++ rest) = some (ms, rest)
  | _, _, _, _, 0, hfuel => absurd hfuel (Nat.not_lt_zero _)
  | _, _, .last hk hw hw' h hw'', rest, fuel + 1, hfuel => by
      cases hk with
      | @quoted ks hk =>
          simp only [List.length_append, List.length_cons] at hfuel
          simp only [List.append_assoc, List.cons_append, List.nil_append]
          rw [readMembers, readString_eq_some.mpr ⟨ks, hk, rfl⟩]
          simp only [Option.bind_eq_bind, Option.bind_some, @skipWs_append _ hw ':' rfl]
          rw [skipWs_opens hw' h.starts, readValue_append h (endsNumber_ws_cons hw'' (by simp) _)
            (show _ < fuel by omega)]
          simp only [Option.bind_some, @skipWs_append _ hw'' '}' rfl]
  | _, _, .cons hk hw hw' h hw'' hw₃ hs, rest, fuel + 1, hfuel => by
      cases hk with
      | @quoted ks hk =>
          simp only [List.length_append, List.length_cons] at hfuel
          simp only [List.append_assoc, List.cons_append, List.nil_append]
          rw [readMembers, readString_eq_some.mpr ⟨ks, hk, rfl⟩]
          simp only [Option.bind_eq_bind, Option.bind_some, @skipWs_append _ hw ':' rfl]
          rw [skipWs_opens hw' h.starts, readValue_append h (endsNumber_ws_cons hw'' (by simp) _)
            (show _ < fuel by omega)]
          simp only [Option.bind_some, @skipWs_append _ hw'' ',' rfl]
          rw [skipWs_opens hw₃ hs.opens, readMembers_append hs (show _ < fuel by omega)]
          rfl

end

/-- **The language of the reader.**  It takes the texts of the grammar. -/
theorem parse_eq_some {cs : List Char} {v : Json} : parse cs = some v ↔ Text v cs := by
  simp only [parse, Option.bind_eq_bind, Option.bind_eq_some_iff, Option.ite_none_right_eq_some,
    Option.some.injEq, Prod.exists]
  constructor
  · rintro ⟨v, rest, hread, hrest, rfl⟩
    obtain ⟨u, hu, heq⟩ := exists_of_readValue hread
    obtain ⟨w, hw, hcs⟩ := exists_skipWs cs
    obtain ⟨w', hw', hend⟩ := exists_skipWs rest
    rw [hrest, List.append_nil] at hend
    exact ⟨w, u, w', hw, hw', hu, by rw [hcs, heq, hend]⟩
  · rintro ⟨w, u, w', hw, hw', hu, rfl⟩
    refine ⟨v, w', ?_, skipWs_of_ws hw', rfl⟩
    rw [skipWs_opens hw hu.starts]
    refine readValue_append hu (endsNumber_of_ws hw') ?_
    simp only [List.length_append]
    omega

end Etp.Json
