import Etp.TypeScript.Lexemes

/-!
# Numbers and keywords of the strict parser

A number is read in three steps: its sign, its digits, and the tests of what follows
and of the value.  The token that `Number` converts is the text that the first two
steps have passed over.
-/

namespace Etp.TypeScript

open JsString Json Cursor

/-! ## Numbers -/

theorem isDigit_unit {d : Char} (h : d.isDigit = true) :
    d.toNat < 0x80 ∧ Cursor.isDigit (unit d) = true := by
  simp only [Char.isDigit, Bool.and_eq_true, decide_eq_true_eq] at h
  have h₁ : '0'.toNat ≤ d.toNat := h.1
  have h₂ : d.toNat ≤ '9'.toNat := h.2
  have hlt : d.toNat < 0x80 := h₂.trans_lt (by decide)
  exact ⟨hlt, decide_eq_true (by rw [toNat_unit (hlt.trans (by decide))]; exact ⟨h₁, h₂⟩)⟩

theorem exists_digit_of_isDigit {u : UInt16} (h : Cursor.isDigit u = true) :
    ∃ d : Char, d.isDigit = true ∧ unit d = u ∧ d.toNat = u.toNat := by
  simp only [Cursor.isDigit, decide_eq_true_eq] at h
  obtain ⟨d, hd, hnat⟩ := exists_unit_of_lt (h.2.trans_lt (by decide))
  refine ⟨d, ?_, hd, hnat⟩
  simp only [Char.isDigit, Bool.and_eq_true, decide_eq_true_eq]
  have h₁ : '0'.toNat ≤ d.toNat := hnat ▸ h.1
  have h₂ : d.toNat ≤ '9'.toNat := hnat ▸ h.2
  exact ⟨h₁, h₂⟩

/-- Digits of the source are digits of a text, one code unit for each. -/
theorem exists_digits_of_forall {us : JsString} (h : ∀ u ∈ us, Cursor.isDigit u = true) :
    ∃ ds : List Char, (∀ d ∈ ds, d.isDigit = true) ∧ us = utf16 ds ∧ us.length = ds.length := by
  induction us with
  | nil => exact ⟨[], by simp, rfl, rfl⟩
  | cons u us ih =>
      obtain ⟨ds, hds, rfl, hlen⟩ := ih fun v hv ↦ h v (List.mem_cons_of_mem _ hv)
      obtain ⟨d, hd, rfl, -⟩ := exists_digit_of_isDigit (h u (by simp))
      refine ⟨d :: ds, List.forall_mem_cons.mpr ⟨hd, hds⟩, ?_, by simp [hlen]⟩
      rw [utf16_ascii (isDigit_unit hd).1]

theorem length_utf16_digits {ds : List Char} (h : ∀ d ∈ ds, d.isDigit = true) :
    (utf16 ds).length = ds.length := by
  induction ds with
  | nil => rfl
  | cons d ds ih =>
      rw [utf16_ascii (isDigit_unit (h d (by simp))).1, List.length_cons, List.length_cons,
        ih fun e he ↦ h e (List.mem_cons_of_mem _ he)]

/-- The value of decimal digits, in code units or in characters. -/
theorem digitsValue_utf16 {ds : List Char} (h : ∀ d ∈ ds, d.isDigit = true) :
    digitsValue (utf16 ds) = Nat.ofDigitChars 10 ds 0 := by
  have key : ∀ n, (utf16 ds).foldl (fun n u ↦ 10 * n + (u.toNat - '0'.toNat)) n =
      Nat.ofDigitChars 10 ds n := by
    induction ds with
    | nil => exact fun n ↦ rfl
    | cons d ds ih =>
        intro n
        have hd := (isDigit_unit (h d (by simp))).1
        rw [utf16_ascii hd, List.foldl_cons, ih fun e he ↦ h e (List.mem_cons_of_mem _ he),
          toNat_unit (hd.trans (by decide))]
        rfl
  exact key 0

@[simp] theorem advance_advance (c : Cursor) (n m : Nat) :
    (c.advance n).advance m = c.advance (n + m) := by
  simp [advance, List.drop_drop, Nat.add_assoc]

theorem head?_of_current {c : Cursor} {d : Char} (h : c.take d = none) {e : Char}
    (he : c.rest.head? = some (unit e)) : e ≠ d := by
  rintro rfl
  simp [take, current, he] at h

/-- What the loop over the digits takes is an integer part. -/
theorem exists_of_numberDigits {c c' : Cursor} (h : c.numberDigits = .ok c') :
    ∃ ds, Digits ds ∧ c.rest = utf16 ds ++ c'.rest ∧ c' = c.advance ds.length := by
  unfold numberDigits at h
  split at h
  · next c₁ hzero =>
      simp only [bind_eq_ok, rejectIf_eq_ok, exists_const, Except.ok.injEq] at h
      obtain ⟨-, rfl⟩ := h
      refine ⟨['0'], ⟨by simp, by simp, fun _ ↦ rfl⟩, (Consumes.of_take hzero (by decide)).rest, ?_⟩
      simp only [take, Option.ite_none_right_eq_some, Option.some.injEq] at hzero
      exact hzero.2.symm
  · next hzero =>
      simp only [bind_eq_ok, rejectIf_eq_ok, not_not, exists_const, Except.ok.injEq] at h
      obtain ⟨hfirst, rfl⟩ := h
      cases hr : c.rest with
      | nil => simp [current, hr] at hfirst
      | cons u rest =>
          have hu : isNonzeroDigit u = true := by simpa [current, hr] using hfirst
          have hdig : Cursor.isDigit u = true := by
            simp only [isNonzeroDigit, Cursor.isDigit, decide_eq_true_eq] at hu ⊢
            exact ⟨le_trans (by decide) hu.1, hu.2⟩
          obtain ⟨d, hd, rfl, -⟩ := exists_digit_of_isDigit hdig
          obtain ⟨ds, hds, htake, hlen⟩ := exists_digits_of_forall
            fun u (hu : u ∈ rest.takeWhile Cursor.isDigit) ↦ List.mem_takeWhile_imp hu
          have hrest : (c.advance 1).rest = rest := by rw [advance_rest, hr]; rfl
          have hne := head?_of_current hzero (e := d) (by rw [hr]; rfl)
          refine ⟨d :: ds, ⟨by simp, List.forall_mem_cons.mpr ⟨hd, hds⟩, ?_⟩, ?_, ?_⟩
          · intro hhead
            exact absurd (Option.some.inj hhead) hne
          · rw [utf16_ascii (isDigit_unit hd).1, hrest, advance_rest, hrest, ← htake,
              List.cons_append]
            rw [drop_length_takeWhile, List.takeWhile_append_dropWhile]
          · rw [hrest, advance_advance, hlen, List.length_cons, Nat.add_comm]

/-- `Number` of a token without a sign. -/
theorem toNumber_digits {ds : List Char} (h : Digits ds) :
    toNumber (utf16 ds) = .ofInt (Nat.ofDigitChars 10 ds 0) := by
  have hhead : (utf16 ds).head? ≠ some (unit '-') := by
    obtain ⟨d, ds, rfl⟩ := List.exists_cons_of_ne_nil h.ne_nil
    have hd := h.isDigit d (by simp)
    have hascii := (isDigit_unit hd).1
    rw [utf16_ascii hascii, List.head?_cons, ne_eq, Option.some.injEq,
      unit_inj (by omega) (by decide)]
    rintro rfl
    cases hd
  rw [toNumber, if_neg hhead, digitsValue_utf16 h.isDigit]

/-- `Number` of a token with a sign: `-0` is negative zero. -/
theorem toNumber_neg {ds : List Char} (h : Digits ds) :
    toNumber (utf16 ('-' :: ds)) = if Nat.ofDigitChars 10 ds 0 = 0 then .negativeZero
      else .ofInt (-(Nat.ofDigitChars 10 ds 0)) := by
  rw [utf16_ascii (by decide), toNumber, List.head?_cons, if_pos rfl, List.tail_cons,
    digitsValue_utf16 h.isDigit]

/-- The end of `number` passes integers that are safe, and no negative zero. -/
theorem numberValue_eq_ok {start c c' : Cursor} {v : JsValue} {token rest : JsString}
    (htoken : start.rest = token ++ rest) (hc : c = start.advance token.length) :
    start.numberValue c = .ok (v, c') ↔
      c.current ∉ [some (unit '.'), some (unit 'e'), some (unit 'E')] ∧
        (toNumber token).isSafeInteger = true ∧ toNumber token ≠ .negativeZero ∧
        v = .number (toNumber token) ∧ c' = c := by
  have htake : start.rest.take (c.index - start.index) = token := by
    rw [hc, advance_index, Nat.add_sub_cancel_left, htoken, List.take_left]
  simp only [numberValue, bind_eq_ok, rejectIf_eq_ok, exists_const, htake, not_or, not_not,
    Except.ok.injEq, Prod.mk.injEq, and_assoc, ne_eq, eq_comm (a := v), eq_comm (a := c')]

/-- What is read as a number is a safe integer, in its only spelling. -/
theorem exists_of_number {start c' : Cursor} {v : JsValue} (h : start.number = .ok (v, c')) :
    ∃ n ds, v = ofJson (.num n) ∧ IntegerLiteral n ds ∧ n.natAbs ≤ JsNumber.maxSafe ∧
      Consumes start ds 0 c' := by
  rw [number, bind_eq_ok] at h
  obtain ⟨c, hminus, h⟩ := h
  obtain ⟨c₁, hdigits, hvalue⟩ := bind_eq_ok.mp h
  obtain ⟨ds, hds, hrest, hc₁⟩ := exists_of_numberDigits hdigits
  have hlen := length_utf16_digits hds.isDigit
  cases htake : start.take '-' with
  | none =>
      simp only [numberSign, htake, Except.ok.injEq] at hminus
      subst hminus
      obtain ⟨-, hsafe, -, rfl, rfl⟩ := (numberValue_eq_ok hrest (by rw [hlen, hc₁])).mp hvalue
      rw [toNumber_digits hds] at hsafe ⊢
      rw [JsNumber.isSafeInteger_ofInt, decide_eq_true_eq] at hsafe
      refine ⟨_, ds, rfl, .nonneg hds, hsafe, hrest, ?_⟩
      rw [hc₁]
      rfl
  | some c₂ =>
      simp only [numberSign, htake, bind_eq_ok, rejectIf_eq_ok, exists_const,
        Except.ok.injEq] at hminus
      obtain ⟨-, rfl⟩ := hminus
      have hstart := Consumes.of_take htake (by decide)
      have hadv : c₂ = start.advance 1 := by
        simp only [take, Option.ite_none_right_eq_some, Option.some.injEq] at htake
        exact htake.2.symm
      have htoken : start.rest = utf16 ('-' :: ds) ++ c₁.rest := by
        rw [hstart.rest, hrest, ← List.append_assoc, ← utf16_append]
        rfl
      have hc₁' : c₁ = start.advance (utf16 ('-' :: ds)).length := by
        rw [hc₁, hadv, advance_advance, utf16_ascii (by decide), List.length_cons, hlen,
          Nat.add_comm]
      obtain ⟨-, hsafe, hzero, rfl, rfl⟩ := (numberValue_eq_ok htoken hc₁').mp hvalue
      rw [toNumber_neg hds] at hsafe hzero ⊢
      split_ifs at hsafe hzero ⊢ with hval
      · exact absurd rfl hzero
      · rw [JsNumber.isSafeInteger_ofInt, decide_eq_true_eq] at hsafe
        refine ⟨_, '-' :: ds, rfl, .neg hds ?_, hsafe, htoken, ?_⟩
        · rintro rfl
          exact hval rfl
        · rw [hc₁']
          rfl

/-- A source that does not go on as a number does. -/
def Apart (rest : JsString) : Prop :=
  ∀ u ∈ rest.head?, Cursor.isDigit u = false ∧ u ≠ unit '.' ∧ u ≠ unit 'e' ∧ u ≠ unit 'E'

theorem numberDigits_of_rest {c : Cursor} {ds : List Char} {rest : JsString} (hds : Digits ds)
    (h : c.rest = utf16 ds ++ rest) (hrest : Apart rest) :
    c.numberDigits = .ok (c.advance ds.length) := by
  obtain ⟨d, ds, rfl⟩ := List.exists_cons_of_ne_nil hds.ne_nil
  have hd := hds.isDigit d (by simp)
  obtain ⟨hascii, hdig⟩ := isDigit_unit hd
  have htail : ∀ e ∈ ds, e.isDigit = true := fun e he ↦ hds.isDigit e (List.mem_cons_of_mem _ he)
  have hstop : ∀ n, (utf16 ds ++ rest).drop n = rest →
      ((utf16 ds ++ rest).drop n).head?.any Cursor.isDigit = false := by
    intro n hn
    rw [hn]
    cases rest with
    | nil => rfl
    | cons u rest => simpa using (hrest u rfl).1
  rw [utf16_ascii hascii, List.cons_append] at h
  have hadv : (c.advance 1).rest = utf16 ds ++ rest := by rw [advance_rest, h]; rfl
  by_cases hzero : d = '0'
  · subst hzero
    obtain rfl : ds = [] := (List.cons.inj (hds.leading rfl)).2
    have hnot : (c.advance 1).current.any Cursor.isDigit = false := by
      rw [current, hadv]
      exact hstop 0 rfl
    rw [numberDigits, take_of_rest h]
    dsimp only
    rw [rejectIf_false (by simp [hnot]), ok_bind]
    rfl
  · have hne : unit d ≠ unit '0' := fun heq ↦
      hzero ((unit_inj (by omega) (by decide)).mp heq)
    have hnonzero : c.current.any isNonzeroDigit = true := by
      rw [current, h, List.head?_cons, Option.any_some]
      simp only [isNonzeroDigit, Cursor.isDigit, decide_eq_true_eq] at hdig ⊢
      have : (unit d).toNat ≠ '0'.toNat := by
        rw [toNat_unit (by omega)]
        exact fun heq ↦ hzero (Char.toNat_inj.mp heq)
      have h₀ : '0'.toNat = 48 := rfl
      have h₁ : '1'.toNat = 49 := rfl
      omega
    have hwhile : (utf16 ds ++ rest).takeWhile Cursor.isDigit = utf16 ds := by
      have hall : ∀ u ∈ utf16 ds, Cursor.isDigit u = true := by
        intro u hu
        obtain ⟨e, he, hmem⟩ := List.mem_flatMap.mp hu
        obtain ⟨hea, hed⟩ := isDigit_unit (htail e he)
        rw [encode_of_lt (by omega), List.mem_singleton] at hmem
        rwa [hmem]
      rw [List.takeWhile_append_of_pos hall]
      cases rest with
      | nil => simp
      | cons u rest => simp [(hrest u rfl).1]
    rw [numberDigits, take_of_ne h hne]
    dsimp only
    rw [rejectIf_false (by simp [hnonzero]), ok_bind, hadv, hwhile, length_utf16_digits htail,
      advance_advance, List.length_cons, Nat.add_comm]

/-- A safe integer is read from its spelling. -/
theorem number_of_rest {c : Cursor} {n : Int} {lit : List Char} {rest : JsString}
    (hn : IntegerLiteral n lit) (hsafe : n.natAbs ≤ JsNumber.maxSafe)
    (h : c.rest = utf16 lit ++ rest) (hrest : Apart rest) :
    Leaves c.number (ofJson (.num n)) rest c.nodes := by
  have hstop : ∀ {c' : Cursor}, c'.rest = rest →
      c'.current ∉ [some (unit '.'), some (unit 'e'), some (unit 'E')] := by
    intro c' hc' hmem
    simp only [current, hc', List.mem_cons, List.not_mem_nil, or_false] at hmem
    rcases hmem with hm | hm | hm <;> simpa using hrest _ hm
  have hfinite : JsNumber.ofInt n ≠ .negativeZero := by
    rw [JsNumber.ofInt_of_le hsafe]
    rintro ⟨⟩
  have hsafe' : (JsNumber.ofInt n).isSafeInteger = true := by
    rw [JsNumber.isSafeInteger_ofInt]
    exact decide_eq_true hsafe
  have hlen : (c.advance (utf16 lit).length).rest = rest := by
    rw [advance_rest, h, List.drop_left]
  have hnumber : toNumber (utf16 lit) = .ofInt n := by
    cases hn with
    | nonneg hds => exact toNumber_digits hds
    | neg hds hzero =>
        rw [toNumber_neg hds, if_neg]
        intro hval
        refine hzero ?_
        rw [← hds.toDigits_eq, hval, Nat.toDigits_zero]
  refine ⟨c.advance (utf16 lit).length, ?_, hlen, rfl⟩
  have hdigits : ∃ c₁, c.numberSign = .ok c₁ ∧
      c₁.numberDigits = .ok (c.advance (utf16 lit).length) := by
    cases hn with
    | @nonneg ds hds =>
        refine ⟨c, ?_, ?_⟩
        · obtain ⟨d, ds, rfl⟩ := List.exists_cons_of_ne_nil hds.ne_nil
          have hd := hds.isDigit d (by simp)
          have hascii := (isDigit_unit hd).1
          rw [utf16_ascii hascii, List.cons_append] at h
          have hne : unit d ≠ unit '-' := by
            rw [ne_eq, unit_inj (by omega) (by decide)]
            rintro rfl
            cases hd
          rw [numberSign, take_of_ne h hne]
        · rw [numberDigits_of_rest hds h hrest, length_utf16_digits hds.isDigit]
    | @neg ds hds hzero =>
        rw [utf16_ascii (by decide), List.cons_append] at h
        have hadv : (c.advance 1).rest = utf16 ds ++ rest := by rw [advance_rest, h]; rfl
        refine ⟨c.advance 1, ?_, ?_⟩
        · have hne : (c.advance 1).rest ≠ [] := by
            obtain ⟨d, ds, rfl⟩ := List.exists_cons_of_ne_nil hds.ne_nil
            rw [hadv, utf16_ascii (isDigit_unit (hds.isDigit d (by simp))).1]
            rintro ⟨⟩
          rw [numberSign, take_of_rest h]
          dsimp only
          rw [rejectIf_false hne, ok_bind]
        · rw [numberDigits_of_rest hds hadv hrest, advance_advance, utf16_ascii (by decide),
            List.length_cons, length_utf16_digits hds.isDigit, Nat.add_comm]
  obtain ⟨c₁, hminus, hdigits⟩ := hdigits
  rw [number, hminus, ok_bind, hdigits, ok_bind, numberValue_eq_ok h rfl, hnumber]
  exact ⟨hstop hlen, hsafe', hfinite, rfl, rfl⟩

/-! ## Keywords -/

/-- What is read as a keyword spells it. -/
theorem exists_of_keyword {c c' : Cursor} {token : String} {v w : JsValue}
    (h : c.keyword token v = .ok (w, c')) : w = v ∧ Consumes c token.toList 0 c' := by
  simp only [keyword, bind_eq_ok, rejectIf_eq_ok, not_not, exists_const, Except.ok.injEq,
    Prod.mk.injEq] at h
  obtain ⟨htake, rfl, rfl⟩ := h
  refine ⟨rfl, ?_, rfl⟩
  rw [advance_rest, show utf16 token.toList = c.rest.take token.length from htake.symm,
    List.take_append_drop]

/-- A keyword is read from its spelling. -/
theorem keyword_of_rest {c : Cursor} {token : String} {v : JsValue} {rest : JsString}
    (hlen : (utf16 token.toList).length = token.length)
    (h : c.rest = utf16 token.toList ++ rest) :
    Leaves (c.keyword token v) v rest c.nodes := by
  have htake : c.rest.take token.length = js token := by rw [h, ← hlen, List.take_left]; rfl
  refine ⟨c.advance token.length, ?_, by rw [advance_rest, h, ← hlen, List.drop_left], rfl⟩
  rw [keyword, rejectIf_false (not_not.mpr htake), ok_bind]

end Etp.TypeScript
