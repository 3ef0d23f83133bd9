import Etp.Lib.Json.Read

/-!
# The minimal text of a value reads back as that value

`parse_text` is the round trip and `text_injective` its first consequence: no
two values share a text.

A text is read with something after it, so every lemma about reading carries
the rest of the input.  Numbers are the one case where the rest matters: the
decimal notation ends where the digits end, which is why `ReadsBack` asks for a
`Delimited` rest.
-/

namespace Etp.Json

/-! ## Strings -/

theorem hexValue_digitChar : ∀ n < 16, hexValue (Nat.digitChar n) = some n := by decide

theorem escapeChar_length_pos (c : Char) : 0 < (escapeChar c).length := by
  unfold escapeChar
  split_ifs <;> simp

/-- A control character is read back from its escape. -/
theorem readUnicode_control {c : Char} (h : c.toNat < 0x20) (cs : List Char) :
    readUnicode ('0' :: '0' :: Nat.digitChar (c.toNat / 16) :: Nat.digitChar (c.toNat % 16) :: cs) =
      some (c, cs) := by
  have h₀ : hexValue '0' = some 0 := by decide
  have h₁ := hexValue_digitChar (c.toNat / 16) (by omega)
  have h₂ := hexValue_digitChar (c.toNat % 16) (by omega)
  have hc : c.toNat / 16 * 16 + c.toNat % 16 = c.toNat := by omega
  simp only [readUnicode, readHexUnit, h₀, h₁, h₂, Option.bind_eq_bind, Option.bind_some]
  rw [if_neg (by omega), if_neg (by omega)]
  simp [hc, Char.ofNat_toNat]

/-- One escaped scalar value is read in one step of the string reader. -/
theorem readChars_escapeChar (c : Char) (fuel : Nat) (cs : List Char) :
    readChars (fuel + 1) (escapeChar c ++ cs) =
      (readChars fuel cs).map fun p ↦ (c :: p.1, p.2) := by
  have key : ∀ {e : List Char}, readEscape (e ++ cs) = some (c, cs) →
      readChars (fuel + 1) ('\\' :: (e ++ cs)) =
        (readChars fuel cs).map fun p ↦ (c :: p.1, p.2) := by
    intro e he
    simp only [readChars, Char.reduceEq, ↓reduceIte, he, Option.bind_eq_bind, Option.bind_some]
    cases readChars fuel cs <;> rfl
  unfold escapeChar
  split_ifs with h₁ h₂ h₃ h₄ h₅ h₆ h₇ h₈
  · exact key (e := ['"']) (by rw [h₁]; rfl)
  · exact key (e := ['\\']) (by rw [h₂]; rfl)
  · exact key (e := ['b']) (by rw [h₃]; rfl)
  · exact key (e := ['t']) (by rw [h₄]; rfl)
  · exact key (e := ['n']) (by rw [h₅]; rfl)
  · exact key (e := ['f']) (by rw [h₆]; rfl)
  · exact key (e := ['r']) (by rw [h₇]; rfl)
  · exact key (e := ['u', '0', '0', _, _]) (readUnicode_control h₈ cs)
  · simp only [List.cons_append, List.nil_append, readChars, h₁, h₂, h₈, ↓reduceIte]
    cases readChars fuel cs <;> rfl

/-- Characters are read back from their escapes, up to the closing quotation mark. -/
theorem readChars_flatMap (l : List Char) {fuel : Nat} (h : l.length < fuel) (cs : List Char) :
    readChars fuel (l.flatMap escapeChar ++ '"' :: cs) = some (l, cs) := by
  induction l generalizing fuel with
  | nil =>
      obtain ⟨n, rfl⟩ : ∃ n, fuel = n + 1 := ⟨fuel - 1, by simp at h; omega⟩
      simp [readChars]
  | cons c l ih =>
      obtain ⟨n, rfl⟩ : ∃ n, fuel = n + 1 := ⟨fuel - 1, by simp at h; omega⟩
      rw [List.flatMap_cons, List.append_assoc, readChars_escapeChar,
        ih (by simpa using h)]
      rfl

theorem length_le_flatMap_escapeChar (l : List Char) :
    l.length ≤ (l.flatMap escapeChar).length := by
  induction l with
  | nil => simp
  | cons c l ih =>
      have := escapeChar_length_pos c
      simp only [List.length_cons, List.flatMap_cons, List.length_append]
      omega

/-- A string is read back from its text. -/
theorem readString_quote (s : String) (cs : List Char) :
    readString (s.toList.flatMap escapeChar ++ '"' :: cs) = some (s, cs) := by
  have hlen := length_le_flatMap_escapeChar s.toList
  rw [readString, readChars_flatMap s.toList
    (by rw [List.length_append, List.length_cons]; omega)]
  simp

/-! ## Numbers -/

/-- What can follow a value inside a larger text, or nothing at all. -/
def Delimited (cs : List Char) : Prop := ∀ c ∈ cs.head?, c = ',' ∨ c = ']' ∨ c = '}'

theorem delimited_nil : Delimited [] := by simp [Delimited]

theorem delimited_tailText (vs : List Json) (cs : List Char) : Delimited (tailText vs ++ cs) := by
  cases vs <;> simp [Delimited, tailText]

theorem delimited_tailMembersText (ms : List (String × Json)) (cs : List Char) :
    Delimited (tailMembersText ms ++ cs) := by
  cases ms <;> simp [Delimited, tailMembersText]

theorem Delimited.not_isDigit {cs : List Char} (h : Delimited cs) {c : Char}
    (hc : c ∈ cs.head?) : c.isDigit = false := by
  rcases h c hc with rfl | rfl | rfl <;> rfl

theorem isDigit_of_mem_toDigits {n : Nat} {c : Char} (h : c ∈ Nat.toDigits 10 n) :
    c.isDigit = true := Nat.isDigit_of_mem_toDigits (by omega) (by omega) h

/-- The digits of a number end where the text after it begins. -/
theorem takeWhile_digits (n : Nat) {cs : List Char} (h : Delimited cs) :
    (Nat.toDigits 10 n ++ cs).takeWhile Char.isDigit = Nat.toDigits 10 n := by
  rw [List.takeWhile_append_of_pos (fun c hc ↦ isDigit_of_mem_toDigits hc)]
  cases cs with
  | nil => simp
  | cons c cs => simp [h.not_isDigit (c := c) (by simp)]

theorem dropWhile_digits (n : Nat) {cs : List Char} (h : Delimited cs) :
    (Nat.toDigits 10 n ++ cs).dropWhile Char.isDigit = cs := by
  rw [List.dropWhile_append_of_pos (fun c hc ↦ isDigit_of_mem_toDigits hc)]
  cases cs with
  | nil => simp
  | cons c cs => simp [h.not_isDigit (c := c) (by simp)]

theorem digitChar_ne_zero : ∀ n < 10, n ≠ 0 → [Nat.digitChar n].head? ≠ some '0' := by decide

theorem head?_toDigits {n : Nat} (h : n ≠ 0) : (Nat.toDigits 10 n).head? ≠ some '0' := by
  induction n using Nat.strong_induction_on with
  | _ n ih =>
      rcases Nat.lt_or_ge n 10 with hn | hn
      · rw [Nat.toDigits_of_lt_base hn]
        exact digitChar_ne_zero n hn h
      · rw [Nat.toDigits_of_base_le (by omega) hn]
        have := ih (n / 10) (by omega) (by omega)
        cases hd : Nat.toDigits 10 (n / 10) with
        | nil => exact absurd hd Nat.toDigits_ne_nil
        | cons c cs => simpa [hd] using this

/-- A natural number is read back from its digits. -/
theorem readNat_toDigits (n : Nat) {cs : List Char} (h : Delimited cs) :
    readNat (Nat.toDigits 10 n ++ cs) = some (n, cs) := by
  rw [readNat, takeWhile_digits n h, dropWhile_digits n h, if_neg, Nat.ofDigitChars_ten_toDigits]
  have hrest : cs.head? ∉ [some '.', some 'e', some 'E'] := by
    intro hmem
    simp only [List.mem_cons, List.not_mem_nil, or_false] at hmem
    rcases hmem with hm | hm | hm <;> simpa using h _ hm
  rintro (hd | ⟨hd, hne⟩ | hd)
  · exact Nat.toDigits_ne_nil hd
  · by_cases hn : n = 0
    · subst hn; exact hne (by simp [Nat.toDigits_of_lt_base])
    · exact head?_toDigits hn hd
  · exact hrest hd

/-- An integer is read back from its text. -/
theorem readInt_decimal (n : Int) {cs : List Char} (h : Delimited cs) :
    readInt (decimal n ++ cs) = some (n, cs) := by
  cases n with
  | negSucc n =>
      rw [decimal, List.cons_append, readInt, readNat_toDigits _ h]
      simp [Int.negSucc_eq]
  | ofNat n =>
      have hne : ∀ rest, decimal (.ofNat n) ++ cs ≠ '-' :: rest := by
        intro rest heq
        obtain ⟨c, ds, hd⟩ := List.exists_cons_of_ne_nil (Nat.toDigits_ne_nil (n := n) (b := 10))
        have hc : c.isDigit = true := isDigit_of_mem_toDigits (by rw [hd]; simp)
        simp only [decimal, hd, List.cons_append, List.cons.injEq] at heq
        rw [heq.1] at hc
        exact absurd hc (by decide)
      rw [readInt.eq_2 _ (fun rest heq ↦ hne rest heq), decimal, readNat_toDigits _ h]
      simp

/-! ## Values -/

/-- How the text of a value starts. -/
def Starts (cs : List Char) : Prop :=
  ∃ c cs', cs = c :: cs' ∧ isWs c = false ∧ c ≠ ']' ∧ c ≠ '}'

theorem decimal_starts (n : Int) :
    ∃ c cs, decimal n = c :: cs ∧ (c = '-' ∨ c.isDigit = true) := by
  cases n with
  | negSucc n => exact ⟨_, _, rfl, .inl rfl⟩
  | ofNat n =>
      obtain ⟨c, cs, h⟩ := List.exists_cons_of_ne_nil (Nat.toDigits_ne_nil (n := n) (b := 10))
      exact ⟨c, cs, h, .inr (isDigit_of_mem_toDigits (by rw [h]; simp))⟩

theorem starts_decimal (n : Int) : Starts (decimal n) := by
  obtain ⟨c, cs, h, hc⟩ := decimal_starts n
  refine ⟨c, cs, h, ?_⟩
  rcases hc with rfl | hc
  · decide
  · refine ⟨?_, ?_, ?_⟩
    · simp only [isWs, decide_eq_false_iff_not]
      rintro (rfl | rfl | rfl | rfl) <;> exact absurd hc (by decide)
    · rintro rfl; exact absurd hc (by decide)
    · rintro rfl; exact absurd hc (by decide)

/-- The text of a value begins with a character that is no white space and closes nothing. -/
theorem text_starts (v : Json) : Starts v.text := by
  match v with
  | null | bool true | bool false => exact ⟨_, _, rfl, by decide⟩
  | num n => exact starts_decimal n
  | str s => exact ⟨_, _, rfl, by decide⟩
  | arr [] | arr (_ :: _) | obj [] | obj (_ :: _) => exact ⟨_, _, by rw [text], by decide⟩

theorem Starts.skipWs {cs : List Char} (h : Starts cs) (rest : List Char) :
    skipWs (cs ++ rest) = cs ++ rest := by
  obtain ⟨c, cs', rfl, hc, -⟩ := h
  simp [Json.skipWs, hc]

theorem Starts.length_pos {cs : List Char} (h : Starts cs) : 0 < cs.length := by
  obtain ⟨c, cs', rfl, -⟩ := h
  simp

theorem Starts.head?_ne {cs : List Char} (h : Starts cs) (rest : List Char) :
    (cs ++ rest).head? ≠ some ']' ∧ (cs ++ rest).head? ≠ some '}' := by
  obtain ⟨c, cs', rfl, -, h₁, h₂⟩ := h
  simp [h₁, h₂]

theorem skipWs_cons {c : Char} (h : isWs c = false) (cs : List Char) :
    skipWs (c :: cs) = c :: cs := by simp [Json.skipWs, h]

theorem readValue_decimal (n : Int) (fuel : Nat) {cs : List Char} (h : Delimited cs) :
    readValue (fuel + 1) (decimal n ++ cs) = some (num n, cs) := by
  have hr := readInt_decimal n h
  obtain ⟨c, ds, hd, hc⟩ := decimal_starts n
  have hne : c ≠ '{' ∧ c ≠ '[' ∧ c ≠ '"' ∧ c ≠ 't' ∧ c ≠ 'f' ∧ c ≠ 'n' := by
    rcases hc with rfl | hc
    · decide
    · refine ⟨?_, ?_, ?_, ?_, ?_, ?_⟩ <;> (rintro rfl; exact absurd hc (by decide))
  rw [hd, List.cons_append] at hr ⊢
  obtain ⟨h₁, h₂, h₃, h₄, h₅, h₆⟩ := hne
  simp [readValue, h₁, h₂, h₃, h₄, h₅, h₆, hr]

/-- The statement of the round trip for one value: enough fuel and a delimited
rest, and the value is read off the front. -/
def ReadsBack (v : Json) : Prop :=
  ∀ (fuel : Nat) (cs : List Char), v.text.length ≤ fuel → Delimited cs →
    readValue fuel (v.text ++ cs) = some (v, cs)

mutual

/-- A value is read back from its text, with fuel for the length of the text. -/
theorem readsBack : ∀ v : Json, ReadsBack v
  | null, 0, _, h, _ | bool true, 0, _, h, _ | bool false, 0, _, h, _ => by
      simp [text] at h
  | null, _ + 1, _, _, _ | bool true, _ + 1, _, _, _ | bool false, _ + 1, _, _, _ => by
      simp [text, readValue, readKeyword]
  | num n, fuel, cs, h, hcs => by
      have := (starts_decimal n).length_pos
      obtain ⟨m, rfl⟩ : ∃ m, fuel = m + 1 := ⟨fuel - 1, by simp only [text] at h; omega⟩
      exact readValue_decimal n m hcs
  | str s, fuel, cs, h, _ => by
      obtain ⟨m, rfl⟩ : ∃ m, fuel = m + 1 := ⟨fuel - 1, by simp [text, quote] at h; omega⟩
      simp [text, quote, readValue, readString_quote]
  | arr [], fuel, cs, h, _ | obj [], fuel, cs, h, _ => by
      obtain ⟨m, rfl⟩ : ∃ m, fuel = m + 1 := ⟨fuel - 1, by simp [text] at h; omega⟩
      simp [text, readValue, skipWs, isWs]
  | arr (v :: vs), fuel, cs, h, _ => by
      simp only [text, List.length_cons, List.length_append] at h
      obtain ⟨m, rfl⟩ : ∃ m, fuel = m + 1 := ⟨fuel - 1, by omega⟩
      have hv := readValues_text vs v (readsBack v) m cs (by omega)
      have hs := text_starts v
      simp only [text, List.cons_append, List.append_assoc, readValue, Char.reduceEq, ↓reduceIte,
        hs.skipWs, (hs.head?_ne _).1, hv]
      rfl
  | obj ((k, v) :: ms), fuel, cs, h, _ => by
      simp only [text, List.length_cons, List.length_append] at h
      obtain ⟨m, rfl⟩ : ∃ m, fuel = m + 1 := ⟨fuel - 1, by omega⟩
      have hv := readMembers_text ms k v (readsBack v) m cs (by omega)
      simp only [quote, List.cons_append] at hv
      simp only [text, quote, List.cons_append, List.append_assoc, readValue, Char.reduceEq,
        ↓reduceIte, skipWs_cons (c := '"') (by decide), List.head?_cons, Option.some.injEq] at hv ⊢
      rw [hv]
      rfl

theorem readValues_text : ∀ (vs : List Json) (v : Json) (_ : ReadsBack v) (fuel : Nat)
    (cs : List Char), v.text.length + (tailText vs).length ≤ fuel →
      readValues fuel (v.text ++ (tailText vs ++ cs)) = some (v :: vs, cs)
  | [], v, hv, fuel, cs, h => by
      simp only [tailText, List.length_singleton] at h
      obtain ⟨m, rfl⟩ : ∃ m, fuel = m + 1 := ⟨fuel - 1, by omega⟩
      rw [readValues, hv m _ (by omega) (delimited_tailText [] cs)]
      simp [tailText, skipWs, isWs]
  | w :: ws, v, hv, fuel, cs, h => by
      have hpos := (text_starts v).length_pos
      simp only [tailText, List.length_cons, List.length_append] at h
      obtain ⟨m, rfl⟩ : ∃ m, fuel = m + 1 := ⟨fuel - 1, by omega⟩
      have hw := readValues_text ws w (readsBack w) m cs (by omega)
      rw [readValues, hv m _ (by omega) (delimited_tailText (w :: ws) cs)]
      simp only [Option.bind_eq_bind, Option.bind_some, tailText, List.cons_append,
        List.append_assoc, skipWs_cons (c := ',') (by decide), (text_starts w).skipWs, hw]

theorem readMembers_text : ∀ (ms : List (String × Json)) (k : String) (v : Json)
    (_ : ReadsBack v) (fuel : Nat) (cs : List Char),
      v.text.length + (tailMembersText ms).length < fuel →
        readMembers fuel (quote k ++ ':' :: (v.text ++ (tailMembersText ms ++ cs))) =
          some ((k, v) :: ms, cs)
  | [], k, v, hv, fuel, cs, h => by
      obtain ⟨m, rfl⟩ : ∃ m, fuel = m + 1 := ⟨fuel - 1, by omega⟩
      simp only [quote, List.cons_append, List.append_assoc, readMembers, List.nil_append,
        readString_quote, Option.bind_eq_bind, Option.bind_some,
        skipWs_cons (c := ':') (by decide), (text_starts v).skipWs,
        hv m _ (by omega) (delimited_tailMembersText [] cs)]
      simp [tailMembersText, skipWs, isWs]
  | (k', w) :: ms, k, v, hv, fuel, cs, h => by
      simp only [tailMembersText, List.length_cons, List.length_append] at h
      obtain ⟨m, rfl⟩ : ∃ m, fuel = m + 1 := ⟨fuel - 1, by omega⟩
      have hw := readMembers_text ms k' w (readsBack w) m cs (by omega)
      simp only [quote, List.cons_append, List.append_assoc, List.nil_append] at hw
      simp only [quote, List.cons_append, List.append_assoc, readMembers, List.nil_append,
        readString_quote, Option.bind_eq_bind, Option.bind_some,
        skipWs_cons (c := ':') (by decide), (text_starts v).skipWs,
        hv m _ (by omega) (delimited_tailMembersText ((k', w) :: ms) cs)]
      simp only [tailMembersText, quote, List.cons_append, List.append_assoc, List.nil_append,
        skipWs_cons (c := ',') (by decide), skipWs_cons (c := '"') (by decide), hw,
        Option.bind_some]

end

/-- **The round trip.**  The minimal text of a value reads back as that value. -/
theorem parse_text (v : Json) : parse v.text = some v := by
  have h := readsBack v (v.text.length + 1) [] (by omega) delimited_nil
  have hs := (text_starts v).skipWs []
  rw [List.append_nil] at h hs
  rw [parse, hs, h]
  rfl

/-- No two values share a text. -/
theorem text_injective {v w : Json} (h : v.text = w.text) : v = w := by
  have hv := parse_text v
  rw [h, parse_text w] at hv
  exact (Option.some.inj hv).symm

end Etp.Json
