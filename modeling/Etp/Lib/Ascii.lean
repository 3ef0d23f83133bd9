import Etp.Lib.Utf16

/-!
# Classes of characters in encoded text

A class of ASCII characters can be tested on the characters of a text, on its
UTF-8 bytes or on its UTF-16 units.  A class without surrogates below U+10000 can
be tested on the units as well: the first unit, the last unit and the set of the
units tell what the first, the last and the set of the characters do.
-/

namespace Etp

/-! ## One character -/

theorem utf8EncodeChar_ascii {c : Char} (h : c.toNat < 0x80) :
    String.utf8EncodeChar c = [.ofNat c.toNat] := by
  have hle : c.val.toNat ≤ 0x7f := Nat.le_of_lt_succ h
  rw [String.utf8EncodeChar, if_pos hle]
  rfl

/-- Outside ASCII every byte has its high bit set. -/
theorem le_of_mem_utf8EncodeChar {c : Char} (h : 0x80 ≤ c.toNat) {b : UInt8}
    (hb : b ∈ String.utf8EncodeChar c) : 0x80 ≤ b.toNat := by
  have hval : 0x80 ≤ c.val.toNat := h
  have hle := val_le c
  simp only [String.utf8EncodeChar] at hb
  generalize c.val.toNat = v at *
  rw [if_neg (by omega)] at hb
  split_ifs at hb <;>
    simp only [List.mem_cons, List.not_mem_nil, or_false] at hb <;>
    rcases hb with rfl | rfl | rfl | rfl | rfl <;>
    simp only [UInt8.toNat_ofNat'] <;> omega

namespace JsString

theorem toNat_ofNat_ascii {c : Char} (h : c.toNat < 0x80) : (UInt8.ofNat c.toNat).toNat = c.toNat :=
  (UInt8.toNat_ofNat' ..).trans (Nat.mod_eq_of_lt (h.trans (by decide)))

/-- A scalar value is one unit or a surrogate pair. -/
theorem encode_cases (c : Char) :
    (c.toNat < 0x10000 ∧ encode c = [unit c]) ∨
      (0x10000 ≤ c.toNat ∧ ∃ high low, isHigh high ∧ isLow low ∧ encode c = [high, low]) := by
  rcases lt_or_ge c.toNat 0x10000 with h | h
  · exact .inl ⟨h, encode_of_lt h⟩
  · have hc := not_surrogate c
    refine .inr ⟨h, _, _, ?_, ?_, if_neg (not_lt.mpr h)⟩
    · rw [isHigh, toNat_ofNat (by omega), decide_eq_true_eq]
      omega
    · rw [isLow, toNat_ofNat (by omega), decide_eq_true_eq]
      omega

end JsString

open JsString

/-! ## Classes of ASCII characters -/

/-- A class of numbers below 0x80. -/
def AsciiClass (p : Nat → Prop) : Prop := ∀ n, p n → n < 0x80

namespace AsciiClass

variable {p : Nat → Prop} (hp : AsciiClass p)

include hp

theorem forall_mem_utf8EncodeChar (c : Char) :
    (∀ b ∈ String.utf8EncodeChar c, p b.toNat) ↔ p c.toNat := by
  rcases lt_or_ge c.toNat 0x80 with h | h
  · rw [utf8EncodeChar_ascii h, List.forall_mem_singleton, toNat_ofNat_ascii h]
  · refine iff_of_false (fun hall ↦ ?_) fun hc ↦ absurd (hp _ hc) (not_lt.mpr h)
    obtain ⟨b, hb⟩ := List.exists_mem_of_ne_nil _ (utf8EncodeChar_ne_nil c)
    exact absurd (hp _ (hall b hb)) (not_lt.mpr (le_of_mem_utf8EncodeChar h hb))

/-- A class of ASCII characters is checked on the bytes or on the characters of a text. -/
theorem forall_mem_utf8 (s : String) :
    (∀ b ∈ utf8 s, p b.toNat) ↔ ∀ c ∈ s.toList, p c.toNat := by
  simp only [utf8, List.mem_flatMap, forall_exists_index, and_imp]
  rw [forall_comm]
  refine forall_congr' fun c ↦ ?_
  rw [forall_comm]
  exact forall_congr' fun _ ↦ hp.forall_mem_utf8EncodeChar c

theorem forall_mem_encode (c : Char) : (∀ u ∈ encode c, p u.toNat) ↔ p c.toNat := by
  rcases encode_cases c with ⟨h, heq⟩ | ⟨h, high, low, hhigh, -, heq⟩
  · rw [heq, List.forall_mem_singleton, toNat_unit h]
  · refine iff_of_false (fun hall ↦ ?_) fun hc ↦ absurd (hp _ hc) (by omega)
    have := hp _ (hall high (by rw [heq]; exact List.mem_cons_self))
    simp only [isHigh, decide_eq_true_eq] at hhigh
    omega

/-- A class of ASCII characters is checked on the code units or on the characters of a text. -/
theorem forall_mem_utf16 (cs : List Char) :
    (∀ u ∈ utf16 cs, p u.toNat) ↔ ∀ c ∈ cs, p c.toNat := by
  simp only [utf16, List.mem_flatMap, forall_exists_index, and_imp]
  rw [forall_comm]
  refine forall_congr' fun c ↦ ?_
  rw [forall_comm]
  exact forall_congr' fun _ ↦ hp.forall_mem_encode c

end AsciiClass

/-- The bytes of an ASCII text are its characters. -/
theorem utf8_of_ascii {s : String} (h : ∀ c ∈ s.toList, c.toNat < 0x80) :
    utf8 s = s.toList.map fun c ↦ .ofNat c.toNat := by
  rw [utf8]
  generalize s.toList = cs at h
  induction cs with
  | nil => rfl
  | cons c cs ih =>
      obtain ⟨hc, hcs⟩ := List.forall_mem_cons.mp h
      rw [List.flatMap_cons, ih hcs, utf8EncodeChar_ascii hc]
      rfl

/-- The code units of an ASCII text are its characters. -/
theorem utf16_of_ascii {cs : List Char} (h : ∀ c ∈ cs, c.toNat < 0x80) :
    utf16 cs = cs.map unit := by
  induction cs with
  | nil => rfl
  | cons c cs ih =>
      obtain ⟨hc, hcs⟩ := List.forall_mem_cons.mp h
      rw [utf16_cons_of_lt (hc.trans (by decide)), ih hcs, List.map_cons]

/-! ## Classes below U+10000 -/

/-- A class of numbers below 0x10000 that are no surrogates. -/
def UnitClass (p : Nat → Prop) : Prop := ∀ n, p n → n < 0xd800 ∨ 0xe000 ≤ n ∧ n < 0x10000

namespace UnitClass

variable {p : Nat → Prop} (hp : UnitClass p)

include hp

theorem not_high {u : UInt16} (h : isHigh u) : ¬p u.toNat := fun hu ↦ by
  have := hp _ hu
  simp only [isHigh, decide_eq_true_eq] at h
  omega

theorem not_low {u : UInt16} (h : isLow u) : ¬p u.toNat := fun hu ↦ by
  have := hp _ hu
  simp only [isLow, decide_eq_true_eq] at h
  omega

theorem exists_mem_encode (c : Char) : (∃ u ∈ encode c, p u.toNat) ↔ p c.toNat := by
  rcases encode_cases c with ⟨h, heq⟩ | ⟨h, high, low, hhigh, hlow, heq⟩
  · simp only [heq, List.mem_singleton, exists_eq_left, toNat_unit h]
  · refine iff_of_false ?_ fun hc ↦ ?_
    · rintro ⟨u, hu, hpu⟩
      rw [heq] at hu
      rcases List.mem_cons.mp hu with rfl | hu
      · exact hp.not_high hhigh hpu
      · obtain rfl := List.mem_singleton.mp hu
        exact hp.not_low hlow hpu
    · have := hp _ hc
      omega

theorem exists_mem_utf16 (cs : List Char) :
    (∃ u ∈ utf16 cs, p u.toNat) ↔ ∃ c ∈ cs, p c.toNat := by
  constructor
  · rintro ⟨u, hu, hpu⟩
    obtain ⟨c, hc, hu⟩ := List.mem_flatMap.mp hu
    exact ⟨c, hc, (hp.exists_mem_encode c).mp ⟨u, hu, hpu⟩⟩
  · rintro ⟨c, hc, hpc⟩
    obtain ⟨u, hu, hpu⟩ := (hp.exists_mem_encode c).mpr hpc
    exact ⟨u, List.mem_flatMap.mpr ⟨c, hc, hu⟩, hpu⟩

/-- The first code unit is in the class where the first character is. -/
theorem exists_mem_head? (cs : List Char) :
    (∃ u ∈ (utf16 cs).head?, p u.toNat) ↔ ∃ c ∈ cs.head?, p c.toNat := by
  cases cs with
  | nil => simp
  | cons c cs =>
      have hhead : (∃ u ∈ (encode c).head?, p u.toNat) ↔ p c.toNat := by
        rw [← hp.exists_mem_encode c]
        rcases encode_cases c with ⟨h, heq⟩ | ⟨h, high, low, hhigh, hlow, heq⟩
        · simp [heq]
        · simp [heq, hp.not_low hlow]
      have hne : encode c ≠ [] := by
        rcases encode_cases c with ⟨h, heq⟩ | ⟨h, high, low, hhigh, hlow, heq⟩ <;> simp [heq]
      rw [utf16_cons, List.head?_append_of_ne_nil _ hne, hhead]
      simp

/-- The last code unit is in the class where the last character is. -/
theorem exists_mem_getLast? (cs : List Char) :
    (∃ u ∈ (utf16 cs).getLast?, p u.toNat) ↔ ∃ c ∈ cs.getLast?, p c.toNat := by
  rcases List.eq_nil_or_concat cs with rfl | ⟨cs, c, rfl⟩
  · simp
  · have hlast : (∃ u ∈ (encode c).getLast?, p u.toNat) ↔ p c.toNat := by
      rw [← hp.exists_mem_encode c]
      rcases encode_cases c with ⟨h, heq⟩ | ⟨h, high, low, hhigh, hlow, heq⟩
      · simp [heq]
      · simp [heq, hp.not_high hhigh]
    have hne : encode c ≠ [] := by
      rcases encode_cases c with ⟨h, heq⟩ | ⟨h, high, low, hhigh, hlow, heq⟩ <;> simp [heq]
    have hsplit : utf16 (cs ++ [c]) = utf16 cs ++ encode c := by
      rw [utf16_append, utf16_cons, utf16_nil, List.append_nil]
    rw [List.concat_eq_append, hsplit, List.getLast?_append_of_ne_nil _ hne, hlast]
    simp

end UnitClass

end Etp
