import Mathlib

/-!
# UTF-8 order

Rust compares strings byte by byte; other languages compare them code point by
code point.  UTF-8 was designed so that the two agree, and this file proves it:
`utf8_lt_iff` says that the lexicographic order of the encodings is the
lexicographic order of the scalar values.

`decodeUtf8` reads an encoding back, so `utf8` is injective.

The order on bytes is used as `ByteLt`, with the three facts a sorted map needs
of it: irreflexivity, transitivity and trichotomy.
-/

namespace Etp

/-- The UTF-8 encoding of a string. -/
def utf8 (s : String) : List UInt8 := s.toList.flatMap String.utf8EncodeChar

/-- The string a byte string encodes, if it is UTF-8. -/
def decodeUtf8 (bytes : List UInt8) : Option String := String.fromUTF8? bytes.toByteArray

@[simp] theorem decodeUtf8_utf8 (s : String) : decodeUtf8 (utf8 s) = some s := by
  have h : (utf8 s).toByteArray = s.toByteArray := String.utf8Encode_toList
  have hv : s.toByteArray.IsValidUTF8 := s.isValidUTF8
  rw [decodeUtf8, h, String.fromUTF8?, dif_pos hv]
  rfl

theorem decodeUtf8_eq_some {bytes : List UInt8} {s : String} :
    decodeUtf8 bytes = some s ↔ bytes = utf8 s := by
  refine ⟨fun h ↦ ?_, by rintro rfl; exact decodeUtf8_utf8 s⟩
  rw [decodeUtf8, String.fromUTF8?] at h
  split_ifs at h with hvalid
  have hbytes : bytes.toByteArray = s.toByteArray := by
    rw [← Option.some.inj h]
    rfl
  have hs : (utf8 s).toByteArray = s.toByteArray := String.utf8Encode_toList
  have hdata := congrArg ByteArray.data (hbytes.trans hs.symm)
  simpa using hdata

theorem utf8_injective : Function.Injective utf8 := fun a b h ↦ by
  have := congrArg decodeUtf8 h
  simpa using this

/-- The order of `str` in Rust: lexicographic on the UTF-8 bytes. -/
def ByteLt (a b : String) : Prop := utf8 a < utf8 b

instance : DecidableRel ByteLt := fun a b ↦ inferInstanceAs (Decidable (utf8 a < utf8 b))

theorem val_le (c : Char) : c.val.toNat ≤ 0x10ffff := by
  have := c.valid
  simp only [UInt32.isValidChar, Nat.isValidChar] at this
  omega

/-- A smaller scalar value has a smaller encoding, whatever follows either one:
the encodings already differ before the shorter one ends. -/
theorem utf8EncodeChar_append_lt {c d : Char} (h : c < d) (x y : List UInt8) :
    String.utf8EncodeChar c ++ x < String.utf8EncodeChar d ++ y := by
  have hlt : c.val.toNat < d.val.toNat := h
  have hc := val_le c
  have hd := val_le d
  simp only [String.utf8EncodeChar]
  generalize c.val.toNat = v at *
  generalize d.val.toNat = w at *
  -- One case per pair of encoded lengths; a shorter encoding starts with a smaller byte.
  split_ifs <;>
    simp only [List.cons_append, List.nil_append, List.cons_lt_cons_iff,
      UInt8.lt_iff_toNat_lt, ← UInt8.toNat_inj, UInt8.toNat_ofNat'] <;>
    simp (disch := omega) only [Nat.mod_eq_of_lt] <;> omega

theorem utf8EncodeChar_ne_nil (c : Char) : String.utf8EncodeChar c ≠ [] := by
  simp only [String.utf8EncodeChar]
  split_ifs <;> simp

theorem append_lt_append_iff (p x y : List UInt8) : p ++ x < p ++ y ↔ x < y := by
  induction p with
  | nil => simp
  | cons b p ih => simp [ih]

theorem flatMap_utf8EncodeChar_lt_iff (l m : List Char) :
    l.flatMap String.utf8EncodeChar < m.flatMap String.utf8EncodeChar ↔ l < m := by
  induction l generalizing m with
  | nil =>
      cases m with
      | nil => simp
      | cons d m =>
          obtain ⟨b, bs, hb⟩ := List.exists_cons_of_ne_nil (utf8EncodeChar_ne_nil d)
          simp [hb]
  | cons c l ih =>
      cases m with
      | nil => simp
      | cons d m =>
          rw [List.flatMap_cons, List.flatMap_cons, List.cons_lt_cons_iff]
          rcases lt_trichotomy c d with h | rfl | h
          · exact iff_of_true (utf8EncodeChar_append_lt h _ _) (.inl h)
          · rw [append_lt_append_iff, ih]
            simp
          · refine iff_of_false (List.lt_asymm (utf8EncodeChar_append_lt h _ _)) ?_
            rintro (h' | ⟨rfl, -⟩)
            · exact lt_asymm h h'
            · exact lt_irrefl _ h

/-- The lexicographic order of UTF-8 encodings is the lexicographic order of the
scalar values. -/
theorem utf8_lt_iff {a b : String} : utf8 a < utf8 b ↔ a.toList < b.toList :=
  flatMap_utf8EncodeChar_lt_iff _ _

theorem byteLt_iff {a b : String} : ByteLt a b ↔ a.toList < b.toList := utf8_lt_iff

namespace ByteLt

variable {a b c : String}

theorem irrefl (a : String) : ¬ByteLt a a := fun h ↦
  lt_irrefl _ (byteLt_iff.mp h)

theorem trans (h : ByteLt a b) (h' : ByteLt b c) : ByteLt a c :=
  byteLt_iff.mpr (lt_trans (byteLt_iff.mp h) (byteLt_iff.mp h'))

theorem asymm (h : ByteLt a b) : ¬ByteLt b a := fun h' ↦ irrefl a (h.trans h')

/-- Two strings that neither precede nor follow each other are equal. -/
theorem eq_of_not (h : ¬ByteLt a b) (h' : ¬ByteLt b a) : a = b := by
  rw [byteLt_iff] at h h'
  exact String.toList_inj.mp (le_antisymm (not_lt.mp h') (not_lt.mp h))

end ByteLt

end Etp
