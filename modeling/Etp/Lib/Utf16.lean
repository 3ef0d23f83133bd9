import Etp.Lib.Utf8

/-!
# Strings of 16-bit code units

A JavaScript string is any sequence of 16-bit code units.  The strings that are
Unicode text are the images of `utf16`; a code unit of a surrogate pair standing
alone belongs to no scalar value.

`codePoints` is how the language itself iterates over a string.  A lone surrogate
counts as a code point of its own there, and `Buffer` writes U+FFFD for it.
-/

namespace Etp

/-- A JavaScript string. -/
abbrev JsString := List UInt16

instance : LawfulBEq JsString := inferInstance

namespace JsString

/-! ## Surrogates -/

def isHigh (unit : UInt16) : Bool := 0xd800 ≤ unit.toNat ∧ unit.toNat ≤ 0xdbff

def isLow (unit : UInt16) : Bool := 0xdc00 ≤ unit.toNat ∧ unit.toNat ≤ 0xdfff

/-- The code point of a surrogate pair. -/
def pairPoint (high low : Nat) : Nat := 0x10000 + (high - 0xd800) * 0x400 + (low - 0xdc00)

/-- `String.fromCodePoint` -/
def fromCodePoint (n : Nat) : JsString :=
  if n < 0x10000 then [.ofNat n]
  else [.ofNat (0xd800 + (n - 0x10000) / 0x400), .ofNat (0xdc00 + (n - 0x10000) % 0x400)]

/-- The code points that iterating over a string visits. -/
def codePoints : JsString → List Nat
  | [] => []
  | [u] => [u.toNat]
  | u :: v :: rest =>
      if isHigh u ∧ isLow v then pairPoint u.toNat v.toNat :: codePoints rest
      else u.toNat :: codePoints (v :: rest)

/-! ## Text -/

/-- The code units of one scalar value. -/
def encode (c : Char) : JsString := fromCodePoint c.toNat

/-- The code unit of a scalar value below U+10000. -/
def unit (c : Char) : UInt16 := .ofNat c.toNat

/-- The code units of a text. -/
def utf16 (cs : List Char) : JsString := cs.flatMap encode

/-- A string that is Unicode text. -/
def WellFormed (s : JsString) : Prop := ∃ cs, s = utf16 cs

/-- The scalar value written for a code point. -/
def scalar (n : Nat) : Char := if n.isValidChar then .ofNat n else '\ufffd'

/-- `Buffer.from(s, "utf8")` -/
def toBuffer (s : JsString) : List UInt8 := utf8 (.ofList ((codePoints s).map scalar))

@[simp] theorem utf16_nil : utf16 [] = [] := rfl

theorem utf16_cons (c : Char) (cs : List Char) : utf16 (c :: cs) = encode c ++ utf16 cs := by
  simp [utf16]

@[simp] theorem utf16_append (cs ds : List Char) : utf16 (cs ++ ds) = utf16 cs ++ utf16 ds := by
  simp [utf16]

theorem utf16_flatMap (f : Char → List Char) (cs : List Char) :
    utf16 (cs.flatMap f) = cs.flatMap fun c ↦ utf16 (f c) := by
  simp [utf16, List.flatMap_assoc]

theorem toNat_ofNat {n : Nat} (h : n < 0x10000) : (UInt16.ofNat n).toNat = n := by
  rw [UInt16.toNat_ofNat']
  exact Nat.mod_eq_of_lt h

theorem encode_of_lt {c : Char} (h : c.toNat < 0x10000) : encode c = [unit c] := if_pos h

theorem utf16_cons_of_lt {c : Char} (h : c.toNat < 0x10000) (cs : List Char) :
    utf16 (c :: cs) = unit c :: utf16 cs := by
  rw [utf16_cons, encode_of_lt h]
  rfl

theorem toNat_unit {c : Char} (h : c.toNat < 0x10000) : (unit c).toNat = c.toNat :=
  toNat_ofNat h

theorem unit_inj {c d : Char} (hc : c.toNat < 0x10000) (hd : d.toNat < 0x10000) :
    unit c = unit d ↔ c = d := by
  constructor
  · intro h
    have h' := congrArg UInt16.toNat h
    rw [toNat_unit hc, toNat_unit hd] at h'
    exact Char.toNat_inj.mp h'
  · rintro rfl
    rfl

/-- A scalar value is not a surrogate. -/
theorem not_surrogate (c : Char) : c.toNat < 0xd800 ∨ 0xe000 ≤ c.toNat ∧ c.toNat ≤ 0x10ffff := by
  have h : c.toNat.isValidChar := c.valid
  unfold Nat.isValidChar at h
  omega

theorem toNat_charOfNat {n : Nat} (h : n.isValidChar) : (Char.ofNat n).toNat = n := by
  simp [Char.ofNat, h, Char.ofNatAux, Char.toNat]

theorem scalar_toNat (c : Char) : scalar c.toNat = c := by
  have h : c.toNat.isValidChar := c.valid
  rw [scalar, if_pos h, Char.ofNat_toNat]

/-- A code unit outside the surrogates is a scalar value. -/
theorem exists_encode_unit {u : UInt16} (hh : isHigh u = false) (hl : isLow u = false) :
    ∃ c, encode c = [u] ∧ c.toNat = u.toNat := by
  simp only [isHigh, isLow, decide_eq_false_iff_not, not_and, not_le] at hh hl
  have hu := u.toNat_lt
  have hv : u.toNat.isValidChar := by
    unfold Nat.isValidChar
    omega
  refine ⟨.ofNat u.toNat, ?_, toNat_charOfNat hv⟩
  rw [encode, toNat_charOfNat hv, fromCodePoint, if_pos hu, UInt16.ofNat_toNat]

/-- A surrogate pair is a scalar value. -/
theorem exists_encode_pair {high low : Nat} (hh : 0xd800 ≤ high ∧ high ≤ 0xdbff)
    (hl : 0xdc00 ≤ low ∧ low ≤ 0xdfff) :
    ∃ c : Char, c.toNat = pairPoint high low ∧ encode c = [.ofNat high, .ofNat low] := by
  obtain ⟨n, hn⟩ : ∃ n, n = pairPoint high low := ⟨_, rfl⟩
  rw [← hn]
  unfold pairPoint at hn
  have hv : n.isValidChar := by
    unfold Nat.isValidChar
    omega
  have hdiv : 0xd800 + (n - 0x10000) / 0x400 = high := by omega
  have hmod : 0xdc00 + (n - 0x10000) % 0x400 = low := by omega
  refine ⟨.ofNat n, toNat_charOfNat hv, ?_⟩
  rw [encode, toNat_charOfNat hv, fromCodePoint, if_neg (by omega), hdiv, hmod]

theorem le_pairPoint (high low : Nat) : 0x10000 ≤ pairPoint high low :=
  (Nat.le_add_right _ _).trans (Nat.le_add_right _ _)

theorem codePoints_cons_single {u : UInt16} (h : isHigh u = false) (rest : JsString) :
    codePoints (u :: rest) = u.toNat :: codePoints rest := by
  cases rest with
  | nil => rfl
  | cons v rest => simp [codePoints, h]

theorem codePoints_encode_append (c : Char) (rest : JsString) :
    codePoints (encode c ++ rest) = c.toNat :: codePoints rest := by
  have hc := not_surrogate c
  by_cases h : c.toNat < 0x10000
  · have hhigh : isHigh (unit c) = false := by
      simp only [isHigh, toNat_unit h, decide_eq_false_iff_not]
      omega
    rw [encode_of_lt h, List.singleton_append, codePoints_cons_single hhigh, toNat_unit h]
  · have h₁ := toNat_ofNat (n := 0xd800 + (c.toNat - 0x10000) / 0x400) (by omega)
    have h₂ := toNat_ofNat (n := 0xdc00 + (c.toNat - 0x10000) % 0x400) (by omega)
    have hpair : isHigh (.ofNat (0xd800 + (c.toNat - 0x10000) / 0x400)) ∧
        isLow (.ofNat (0xdc00 + (c.toNat - 0x10000) % 0x400)) := by
      simp only [isHigh, isLow, h₁, h₂, decide_eq_true_eq]
      omega
    have hpoint : pairPoint (0xd800 + (c.toNat - 0x10000) / 0x400)
        (0xdc00 + (c.toNat - 0x10000) % 0x400) = c.toNat := by
      unfold pairPoint
      omega
    rw [encode, fromCodePoint, if_neg h, List.cons_append, List.singleton_append, codePoints,
      if_pos hpair, h₁, h₂, hpoint]

/-- Iterating over a text visits its scalar values. -/
theorem codePoints_utf16 (cs : List Char) : codePoints (utf16 cs) = cs.map Char.toNat := by
  induction cs with
  | nil => rfl
  | cons c cs ih => rw [utf16_cons, codePoints_encode_append, ih, List.map_cons]

theorem utf16_injective : Function.Injective utf16 := fun cs ds h ↦ by
  have := congrArg codePoints h
  rw [codePoints_utf16, codePoints_utf16] at this
  exact List.map_injective_iff.mpr (fun _ _ hcd ↦ Char.toNat_inj.mp hcd) this

/-- A text goes into a buffer as its UTF-8 encoding. -/
theorem toBuffer_utf16 (cs : List Char) : toBuffer (utf16 cs) = utf8 (.ofList cs) := by
  have : cs.map (scalar ∘ Char.toNat) = cs := by
    rw [show scalar ∘ Char.toNat = id from funext scalar_toNat, List.map_id]
  rw [toBuffer, codePoints_utf16, List.map_map, this]

end JsString

end Etp
