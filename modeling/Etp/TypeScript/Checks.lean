import Etp.Core.Shape
import Etp.Lib.Ascii
import Etp.TypeScript.Order

/-!
# What the checks of a value accept

Each check of the TypeScript verifier on the JavaScript value of a JSON value: it
returns exactly the values that the Rust serializer writes for the members of some
range (`Accepts`), as the readers of the Rust crate do (`ReadsBack`).

The ranges are those of the Rust checks but for the texts.  `\s` contains U+FEFF,
which `str::trim` leaves in place, so a text must not begin or end with it
(`Unmarked`).  `\s` lacks U+0085, but that is a control character.
-/

namespace Etp.TypeScript

open JsString Etp.Core

/-- The check accepts what the writer writes for the values in range, and returns it. -/
def Accepts {α : Type*} (check : Check) (write : α → Json) (InRange : α → Prop) : Prop :=
  ∀ v path w, check (ofJson v) path = .ok w ↔ w = ofJson v ∧ ∃ a, InRange a ∧ v = write a

/-! ## JSON values as JavaScript values -/

theorem ofJson_eq_string {v : Json} {s : JsString} :
    ofJson v = .string s ↔ ∃ t, v = .str t ∧ s = units t := by
  cases v <;> simp [ofJson, units, eq_comm]

/-- A string of a document has no unpaired surrogate, so that it is encoded without a refusal. -/
theorem assertCanonical_text {s : String} {t : JsString} :
    assertCanonical (ofJson (.str s)) = .ok t ↔ t = utf16 (Json.quote s) := by
  have henc : Encodable (.str s) := by
    refine ⟨?_, ?_, rfl⟩
    · show 1 ≤ 64
      decide
    · show 1 ≤ 100000
      decide
  rw [assertCanonical, mapError_eq_ok, canonicalJson_ofJson (.str s), and_iff_right henc]
  rfl

/-- A safe integer stays what it was. -/
theorem ofInt_eq_finite {n m : Int} (hm : m.natAbs ≤ JsNumber.maxSafe) :
    JsNumber.ofInt n = .finite m ↔ n = m := by
  constructor
  · intro h
    have hsafe := JsNumber.isSafeInteger_ofInt n
    rw [h, JsNumber.isSafeInteger, decide_eq_true hm, eq_comm, decide_eq_true_iff] at hsafe
    rw [JsNumber.ofInt_of_le hsafe] at h
    exact JsNumber.finite.inj h
  · rintro rfl
    exact JsNumber.ofInt_of_le hm

theorem ofInt_ne_negativeZero (n : Int) : JsNumber.ofInt n ≠ .negativeZero := by
  unfold JsNumber.ofInt
  cases JsNumber.roundToDouble n.natAbs <;> rintro ⟨⟩

/-! ## Numbers -/

/-- `value === 1` -/
theorem strictlyEqual_one {v : Json} : strictlyEqual (ofJson v) one = true ↔ v = writeNat 1 := by
  cases v with
  | num n =>
      have hone : (1 : Int).natAbs ≤ JsNumber.maxSafe := by decide
      rw [writeNat, Json.num.injEq, Nat.cast_one, ← ofInt_eq_finite hone]
      show JsNumber.same (.ofInt n) (.finite 1) = true ↔ _
      cases JsNumber.ofInt n <;> simp [JsNumber.same]
  | _ => exact iff_of_false (by rintro ⟨⟩) (by rintro ⟨⟩)

/-- The check of `version` passes the version of the profile. -/
theorem accepts_literalOne : Accepts literalOne writeNat (· = profileVersion) := by
  intro v path w
  simp only [literalOne, bind_eq_ok, rejectIf_eq_ok, exists_const, Bool.not_eq_true,
    Bool.not_eq_false', strictlyEqual_one, Except.ok.injEq, exists_eq_left]
  rw [and_comm, eq_comm]
  rfl

/-- The check of `single_use` passes the number 1. -/
theorem accepts_singleUse : Accepts singleUse writeNat (· = 1) := by
  intro v path w
  simp only [singleUse, bind_eq_ok, rejectIf_eq_ok, exists_const, Bool.not_eq_true,
    Bool.not_eq_false', strictlyEqual_one, Except.ok.injEq, exists_eq_left]
  rw [and_comm, eq_comm]

theorem toInt_ofInt {n : Int} (h : n.natAbs ≤ JsNumber.maxSafe) : (JsNumber.ofInt n).toInt = n := by
  rw [JsNumber.ofInt_of_le h]
  rfl

/-- The check of an integer passes the safe ones from its minimum on. -/
theorem accepts_integer (minimum : Nat) :
    Accepts (integer minimum) writeNat fun n ↦ minimum ≤ n ∧ n ≤ maxSafeInteger := by
  intro v path w
  cases v with
  | num n =>
      simp only [integer, ofJson, bind_eq_ok, rejectIf_eq_ok, exists_const, not_or,
        Bool.not_eq_true', Bool.not_eq_false, JsNumber.isSafeInteger_ofInt, decide_eq_true_eq,
        not_lt, ofInt_ne_negativeZero, not_false_eq_true, true_and, Except.ok.injEq]
      rw [and_comm, eq_comm]
      refine and_congr_right fun _ ↦ ?_
      constructor
      · rintro ⟨hsafe, hmin⟩
        rw [toInt_ofInt hsafe] at hmin
        refine ⟨n.toNat, ⟨by omega, ?_⟩, ?_⟩
        · have : JsNumber.maxSafe = maxSafeInteger := rfl
          omega
        · rw [writeNat, Json.num.injEq]
          omega
      · rintro ⟨m, ⟨hmin, hmax⟩, hm⟩
        obtain rfl : n = m := Json.num.inj hm
        have hsafe : (m : Int).natAbs ≤ JsNumber.maxSafe := hmax
        rw [toInt_ofInt hsafe]
        exact ⟨hsafe, by exact_mod_cast hmin⟩
  | _ =>
      refine iff_of_false (by rintro ⟨⟩) ?_
      rintro ⟨-, m, -, hm⟩
      exact absurd hm (by rintro ⟨⟩)

/-- The check of a time passes the safe integers that are not negative. -/
theorem accepts_timestamp : Accepts timestamp writeNat (· ≤ maxSafeInteger) := by
  intro v path w
  rw [timestamp, accepts_integer 0]
  simp only [Nat.zero_le, true_and]

/-! ## Texts -/

/-- The numbers of `\s`. -/
def SpaceNumber (n : Nat) : Prop :=
  (0x09 ≤ n ∧ n ≤ 0x0d) ∨ n = 0x20 ∨ n = 0xa0 ∨ n = 0x1680 ∨ (0x2000 ≤ n ∧ n ≤ 0x200a) ∨
    n = 0x2028 ∨ n = 0x2029 ∨ n = 0x202f ∨ n = 0x205f ∨ n = 0x3000 ∨ n = 0xfeff

/-- The numbers of the control characters. -/
def ControlNumber (n : Nat) : Prop := n ≤ 0x1f ∨ (0x7f ≤ n ∧ n ≤ 0x9f)

theorem unitClass_space : UnitClass SpaceNumber := by
  intro n h
  simp only [SpaceNumber] at h
  omega

theorem unitClass_control : UnitClass ControlNumber := by
  intro n h
  simp only [ControlNumber] at h
  omega

/-- The text neither begins nor ends with U+FEFF. -/
def Unmarked (s : String) : Prop :=
  (∀ c ∈ s.toList.head?, c ≠ '\ufeff') ∧ ∀ c ∈ s.toList.getLast?, c ≠ '\ufeff'

/-- What `text` accepts. -/
structure ScalarText (s : String) (maximum : Nat) : Prop extends TrimmedText s maximum where
  unmarked : Unmarked s

/-- `trim` changes a text that begins or ends with a space character. -/
theorem hasMargin_units {s : String} : hasMargin (units s) = true ↔
    (∃ c ∈ s.toList.head?, SpaceNumber c.toNat) ∨ ∃ c ∈ s.toList.getLast?, SpaceNumber c.toNat := by
  have hany : ∀ o : Option UInt16, o.any isSpace = true ↔ ∃ u ∈ o, SpaceNumber u.toNat := by
    intro o
    cases o <;> simp [isSpace, SpaceNumber]
  rw [hasMargin, Bool.or_eq_true, hany, hany, units, unitClass_space.exists_mem_head?,
    unitClass_space.exists_mem_getLast?]

/-- A control character is looked for in code units or in characters with the same result. -/
theorem any_control_units {s : String} :
    (units s).any isControlUnit = true ↔ ∃ c ∈ s.toList, isControl c = true := by
  have hcontrol : ∀ c : Char, isControl c = true ↔ ControlNumber c.toNat := fun c ↦ by
    simp [isControl, ControlNumber]
  simp only [hcontrol]
  rw [units, ← unitClass_control.exists_mem_utf16, List.any_eq_true]
  refine exists_congr fun u ↦ and_congr_right fun _ ↦ ?_
  simp [isControlUnit, ControlNumber]

/-- `Buffer.byteLength` is the number of bytes of the text in UTF-8. -/
theorem byteLength_units (s : String) : byteLength (units s) = byteLen s := by
  rw [byteLength, toBuffer_units, byteLen]

theorem units_eq_nil {s : String} : units s = [] ↔ s = "" := by
  rw [units, ← utf16_nil, utf16_injective.eq_iff, ← String.toList_inj, String.toList_empty]

/-- Up to control characters, `\s` is the property `White_Space` and U+FEFF. -/
theorem space_iff {c : Char} (h : isControl c = false) :
    SpaceNumber c.toNat ↔ isWhiteSpace c = true ∨ c = '\ufeff' := by
  rw [← Char.toNat_inj]
  simp only [isControl, decide_eq_false_iff_not] at h
  simp only [SpaceNumber, isWhiteSpace, decide_eq_true_eq]
  show _ ↔ _ ∨ c.toNat = 0xfeff
  omega

/-- The four tests of a text, in any order. -/
theorem scalarText_iff {s : String} {maximum : Nat} :
    ScalarText s maximum ↔ units s ≠ [] ∧ hasMargin (units s) = false ∧
      byteLength (units s) ≤ maximum ∧ (units s).any isControlUnit = false := by
  rw [byteLength_units, ← Bool.not_eq_true, ← Bool.not_eq_true, hasMargin_units,
    any_control_units, ne_eq, units_eq_nil]
  have hmargin : (∀ c ∈ s.toList, isControl c = false) →
      ((¬((∃ c ∈ s.toList.head?, SpaceNumber c.toNat) ∨
          ∃ c ∈ s.toList.getLast?, SpaceNumber c.toNat)) ↔ trim s = s ∧ Unmarked s) := by
    intro hcontrol
    have heach : ∀ o : Option Char, (∀ c ∈ o, c ∈ s.toList) →
        ((¬∃ c ∈ o, SpaceNumber c.toNat) ↔
          (∀ c ∈ o, isWhiteSpace c = false) ∧ ∀ c ∈ o, c ≠ '\ufeff') := by
      intro o ho
      simp only [not_exists, not_and, ← forall_and]
      refine forall_congr' fun c ↦ forall_congr' fun hc ↦ ?_
      rw [space_iff (hcontrol c (ho c hc)), not_or, Bool.not_eq_true]
    rw [not_or, heach _ fun c hc ↦ List.mem_of_head? hc,
      heach _ fun c hc ↦ List.mem_of_getLast? hc, trim_eq_self_iff, Unmarked]
    exact and_and_and_comm
  constructor
  · rintro ⟨⟨hne, hlen, hcontrol, htrim⟩, hunmarked⟩
    refine ⟨hne, (hmargin hcontrol).mpr ⟨htrim, hunmarked⟩, hlen, ?_⟩
    rintro ⟨c, hc, hctl⟩
    exact Bool.noConfusion ((hcontrol c hc).symm.trans hctl)
  · rintro ⟨hne, hmargins, hlen, hnone⟩
    have hcontrol : ∀ c ∈ s.toList, isControl c = false := fun c hc ↦
      Bool.not_eq_true _ ▸ fun hctl ↦ hnone ⟨c, hc, hctl⟩
    obtain ⟨htrim, hunmarked⟩ := (hmargin hcontrol).mp hmargins
    exact ⟨⟨hne, hlen, hcontrol, htrim⟩, hunmarked⟩

/-- What the check of a text passes, and that it passes the text on as it is. -/
theorem text_units {s : String} {maximum : Nat} {path : JsString} {w : JsValue} :
    text maximum (ofJson (.str s)) path = .ok w ↔
      ScalarText s maximum ∧ w = ofJson (.str s) := by
  rw [scalarText_iff]
  show text maximum (.string (units s)) path = .ok w ↔ _
  simp only [text, bind_eq_ok, rejectIf_eq_ok, exists_const, not_or, Bool.not_eq_true, not_lt,
    gt_iff_lt, Except.ok.injEq]
  constructor
  · rintro ⟨⟨hne, hmargin⟩, hlen, hcontrol, _, -, rfl⟩
    exact ⟨⟨hne, hmargin, hlen, hcontrol⟩, rfl⟩
  · rintro ⟨⟨hne, hmargin, hlen, hcontrol⟩, rfl⟩
    exact ⟨⟨hne, hmargin⟩, hlen, hcontrol, _, assertCanonical_text.mpr rfl, rfl⟩

/-- A check that fails on everything but strings accepts what it does among the strings. -/
theorem accepts_of_strings {check : Check} {InRange : String → Prop}
    (hother : ∀ v path w, check v path = .ok w → ∃ s, v = .string s)
    (hstring : ∀ s path w, check (ofJson (.str s)) path = .ok w ↔
      InRange s ∧ w = ofJson (.str s)) : Accepts check .str InRange := by
  intro v path w
  constructor
  · intro h
    obtain ⟨_, hs⟩ := hother _ _ _ h
    obtain ⟨s, rfl, -⟩ := ofJson_eq_string.mp hs
    obtain ⟨hr, hw⟩ := (hstring s path w).mp h
    exact ⟨hw, s, hr, rfl⟩
  · rintro ⟨hw, s, hr, rfl⟩
    exact (hstring s path w).mpr ⟨hr, hw⟩

theorem string_of_text {maximum : Nat} {v : JsValue} {path : JsString} {w : JsValue}
    (h : text maximum v path = .ok w) : ∃ s, v = .string s := by
  cases v with
  | string s => exact ⟨s, rfl⟩
  | _ => cases h

/-- The check of a text passes the texts of its length. -/
theorem accepts_text (maximum : Nat) : Accepts (text maximum) .str (ScalarText · maximum) :=
  accepts_of_strings (fun _ _ _ ↦ string_of_text) fun _ _ _ ↦ text_units

theorem accepts_identifier : Accepts identifier .str (ScalarText · 256) := accepts_text 256

/-- The check for a text that is not empty adds nothing to the one before it. -/
theorem accepts_nonemptyText (maximum : Nat) :
    Accepts (nonemptyText maximum) .str (ScalarText · maximum) := by
  refine accepts_of_strings (fun v path w h ↦ ?_) fun s path w ↦ ?_
  · cases v with
    | string s => exact ⟨s, rfl⟩
    | _ => cases h
  · rw [scalarText_iff]
    show nonemptyText maximum (.string (units s)) path = .ok w ↔ _
    simp only [nonemptyText, bind_eq_ok, rejectIf_eq_ok, exists_const, Bool.not_eq_true, not_lt,
      gt_iff_lt, Except.ok.injEq]
    constructor
    · rintro ⟨hne, hlen, hmargin, hcontrol, _, -, rfl⟩
      exact ⟨⟨hne, hmargin, hlen, hcontrol⟩, rfl⟩
    · rintro ⟨⟨hne, hmargin, hlen, hcontrol⟩, rfl⟩
      exact ⟨hne, hlen, hmargin, hcontrol, _, assertCanonical_text.mpr rfl, rfl⟩

/-! ### Printable texts -/

/-- A class of visible ASCII characters. -/
def Printable (p : Nat → Prop) : Prop := ∀ n, p n → 0x21 ≤ n ∧ n ≤ 0x7e

section Printable

variable {p : Nat → Prop} (hp : Printable p)

include hp

theorem Printable.asciiClass : AsciiClass p := fun n h ↦ by
  have := hp n h
  omega

/-- A text of printable characters within the length is a text that the check passes. -/
theorem Printable.scalarText {s : String} {maximum : Nat} (h : ∀ c ∈ s.toList, p c.toNat)
    (hne : s ≠ "") (hlen : byteLen s ≤ maximum) : ScalarText s maximum := by
  have hvisible : ∀ c ∈ s.toList, isControl c = false ∧ isWhiteSpace c = false ∧ c ≠ '\ufeff' := by
    intro c hc
    have := hp _ (h c hc)
    refine ⟨?_, ?_, fun heq ↦ ?_⟩
    · simp only [isControl, decide_eq_false_iff_not]
      omega
    · simp only [isWhiteSpace, decide_eq_false_iff_not]
      omega
    · rw [heq] at this
      exact absurd this.2 (by decide)
  refine ⟨⟨hne, hlen, fun c hc ↦ (hvisible c hc).1, trim_eq_self_iff.mpr ⟨?_, ?_⟩⟩, ?_, ?_⟩
  · exact fun c hc ↦ (hvisible c (List.mem_of_head? hc)).2.1
  · exact fun c hc ↦ (hvisible c (List.mem_of_getLast? hc)).2.1
  · exact fun c hc ↦ (hvisible c (List.mem_of_head? hc)).2.2
  · exact fun c hc ↦ (hvisible c (List.mem_of_getLast? hc)).2.2

end Printable

/-! ### Digests -/

/-- The numbers of the lower-case hexadecimal digits. -/
def HexNumber (n : Nat) : Prop := (0x30 ≤ n ∧ n ≤ 0x39) ∨ (0x61 ≤ n ∧ n ≤ 0x66)

theorem asciiClass_hex : AsciiClass HexNumber := fun n h ↦ by
  simp only [HexNumber] at h
  omega

/-- The characters of a digest. -/
def DigestChars (cs : List Char) : Prop :=
  ∃ hex, cs = digestPrefix ++ hex ∧ hex.length = 64 ∧ (∀ c ∈ hex, HexNumber c.toNat) ∧
    ¬∀ c ∈ hex, c = '0'

/-- `Digest32::parse` takes a text with the characters of a digest. -/
theorem validateDigestText_iff {s : String} {u : Unit} :
    validateDigestText s = .ok u ↔ DigestChars s.toList := by
  have hbytes : ∀ hex : String, (∀ c ∈ hex.toList, HexNumber c.toNat) →
      (utf8 hex).length = hex.toList.length ∧
        ((utf8 hex).all (· = 0x30) = true ↔ ∀ c ∈ hex.toList, c = '0') := by
    intro hex hhex
    have hascii : ∀ c ∈ hex.toList, c.toNat < 0x80 := fun c hc ↦ asciiClass_hex _ (hhex c hc)
    rw [utf8_of_ascii hascii, List.length_map]
    refine ⟨rfl, ?_⟩
    rw [List.all_map, List.all_eq_true]
    refine forall_congr' fun c ↦ forall_congr' fun hc ↦ ?_
    have hsmall := hascii c hc
    simp only [Function.comp_apply, decide_eq_true_eq, ← UInt8.toNat_inj, ← Char.toNat_inj,
      toNat_ofNat_ascii hsmall]
    rfl
  have hany : ∀ hex : String, (utf8 hex).any (fun b ↦ !isHexByte b) = false ↔
      ∀ c ∈ hex.toList, HexNumber c.toNat := by
    intro hex
    rw [← asciiClass_hex.forall_mem_utf8, List.any_eq_false]
    refine forall_congr' fun b ↦ forall_congr' fun _ ↦ ?_
    simp only [isHexByte, HexNumber, UInt8.le_iff_toNat_le, Bool.not_eq_true',
      decide_eq_false_iff_not, not_not]
    rfl
  simp only [validateDigestText, bind_eq_ok, okOr_eq_ok, rejectIf_eq_ok, not_or, not_not,
    Bool.not_eq_true, hany, stripPrefix, Option.ite_none_right_eq_some, Option.some.injEq]
  constructor
  · rintro ⟨_, ⟨⟨hex, hcs⟩, rfl⟩, hlen, hhex, hzero⟩
    rw [← hcs, List.drop_left] at hlen hhex hzero
    obtain ⟨hlength, hall⟩ := hbytes _ hhex
    rw [String.toList_ofList] at hhex hlength hall
    refine ⟨hex, hcs.symm, hlength.symm.trans hlen, hhex, fun h ↦ ?_⟩
    exact Bool.noConfusion (hzero.symm.trans (hall.mpr h))
  · rintro ⟨hex, hcs, hlen, hhex, hzero⟩
    have hdrop : s.toList.drop digestPrefix.length = hex := by rw [hcs, List.drop_left]
    refine ⟨.ofList hex, ⟨⟨hex, hcs.symm⟩, by rw [hdrop]⟩, ?_⟩
    have hhex' : ∀ c ∈ (String.ofList hex).toList, HexNumber c.toNat := by
      rwa [String.toList_ofList]
    obtain ⟨hlength, hall⟩ := hbytes _ hhex'
    refine ⟨by rw [hlength, String.toList_ofList, hlen], hhex', ?_⟩
    rw [← Bool.not_eq_true, hall, String.toList_ofList]
    exact hzero

theorem map_unit_injOn {cs ds : List Char} (hcs : ∀ c ∈ cs, c.toNat < 0x80)
    (hds : ∀ c ∈ ds, c.toNat < 0x80) (h : cs.map unit = ds.map unit) : cs = ds := by
  rw [← utf16_of_ascii hcs, ← utf16_of_ascii hds] at h
  exact utf16_injective h

theorem digestPrefix_ascii : ∀ c ∈ digestPrefix, c.toNat < 0x80 := by
  intro c hc
  simp only [digestPrefix, List.mem_cons, List.not_mem_nil, or_false] at hc
  rcases hc with rfl | rfl | rfl | rfl | rfl | rfl | rfl <;> decide

theorem asciiClass_lt : AsciiClass (· < 0x80) := fun _ ↦ id

/-- The regular expression of a digest, by its prefix and its 64 digits. -/
theorem isDigest_iff {u : JsString} : isDigest u = true ↔
    u.take 7 = digestPrefix.map unit ∧ (u.drop 7).length = 64 ∧
      ∀ x ∈ u.drop 7, HexNumber x.toNat := by
  have hjs : js "sha256:" = digestPrefix.map unit := utf16_of_ascii digestPrefix_ascii
  simp only [isDigest, hjs, decide_eq_true_eq, List.all_eq_true, isHexUnit, HexNumber]

/-- A text that matches the expression is ASCII. -/
theorem ascii_of_isDigest {cs : List Char} (h : isDigest (utf16 cs) = true) :
    ∀ c ∈ cs, c.toNat < 0x80 := by
  obtain ⟨htake, -, hhex⟩ := isDigest_iff.mp h
  refine (asciiClass_lt.forall_mem_utf16 cs).mp fun x hx ↦ ?_
  rw [← List.take_append_drop 7 (utf16 cs), htake] at hx
  rcases List.mem_append.mp hx with hx | hx
  · obtain ⟨c, hc, rfl⟩ := List.mem_map.mp hx
    have hsmall := digestPrefix_ascii c hc
    rwa [toNat_unit (hsmall.trans (by decide))]
  · exact asciiClass_hex _ (hhex x hx)

theorem ascii_of_digestChars {cs : List Char} (h : DigestChars cs) : ∀ c ∈ cs, c.toNat < 0x80 := by
  obtain ⟨hex, rfl, -, hhex, -⟩ := h
  intro c hc
  rcases List.mem_append.mp hc with hc | hc
  · exact digestPrefix_ascii c hc
  · exact asciiClass_hex _ (hhex c hc)

theorem zeroDigest_eq : zeroDigest = units (.ofList (digestPrefix ++ List.replicate 64 '0')) := by
  rw [units, String.toList_ofList, utf16_append, zeroDigest]
  rfl

/-- The two tests of a digest. -/
theorem isDigest_units {s : String} :
    (isDigest (units s) = true ∧ units s ≠ zeroDigest) ↔ DigestChars s.toList := by
  have hzero : units s = zeroDigest ↔ s.toList = digestPrefix ++ List.replicate 64 '0' := by
    rw [zeroDigest_eq, units, units, utf16_injective.eq_iff, String.toList_ofList]
  have hsplit : (∀ c ∈ s.toList, c.toNat < 0x80) → (isDigest (units s) = true ↔
      s.toList.take 7 = digestPrefix ∧ (s.toList.drop 7).length = 64 ∧
        ∀ c ∈ s.toList.drop 7, HexNumber c.toNat) := by
    intro hascii
    rw [isDigest_iff, units, utf16_of_ascii hascii, ← List.map_take, ← List.map_drop,
      List.length_map, List.forall_mem_map]
    refine and_congr ?_ (and_congr_right fun _ ↦ ?_)
    · refine ⟨map_unit_injOn (fun c hc ↦ hascii c (List.mem_of_mem_take hc))
        digestPrefix_ascii, fun h ↦ by rw [h]⟩
    · refine forall_congr' fun c ↦ forall_congr' fun hc ↦ ?_
      rw [toNat_unit ((hascii c (List.mem_of_mem_drop hc)).trans (by decide))]
  constructor
  · rintro ⟨hdigest, hne⟩
    obtain ⟨htake, hlen, hhex⟩ := (hsplit (ascii_of_isDigest hdigest)).mp hdigest
    have hcs : s.toList = digestPrefix ++ s.toList.drop 7 := by
      rw [← htake, List.take_append_drop]
    refine ⟨_, hcs, hlen, hhex, fun hall ↦ hne (hzero.mpr ?_)⟩
    rw [List.eq_replicate_iff.mpr ⟨hlen, hall⟩] at hcs
    exact hcs
  · intro h
    have hascii := ascii_of_digestChars h
    obtain ⟨hex, hcs, hlen, hhex, hnot⟩ := h
    have htake : s.toList.take 7 = digestPrefix := by rw [hcs]; exact List.take_left' rfl
    have hdrop : s.toList.drop 7 = hex := by rw [hcs]; exact List.drop_left' rfl
    refine ⟨(hsplit hascii).mpr ⟨htake, by rwa [hdrop], by rwa [hdrop]⟩, fun h ↦ hnot ?_⟩
    have heq := hzero.mp h
    rw [hcs, List.append_cancel_left_eq] at heq
    exact (List.eq_replicate_iff.mp heq).2

/-- The check of a digest passes every digest. -/
theorem accepts_digest : Accepts digest writeDigest fun _ ↦ True := by
  have hiff : ∀ s : String, DigestChars s.toList ↔ ∃ d : Digest32, s = d.asStr := fun s ↦ by
    rw [← validateDigestText_iff (u := ())]
    constructor
    · exact fun h ↦ ⟨⟨s, h⟩, rfl⟩
    · rintro ⟨d, rfl⟩
      exact d.valid
  have hstrings : Accepts digest .str fun s ↦ DigestChars s.toList := by
    refine accepts_of_strings (fun v path w h ↦ ?_) fun s path w ↦ ?_
    · cases v with
      | string s => exact ⟨s, rfl⟩
      | _ => cases h
    · rw [← isDigest_units]
      show digest (.string (units s)) path = .ok w ↔ _
      simp only [digest, bind_eq_ok, rejectIf_eq_ok, exists_const, Bool.not_eq_true',
        Bool.not_eq_false, Except.ok.injEq]
      rw [and_assoc, eq_comm (b := w)]
      rfl
  intro v path w
  rw [hstrings]
  refine and_congr_right fun _ ↦ ?_
  constructor
  · rintro ⟨s, hs, rfl⟩
    obtain ⟨d, rfl⟩ := (hiff s).mp hs
    exact ⟨d, trivial, rfl⟩
  · rintro ⟨d, -, rfl⟩
    exact ⟨d.asStr, (hiff _).mpr ⟨d, rfl⟩, rfl⟩

/-! ### Tokens and nonces -/

/-- The numbers of the lower-case letters. -/
def LowerNumber (n : Nat) : Prop := 0x61 ≤ n ∧ n ≤ 0x7a

/-- The numbers of the characters of a reason or an error code. -/
def TokenNumber (n : Nat) : Prop :=
  (0x61 ≤ n ∧ n ≤ 0x7a) ∨ (0x30 ≤ n ∧ n ≤ 0x39) ∨ n = 0x2e ∨ n = 0x5f ∨ n = 0x3a ∨ n = 0x2f ∨
    n = 0x2d

/-- The numbers of the characters of a nonce. -/
def NonceNumber (n : Nat) : Prop :=
  (0x41 ≤ n ∧ n ≤ 0x5a) ∨ (0x61 ≤ n ∧ n ≤ 0x7a) ∨ (0x30 ≤ n ∧ n ≤ 0x39) ∨ n = 0x5f ∨ n = 0x2d

theorem printable_token : Printable TokenNumber := fun n h ↦ by
  simp only [TokenNumber] at h
  omega

theorem printable_nonce : Printable NonceNumber := fun n h ↦ by
  simp only [NonceNumber] at h
  omega

theorem LowerNumber.token {n : Nat} (h : LowerNumber n) : TokenNumber n := .inl h

/-- The characters of a token. -/
def TokenChars : List Char → Prop
  | [] => False
  | c :: cs => LowerNumber c.toNat ∧ ∀ d ∈ cs, TokenNumber d.toNat

theorem TokenChars.all {cs : List Char} (h : TokenChars cs) : ∀ c ∈ cs, TokenNumber c.toNat := by
  cases cs with
  | nil => simp
  | cons c cs => exact List.forall_mem_cons.mpr ⟨h.1.token, h.2⟩

theorem isTokenUnit_iff {u : UInt16} : isTokenUnit u = true ↔ TokenNumber u.toNat := by
  have hmem : u ∈ ['.', '_', ':', '/', '-'].map unit ↔
      u.toNat = 0x2e ∨ u.toNat = 0x5f ∨ u.toNat = 0x3a ∨ u.toNat = 0x2f ∨ u.toNat = 0x2d := by
    simp only [List.map_cons, List.map_nil, List.mem_cons, List.not_mem_nil, or_false,
      ← UInt16.toNat_inj]
    rfl
  simp only [isTokenUnit, decide_eq_true_eq, hmem, isLowercase, isDigitUnit, TokenNumber]

/-- The regular expression of a token passes the texts with the characters of one. -/
theorem isToken_units {s : String} : isToken (units s) = true ↔ TokenChars s.toList := by
  rw [units]
  generalize s.toList = cs
  have hall : isToken (utf16 cs) = true → ∀ c ∈ cs, TokenNumber c.toNat := by
    intro h
    refine (printable_token.asciiClass.forall_mem_utf16 cs).mp fun u hu ↦ ?_
    cases hus : utf16 cs with
    | nil =>
        rw [hus] at hu
        cases hu
    | cons v us =>
        rw [hus] at h hu
        simp only [isToken, decide_eq_true_eq, List.all_eq_true, isTokenUnit_iff] at h
        rcases List.mem_cons.mp hu with rfl | hu
        · exact LowerNumber.token (by simpa [isLowercase, LowerNumber] using h.1)
        · exact h.2 u hu
  have hsplit : (∀ c ∈ cs, TokenNumber c.toNat) → (isToken (utf16 cs) = true ↔ TokenChars cs) := by
    intro hcs
    have hascii := fun c hc ↦ printable_token.asciiClass _ (hcs c hc)
    rw [utf16_of_ascii hascii]
    cases cs with
    | nil => exact iff_of_false (by rintro ⟨⟩) id
    | cons c cs =>
        have hunit : ∀ d ∈ c :: cs, (unit d).toNat = d.toNat := fun d hd ↦
          toNat_unit ((hascii d hd).trans (by decide))
        have hlower : isLowercase (unit c) = true ↔ LowerNumber c.toNat := by
          rw [isLowercase, decide_eq_true_eq, hunit c List.mem_cons_self, LowerNumber]
        rw [List.map_cons, isToken, TokenChars, decide_eq_true_eq, hlower]
        simp only [List.all_eq_true, List.forall_mem_map, isTokenUnit_iff]
        refine and_congr_right fun _ ↦ forall_congr' fun d ↦ forall_congr' fun hd ↦ ?_
        rw [hunit d (List.mem_cons_of_mem c hd)]
  constructor
  · exact fun h ↦ (hsplit (hall h)).mp h
  · exact fun h ↦ (hsplit h.all).mpr h

/-- A token is a text by its characters alone, as none of them is a space or a control character.
-/
theorem tokenText_iff {s : String} : TokenText s ↔ TokenChars s.toList ∧ byteLen s ≤ 256 := by
  have hstart : ∀ b : UInt8, isTokenStart b = true ↔ LowerNumber b.toNat := fun b ↦ by
    simp [isTokenStart, LowerNumber, UInt8.le_iff_toNat_le]
  have hbyte : ∀ b : UInt8, isTokenByte b = true ↔ TokenNumber b.toNat := fun b ↦ by
    simp only [isTokenByte, TokenNumber, UInt8.le_iff_toNat_le, decide_eq_true_eq,
      ← UInt8.toNat_inj]
    rfl
  have hall : TokenText s → ∀ c ∈ s.toList, TokenNumber c.toNat := by
    intro h
    refine (printable_token.asciiClass.forall_mem_utf8 s).mp fun b hb ↦ ?_
    obtain ⟨b₀, bs, hbs⟩ := List.exists_cons_of_ne_nil (utf8_ne_nil h.nonempty)
    have hfirst := h.start
    have hrest := h.bytes
    rw [hbs] at hb hfirst hrest
    rcases List.mem_cons.mp hb with rfl | hb
    · exact ((hstart b).mp (hfirst b rfl)).token
    · exact (hbyte b).mp (hrest b hb)
  have hsplit : (∀ c ∈ s.toList, TokenNumber c.toNat) → s ≠ "" →
      (((∀ b ∈ (utf8 s).head?, isTokenStart b = true) ∧
        ∀ b ∈ (utf8 s).tail, isTokenByte b = true) ↔ TokenChars s.toList) := by
    intro hcs hne
    have hascii := fun c hc ↦ printable_token.asciiClass _ (hcs c hc)
    rw [utf8_of_ascii hascii]
    cases hl : s.toList with
    | nil => exact absurd (String.toList_inj.mp hl) hne
    | cons c cs =>
        rw [hl] at hascii
        have hnum : ∀ d ∈ c :: cs, (UInt8.ofNat d.toNat).toNat = d.toNat := fun d hd ↦
          toNat_ofNat_ascii (hascii d hd)
        simp only [List.map_cons, List.head?_cons, List.tail_cons, Option.mem_def,
          Option.some.injEq, forall_eq', List.forall_mem_map, hstart, hbyte, TokenChars,
          hnum c List.mem_cons_self]
        refine and_congr_right fun _ ↦ forall_congr' fun d ↦ forall_congr' fun hd ↦ ?_
        rw [hnum d (List.mem_cons_of_mem c hd)]
  constructor
  · intro h
    exact ⟨(hsplit (hall h) h.nonempty).mp ⟨h.start, h.bytes⟩, h.bounded⟩
  · rintro ⟨hchars, hlen⟩
    have hne : s ≠ "" := by
      rintro rfl
      exact hchars
    have hscalar := printable_token.scalarText hchars.all hne hlen
    obtain ⟨hhead, htail⟩ := (hsplit hchars.all hne).mpr hchars
    exact { hscalar.toTrimmedText with start := hhead, bytes := htail }

theorem tokenText_units {code message : String} {s : String} {path : JsString} {w : JsValue} :
    tokenText code message (ofJson (.str s)) path = .ok w ↔
      TokenText s ∧ w = ofJson (.str s) := by
  rw [tokenText, bind_eq_ok]
  simp only [text_units]
  rw [tokenText_iff]
  constructor
  · rintro ⟨_, ⟨htext, rfl⟩, h⟩
    obtain ⟨⟨⟩, htoken, hw⟩ := bind_eq_ok.mp h
    rw [rejectIf_eq_ok, Bool.not_eq_true', Bool.not_eq_false] at htoken
    exact ⟨⟨isToken_units.mp htoken, htext.bounded⟩, (Except.ok.inj hw).symm⟩
  · rintro ⟨⟨hchars, hlen⟩, rfl⟩
    have hne : s ≠ "" := by
      rintro rfl
      exact hchars
    refine ⟨_, ⟨printable_token.scalarText hchars.all hne hlen, rfl⟩, ?_⟩
    refine bind_eq_ok.mpr ⟨(), ?_, rfl⟩
    rw [rejectIf_eq_ok, Bool.not_eq_true', Bool.not_eq_false]
    exact isToken_units.mpr hchars

/-- The check of a token passes the tokens, whatever the error that it is given. -/
theorem accepts_tokenText (code message : String) :
    Accepts (tokenText code message) .str TokenText := by
  refine accepts_of_strings (fun v path w h ↦ ?_) fun _ _ _ ↦ tokenText_units
  obtain ⟨_, hv, -⟩ := bind_eq_ok.mp h
  exact string_of_text hv

theorem isNonceUnit_iff {u : UInt16} : isNonceUnit u = true ↔ NonceNumber u.toNat := by
  have hmem : u ∈ ['_', '-'].map unit ↔ u.toNat = 0x5f ∨ u.toNat = 0x2d := by
    simp only [List.map_cons, List.map_nil, List.mem_cons, List.not_mem_nil, or_false,
      ← UInt16.toNat_inj]
    rfl
  simp only [isNonceUnit, decide_eq_true_eq, hmem, isLowercase, isDigitUnit, NonceNumber]

/-- A nonce is a text by its characters and its length. -/
theorem nonceText_iff {s : String} : NonceText s ↔
    (∀ c ∈ s.toList, NonceNumber c.toNat) ∧ 22 ≤ s.toList.length ∧ s.toList.length ≤ 128 := by
  have hbyte : ∀ b : UInt8, isNonceByte b = true ↔ NonceNumber b.toNat := fun b ↦ by
    simp only [isNonceByte, NonceNumber, UInt8.le_iff_toNat_le, decide_eq_true_eq,
      ← UInt8.toNat_inj]
    rfl
  have hall : (∀ b ∈ utf8 s, isNonceByte b = true) ↔ ∀ c ∈ s.toList, NonceNumber c.toNat := by
    rw [← printable_nonce.asciiClass.forall_mem_utf8]
    exact forall_congr' fun b ↦ forall_congr' fun _ ↦ hbyte b
  have hlen : (∀ c ∈ s.toList, NonceNumber c.toNat) → byteLen s = s.toList.length := fun h ↦ by
    rw [byteLen, utf8_of_ascii fun c hc ↦ printable_nonce.asciiClass _ (h c hc), List.length_map]
  constructor
  · rintro ⟨hlower, hupper, hbytes⟩
    have hchars := hall.mp hbytes
    rw [hlen hchars] at hlower hupper
    exact ⟨hchars, hlower, hupper⟩
  · rintro ⟨hchars, hlower, hupper⟩
    rw [← hlen hchars] at hlower hupper
    exact ⟨hlower, hupper, hall.mpr hchars⟩

theorem scalarText_of_nonce {s : String} (h : NonceText s) : ScalarText s 128 := by
  obtain ⟨hchars, hlower, -⟩ := nonceText_iff.mp h
  refine printable_nonce.scalarText hchars ?_ h.upper
  rintro rfl
  exact absurd hlower (by decide)

/-- What the check of a nonce passes, and that it passes the text on as it is. -/
theorem nonce_units {s : String} {path : JsString} {w : JsValue} :
    nonce (ofJson (.str s)) path = .ok w ↔ NonceText s ∧ w = ofJson (.str s) := by
  have hunits : ((units s).all isNonceUnit = true ∧ 22 ≤ (units s).length ∧
      (units s).length ≤ 128) ↔ NonceText s := by
    have hall : (units s).all isNonceUnit = true ↔ ∀ c ∈ s.toList, NonceNumber c.toNat := by
      rw [← printable_nonce.asciiClass.forall_mem_utf16, List.all_eq_true]
      exact forall_congr' fun u ↦ forall_congr' fun _ ↦ isNonceUnit_iff
    rw [nonceText_iff, hall]
    refine and_congr_right fun h ↦ ?_
    rw [units, utf16_of_ascii fun c hc ↦ printable_nonce.asciiClass _ (h c hc), List.length_map]
  rw [nonce, bind_eq_ok]
  simp only [text_units]
  constructor
  · rintro ⟨_, ⟨-, rfl⟩, h⟩
    obtain ⟨⟨⟩, hnonce, hw⟩ := bind_eq_ok.mp h
    rw [rejectIf_eq_ok, Bool.not_eq_true', Bool.not_eq_false, decide_eq_true_eq] at hnonce
    exact ⟨hunits.mp hnonce, (Except.ok.inj hw).symm⟩
  · rintro ⟨hnonce, rfl⟩
    refine ⟨_, ⟨scalarText_of_nonce hnonce, rfl⟩, bind_eq_ok.mpr ⟨(), ?_, rfl⟩⟩
    rw [rejectIf_eq_ok, Bool.not_eq_true', Bool.not_eq_false, decide_eq_true_eq]
    exact hunits.mpr hnonce

/-- The check of a nonce passes the nonces. -/
theorem accepts_nonce : Accepts nonce .str NonceText := by
  refine accepts_of_strings (fun v path w h ↦ ?_) fun _ _ _ ↦ nonce_units
  obtain ⟨_, hv, -⟩ := bind_eq_ok.mp h
  exact string_of_text hv

/-! ## Variants, options and arrays -/

theorem js_eq_units (s : String) : js s = units s := rfl

theorem units_injective : Function.Injective units := fun _ _ h ↦
  String.toList_inj.mp (utf16_injective h)

/-- The names of a type of outcomes. -/
theorem accepts_enumValue {α : Type*} {label : α → String} {accepted : List String}
    (h : ∀ s, s ∈ accepted ↔ ∃ a, s = label a) :
    Accepts (enumValue accepted) (fun a ↦ .str (label a)) fun _ ↦ True := by
  have hstrings : Accepts (enumValue accepted) .str (· ∈ accepted) := by
    refine accepts_of_strings (fun v path w h ↦ ?_) fun s path w ↦ ?_
    · cases v with
      | string s => exact ⟨s, rfl⟩
      | _ => cases h
    · have hmem : units s ∈ accepted.map js ↔ s ∈ accepted :=
        List.mem_map_of_injective units_injective
      show enumValue accepted (.string (units s)) path = .ok w ↔ _
      simp only [enumValue, bind_eq_ok, rejectIf_eq_ok, exists_const, not_not, hmem,
        Except.ok.injEq]
      rw [eq_comm (b := w)]
      rfl
  intro v path w
  rw [hstrings]
  refine and_congr_right fun _ ↦ ?_
  constructor
  · rintro ⟨s, hs, rfl⟩
    obtain ⟨a, rfl⟩ := (h s).mp hs
    exact ⟨a, trivial, rfl⟩
  · rintro ⟨a, -, rfl⟩
    exact ⟨_, (h _).mpr ⟨a, rfl⟩, rfl⟩

section Lifted

variable {α : Type*} {check : Check} {write : α → Json} {InRange : α → Prop}

/-- A check of a value that can be `null` passes `null` and what the check passes. -/
theorem Accepts.nullOr (h : Accepts check write InRange) :
    Accepts (nullOr check) (writeOption write) fun o ↦ ∀ a ∈ o, InRange a := by
  intro v path w
  rcases eq_or_ne v .null with rfl | hv
  · show Except.ok JsValue.null = .ok w ↔ _
    rw [Except.ok.injEq, eq_comm]
    refine ⟨fun h ↦ ⟨h, none, by rintro _ ⟨⟩, rfl⟩, fun h ↦ h.1⟩
  · have hcheck : TypeScript.nullOr check (ofJson v) path = check (ofJson v) path := by
      cases v with
      | null => exact absurd rfl hv
      | _ => rfl
    rw [hcheck, h]
    refine and_congr_right fun _ ↦ ?_
    constructor
    · rintro ⟨a, ha, rfl⟩
      exact ⟨some a, fun b hb ↦ Option.some.inj hb ▸ ha, rfl⟩
    · rintro ⟨o, ho, rfl⟩
      cases o with
      | none => exact absurd rfl hv
      | some a => exact ⟨a, ho a rfl, rfl⟩

/-- The loop over the items of an array passes the lists of what the check passes. -/
theorem Accepts.eachItem (h : Accepts check write InRange) {path : JsString} {index : Nat}
    {vs : List Json} {ws : List JsValue} :
    eachItem check path index (vs.map ofJson) = .ok ws ↔
      ws = vs.map ofJson ∧ ∃ l : List α, (∀ a ∈ l, InRange a) ∧ vs = l.map write := by
  induction vs generalizing index ws with
  | nil =>
      show Except.ok [] = .ok ws ↔ _
      rw [Except.ok.injEq, eq_comm]
      exact ⟨fun h ↦ ⟨h, [], by rintro _ ⟨⟩, rfl⟩, fun h ↦ h.1⟩
  | cons v vs ih =>
      simp only [List.map_cons, TypeScript.eachItem, bind_eq_ok, h v, ih, Except.ok.injEq]
      constructor
      · rintro ⟨_, ⟨rfl, a, ha, rfl⟩, _, ⟨rfl, l, hl, rfl⟩, rfl⟩
        exact ⟨rfl, a :: l, List.forall_mem_cons.mpr ⟨ha, hl⟩, rfl⟩
      · rintro ⟨rfl, l, hl, hvs⟩
        obtain ⟨a, l, rfl, rfl, rfl⟩ := List.map_eq_cons_iff.mp hvs.symm
        obtain ⟨ha, hl⟩ := List.forall_mem_cons.mp hl
        exact ⟨_, ⟨rfl, a, ha, rfl⟩, _, ⟨rfl, l, hl, rfl⟩, rfl⟩

/-- A check of an array passes the lists of its length of what the check passes. -/
theorem Accepts.arrayOf (h : Accepts check write InRange) {maximum : Nat} {v : Json}
    {path : JsString} {ws : List JsValue} :
    arrayOf check maximum (ofJson v) path = .ok ws ↔
      ∃ l : List α, (l.length ≤ maximum ∧ ∀ a ∈ l, InRange a) ∧ v = .arr (l.map write) ∧
        ws = (l.map write).map ofJson := by
  cases v with
  | arr vs =>
      rw [ofJson, ofJsonValues_eq_map]
      simp only [TypeScript.arrayOf, bind_eq_ok, rejectIf_eq_ok, exists_const, h.eachItem,
        List.length_map, not_lt, gt_iff_lt, Json.arr.injEq]
      constructor
      · rintro ⟨hlen, rfl, l, hl, rfl⟩
        rw [List.length_map] at hlen
        exact ⟨l, ⟨hlen, hl⟩, rfl, rfl⟩
      · rintro ⟨l, ⟨hlen, hl⟩, rfl, rfl⟩
        rw [List.length_map]
        exact ⟨hlen, rfl, l, hl, rfl⟩
  | _ =>
      refine iff_of_false (by rintro ⟨⟩) ?_
      rintro ⟨l, -, hv, -⟩
      exact absurd hv (by rintro ⟨⟩)

end Lifted

end Etp.TypeScript
