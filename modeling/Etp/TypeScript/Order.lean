import Etp.Core.Text
import Etp.TypeScript.Encoding
import Etp.TypeScript.Verify

/-!
# The order of the strings

`compareUnicodeScalars` compares code points, Rust compares UTF-8 bytes, and a
JavaScript string is a list of UTF-16 units.  On strings of scalar values the
three encodings give one order: the encoding to code points and the encoding to
bytes are both strictly monotone in the lexicographic order of the characters.

`sortedUnique` compares neighbours in this order as the Rust verifier does, and
`sortedKeys` sorts in it as the `BTreeMap` of the Rust encoder does.
-/

namespace Etp.TypeScript

open JsString

/-! ## The comparison -/

/-- Swapping the arguments changes the sign. -/
theorem comparePoints_swap (xs ys : List Nat) : comparePoints ys xs = -comparePoints xs ys := by
  induction xs generalizing ys with
  | nil => cases ys <;> simp [comparePoints]
  | cons x xs ih =>
      cases ys with
      | nil => simp [comparePoints]
      | cons y ys =>
          rw [comparePoints, comparePoints, ih]
          split_ifs <;> omega

theorem comparePoints_neg_iff (xs ys : List Nat) : comparePoints xs ys < 0 ↔ xs < ys := by
  rw [← comparePoints_pos_iff, comparePoints_swap xs ys, Left.neg_pos_iff]

theorem comparePoints_eq_zero_iff (xs ys : List Nat) : comparePoints xs ys = 0 ↔ xs = ys := by
  have hlt := comparePoints_neg_iff xs ys
  have hgt := comparePoints_pos_iff xs ys
  constructor
  · intro h
    apply le_antisymm
    · exact not_lt.mp fun hyx ↦ by have := hgt.mpr hyx; omega
    · exact not_lt.mp fun hxy ↦ by have := hlt.mpr hxy; omega
  · rintro rfl
    have := comparePoints_swap xs xs
    omega

theorem strictMono_map_toNat : StrictMono (List.map Char.toNat) := fun _ _ ↦ map_toNat_lt_map_toNat

theorem codePoints_lt_iff (a b : String) :
    codePoints (utf16 a.toList) < codePoints (utf16 b.toList) ↔ ByteLt a b := by
  rw [codePoints_utf16, codePoints_utf16, strictMono_map_toNat.lt_iff_lt, byteLt_iff]

theorem codePoints_inj (a b : String) :
    codePoints (utf16 a.toList) = codePoints (utf16 b.toList) ↔ a = b := by
  rw [codePoints_utf16, codePoints_utf16, strictMono_map_toNat.injective.eq_iff,
    String.toList_inj]

theorem compareUnicodeScalars_neg_iff (a b : String) :
    compareUnicodeScalars (utf16 a.toList) (utf16 b.toList) < 0 ↔ ByteLt a b := by
  rw [compareUnicodeScalars, comparePoints_neg_iff, codePoints_lt_iff]

theorem compareUnicodeScalars_pos_iff (a b : String) :
    0 < compareUnicodeScalars (utf16 a.toList) (utf16 b.toList) ↔ ByteLt b a := by
  rw [compareUnicodeScalars, comparePoints_pos_iff, codePoints_lt_iff]

theorem compareUnicodeScalars_eq_zero_iff (a b : String) :
    compareUnicodeScalars (utf16 a.toList) (utf16 b.toList) = 0 ↔ a = b := by
  rw [compareUnicodeScalars, comparePoints_eq_zero_iff, codePoints_inj]

/-! ## Sorted lists -/

/-- A string as JavaScript holds it. -/
def units (s : String) : JsString := utf16 s.toList

/-- `sortedUnique` accepts what the windows of the Rust verifier accept. -/
theorem sortedUnique_eq_ok {path : JsString} {index : Nat} {values : List String} {u : Unit} :
    sortedUnique path index (values.map units) = .ok u ↔ Core.strictlyIncreasing values = true := by
  induction values generalizing index with
  | nil => exact iff_of_true rfl rfl
  | cons a values ih =>
      cases values with
      | nil => exact iff_of_true rfl rfl
      | cons b rest =>
          have hle : (¬compareUnicodeScalars (units a) (units b) = 0 ∧
              ¬0 < compareUnicodeScalars (units a) (units b)) ↔ ByteLt a b := by
            rw [← compareUnicodeScalars_neg_iff, units, units]
            omega
          simp only [List.map_cons] at ih ⊢
          simp only [sortedUnique, bind_eq_ok, rejectIf_eq_ok, exists_const, gt_iff_lt, ih,
            Core.strictlyIncreasing, Bool.and_eq_true, decide_eq_true_eq, ← hle, and_assoc]

/-! ## The order of the bytes -/

theorem toBuffer_units (s : String) : toBuffer (units s) = utf8 s := by
  rw [units, toBuffer_utf16, String.ofList_toList]

/-- **Scalar order is byte order.**  The sign of `compareUnicodeScalars` is the order of the
UTF-8 encodings; so it is a strict total order, and the key sort and `sortedUnique` order
strings as `BTreeMap` and the window comparisons do. -/
theorem scalarOrder :
    (∀ a b : String,
      (compareUnicodeScalars (units a) (units b) < 0 ↔
        toBuffer (units a) < toBuffer (units b)) ∧
      (compareUnicodeScalars (units a) (units b) = 0 ↔
        toBuffer (units a) = toBuffer (units b)) ∧
      (0 < compareUnicodeScalars (units a) (units b) ↔
        toBuffer (units b) < toBuffer (units a))) ∧
    IsStrictTotalOrder String (fun a b ↦ compareUnicodeScalars (units a) (units b) < 0) ∧
    (∀ (α : Type) (ms : List (String × α)), (ms.map Prod.fst).Nodup →
      sortedKeys (ms.map keyUnits) = (KeyMap.collect ms).map keyUnits) ∧
    ∀ (path : JsString) (index : Nat) (values : List String),
      sortedUnique path index (values.map units) = .ok () ↔
        Core.strictlyIncreasing values = true := by
  refine ⟨fun a b ↦ ?_, ?_, fun α ms h ↦ sortedKeys_keyUnits h,
    fun path index values ↦ sortedUnique_eq_ok⟩
  · rw [toBuffer_units, toBuffer_units, utf8_injective.eq_iff]
    exact ⟨compareUnicodeScalars_neg_iff a b, compareUnicodeScalars_eq_zero_iff a b,
      compareUnicodeScalars_pos_iff a b⟩
  · have hlt : (fun a b ↦ compareUnicodeScalars (units a) (units b) < 0) = ByteLt := by
      funext a b
      exact propext (compareUnicodeScalars_neg_iff a b)
    rw [hlt]
    exact {
      irrefl := ByteLt.irrefl
      trans := fun _ _ _ ↦ ByteLt.trans
      trichotomous := fun a b h h' ↦ ByteLt.eq_of_not h h' }

end Etp.TypeScript
