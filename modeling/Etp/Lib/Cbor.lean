import Mathlib

/-!
# Deterministic CBOR items

The heads of CBOR data items in their shortest form, and the items made of a head
and a string of bytes.  A head carries a major type and an argument: the value of
an integer, the length of a string, the number of elements of an array or of
entries of a map, or the number of a tag.

`readHead` reads a head of any width, so the round trips below say that a
definite-length encoding is prefix-free.
-/

namespace Etp.Cbor

/-! ## Heads -/

/-- The last `k` base-256 digits of a number, the most significant first. -/
def bigEndian : Nat → Nat → List UInt8
  | 0, _ => []
  | k + 1, n => UInt8.ofNat (n / 256 ^ k) :: bigEndian k n

/-- The head with a major type and an argument, in its shortest form. -/
def head (major n : Nat) : List UInt8 :=
  if n < 24 then [UInt8.ofNat (major * 32 + n)]
  else if n < 256 ^ 1 then UInt8.ofNat (major * 32 + 24) :: bigEndian 1 n
  else if n < 256 ^ 2 then UInt8.ofNat (major * 32 + 25) :: bigEndian 2 n
  else if n < 256 ^ 4 then UInt8.ofNat (major * 32 + 26) :: bigEndian 4 n
  else UInt8.ofNat (major * 32 + 27) :: bigEndian 8 n

/-- A byte string. -/
def bstr (bytes : List UInt8) : List UInt8 := head 2 bytes.length ++ bytes

/-- A text string, given by its UTF-8 bytes. -/
def tstr (bytes : List UInt8) : List UInt8 := head 3 bytes.length ++ bytes

/-- The simple value `null`. -/
def null : List UInt8 := [0xf6]

/-! ## Reading -/

def readBigEndian : Nat → List UInt8 → Nat → Option (Nat × List UInt8)
  | 0, input, acc => some (acc, input)
  | _ + 1, [], _ => none
  | k + 1, b :: input, acc => readBigEndian k input (acc * 256 + b.toNat)

/-- The major type and the argument of a head, and the rest of the input. -/
def readHead : List UInt8 → Option (Nat × Nat × List UInt8)
  | [] => none
  | b :: input => do
      let major := b.toNat / 32
      let info := b.toNat % 32
      if info < 24 then some (major, info, input)
      else
        let width ← [(24, 1), (25, 2), (26, 4), (27, 8)].lookup info
        let (n, input) ← readBigEndian width input 0
        some (major, n, input)

def readBstr (input : List UInt8) : Option (List UInt8 × List UInt8) := do
  let (major, n, input) ← readHead input
  if major = 2 ∧ n ≤ input.length then some (input.take n, input.drop n) else none

theorem length_bigEndian (k n : Nat) : (bigEndian k n).length = k := by
  induction k with
  | zero => rfl
  | succ k ih => rw [bigEndian, List.length_cons, ih]

theorem length_head_le (major n : Nat) : (head major n).length ≤ 9 := by
  unfold head
  split_ifs <;> simp [length_bigEndian]

theorem length_bstr_le (bytes : List UInt8) : (bstr bytes).length ≤ bytes.length + 9 := by
  have := length_head_le 2 bytes.length
  rw [bstr, List.length_append]
  omega

theorem length_tstr_le (bytes : List UInt8) : (tstr bytes).length ≤ bytes.length + 9 := by
  have := length_head_le 3 bytes.length
  rw [tstr, List.length_append]
  omega

theorem readBigEndian_append (k n acc : Nat) (rest : List UInt8) :
    readBigEndian k (bigEndian k n ++ rest) acc = some (acc * 256 ^ k + n % 256 ^ k, rest) := by
  induction k generalizing acc with
  | zero => simp [readBigEndian, bigEndian, Nat.mod_one]
  | succ k ih =>
      have hdigit : (UInt8.ofNat (n / 256 ^ k)).toNat = n / 256 ^ k % 256 := by simp
      rw [bigEndian, List.cons_append, readBigEndian, ih, hdigit, Nat.mod_pow_succ, pow_succ]
      congr 2
      ring

/-- A head reads back, whatever follows it. -/
theorem readHead_append {major n : Nat} (hmajor : major < 8) (hn : n < 2 ^ 64)
    (rest : List UInt8) : readHead (head major n ++ rest) = some (major, n, rest) := by
  have hbyte : ∀ i < 32, (UInt8.ofNat (major * 32 + i)).toNat = major * 32 + i := by
    intro i hi
    rw [UInt8.toNat_ofNat_of_lt']
    have : UInt8.size = 256 := rfl
    omega
  have hwide : ∀ {i k}, i < 32 → ¬i < 24 → [(24, 1), (25, 2), (26, 4), (27, 8)].lookup i = some k →
      n < 256 ^ k →
      readHead (UInt8.ofNat (major * 32 + i) :: bigEndian k n ++ rest) = some (major, n, rest) := by
    intro i k hi hi' hk hnk
    have hdiv : (major * 32 + i) / 32 = major := by omega
    have hmod : (major * 32 + i) % 32 = i := by omega
    simp only [List.cons_append, readHead, hbyte i hi, hdiv, hmod, if_neg hi', hk,
      readBigEndian_append, Nat.mod_eq_of_lt hnk, Option.bind_eq_bind, Option.bind_some, zero_mul,
      zero_add]
  unfold head
  split_ifs with h₁ h₂ h₃ h₄
  · have hdiv : (major * 32 + n) / 32 = major := by omega
    have hmod : (major * 32 + n) % 32 = n := by omega
    simp only [List.cons_append, List.nil_append, readHead, hbyte n (by omega), hdiv, hmod,
      if_pos h₁]
  · exact hwide (by omega) (by omega) rfl h₂
  · exact hwide (by omega) (by omega) rfl h₃
  · exact hwide (by omega) (by omega) rfl h₄
  · exact hwide (by omega) (by omega) rfl (by norm_num; omega)

theorem readBstr_append {bytes : List UInt8} (h : bytes.length < 2 ^ 64) (rest : List UInt8) :
    readBstr (bstr bytes ++ rest) = some (bytes, rest) := by
  simp only [readBstr, bstr, List.append_assoc, readHead_append (by decide : 2 < 8) h,
    Option.bind_eq_bind, Option.bind_some]
  rw [if_pos ⟨trivial, by simp⟩, List.take_left, List.drop_left]

end Etp.Cbor
