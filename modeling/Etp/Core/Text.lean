import Etp.Core.Digest

/-!
# Text, token and integer checks

The field checks of the records.  `str::trim` strips the characters with the
Unicode property `White_Space`, and `char::is_control` is the general category
`Cc`; `str::len` counts UTF-8 bytes and `str::bytes` walks over them.

Each check comes with the lemma that says when it returns `Ok`.
-/

namespace Etp.Core

/-! ## Characters -/

/-- `char::is_whitespace`: the Unicode property `White_Space`. -/
def isWhiteSpace (c : Char) : Bool :=
  let n := c.toNat
  (0x09 ≤ n ∧ n ≤ 0x0d) ∨ n = 0x20 ∨ n = 0x85 ∨ n = 0xa0 ∨ n = 0x1680 ∨
    (0x2000 ≤ n ∧ n ≤ 0x200a) ∨ n = 0x2028 ∨ n = 0x2029 ∨ n = 0x202f ∨ n = 0x205f ∨ n = 0x3000

/-- `char::is_control`: the general category `Cc`. -/
def isControl (c : Char) : Bool := c.toNat ≤ 0x1f ∨ (0x7f ≤ c.toNat ∧ c.toNat ≤ 0x9f)

/-- `str::len` -/
def byteLen (s : String) : Nat := (utf8 s).length

def trimChars (l : List Char) : List Char :=
  ((l.dropWhile isWhiteSpace).reverse.dropWhile isWhiteSpace).reverse

/-- `str::trim` -/
def trim (s : String) : String := String.ofList (trimChars s.toList)

/-! ### Trimming changes nothing -/

theorem dropWhile_eq_self_iff {p : Char → Bool} {l : List Char} :
    l.dropWhile p = l ↔ ∀ c ∈ l.head?, p c = false := by
  cases l with
  | nil => simp
  | cons c l =>
      rw [List.dropWhile_cons]
      split_ifs with h
      · refine iff_of_false (fun heq ↦ ?_) (by simp [h])
        have := congrArg List.length heq
        have hle := (List.dropWhile_suffix (l := l) p).length_le
        simp only [List.length_cons] at this
        omega
      · simp [h]

theorem trimChars_eq_self_iff {l : List Char} :
    trimChars l = l ↔ (∀ c ∈ l.head?, isWhiteSpace c = false) ∧
      ∀ c ∈ l.getLast?, isWhiteSpace c = false := by
  have hlast : ∀ m : List Char, (m.reverse.dropWhile isWhiteSpace).reverse = m ↔
      ∀ c ∈ m.getLast?, isWhiteSpace c = false := by
    intro m
    rw [← List.head?_reverse, ← dropWhile_eq_self_iff]
    exact ⟨fun h ↦ by rw [← List.reverse_eq_iff, h], fun h ↦ by rw [h, List.reverse_reverse]⟩
  constructor
  · intro h
    have hdrop : l.dropWhile isWhiteSpace = l := by
      refine (List.dropWhile_suffix _).eq_of_length_le ?_
      have h₁ := congrArg List.length h
      have h₂ := (List.dropWhile_suffix (l := (l.dropWhile isWhiteSpace).reverse)
        isWhiteSpace).length_le
      simp only [trimChars, List.length_reverse] at h₁ h₂
      omega
    refine ⟨dropWhile_eq_self_iff.mp hdrop, (hlast l).mp ?_⟩
    rwa [trimChars, hdrop] at h
  · rintro ⟨h₁, h₂⟩
    rw [trimChars, dropWhile_eq_self_iff.mpr h₁]
    exact (hlast l).mpr h₂

theorem trim_eq_self_iff {s : String} :
    trim s = s ↔ (∀ c ∈ s.toList.head?, isWhiteSpace c = false) ∧
      ∀ c ∈ s.toList.getLast?, isWhiteSpace c = false := by
  rw [← trimChars_eq_self_iff, trim, ← String.toList_inj, String.toList_ofList]

/-! ## Field checks -/

def validateVersion (version : Nat) : Except ProtocolError Unit :=
  if version = profileVersion then .ok () else .error (.unsupportedVersion version)

def validateNonemptyText (field value : String) (maximumBytes : Nat) :
    Except ProtocolError Unit :=
  if value = "" ∨ byteLen value > maximumBytes ∨ value.toList.any isControl then
    .error (.invalidBinding field)
  else .ok ()

def validateTrimmedText (field value : String) (maximumBytes : Nat) :
    Except ProtocolError Unit := do
  validateNonemptyText field value maximumBytes
  rejectIf (trim value ≠ value) (.invalidBinding field)

def validateIdentifier (field value : String) : Except ProtocolError Unit :=
  validateTrimmedText field value 256

def isTokenStart (b : UInt8) : Bool := 0x61 ≤ b ∧ b ≤ 0x7a

/-- `b'a'..=b'z' | b'0'..=b'9' | b'.' | b'_' | b':' | b'/' | b'-'` -/
def isTokenByte (b : UInt8) : Bool :=
  (0x61 ≤ b ∧ b ≤ 0x7a) ∨ (0x30 ≤ b ∧ b ≤ 0x39) ∨ b = 0x2e ∨ b = 0x5f ∨ b = 0x3a ∨ b = 0x2f ∨
    b = 0x2d

def validateToken (field value : String) : Except ProtocolError Unit := do
  validateTrimmedText field value 256
  match utf8 value with
  | [] => .error (.invalidToken field)
  | b :: bytes => rejectIf (!isTokenStart b ∨ !bytes.all isTokenByte) (.invalidToken field)

/-- `b'A'..=b'Z' | b'a'..=b'z' | b'0'..=b'9' | b'_' | b'-'` -/
def isNonceByte (b : UInt8) : Bool :=
  (0x41 ≤ b ∧ b ≤ 0x5a) ∨ (0x61 ≤ b ∧ b ≤ 0x7a) ∨ (0x30 ≤ b ∧ b ≤ 0x39) ∨ b = 0x5f ∨ b = 0x2d

def validateNonce (value : String) : Except ProtocolError Unit :=
  rejectIf (¬(22 ≤ byteLen value ∧ byteLen value ≤ 128) ∨ !(utf8 value).all isNonceByte)
    .invalidNonce

def validateSafeInteger (field : String) (value : Nat) : Except ProtocolError Unit :=
  if value > maxSafeInteger then .error (.unsafeInteger field) else .ok ()

def validateWindow (start «end» : Nat) : Except ProtocolError Unit := do
  validateSafeInteger "window start" start
  validateSafeInteger "window end" «end»
  if start ≥ «end» then .error .invalidTimeWindow else .ok ()

/-- `values.windows(2).any(|window| window[0] >= window[1])`, negated. -/
def strictlyIncreasing : List String → Bool
  | a :: b :: rest => decide (ByteLt a b) && strictlyIncreasing (b :: rest)
  | _ => true

def validateSortedUniqueDigests (values : List Digest32) (maximumItems : Nat) :
    Except ProtocolError Unit := do
  rejectIf (values.length > maximumItems) (.listTooLong "evidence_hashes")
  rejectIf (!strictlyIncreasing (values.map Digest32.asStr)) (.nonCanonicalList "evidence_hashes")

/-- `for value in values { validate_token(field, value)?; }` -/
def validateTokens (field : String) : List String → Except ProtocolError Unit
  | [] => .ok ()
  | value :: values => do
      validateToken field value
      validateTokens field values

def validateSortedUniqueTokens (field : String) (values : List String) (maximumItems : Nat) :
    Except ProtocolError Unit := do
  rejectIf (values.length > maximumItems) (.listTooLong field)
  validateTokens field values
  rejectIf (!strictlyIncreasing values) (.nonCanonicalList field)

/-! ## When the checks return `Ok` -/

/-- What `validate_trimmed_text` accepts. -/
structure TrimmedText (value : String) (maximumBytes : Nat) : Prop where
  nonempty : value ≠ ""
  bounded : byteLen value ≤ maximumBytes
  noControl : ∀ c ∈ value.toList, isControl c = false
  trimmed : trim value = value

/-- What `validate_token` accepts. -/
structure TokenText (value : String) : Prop extends TrimmedText value 256 where
  start : ∀ b ∈ (utf8 value).head?, isTokenStart b = true
  bytes : ∀ b ∈ (utf8 value).tail, isTokenByte b = true

/-- What `validate_nonce` accepts. -/
structure NonceText (value : String) : Prop where
  lower : 22 ≤ byteLen value
  upper : byteLen value ≤ 128
  bytes : ∀ b ∈ utf8 value, isNonceByte b = true

/-- Neighbours increase, hence all pairs do. -/
def SortedTexts (values : List String) : Prop := values.Pairwise ByteLt

variable {field value : String} {maximumBytes : Nat} {u : Unit}

@[simp] theorem validateVersion_eq_ok {version : Nat} :
    validateVersion version = .ok u ↔ version = profileVersion := by
  unfold validateVersion
  split <;> simp [*]

theorem validateNonemptyText_eq_ok :
    validateNonemptyText field value maximumBytes = .ok u ↔
      value ≠ "" ∧ byteLen value ≤ maximumBytes ∧ ∀ c ∈ value.toList, isControl c = false := by
  unfold validateNonemptyText
  split
  · rename_i h
    refine iff_of_false (by simp) ?_
    rintro ⟨h₁, h₂, h₃⟩
    rcases h with h | h | h
    · exact h₁ h
    · omega
    · obtain ⟨c, hc, hc'⟩ := List.any_eq_true.mp h
      rw [h₃ c hc] at hc'
      cases hc'
  · rename_i h
    simp only [not_or, not_lt, List.any_eq_true, not_exists, not_and, Bool.not_eq_true] at h
    simpa using h

@[simp] theorem validateTrimmedText_eq_ok :
    validateTrimmedText field value maximumBytes = .ok u ↔ TrimmedText value maximumBytes := by
  simp only [validateTrimmedText, bind_eq_ok, validateNonemptyText_eq_ok, rejectIf_eq_ok, not_not]
  constructor
  · rintro ⟨-, ⟨h₁, h₂, h₃⟩, h₄⟩
    exact ⟨h₁, h₂, h₃, h₄⟩
  · rintro ⟨h₁, h₂, h₃, h₄⟩
    exact ⟨(), ⟨h₁, h₂, h₃⟩, h₄⟩

@[simp] theorem validateIdentifier_eq_ok :
    validateIdentifier field value = .ok u ↔ TrimmedText value 256 := validateTrimmedText_eq_ok

theorem utf8_ne_nil (h : value ≠ "") : utf8 value ≠ [] := by
  obtain ⟨c, l, hl⟩ := List.exists_cons_of_ne_nil (l := value.toList)
    (fun hnil ↦ h (String.toList_inj.mp (by simpa using hnil)))
  simp [utf8, hl]

@[simp] theorem validateToken_eq_ok : validateToken field value = .ok u ↔ TokenText value := by
  simp only [validateToken, bind_eq_ok, validateTrimmedText_eq_ok]
  constructor
  · rintro ⟨-, h, hb⟩
    obtain ⟨b, bytes, hutf⟩ := List.exists_cons_of_ne_nil (utf8_ne_nil h.nonempty)
    simp only [hutf, rejectIf_eq_ok, not_or, Bool.not_eq_true', Bool.not_eq_false,
      List.all_eq_true] at hb
    exact { h with start := by simpa [hutf] using hb.1, bytes := by simpa [hutf] using hb.2 }
  · intro h
    obtain ⟨b, bytes, hutf⟩ := List.exists_cons_of_ne_nil (utf8_ne_nil h.nonempty)
    refine ⟨(), h.toTrimmedText, ?_⟩
    have h₁ := h.start
    have h₂ := h.bytes
    simp only [hutf, List.head?_cons, Option.mem_def, Option.some.injEq, forall_eq',
      List.tail_cons] at h₁ h₂
    simpa [hutf, h₁] using h₂

@[simp] theorem validateNonce_eq_ok : validateNonce value = .ok u ↔ NonceText value := by
  simp only [validateNonce, rejectIf_eq_ok, not_or, not_not, Bool.not_eq_true', Bool.not_eq_false,
    List.all_eq_true]
  exact ⟨fun ⟨⟨h₁, h₂⟩, h₃⟩ ↦ ⟨h₁, h₂, h₃⟩, fun ⟨h₁, h₂, h₃⟩ ↦ ⟨⟨h₁, h₂⟩, h₃⟩⟩

@[simp] theorem validateSafeInteger_eq_ok {n : Nat} :
    validateSafeInteger field n = .ok u ↔ n ≤ maxSafeInteger := by
  unfold validateSafeInteger
  split <;> simp <;> omega

@[simp] theorem validateWindow_eq_ok {start «end» : Nat} :
    validateWindow start «end» = .ok u ↔ start < «end» ∧ «end» ≤ maxSafeInteger := by
  simp only [validateWindow, bind_eq_ok, validateSafeInteger_eq_ok, exists_and_left, exists_const]
  split
  · simp; omega
  · simp; omega

theorem strictlyIncreasing_eq_true {values : List String} :
    strictlyIncreasing values = true ↔ SortedTexts values := by
  have : IsTrans String ByteLt := ⟨fun _ _ _ ↦ ByteLt.trans⟩
  rw [SortedTexts, ← List.isChain_iff_pairwise]
  induction values with
  | nil => simp [strictlyIncreasing]
  | cons a values ih =>
      cases values with
      | nil => simp [strictlyIncreasing]
      | cons b rest => simp [strictlyIncreasing, ih]

@[simp] theorem validateSortedUniqueDigests_eq_ok {values : List Digest32} {maximumItems : Nat} :
    validateSortedUniqueDigests values maximumItems = .ok u ↔
      values.length ≤ maximumItems ∧ SortedTexts (values.map Digest32.asStr) := by
  simp [validateSortedUniqueDigests, strictlyIncreasing_eq_true]

@[simp] theorem validateTokens_eq_ok {values : List String} :
    validateTokens field values = .ok u ↔ ∀ value ∈ values, TokenText value := by
  induction values with
  | nil => simp [validateTokens]
  | cons value values ih => simp [validateTokens, ih]

@[simp] theorem validateSortedUniqueTokens_eq_ok {values : List String} {maximumItems : Nat} :
    validateSortedUniqueTokens field values maximumItems = .ok u ↔
      values.length ≤ maximumItems ∧ (∀ value ∈ values, TokenText value) ∧
        SortedTexts values := by
  simp [validateSortedUniqueTokens, strictlyIncreasing_eq_true]

/-! ## The errors of the checks -/

section Errors

variable {field value : String} {maximumBytes : Nat} {e : ProtocolError}

theorem validateVersion_error {version : Nat} (h : validateVersion version = .error e) :
    e = .unsupportedVersion version := by
  unfold validateVersion at h
  split at h <;> cases h
  rfl

theorem validateTrimmedText_error (h : validateTrimmedText field value maximumBytes = .error e) :
    e = .invalidBinding field := by
  rw [validateTrimmedText, bind_eq_error] at h
  rcases h with h | ⟨_, -, h⟩
  · unfold validateNonemptyText at h
    split at h <;> cases h
    rfl
  · exact (rejectIf_eq_error.mp h).2.symm

theorem validateNonce_error (h : validateNonce value = .error e) : e = .invalidNonce :=
  (rejectIf_eq_error.mp h).2.symm

theorem validateSafeInteger_error {n : Nat} (h : validateSafeInteger field n = .error e) :
    e = .unsafeInteger field := by
  unfold validateSafeInteger at h
  split at h <;> cases h
  rfl

theorem validateWindow_error {start «end» : Nat} (h : validateWindow start «end» = .error e) :
    (∃ field, e = .unsafeInteger field) ∨ e = .invalidTimeWindow := by
  simp only [validateWindow, bind_eq_error] at h
  rcases h with h | ⟨_, -, h | ⟨_, -, h⟩⟩
  · exact .inl ⟨_, validateSafeInteger_error h⟩
  · exact .inl ⟨_, validateSafeInteger_error h⟩
  · split at h <;> cases h
    exact .inr rfl

end Errors

end Etp.Core
