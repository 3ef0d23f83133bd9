import Etp.Core.Acceptance

/-!
# Which documents the parser takes

The schemas describe a record as an object with every member present.  The
derived readers take such objects, and besides them three other spellings: the
array of the fields in declaration order, an object without a member that may be
`null`, and an object whose outcome is written as a single-member object.

`Spells r v` says that the document `v` writes the record `r` in one of these
ways, and `parse_record` takes exactly the documents that spell a valid record
(`parseRecord_eq_ok`).  So what it takes without having the shape of the schema
is exactly a spelling that the schema does not know (`parser_shape_iff`).
-/

namespace Etp.Core

/-! ## Schemas -/

/-- What a JSON Schema says about the members of a record type. -/
class Schema (α : Type) where
  /-- `required` -/
  required : List String
  /-- The required members that may be `null`. -/
  nullable : List String

instance : Schema TaskCommitment where
  required :=
    ["version", "commitment_id", "principal", "objective_digest", "constraints_digest",
      "authority_scope_digest", "policy_epoch", "configuration_epoch", "created_at_ms",
      "expires_at_ms"]
  nullable := []

instance : Schema EffectProposal where
  required :=
    ["version", "proposal_id", "commitment_hash", "effect_profile", "operation", "target",
      "arguments_digest", "expected_effect_digest", "pre_state_digest", "resource_claim_digest",
      "created_at_ms", "expires_at_ms"]
  nullable := []

instance : Schema AuthorizationDecision where
  required :=
    ["version", "decision_id", "proposal_hash", "evidence_hashes", "outcome", "reason_codes",
      "decided_at_ms", "expires_at_ms"]
  nullable := []

instance : Schema ExecutionGrant where
  required :=
    ["version", "grant_id", "proposal_hash", "decision_hash", "audience", "not_before_ms",
      "expires_at_ms", "uses", "nonce"]
  nullable := []

instance : Schema EffectReceipt where
  required :=
    ["version", "receipt_id", "proposal_hash", "grant_hash", "attempt_id", "claimed_at_ms",
      "dispatched_at_ms", "completed_at_ms", "outcome", "observation_digest"]
  nullable := ["dispatched_at_ms"]

instance : Schema ReconciliationRecord where
  required :=
    ["version", "reconciliation_id", "receipt_hash", "sequence", "parent_reconciliation_hash",
      "observed_at_ms", "outcome", "evidence_digest"]
  nullable := ["parent_reconciliation_hash"]

section Shape

variable (α : Type) [Schema α]

/-- An object with the required members, each once and no other, whose outcome is a string. -/
def SchemaShaped (v : Json) : Prop :=
  ∃ ms, v = .obj ms ∧ (ms.map Prod.fst).Perm (Schema.required α) ∧
    ∀ x, ms.lookup "outcome" = some x → ∃ s, x = .str s

/-- The three spellings that a schema does not know. -/
inductive Misspelled : Json → Prop
  | array (vs : List Json) : Misspelled (.arr vs)
  | absent {ms : List (String × Json)} {name : String} (hname : name ∈ Schema.nullable α)
      (h : name ∉ ms.map Prod.fst) : Misspelled (.obj ms)
  | variant {ms inner : List (String × Json)} (h : ms.lookup "outcome" = some (.obj inner)) :
      Misspelled (.obj ms)

end Shape

/-! ## What the readers of members read -/

section Members

variable {α : Type*} {read : Json → Option α} {write : α → Json} {InRange : α → Prop}

/-- The reader takes what the writer writes, for the values in range, and nothing else. -/
def ReadsBack (read : Json → Option α) (write : α → Json) (InRange : α → Prop) : Prop :=
  ∀ v a, read v = some a ↔ InRange a ∧ v = write a

def FitsU64 (n : Nat) : Prop := n < 2 ^ 64

theorem fitsU64 {n : Nat} (h : n ≤ maxSafeInteger) : FitsU64 n := lt_u64 h

theorem readsBack_u64 : ReadsBack readU64 writeNat FitsU64 := by
  intro v n
  constructor
  · intro h
    unfold readU64 at h
    split at h
    · split_ifs at h with hm
      obtain rfl := Option.some.inj h
      exact ⟨by rw [FitsU64]; omega, by rw [writeNat, Int.toNat_of_nonneg hm.1]⟩
    · cases h
  · rintro ⟨hn, rfl⟩
    exact readU64_num hn

theorem readsBack_text : ReadsBack readText .str fun _ ↦ True := by
  intro v s
  cases v <;> simp [readText, eq_comm]

theorem readsBack_digest : ReadsBack readDigest writeDigest fun _ ↦ True := by
  intro v d
  constructor
  · intro h
    obtain ⟨s, hs, hd⟩ := Option.bind_eq_some_iff.mp h
    obtain ⟨-, rfl⟩ := (readsBack_text _ _).mp hs
    cases hp : Digest32.parse s with
    | error e => simp [hp, Except.toOption] at hd
    | ok d' =>
        obtain rfl : d' = d := by simpa [hp, Except.toOption] using hd
        exact ⟨trivial, by rw [writeDigest, Digest32.parse_eq_ok.mp hp]⟩
  · rintro ⟨-, rfl⟩
    exact readDigest_str d

theorem ReadsBack.mapM (h : ReadsBack read write InRange) {vs : List Json} {l : List α} :
    vs.mapM read = some l ↔ (∀ a ∈ l, InRange a) ∧ vs = l.map write := by
  induction vs generalizing l with
  | nil =>
      rw [List.mapM_nil]
      constructor
      · rintro ⟨⟩
        exact ⟨by simp, rfl⟩
      · rintro ⟨-, hl⟩
        rw [List.map_eq_nil_iff.mp hl.symm]
        rfl
  | cons v vs ih =>
      simp only [List.mapM_cons, Option.bind_eq_bind, Option.bind_eq_some_iff, Option.pure_def,
        Option.some.injEq]
      constructor
      · rintro ⟨a, ha, bs, hbs, rfl⟩
        obtain ⟨hr, rfl⟩ := (h _ _).mp ha
        obtain ⟨hrs, rfl⟩ := ih.mp hbs
        exact ⟨List.forall_mem_cons.mpr ⟨hr, hrs⟩, rfl⟩
      · rintro ⟨hrs, hvs⟩
        obtain ⟨a, bs, rfl, rfl, rfl⟩ := List.map_eq_cons_iff.mp hvs.symm
        obtain ⟨hr, hrs⟩ := List.forall_mem_cons.mp hrs
        exact ⟨a, (h _ _).mpr ⟨hr, rfl⟩, bs, ih.mpr ⟨hrs, rfl⟩, rfl⟩

theorem ReadsBack.vec (h : ReadsBack read write InRange) :
    ReadsBack (readVec read) (fun l ↦ .arr (l.map write)) fun l ↦ ∀ a ∈ l, InRange a := by
  intro v l
  cases v <;> simp [readVec, h.mapM]

theorem ReadsBack.option (h : ReadsBack read write InRange) (hw : ∀ a, write a ≠ .null) :
    ReadsBack (readOption read) (writeOption write) fun o ↦ ∀ a ∈ o, InRange a := by
  intro v o
  rcases eq_or_ne v .null with rfl | hv
  · cases o with
    | none => simp [readOption, writeOption]
    | some a => simp [readOption, writeOption, (hw a).symm]
  · rw [readOption]
    · cases o with
      | none => simp [writeOption, hv]
      | some a => simpa [writeOption] using h v a
    · exact hv

variable {ms : List (String × Json)} {name : String}

theorem ReadsBack.required (h : ReadsBack read write InRange) {a : α} :
    requiredField read ms name = some a ↔ InRange a ∧ ms.lookup name = some (write a) := by
  rw [requiredField, Option.bind_eq_some_iff]
  constructor
  · rintro ⟨v, hv, ha⟩
    obtain ⟨hr, rfl⟩ := (h _ _).mp ha
    exact ⟨hr, hv⟩
  · rintro ⟨hr, hv⟩
    exact ⟨_, hv, (h _ _).mpr ⟨hr, rfl⟩⟩

theorem ReadsBack.optional (h : ReadsBack read write InRange) (hw : ∀ a, write a ≠ .null)
    {o : Option α} :
    optionalField read ms name = some o ↔ (∀ a ∈ o, InRange a) ∧
      (ms.lookup name = some (writeOption write o) ∨ o = none ∧ ms.lookup name = none) := by
  unfold optionalField
  cases hl : ms.lookup name with
  | none => cases o <;> simp
  | some v => simpa using h.option hw v o

/-- A unit variant is written as its name, and may be read from an object with that name. -/
theorem requiredField_variant {variants : List (String × α)} {label : α → String}
    (h : ∀ s a, variants.lookup s = some a ↔ s = label a) {a : α} :
    requiredField (readVariant variants) ms name = some a ↔
      ms.lookup name = some (.str (label a)) ∨ ms.lookup name = some (.obj [(label a, .null)]) := by
  rw [requiredField, Option.bind_eq_some_iff]
  constructor
  · rintro ⟨v, hv, ha⟩
    unfold readVariant at ha
    split at ha
    · obtain rfl := (h _ _).mp ha
      exact .inl hv
    · obtain rfl := (h _ _).mp ha
      exact .inr hv
    · cases ha
  · rintro (hv | hv)
    · exact ⟨_, hv, (h _ _).mpr rfl⟩
    · exact ⟨_, hv, (h _ _).mpr rfl⟩

theorem lookup_decision (s : String) (o : DecisionOutcome) :
    DecisionOutcome.variants.lookup s = some o ↔ s = o.name := by
  rw [KeyMap.lookup_eq_some_iff (by decide)]
  cases o <;> simp [DecisionOutcome.variants, DecisionOutcome.name]

theorem lookup_receipt (s : String) (o : ReceiptOutcome) :
    ReceiptOutcome.variants.lookup s = some o ↔ s = o.name := by
  rw [KeyMap.lookup_eq_some_iff (by decide)]
  cases o <;> simp [ReceiptOutcome.variants, ReceiptOutcome.name]

theorem lookup_reconciliation (s : String) (o : ReconciliationOutcome) :
    ReconciliationOutcome.variants.lookup s = some o ↔ s = o.name := by
  rw [KeyMap.lookup_eq_some_iff (by decide)]
  cases o <;> simp [ReconciliationOutcome.variants, ReconciliationOutcome.name]

end Members

/-! ## Spellings -/

/-- How the members of an object may write a field of the record. -/
def MemberSpells (nullable : List String) (ms : List (String × Json)) (field : String × Json) :
    Prop :=
  ms.lookup field.1 = some field.2 ∨
    field.1 ∈ nullable ∧ field.2 = .null ∧ ms.lookup field.1 = none ∨
      field.1 = "outcome" ∧ ∃ s, field.2 = .str s ∧ ms.lookup field.1 = some (.obj [(s, .null)])

/-- The document writes the record: as an object with members of the record's
names, none twice, or as the array of the fields in declaration order. -/
def Spells {α : Type} [ProtocolRecord α] [Deserialize α] [Schema α] (r : α) (v : Json) : Prop :=
  ∃ ms, structMembers (Deserialize.names α) v = some ms ∧
    ∀ field ∈ Serialize.fields r, MemberSpells (Schema.nullable α) ms field

/-- What the reader of a record type has to do with its schema. -/
class LawfulSchema (α : Type) [ProtocolRecord α] [Deserialize α] [Schema α] : Prop
    extends LawfulRecord α where
  names_perm : (Deserialize.names α).Perm (Schema.required α)
  nullable_mem : ∀ name ∈ Schema.nullable α, name ∈ Deserialize.names α
  outcome_str (r : α) : ∀ field ∈ Serialize.fields r, field.1 = "outcome" → ∃ s, field.2 = .str s
  read_iff {r : α} : validate r = .ok () → ∀ {ms}, Deserialize.read ms = some r ↔
    ∀ field ∈ Serialize.fields r, MemberSpells (Schema.nullable α) ms field

theorem writeNat_ne_null (n : Nat) : writeNat n ≠ .null := by rintro ⟨⟩

theorem writeDigest_ne_null (d : Digest32) : writeDigest d ≠ .null := by rintro ⟨⟩

theorem writeOption_eq_null {α : Type*} {write : α → Json} (hw : ∀ a, write a ≠ .null)
    {o : Option α} : writeOption write o = .null ↔ o = none := by
  cases o <;> simp [writeOption, hw]

instance : LawfulSchema TaskCommitment where
  names_perm := by decide
  nullable_mem := by decide
  outcome_str r := by simp [Serialize.fields]
  read_iff {r} h ms := by
    cases r
    have hv := TaskCommitment.validate_eq_ok.mp h
    dsimp only at hv
    obtain ⟨h₁, -, -, h₄, h₅, h₆, h₇⟩ := hv
    simp only [Deserialize.read, Option.bind_eq_bind, Option.bind_eq_some_iff,
      readsBack_u64.required, readsBack_text.required, readsBack_digest.required,
      Option.some.injEq, TaskCommitment.mk.injEq]
    simp [Serialize.fields, MemberSpells, Schema.nullable, fitsU64 (version_le h₁), fitsU64 h₄,
      fitsU64 h₅, fitsU64 (h₆.le.trans h₇), fitsU64 h₇]

instance : LawfulSchema EffectProposal where
  names_perm := by decide
  nullable_mem := by decide
  outcome_str r := by simp [Serialize.fields]
  read_iff {r} h ms := by
    cases r
    have hv := EffectProposal.validate_eq_ok.mp h
    dsimp only at hv
    obtain ⟨h₁, -, -, -, -, h₆, h₇⟩ := hv
    simp only [Deserialize.read, Option.bind_eq_bind, Option.bind_eq_some_iff,
      readsBack_u64.required, readsBack_text.required, readsBack_digest.required,
      Option.some.injEq, EffectProposal.mk.injEq]
    simp [Serialize.fields, MemberSpells, Schema.nullable, fitsU64 (version_le h₁),
      fitsU64 (h₆.le.trans h₇), fitsU64 h₇]

instance : LawfulSchema AuthorizationDecision where
  names_perm := by decide
  nullable_mem := by decide
  outcome_str r := by simp [Serialize.fields]
  read_iff {r} h ms := by
    cases r
    have hv := AuthorizationDecision.validate_eq_ok.mp h
    dsimp only at hv
    obtain ⟨h₁, -, -, -, -, ⟨h₆, h₇⟩, -⟩ := hv
    simp only [Deserialize.read, Option.bind_eq_bind, Option.bind_eq_some_iff,
      readsBack_u64.required, readsBack_text.required, readsBack_digest.required,
      readsBack_text.vec.required, readsBack_digest.vec.required,
      requiredField_variant lookup_decision, Option.some.injEq, AuthorizationDecision.mk.injEq]
    simp [Serialize.fields, MemberSpells, Schema.nullable, fitsU64 (version_le h₁),
      fitsU64 (h₆.le.trans h₇), fitsU64 h₇]

instance : LawfulSchema ExecutionGrant where
  names_perm := by decide
  nullable_mem := by decide
  outcome_str r := by simp [Serialize.fields]
  read_iff {r} h ms := by
    cases r
    have hv := ExecutionGrant.validate_eq_ok.mp h
    dsimp only at hv
    obtain ⟨h₁, -, -, -, h₅, ⟨h₆, h₇⟩, -⟩ := hv
    simp only [Deserialize.read, Option.bind_eq_bind, Option.bind_eq_some_iff,
      readsBack_u64.required, readsBack_text.required, readsBack_digest.required,
      Option.some.injEq, ExecutionGrant.mk.injEq]
    simp [Serialize.fields, MemberSpells, Schema.nullable, fitsU64 (version_le h₁),
      fitsU64 (h₆.le.trans h₇), fitsU64 h₇, fitsU64 (version_le h₅)]

instance : LawfulSchema EffectReceipt where
  names_perm := by decide
  nullable_mem := by decide
  outcome_str r := by simp [Serialize.fields]
  read_iff {r} h ms := by
    cases r
    have hv := EffectReceipt.validate_eq_ok.mp h
    dsimp only at hv
    obtain ⟨h₁, -, -, h₄, h₅, -, h₆, -⟩ := hv
    simp only [Deserialize.read, Option.bind_eq_bind, Option.bind_eq_some_iff,
      readsBack_u64.required, readsBack_text.required, readsBack_digest.required,
      readsBack_u64.optional writeNat_ne_null, requiredField_variant lookup_receipt,
      Option.some.injEq, EffectReceipt.mk.injEq]
    simp [Serialize.fields, MemberSpells, Schema.nullable, fitsU64 (version_le h₁), fitsU64 h₄,
      fitsU64 h₅, writeOption_eq_null writeNat_ne_null]
    intro _ _ _ _ _ _ _ _ _ _ t ht
    exact fitsU64 (h₆ t ht).1

instance : LawfulSchema ReconciliationRecord where
  names_perm := by decide
  nullable_mem := by decide
  outcome_str r := by simp [Serialize.fields]
  read_iff {r} h ms := by
    cases r
    have hv := ReconciliationRecord.validate_eq_ok.mp h
    dsimp only at hv
    obtain ⟨h₁, -, h₃, ⟨-, h₄⟩, -⟩ := hv
    simp only [Deserialize.read, Option.bind_eq_bind, Option.bind_eq_some_iff,
      readsBack_u64.required, readsBack_text.required, readsBack_digest.required,
      readsBack_digest.optional writeDigest_ne_null, requiredField_variant lookup_reconciliation,
      Option.some.injEq, ReconciliationRecord.mk.injEq]
    simp [Serialize.fields, MemberSpells, Schema.nullable, fitsU64 (version_le h₁), fitsU64 h₃,
      fitsU64 h₄, writeOption_eq_null writeDigest_ne_null]

/-! ## What `parse_record` takes -/

/-- The bytes are a JSON text of the value. -/
def Denotes (input : List UInt8) (v : Json) : Prop :=
  ∃ text, decodeUtf8 input = some text ∧ Json.parse text.toList = some v

section Parser

variable {α : Type} [ProtocolRecord α] [Deserialize α] [Schema α] [LawfulSchema α] {r : α}
  {v : Json} {input : List UInt8}

theorem fromValue_eq_some (h : validate r = .ok ()) :
    Deserialize.fromValue v = some r ↔ Spells r v := by
  rw [Deserialize.fromValue, Option.bind_eq_some_iff]
  exact exists_congr fun ms ↦ and_congr_right fun _ ↦ LawfulSchema.read_iff h

/-- **The language of the parser.**  `parse_record` takes the texts of the
spellings of valid records, within the transport limit. -/
theorem parseRecord_eq_ok : parseRecord α input = .ok r ↔
    input.length ≤ maxTransportInputBytes ∧ validate r = .ok () ∧
      ∃ v, Denotes input v ∧ Spells r v := by
  simp only [parseRecord, bind_eq_ok, rejectIf_eq_ok, okOr_eq_ok, not_lt, Except.ok.injEq,
    exists_const, Denotes]
  constructor
  · rintro ⟨hlen, text, ht, v, hv, r', hr, _, hval, _, -, rfl⟩
    exact ⟨hlen, hval, v, ⟨text, ht, hv⟩, (fromValue_eq_some hval).mp hr⟩
  · rintro ⟨hlen, hval, v, ⟨text, ht, hv⟩, hs⟩
    exact ⟨hlen, text, ht, v, hv, r, (fromValue_eq_some hval).mpr hs, (), hval, _,
      canonicalJson_of_valid hval, rfl⟩

/-- The members of an object that is a struct. -/
theorem structMembers_obj {names : List String} {ms ms' : List (String × Json)} :
    structMembers names (.obj ms) = some ms' ↔
      ((ms.map Prod.fst).Nodup ∧ ∀ k ∈ ms.map Prod.fst, k ∈ names) ∧ ms = ms' := by
  rw [structMembers]
  split_ifs with h
  · rw [Option.some.injEq, and_iff_right h]
  · exact ⟨by rintro ⟨⟩, fun h' ↦ absurd h'.1 h⟩

theorem exists_field (r : α) {name : String} (h : name ∈ Deserialize.names α) :
    ∃ w, (name, w) ∈ Serialize.fields r := by
  rw [← LawfulRecord.names_eq r] at h
  obtain ⟨⟨_, w⟩, hmem, rfl⟩ := List.mem_map.mp h
  exact ⟨w, hmem⟩

/-- A spelling is one of the three that the schema does not know, or has its shape. -/
theorem misspelled_iff (h : Spells r v) : Misspelled α v ↔ ¬SchemaShaped α v := by
  obtain ⟨ms, hms, hfields⟩ := h
  constructor
  · rintro hmis ⟨ms', rfl, hperm, hstr⟩
    cases hmis with
    | absent hname hno =>
        have hmem := LawfulSchema.names_perm.mem_iff.mp (LawfulSchema.nullable_mem _ hname)
        exact hno (hperm.mem_iff.mpr hmem)
    | variant hinner =>
        obtain ⟨s, hs⟩ := hstr _ hinner
        cases hs
  · intro hshape
    by_contra hmis
    refine hshape ?_
    cases v with
    | arr vs => exact absurd (.array vs) hmis
    | obj ms' =>
        obtain ⟨⟨hnodup, hnames⟩, rfl⟩ := structMembers_obj.mp hms
        refine ⟨ms', rfl, ?_, fun x hx ↦ ?_⟩
        · refine .trans ?_ LawfulSchema.names_perm
          refine (List.perm_ext_iff_of_nodup hnodup LawfulRecord.names_nodup).mpr fun name ↦
            ⟨hnames name, fun hname ↦ ?_⟩
          -- A member that is not there may be `null`, so the document leaves it out.
          by_contra hno
          obtain ⟨w, hw⟩ := exists_field r hname
          rcases hfields _ hw with hl | ⟨hnull, -⟩ | ⟨-, s, -, hl⟩
          · exact hno (KeyMap.mem_keys_of_lookup hl)
          · exact hmis (.absent hnull hno)
          · exact hno (KeyMap.mem_keys_of_lookup hl)
        · obtain ⟨w, hw⟩ := exists_field r (hnames _ (KeyMap.mem_keys_of_lookup hx))
          obtain ⟨s, hs⟩ := LawfulSchema.outcome_str r _ hw rfl
          rcases hfields _ hw with hl | ⟨-, hnull, -⟩ | ⟨-, s', -, hl⟩
          · exact ⟨s, by rw [hx] at hl; rw [Option.some.inj hl, ← hs]⟩
          · exact absurd (hs.symm.trans hnull) (by rintro ⟨⟩)
          · exact absurd (.variant hl) hmis
    | _ => cases hms

end Parser

/-- `parse_record` returns only from documents of the schema's shape. -/
def ParsesShaped (α : Type) [ProtocolRecord α] [Deserialize α] [Schema α] (input : List UInt8) :
    Prop :=
  ∀ r, parseRecord α input = .ok r → ∃ v, Denotes input v ∧ SchemaShaped α v

/-- The bytes are one of the other spellings of a valid record, within the transport limit. -/
def Liberal (α : Type) [ProtocolRecord α] [Deserialize α] [Schema α] (input : List UInt8) : Prop :=
  input.length ≤ maxTransportInputBytes ∧
    ∃ r : α, validate r = .ok () ∧ ∃ v, Denotes input v ∧ Spells r v ∧ Misspelled α v

theorem Denotes.unique {input : List UInt8} {v w : Json} (hv : Denotes input v)
    (hw : Denotes input w) : v = w := by
  obtain ⟨s, hs, hv⟩ := hv
  obtain ⟨t, ht, hw⟩ := hw
  obtain rfl := Option.some.inj (hs.symm.trans ht)
  exact Option.some.inj (hv.symm.trans hw)

theorem parsesShaped_iff (α : Type) [ProtocolRecord α] [Deserialize α] [Schema α]
    [LawfulSchema α] (input : List UInt8) : ParsesShaped α input ↔ ¬Liberal α input := by
  constructor
  · rintro h ⟨hlen, r, hval, v, hv, hs, hmis⟩
    obtain ⟨w, hw, hshape⟩ := h r (parseRecord_eq_ok.mpr ⟨hlen, hval, v, hv, hs⟩)
    obtain rfl := hv.unique hw
    exact (misspelled_iff hs).mp hmis hshape
  · intro h r hr
    obtain ⟨hlen, hval, v, hv, hs⟩ := parseRecord_eq_ok.mp hr
    refine ⟨v, hv, by_contra fun hshape ↦ ?_⟩
    exact h ⟨hlen, r, hval, v, hv, hs, (misspelled_iff hs).mpr hshape⟩

/-! ## What `parse_transaction_bundle` takes -/

def bundleNames : List String :=
  ["commitment", "proposal", "decision", "grant", "receipt", "reconciliations"]

/-- The members of a bundle: an array may end before `reconciliations`, which has a default. -/
def bundleMembers : Json → Option (List (String × Json))
  | .arr vs =>
      if vs.length = 5 then some (bundleNames.zip vs) else structMembers bundleNames (.arr vs)
  | v => structMembers bundleNames v

/-- A field with `#[serde(default)]`. -/
def defaultField {α : Type*} [Inhabited α] (read : Json → Option α) (ms : List (String × Json))
    (name : String) : Option α :=
  match ms.lookup name with
  | none => some default
  | some v => read v

def readBundle (ms : List (String × Json)) : Option TransactionBundle := do
  some {
    commitment := ← requiredField Deserialize.fromValue ms "commitment"
    proposal := ← requiredField Deserialize.fromValue ms "proposal"
    decision := ← requiredField Deserialize.fromValue ms "decision"
    grant := ← optionalField Deserialize.fromValue ms "grant"
    receipt := ← optionalField Deserialize.fromValue ms "receipt"
    reconciliations := ← defaultField (readVec Deserialize.fromValue) ms "reconciliations" }

/-- `parse_transaction_bundle` -/
def parseTransactionBundle [Sha256] (input : List UInt8) :
    Except ProtocolError TransactionBundle := do
  rejectIf (input.length > maxTransportInputBytes) (.resourceLimit "transport bytes")
  let text ← okOr (decodeUtf8 input) .json
  let value ← okOr (Json.parse text.toList) .json
  let bundle ← okOr ((bundleMembers value).bind readBundle) .json
  let _ ← verifyTransaction bundle
  .ok bundle

/-- A member that may be absent or `null` writes an optional record. -/
def OptionSpells {α : Type} [ProtocolRecord α] [Deserialize α] [Schema α] (o : Option α)
    (member : Option Json) : Prop :=
  match o with
  | none => member = none ∨ member = some .null
  | some r => ∃ v, member = some v ∧ Spells r v

theorem OptionSpells.exists_record {α : Type} [ProtocolRecord α] [Deserialize α] [Schema α]
    {o : Option α} {member : Option Json} {v : Json} (h : OptionSpells o member)
    (hv : member = some v) (hne : v ≠ .null) : ∃ r : α, Spells r v := by
  subst hv
  cases o with
  | none =>
      rcases h with h | h
      · cases h
      · exact absurd (Option.some.inj h) hne
  | some r =>
      obtain ⟨w, hw, hs⟩ := h
      obtain rfl := Option.some.inj hw
      exact ⟨r, hs⟩

/-- The members write the records of the bundle. -/
structure BundleSpells (b : TransactionBundle) (ms : List (String × Json)) : Prop where
  commitment : ∃ v, ms.lookup "commitment" = some v ∧ Spells b.commitment v
  proposal : ∃ v, ms.lookup "proposal" = some v ∧ Spells b.proposal v
  decision : ∃ v, ms.lookup "decision" = some v ∧ Spells b.decision v
  grant : OptionSpells b.grant (ms.lookup "grant")
  receipt : OptionSpells b.receipt (ms.lookup "receipt")
  reconciliations : b.reconciliations = [] ∧ ms.lookup "reconciliations" = none ∨
    ∃ vs, ms.lookup "reconciliations" = some (.arr vs) ∧ List.Forall₂ Spells b.reconciliations vs

/-- Every record inside the bundle has the property. -/
structure EveryRecord (P : ∀ (α : Type) [Schema α], Json → Prop) (ms : List (String × Json)) :
    Prop where
  commitment : ∀ v, ms.lookup "commitment" = some v → P TaskCommitment v
  proposal : ∀ v, ms.lookup "proposal" = some v → P EffectProposal v
  decision : ∀ v, ms.lookup "decision" = some v → P AuthorizationDecision v
  grant : ∀ v, ms.lookup "grant" = some v → v ≠ .null → P ExecutionGrant v
  receipt : ∀ v, ms.lookup "receipt" = some v → v ≠ .null → P EffectReceipt v
  reconciliations : ∀ vs, ms.lookup "reconciliations" = some (.arr vs) →
    ∀ v ∈ vs, P ReconciliationRecord v

section Bundle

variable {α : Type} [ProtocolRecord α] [Deserialize α] [Schema α] [LawfulSchema α]
  {ms : List (String × Json)} {name : String}

theorem required_fromValue {r : α} (h : validate r = .ok ()) :
    requiredField Deserialize.fromValue ms name = some r ↔
      ∃ v, ms.lookup name = some v ∧ Spells r v := by
  rw [requiredField, Option.bind_eq_some_iff]
  exact exists_congr fun v ↦ and_congr_right fun _ ↦ fromValue_eq_some h

omit [LawfulSchema α] in
theorem Spells.ne_null {r : α} {v : Json} (h : Spells r v) : v ≠ .null := by
  rintro rfl
  obtain ⟨_, h, -⟩ := h
  cases h

theorem optional_fromValue {o : Option α} (h : ∀ r ∈ o, validate r = .ok ()) :
    optionalField Deserialize.fromValue ms name = some o ↔ OptionSpells o (ms.lookup name) := by
  unfold optionalField OptionSpells
  cases ms.lookup name with
  | none => cases o <;> simp
  | some v =>
      rcases eq_or_ne v .null with rfl | hv
      · cases o with
        | none => simp [readOption]
        | some r => simpa [readOption] using fun hs : Spells r .null ↦ hs.ne_null rfl
      · cases o with
        | none => simp [readOption, hv]
        | some r => simpa [readOption] using fromValue_eq_some (h r rfl)

theorem mapM_fromValue {l : List α} {vs : List Json} (h : ∀ r ∈ l, validate r = .ok ()) :
    vs.mapM Deserialize.fromValue = some l ↔ List.Forall₂ Spells l vs := by
  induction vs generalizing l with
  | nil => cases l <;> simp
  | cons v vs ih =>
      simp only [List.mapM_cons, Option.bind_eq_bind, Option.bind_eq_some_iff, Option.pure_def,
        Option.some.injEq]
      constructor
      · rintro ⟨r, hr, l, hl, rfl⟩
        obtain ⟨hval, hvals⟩ := List.forall_mem_cons.mp h
        exact .cons ((fromValue_eq_some hval).mp hr) ((ih hvals).mp hl)
      · rintro (_ | ⟨hr, hl⟩)
        obtain ⟨hval, hvals⟩ := List.forall_mem_cons.mp h
        exact ⟨_, (fromValue_eq_some hval).mpr hr, _, (ih hvals).mpr hl, rfl⟩

theorem default_fromValue {l : List α} (h : ∀ r ∈ l, validate r = .ok ()) :
    defaultField (readVec Deserialize.fromValue) ms name = some l ↔
      l = [] ∧ ms.lookup name = none ∨
        ∃ vs, ms.lookup name = some (.arr vs) ∧ List.Forall₂ Spells l vs := by
  unfold defaultField
  cases ms.lookup name with
  | none => simp [eq_comm, default]
  | some v => cases v <;> simp [readVec, mapM_fromValue h]

variable [Sha256] {b : TransactionBundle} {input : List UInt8}

theorem readBundle_eq_some (h : Acceptable b) : readBundle ms = some b ↔ BundleSpells b ms := by
  have hg := @optional_fromValue _ _ _ _ _ ms "grant" b.grant h.grant_valid
  have hr := @optional_fromValue _ _ _ _ _ ms "receipt" b.receipt h.receipt_valid
  have hx := @default_fromValue _ _ _ _ _ ms "reconciliations" _ h.reconciliations_valid
  simp only [readBundle, Option.bind_eq_bind, Option.bind_eq_some_iff, Option.some.injEq]
  constructor
  · rintro ⟨_, hc, _, hp, _, hd, _, hgrant, _, hreceipt, _, hrecs, rfl⟩
    exact ⟨(required_fromValue h.commitment_valid).mp hc,
      (required_fromValue h.proposal_valid).mp hp, (required_fromValue h.decision_valid).mp hd,
      hg.mp hgrant, hr.mp hreceipt, hx.mp hrecs⟩
  · rintro ⟨hc, hp, hd, hgrant, hreceipt, hrecs⟩
    exact ⟨_, (required_fromValue h.commitment_valid).mpr hc, _,
      (required_fromValue h.proposal_valid).mpr hp, _,
      (required_fromValue h.decision_valid).mpr hd, _, hg.mpr hgrant, _, hr.mpr hreceipt, _,
      hx.mpr hrecs, rfl⟩

/-- `parse_transaction_bundle` takes the texts whose records spell those of an
acceptable bundle, within the transport limit. -/
theorem parseTransactionBundle_eq_ok : parseTransactionBundle input = .ok b ↔
    input.length ≤ maxTransportInputBytes ∧ Acceptable b ∧
      ∃ v ms, Denotes input v ∧ bundleMembers v = some ms ∧ BundleSpells b ms := by
  simp only [parseTransactionBundle, bind_eq_ok, rejectIf_eq_ok, okOr_eq_ok, not_lt,
    Except.ok.injEq, exists_const, Denotes]
  constructor
  · rintro ⟨hlen, text, ht, v, hv, b', hb, report, hverify, rfl⟩
    have hacc := (verifyTransaction_ok_iff b').mp ⟨report, hverify⟩
    obtain ⟨ms, hms, hread⟩ := Option.bind_eq_some_iff.mp hb
    exact ⟨hlen, hacc, v, ms, ⟨text, ht, hv⟩, hms, (readBundle_eq_some hacc).mp hread⟩
  · rintro ⟨hlen, hacc, v, ms, ⟨text, ht, hv⟩, hms, hs⟩
    obtain ⟨report, hverify⟩ := (verifyTransaction_ok_iff b).mpr hacc
    exact ⟨hlen, text, ht, v, hv, b,
      Option.bind_eq_some_iff.mpr ⟨ms, hms, (readBundle_eq_some hacc).mpr hs⟩, report, hverify,
      rfl⟩

omit [LawfulSchema α] [Sha256] in
theorem exists_spelled {l : List α} {vs : List Json} (h : List.Forall₂ Spells l vs) {v : Json}
    (hv : v ∈ vs) : ∃ r : α, Spells r v := by
  induction h with
  | nil => cases hv
  | cons hr _ ih =>
      rcases List.mem_cons.mp hv with rfl | hv
      · exact ⟨_, hr⟩
      · exact ih hv

omit [Sha256] in
/-- What holds of every spelling of a record holds of every record inside a bundle. -/
theorem BundleSpells.every {P Q : ∀ (α : Type) [Schema α], Json → Prop} (h : BundleSpells b ms)
    (hPQ : ∀ {α : Type} [ProtocolRecord α] [Deserialize α] [Schema α] [LawfulSchema α] {r : α}
      {v : Json}, Spells r v → P α v → Q α v) (hP : EveryRecord P ms) : EveryRecord Q ms where
  commitment v hv := by
    obtain ⟨w, hw, hs⟩ := h.commitment
    obtain rfl := Option.some.inj (hv.symm.trans hw)
    exact hPQ hs (hP.commitment v hv)
  proposal v hv := by
    obtain ⟨w, hw, hs⟩ := h.proposal
    obtain rfl := Option.some.inj (hv.symm.trans hw)
    exact hPQ hs (hP.proposal v hv)
  decision v hv := by
    obtain ⟨w, hw, hs⟩ := h.decision
    obtain rfl := Option.some.inj (hv.symm.trans hw)
    exact hPQ hs (hP.decision v hv)
  grant v hv hne := by
    obtain ⟨r, hs⟩ := h.grant.exists_record hv hne
    exact hPQ hs (hP.grant v hv hne)
  receipt v hv hne := by
    obtain ⟨r, hs⟩ := h.receipt.exists_record hv hne
    exact hPQ hs (hP.receipt v hv hne)
  reconciliations vs hvs v hv := by
    rcases h.reconciliations with ⟨-, hnone⟩ | ⟨ws, hws, hs⟩
    · rw [hnone] at hvs
      cases hvs
    · obtain rfl := Json.arr.inj (Option.some.inj (hvs.symm.trans hws))
      obtain ⟨r, hr⟩ := exists_spelled hs hv
      exact hPQ hr (hP.reconciliations vs hvs v hv)

/-- `parse_transaction_bundle` returns only from documents whose records have the schema's
shape. -/
def BundleParsesShaped (input : List UInt8) : Prop :=
  ∀ b, parseTransactionBundle input = .ok b →
    ∃ v ms, Denotes input v ∧ bundleMembers v = some ms ∧ EveryRecord SchemaShaped ms

/-- The bytes spell an acceptable bundle, within the transport limit, and a record inside it in
one of the other ways. -/
def BundleLiberal (input : List UInt8) : Prop :=
  input.length ≤ maxTransportInputBytes ∧ ∃ b, Acceptable b ∧
    ∃ v ms, Denotes input v ∧ bundleMembers v = some ms ∧ BundleSpells b ms ∧
      ¬EveryRecord (fun α _ v ↦ ¬Misspelled α v) ms

theorem bundleParsesShaped_iff (input : List UInt8) :
    BundleParsesShaped input ↔ ¬BundleLiberal input := by
  constructor
  · rintro h ⟨hlen, b, hacc, v, ms, hv, hms, hs, hmis⟩
    obtain ⟨w, ms', hw, hms', hshape⟩ :=
      h b (parseTransactionBundle_eq_ok.mpr ⟨hlen, hacc, v, ms, hv, hms, hs⟩)
    obtain rfl := hv.unique hw
    obtain rfl := Option.some.inj (hms.symm.trans hms')
    exact hmis (hs.every (fun hr hP hmis ↦ (misspelled_iff hr).mp hmis hP) hshape)
  · intro h b hb
    obtain ⟨hlen, hacc, v, ms, hv, hms, hs⟩ := parseTransactionBundle_eq_ok.mp hb
    refine ⟨v, ms, hv, hms, ?_⟩
    have hno : EveryRecord (fun α _ v ↦ ¬Misspelled α v) ms :=
      by_contra fun hmis ↦ h ⟨hlen, b, hacc, v, ms, hv, hms, hs, hmis⟩
    exact hs.every (fun hr hP ↦ by_contra fun hshape ↦ hP ((misspelled_iff hr).mpr hshape)) hno

end Bundle

/-! ## The shape of what is taken -/

/-- **Schema-shaped documents only.**  On given bytes the two parsers keep to the
schemas exactly when the bytes are none of the other spellings of a valid record,
or of an acceptable bundle. -/
theorem parser_shape_iff [Sha256] (input : List UInt8) :
    (ParsesShaped TaskCommitment input ↔ ¬Liberal TaskCommitment input) ∧
      (ParsesShaped EffectProposal input ↔ ¬Liberal EffectProposal input) ∧
      (ParsesShaped AuthorizationDecision input ↔ ¬Liberal AuthorizationDecision input) ∧
      (ParsesShaped ExecutionGrant input ↔ ¬Liberal ExecutionGrant input) ∧
      (ParsesShaped EffectReceipt input ↔ ¬Liberal EffectReceipt input) ∧
      (ParsesShaped ReconciliationRecord input ↔ ¬Liberal ReconciliationRecord input) ∧
      (BundleParsesShaped input ↔ ¬BundleLiberal input) :=
  ⟨parsesShaped_iff _ input, parsesShaped_iff _ input, parsesShaped_iff _ input,
    parsesShaped_iff _ input, parsesShaped_iff _ input, parsesShaped_iff _ input,
    bundleParsesShaped_iff input⟩

section Array

variable {α : Type} [ProtocolRecord α] [Deserialize α] [Schema α] [LawfulSchema α] {r : α}

/-- A record as the array of its fields. -/
def arrayForm (r : α) : Json := .arr ((Serialize.fields r).map Prod.snd)

theorem spells_arrayForm (r : α) : Spells r (arrayForm r) := by
  have hnames := LawfulRecord.names_eq r
  have hlen : ((Serialize.fields r).map Prod.snd).length = (Deserialize.names α).length := by
    rw [← hnames, List.length_map, List.length_map]
  refine ⟨Serialize.fields r, ?_, fun field hfield ↦ .inl ?_⟩
  · rw [arrayForm, structMembers, if_pos hlen, ← hnames, List.zip_map']
    exact congrArg some (List.map_id _)
  · exact (KeyMap.lookup_eq_some_iff (fields_nodup r)).mpr hfield

/-- The bytes of that array. -/
def arrayBytes (r : α) : List UInt8 := utf8 (String.ofList (arrayForm r).text)

omit [Deserialize α] [Schema α] [LawfulSchema α] in
theorem denotes_arrayBytes (r : α) : Denotes (arrayBytes r) (arrayForm r) :=
  ⟨_, decodeUtf8_utf8 _, by rw [String.toList_ofList, Json.parse_text]⟩

theorem length_arrayBytes_le (h : validate r = .ok ()) :
    (arrayBytes r).length ≤ maxTransportInputBytes := by
  obtain ⟨_, _, hplain, -, hbytes⟩ := LawfulRecord.plain h
  have hle : ((Serialize.fields r).map fun e ↦ Json.bytesOf e.2.text + 1).sum ≤
      ((Serialize.fields r).map fun e ↦ 6 * (utf8 e.1).length + Json.bytesOf e.2.text + 4).sum :=
    List.sum_le_sum fun e _ ↦ by omega
  have harr := Json.bytesOf_arr ((Serialize.fields r).map Prod.snd)
  rw [List.map_map] at harr
  calc (arrayBytes r).length
      = Json.bytesOf (arrayForm r).text := by
        rw [arrayBytes, utf8, String.toList_ofList, Json.bytesOf]
    _ ≤ _ := harr
    _ ≤ _ := Nat.add_le_add_right (hle.trans hplain.bytes_le) 2
    _ ≤ maxTransportInputBytes := hbytes

/-- Every valid record is read from the array of its fields, which the schema does not know. -/
theorem parseRecord_arrayBytes (h : validate r = .ok ()) :
    parseRecord α (arrayBytes r) = .ok r :=
  parseRecord_eq_ok.mpr ⟨length_arrayBytes_le h, h, _, denotes_arrayBytes r, spells_arrayForm r⟩

theorem liberal_arrayBytes (h : validate r = .ok ()) : Liberal α (arrayBytes r) :=
  ⟨length_arrayBytes_le h, r, h, _, denotes_arrayBytes r, spells_arrayForm r, .array _⟩

end Array

/-- The array of the fields of the published grant is read as the grant. -/
theorem grant_array_parsed :
    parseRecord ExecutionGrant (arrayBytes Vectors.positiveGrant) = .ok Vectors.positiveGrant ∧
      ¬ParsesShaped ExecutionGrant (arrayBytes Vectors.positiveGrant) := by
  have hvalid := Vectors.positiveGrant_valid
  refine ⟨parseRecord_arrayBytes hvalid, fun hshaped ↦ ?_⟩
  exact (parsesShaped_iff _ _).mp hshaped (liberal_arrayBytes hvalid)

end Etp.Core
