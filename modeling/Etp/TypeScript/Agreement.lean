import Etp.Core.Shape
import Etp.TypeScript.Transaction

/-!
# Both verifiers on one document

The Rust verifier reads a bundle out of the document and verifies the records; the
TypeScript verifier checks the value itself.  On a document of the schema's shape the
first reads exactly the bundle that the second finds (`BundleWrites`), so that the two
can differ on its texts only: `str::trim` keeps U+FEFF, which `\s` matches.

`verifiers_agree_iff` says on which documents they agree, and `verify_document_marked` that
there are others.  `typed_bundles_agree_iff` says it of the typed bundle of a document.
-/

namespace Etp.TypeScript

open JsString Etp.Core

/-! ## One record -/

section Record

variable {α : Type} [ProtocolRecord α] [Deserialize α] [Schema α] [LawfulSchema α] {r : α}
  {v : Json}

theorem Writes.spells (h : Writes r v) : Spells r v := by
  obtain ⟨ms, rfl, hperm⟩ := h
  have hkeys := fields_nodup r
  have hnames : (ms.map Prod.fst).Perm (Deserialize.names α) := by
    rw [← LawfulRecord.names_eq r]
    exact hperm.map Prod.fst
  have hkeys' : (ms.map Prod.fst).Nodup := hnames.nodup_iff.mpr LawfulRecord.names_nodup
  refine ⟨ms, structMembers_obj.mpr ⟨⟨hkeys', fun k ↦ hnames.mem_iff.mp⟩, rfl⟩,
    fun field hfield ↦ ?_⟩
  exact .inl ((KeyMap.lookup_eq_some_iff hkeys').mpr (hperm.mem_iff.mpr hfield))

/-- A document of the schema's shape that spells a record writes it. -/
theorem writes_of_spells (hshape : SchemaShaped α v) (h : Spells r v) : Writes r v := by
  obtain ⟨ms, rfl, hrequired, houtcome⟩ := hshape
  obtain ⟨ms', hms, hfields⟩ := h
  obtain ⟨-, rfl⟩ := structMembers_obj.mp hms
  have hnames : (ms.map Prod.fst).Perm (Deserialize.names α) :=
    hrequired.trans LawfulSchema.names_perm.symm
  refine writes_of_holds hnames fun field hfield ↦ ?_
  rcases hfields field hfield with hlookup | ⟨hnull, -, hlookup⟩ | ⟨hname, s, -, hlookup⟩
  · rw [look, hlookup]
    rfl
  · -- Every name is there, so that none is left out.
    have hmem := hnames.mem_iff.mpr (LawfulSchema.nullable_mem _ hnull)
    obtain ⟨e, he, heq⟩ := List.mem_map.mp hmem
    exact absurd heq.symm (bne_iff_ne.mp (List.lookup_eq_none_iff.mp hlookup e he))
  · obtain ⟨t, ht⟩ := houtcome _ (hname ▸ hlookup)
    cases ht

end Record

/-! ## A whole bundle -/

/-- The members of a bundle in the shape of its schema: the required records as objects, the
optional ones too unless they are `null` or left out, and any number of reconciliations. -/
structure BundleShape (ms : List (String × Json)) : Prop where
  names : ∀ k ∈ ms.map Prod.fst, k ∈ bundleFields
  commitment : SchemaShaped TaskCommitment (look ms "commitment")
  proposal : SchemaShaped EffectProposal (look ms "proposal")
  decision : SchemaShaped AuthorizationDecision (look ms "decision")
  grant : look ms "grant" = .null ∨ SchemaShaped ExecutionGrant (look ms "grant")
  receipt : look ms "receipt" = .null ∨ SchemaShaped EffectReceipt (look ms "receipt")
  reconciliations : ∃ vs, (ms.lookup "reconciliations").getD (.arr []) = .arr vs ∧
    ∀ v ∈ vs, SchemaShaped ReconciliationRecord v

def BundleShaped (v : Json) : Prop := ∃ ms, v = .obj ms ∧ BundleShape ms

section Bundle

variable {α : Type} [ProtocolRecord α] [Deserialize α] [Schema α] [LawfulSchema α]
  {ms : List (String × Json)} {name : String} {b : TransactionBundle}

omit [ProtocolRecord α] [Deserialize α] [Schema α] [LawfulSchema α] in
theorem look_eq_null :
    look ms name = .null ↔ ms.lookup name = none ∨ ms.lookup name = some .null := by
  rw [look]
  cases ms.lookup name <;> simp

theorem optionSpells_of_optionWrites {o : Option α} (h : OptionWrites o (look ms name)) :
    OptionSpells o (ms.lookup name) := by
  cases o with
  | none => exact look_eq_null.mp h
  | some r =>
      have hwrites : Writes r (look ms name) := h
      exact ⟨_, look_eq_of_ne_null hwrites.ne_null, hwrites.spells⟩

theorem optionWrites_of_optionSpells {o : Option α}
    (hshape : look ms name = .null ∨ SchemaShaped α (look ms name))
    (h : OptionSpells o (ms.lookup name)) : OptionWrites o (look ms name) := by
  cases o with
  | none => exact look_eq_null.mpr h
  | some r =>
      obtain ⟨v, hlookup, hspells⟩ := h
      rw [look_of_lookup hlookup] at hshape ⊢
      rcases hshape with hnull | hshape
      · exact absurd hnull hspells.ne_null
      · exact writes_of_spells hshape hspells

theorem spells_look {r : α} (h : Writes r (look ms name)) :
    ∃ v, ms.lookup name = some v ∧ Spells r v :=
  ⟨_, look_eq_of_ne_null h.ne_null, h.spells⟩

theorem writes_look {r : α} (hshape : SchemaShaped α (look ms name))
    (h : ∃ v, ms.lookup name = some v ∧ Spells r v) : Writes r (look ms name) := by
  obtain ⟨v, hlookup, hspells⟩ := h
  rw [look_of_lookup hlookup] at hshape ⊢
  exact writes_of_spells hshape hspells

/-- What writes a bundle spells it. -/
theorem BundleWrites.spells (h : BundleWrites b ms) : BundleSpells b ms where
  commitment := spells_look h.commitment
  proposal := spells_look h.proposal
  decision := spells_look h.decision
  grant := optionSpells_of_optionWrites h.grant
  receipt := optionSpells_of_optionWrites h.receipt
  reconciliations := by
    obtain ⟨vs, hvs, hwrites⟩ := h.reconciliations
    cases hlookup : ms.lookup "reconciliations" with
    | none =>
        rw [hlookup] at hvs
        obtain rfl : [] = vs := Json.arr.inj hvs
        exact .inl ⟨List.forall₂_nil_right_iff.mp hwrites, rfl⟩
    | some v =>
        rw [hlookup] at hvs
        obtain rfl : v = .arr vs := hvs
        exact .inr ⟨vs, rfl, hwrites.imp fun _ _ ↦ Writes.spells⟩

theorem BundleShape.writes (hshape : BundleShape ms) (h : BundleSpells b ms) :
    BundleWrites b ms where
  names := hshape.names
  commitment := writes_look hshape.commitment h.commitment
  proposal := writes_look hshape.proposal h.proposal
  decision := writes_look hshape.decision h.decision
  grant := optionWrites_of_optionSpells hshape.grant h.grant
  receipt := optionWrites_of_optionSpells hshape.receipt h.receipt
  reconciliations := by
    obtain ⟨vs, hvs, hshapes⟩ := hshape.reconciliations
    refine ⟨vs, hvs, ?_⟩
    rcases h.reconciliations with ⟨hnil, hlookup⟩ | ⟨ws, hlookup, hspells⟩
    · rw [hlookup] at hvs
      obtain rfl : [] = vs := Json.arr.inj hvs
      rw [hnil]
      exact .nil
    · rw [hlookup] at hvs
      obtain rfl : ws = vs := Json.arr.inj hvs
      refine List.forall₂_iff_get.mpr ⟨hspells.length_eq, fun i hi hi' ↦ ?_⟩
      exact writes_of_spells (hshapes _ (List.get_mem ws ⟨i, hi'⟩)) (hspells.get hi hi')

variable [Sha256]

/-- A document writes no more than one acceptable bundle. -/
theorem BundleWrites.unique {b' : TransactionBundle} (h : BundleWrites b ms)
    (h' : BundleWrites b' ms) (hacc : Acceptable b) (hacc' : Acceptable b') : b = b' := by
  have hread := (readBundle_eq_some hacc).mpr h.spells
  rw [(readBundle_eq_some hacc').mpr h'.spells] at hread
  exact (Option.some.inj hread).symm

end Bundle

/-! ## The two verifiers -/

section Agreement

variable [Sha256]

/-- `serde_json::from_value` and `verify_transaction` -/
def verifyValue (v : Json) : Except ProtocolError Core.VerifiedTransaction := do
  let bundle ← okOr ((bundleMembers v).bind readBundle) .json
  Core.verifyTransaction bundle

/-- Both verifiers return on the document, with the same report, or neither does. -/
def Agree (v : Json) : Prop :=
  ∀ result, verifyTransaction (ofJson v) = .ok result ↔
    ∃ report, verifyValue v = .ok report ∧ result = ofReport report

/-- The document writes the bundle. -/
def Documents (b : TransactionBundle) (v : Json) : Prop := ∃ ms, v = .obj ms ∧ BundleWrites b ms

/-- The typed bundle of a document, as serde reads it. -/
def typedBundle (v : Json) : Option TransactionBundle := (bundleMembers v).bind readBundle

/-- An acceptable bundle is the typed bundle of the documents that write it. -/
theorem typedBundle_eq_some {v : Json} {b : TransactionBundle} (hv : v.Distinct)
    (hshape : BundleShaped v) (hacc : Acceptable b) :
    typedBundle v = some b ↔ Documents b v := by
  obtain ⟨ms, rfl, hshape⟩ := hshape
  have hkeys : (ms.map Prod.fst).Nodup := by
    cases hv with
    | obj hkeys _ => exact hkeys
  have hmembers : bundleMembers (.obj ms) = some ms :=
    structMembers_obj.mpr ⟨⟨hkeys, hshape.names⟩, rfl⟩
  rw [typedBundle, hmembers, Option.bind_some, readBundle_eq_some hacc]
  constructor
  · intro hspells
    exact ⟨ms, rfl, hshape.writes hspells⟩
  · rintro ⟨_, ⟨⟩, hwrites⟩
    exact hwrites.spells

/-- What the Rust verifier accepts among the documents of the schema's shape. -/
theorem verifyValue_eq_ok {v : Json} (hv : v.Distinct) (hshape : BundleShaped v)
    {result : Core.VerifiedTransaction} :
    verifyValue v = .ok result ↔
      ∃ b, Documents b v ∧ Acceptable b ∧ result = report b := by
  simp only [verifyValue, bind_eq_ok, okOr_eq_ok, Core.verifyTransaction_eq_ok, acceptedBundle_iff]
  refine exists_congr fun b ↦ ?_
  constructor
  · rintro ⟨hread, hacc, rfl⟩
    exact ⟨(typedBundle_eq_some hv hshape hacc).mp hread, hacc, rfl⟩
  · rintro ⟨hdocuments, hacc, rfl⟩
    exact ⟨(typedBundle_eq_some hv hshape hacc).mpr hdocuments, hacc, rfl⟩

/-- What the TypeScript verifier accepts. -/
theorem verifyTransaction_eq_report {v : Json} (hv : v.Distinct) {result : VerifiedTransaction} :
    verifyTransaction (ofJson v) = .ok result ↔
      ∃ b, Documents b v ∧ Acceptable b ∧ NoMark b ∧ result = ofReport (report b) := by
  rw [verifyTransaction_eq_ok hv]
  constructor
  · rintro ⟨ms, b, rfl, hwrites, hacc, hmark, rfl⟩
    exact ⟨b, ⟨ms, rfl, hwrites⟩, acceptedBundle_iff.mp hacc, hmark, rfl⟩
  · rintro ⟨b, ⟨ms, rfl, hwrites⟩, hacc, hmark, rfl⟩
    exact ⟨ms, b, rfl, hwrites, acceptedBundle_iff.mpr hacc, hmark, rfl⟩

/-- A document writes no more than one acceptable bundle. -/
theorem Documents.unique {v : Json} {b b' : TransactionBundle} (h : Documents b v)
    (h' : Documents b' v) (hacc : Acceptable b) (hacc' : Acceptable b') : b = b' := by
  obtain ⟨ms, rfl, hwrites⟩ := h
  obtain ⟨_, ⟨⟩, hwrites'⟩ := h'
  exact hwrites.unique hwrites' hacc hacc'

/-- **Accepted documents.**  The TypeScript verifier returns on a document precisely when the
document writes an acceptable bundle without a mark, of which there is no more than one, and it
returns the report of that bundle. -/
theorem verifyTransaction_accepts_iff {v : Json} (hv : v.Distinct) :
    (∀ result, verifyTransaction (ofJson v) = .ok result ↔
      ∃ b, Documents b v ∧ Acceptable b ∧ NoMark b ∧ result = ofReport (report b)) ∧
      ∀ b b', Documents b v → Acceptable b → Documents b' v → Acceptable b' → b = b' :=
  ⟨fun _ ↦ verifyTransaction_eq_report hv, fun _ _ h hacc h' hacc' ↦ h.unique h' hacc hacc'⟩

/-- **When the verifiers agree.**  On a document of the schema's shape both return with the same
report, or neither returns, unless it writes an acceptable bundle and a trimmed text of one of
its records begins or ends with U+FEFF. -/
theorem verifiers_agree_iff {v : Json} (hv : v.Distinct) (hshape : BundleShaped v) :
    Agree v ↔ ∀ b, Documents b v → Acceptable b → NoMark b := by
  simp only [Agree, verifyTransaction_eq_report hv, verifyValue_eq_ok hv hshape]
  constructor
  · intro h b hdoc hacc
    obtain ⟨b', hdoc', hacc', hmark, -⟩ := (h _).mpr ⟨_, ⟨b, hdoc, hacc, rfl⟩, rfl⟩
    rwa [hdoc.unique hdoc' hacc hacc']
  · intro h result
    constructor
    · rintro ⟨b, hdoc, hacc, -, rfl⟩
      exact ⟨_, ⟨b, hdoc, hacc, rfl⟩, rfl⟩
    · rintro ⟨_, ⟨b, hdoc, hacc, rfl⟩, rfl⟩
      exact ⟨b, hdoc, hacc, h b hdoc hacc, rfl⟩

/-- The TypeScript verifier returns on the document precisely when the Rust verifier returns on
the typed bundle, and then with the same report. -/
def TypedAgree (b : TransactionBundle) (v : Json) : Prop :=
  ∀ result, verifyTransaction (ofJson v) = .ok result ↔
    ∃ report, Core.verifyTransaction b = .ok report ∧ result = ofReport report

/-- A document without a typed bundle writes no acceptable one. -/
theorem not_documents_of_untyped {v : Json} (hv : v.Distinct) (hshape : BundleShaped v)
    (h : typedBundle v = none) {b : TransactionBundle} (hacc : Acceptable b) :
    ¬Documents b v := by
  intro hdocuments
  have hread := (typedBundle_eq_some hv hshape hacc).mpr hdocuments
  rw [h] at hread
  cases hread

/-- **Typed bundles.**  On a typed bundle and the document it was read from the verifiers agree,
unless the bundle is acceptable and a trimmed text of one of its records begins or ends with
U+FEFF.  Of a document of the schema's shape that has no typed bundle, the TypeScript verifier
throws. -/
theorem typed_bundles_agree_iff {v : Json} (hv : v.Distinct) (hshape : BundleShaped v) :
    (∀ b, typedBundle v = some b → (TypedAgree b v ↔ ¬(Acceptable b ∧ ¬NoMark b))) ∧
      (typedBundle v = none → ∃ e, verifyTransaction (ofJson v) = .error e) := by
  constructor
  · intro b hread
    simp only [TypedAgree, verifyTransaction_eq_report hv, Core.verifyTransaction_eq_ok,
      acceptedBundle_iff]
    constructor
    · rintro h ⟨hacc, hmarked⟩
      obtain ⟨b', hdocuments, hacc', hmark, -⟩ := (h _).mpr ⟨report b, ⟨hacc, rfl⟩, rfl⟩
      have hread' := (typedBundle_eq_some hv hshape hacc').mpr hdocuments
      rw [hread, Option.some.injEq] at hread'
      exact hmarked (hread' ▸ hmark)
    · intro h result
      constructor
      · rintro ⟨b', hdocuments, hacc, -, rfl⟩
        have hread' := (typedBundle_eq_some hv hshape hacc).mpr hdocuments
        rw [hread, Option.some.injEq] at hread'
        exact ⟨_, ⟨hread' ▸ hacc, rfl⟩, hread' ▸ rfl⟩
      · rintro ⟨_, ⟨hacc, rfl⟩, rfl⟩
        refine ⟨b, (typedBundle_eq_some hv hshape hacc).mp hread, hacc, ?_, rfl⟩
        by_contra hmarked
        exact h ⟨hacc, hmarked⟩
  · intro hnone
    cases hresult : verifyTransaction (ofJson v) with
    | error e => exact ⟨e, rfl⟩
    | ok result =>
        obtain ⟨b, hdocuments, hacc, -, -⟩ := (verifyTransaction_eq_report hv).mp hresult
        exact absurd hdocuments (not_documents_of_untyped hv hshape hnone hacc)

end Agreement

/-! ## The document of a bundle -/

section Document

/-- Sorted objects have no name twice. -/
theorem distinct_sortKeys (v : Json) : v.sortKeys.Distinct := by
  induction v using Json.induction with
  | null => exact .null
  | bool b => exact .bool b
  | num n => exact .num n
  | str s => exact .str s
  | arr vs ih =>
      rw [Json.sortKeys, Json.sortKeysValues_eq_map]
      refine .arr fun w hw ↦ ?_
      obtain ⟨v, hv, rfl⟩ := List.mem_map.mp hw
      exact ih v hv
  | obj ms ih =>
      rw [Json.sortKeys, Json.sortKeysMembers_eq_mapVal]
      refine .obj (KeyMap.sorted_collect _).nodup fun e he ↦ ?_
      rw [KeyMap.collect_mapVal] at he
      obtain ⟨⟨k, v⟩, hmem, rfl⟩ := List.mem_map.mp he
      have hlookup := (KeyMap.lookup_eq_some_iff (KeyMap.sorted_collect ms).nodup).mpr hmem
      rw [KeyMap.lookup_collect] at hlookup
      obtain ⟨l₁, l₂, hsplit, -⟩ := List.lookup_eq_some_iff.mp hlookup
      refine ih (k, v) (List.mem_reverse.mp ?_)
      rw [hsplit]
      exact List.mem_append_right _ List.mem_cons_self

variable {α : Type} [ProtocolRecord α] [Deserialize α]

/-- A record as serde writes it. -/
def recordDocument {α : Type} [Serialize α] (r : α) : Json := .obj (Serialize.fields r)

/-- A bundle as serde writes it. -/
def document (b : TransactionBundle) : Json :=
  .obj [
    ("commitment", recordDocument b.commitment),
    ("proposal", recordDocument b.proposal),
    ("decision", recordDocument b.decision),
    ("grant", writeOption recordDocument b.grant),
    ("receipt", writeOption recordDocument b.receipt),
    ("reconciliations", .arr (b.reconciliations.map recordDocument))]

theorem distinct_recordDocument [LawfulRecord α] {r : α} (h : validate r = .ok ()) :
    (recordDocument r).Distinct := by
  obtain ⟨_, _, hplain, -, -⟩ := LawfulRecord.plain h
  refine .obj (fields_nodup r) fun e he ↦ ?_
  rw [← hplain.sorted e he]
  exact distinct_sortKeys e.2

theorem schemaShaped_recordDocument [Schema α] [LawfulSchema α] (r : α) :
    SchemaShaped α (recordDocument r) := by
  refine ⟨Serialize.fields r, rfl, ?_, fun v hv ↦ ?_⟩
  · rw [LawfulRecord.names_eq r]
    exact LawfulSchema.names_perm
  · exact LawfulSchema.outcome_str r _ ((KeyMap.lookup_eq_some_iff (fields_nodup r)).mp hv) rfl

theorem distinct_option [LawfulRecord α] {o : Option α} (h : ∀ r ∈ o, validate r = .ok ()) :
    (writeOption recordDocument o).Distinct := by
  cases o with
  | none => exact .null
  | some r => exact distinct_recordDocument (h r rfl)

theorem schemaShaped_option [Schema α] [LawfulSchema α] (o : Option α) :
    writeOption recordDocument o = .null ∨ SchemaShaped α (writeOption recordDocument o) := by
  cases o with
  | none => exact .inl rfl
  | some r => exact .inr (schemaShaped_recordDocument r)

omit [Deserialize α] in
theorem optionWrites_option (o : Option α) : OptionWrites o (writeOption recordDocument o) := by
  cases o with
  | none => rfl
  | some r => exact writes_fields r

variable {b : TransactionBundle}

theorem bundleShaped_document (b : TransactionBundle) : BundleShaped (document b) :=
  ⟨_, rfl, by simp [bundleFields], schemaShaped_recordDocument b.commitment,
    schemaShaped_recordDocument b.proposal, schemaShaped_recordDocument b.decision,
    schemaShaped_option b.grant, schemaShaped_option b.receipt, _, rfl,
    List.forall_mem_map.mpr fun q _ ↦ schemaShaped_recordDocument q⟩

theorem documents_document (b : TransactionBundle) : Documents b (document b) :=
  ⟨_, rfl, by simp [bundleFields], writes_fields b.commitment, writes_fields b.proposal,
    writes_fields b.decision, optionWrites_option b.grant, optionWrites_option b.receipt, _, rfl,
    List.forall₂_map_right_iff.mpr (List.forall₂_same.mpr fun q _ ↦ writes_fields q)⟩

variable [Sha256]

theorem distinct_document (h : Acceptable b) : (document b).Distinct := by
  refine .obj (show bundleFields.Nodup by decide) ?_
  simp only [List.forall_mem_cons, List.not_mem_nil, false_imp_iff, implies_true, and_true]
  refine ⟨distinct_recordDocument h.commitment_valid, distinct_recordDocument h.proposal_valid,
    distinct_recordDocument h.decision_valid, distinct_option h.grant_valid,
    distinct_option h.receipt_valid, .arr (List.forall_mem_map.mpr fun q hq ↦ ?_)⟩
  exact distinct_recordDocument (h.reconciliations_valid q hq)

theorem verifyValue_document (h : Acceptable b) : verifyValue (document b) = .ok (report b) :=
  (verifyValue_eq_ok (distinct_document h) (bundleShaped_document b)).mpr
    ⟨b, documents_document b, h, rfl⟩

theorem verifyTransaction_document (h : Acceptable b) {result : VerifiedTransaction} :
    verifyTransaction (ofJson (document b)) = .ok result ↔
      NoMark b ∧ result = ofReport (report b) := by
  rw [verifyTransaction_eq_report (distinct_document h)]
  constructor
  · rintro ⟨b', hdocuments, hacc, hmark, rfl⟩
    obtain rfl := hdocuments.unique (documents_document b) hacc h
    exact ⟨hmark, rfl⟩
  · rintro ⟨hmark, rfl⟩
    exact ⟨b, documents_document b, h, hmark, rfl⟩

/-- **Serialized bundles.**  On the document that serde writes of an acceptable bundle the Rust
verifier returns its report, and the TypeScript verifier returns the same report unless a
trimmed text begins or ends with U+FEFF; then it throws. -/
theorem verify_document (h : Acceptable b) :
    verifyValue (document b) = .ok (report b) ∧
      (NoMark b → verifyTransaction (ofJson (document b)) = .ok (ofReport (report b))) ∧
      (¬NoMark b → ∃ e, verifyTransaction (ofJson (document b)) = .error e) := by
  refine ⟨verifyValue_document h, fun hmark ↦ ?_, fun hmark ↦ ?_⟩
  · exact (verifyTransaction_document h).mpr ⟨hmark, rfl⟩
  · cases hresult : verifyTransaction (ofJson (document b)) with
    | error e => exact ⟨e, rfl⟩
    | ok result => exact absurd ((verifyTransaction_document h).mp hresult).1 hmark

end Document

section Marked

open Vectors

theorem toNat_mark : ('\ufeff').toNat = 0xfeff := rfl

def unmarked (s : String) : Bool :=
  s.toList.head?.all (·.toNat != 0xfeff) && s.toList.getLast?.all (·.toNat != 0xfeff)

theorem unmarked_iff {s : String} : unmarked s = true ↔ Unmarked s := by
  have hall : ∀ o : Option Char, o.all (·.toNat != 0xfeff) = true ↔ ∀ c ∈ o, c ≠ '\ufeff' := by
    intro o
    cases o with
    | none => simp
    | some c =>
        simp only [Option.all_some, bne_iff_ne, Option.mem_def, Option.some.injEq, forall_eq']
        rw [← toNat_mark, Ne, Char.toNat_inj]
  rw [unmarked, Bool.and_eq_true, hall, hall, Unmarked]

instance (s : String) : Decidable (Unmarked s) := decidable_of_iff _ unmarked_iff

instance {α : Type} [Texts α] (r : α) : Decidable (NoMark r) :=
  inferInstanceAs (Decidable (∀ s ∈ Texts.texts r, Unmarked s))

/-- U+FEFF and a letter. -/
def markedPrincipal : String := String.ofList ['\ufeff', 'a']

theorem toList_markedPrincipal : markedPrincipal.toList = ['\ufeff', 'a'] := String.toList_ofList

theorem markedPrincipal_trimmed : TrimmedText markedPrincipal 512 where
  nonempty h := by
    have := congrArg String.toList h
    rw [toList_markedPrincipal] at this
    cases this
  bounded := by decide +kernel
  noControl := by
    rw [toList_markedPrincipal]
    simp [isControl, toNat_mark]
  trimmed := by
    rw [trim_eq_self_iff, toList_markedPrincipal]
    exact ⟨by simp [isWhiteSpace, toNat_mark], by simp [isWhiteSpace]⟩

theorem markedPrincipal_marked : ¬Unmarked markedPrincipal := by
  rw [Unmarked, toList_markedPrincipal]
  exact fun h ↦ h.1 _ rfl rfl

/-- The published commitment with that principal. -/
def markedCommitment : TaskCommitment := { positiveCommitment with principal := markedPrincipal }

theorem markedCommitment_valid : validate markedCommitment = .ok () := by
  obtain ⟨hversion, hid, -, hrest⟩ := TaskCommitment.validate_eq_ok.mp positiveCommitment_valid
  exact TaskCommitment.validate_eq_ok.mpr ⟨hversion, hid, markedPrincipal_trimmed, hrest⟩

/-- The proposal for another commitment. -/
def proposalFor [Sha256] (c : TaskCommitment) (p : EffectProposal) : EffectProposal :=
  { p with commitmentHash := recordHash c }

/-- The decision on another proposal. -/
def decisionOn [Sha256] (p : EffectProposal) (d : AuthorizationDecision) : AuthorizationDecision :=
  { d with proposalHash := recordHash p }

/-- A chain, under any hash, whose hashes are set again for another commitment of the same
times. -/
theorem decisionChain_relink {S : Sha256} [Sha256] {c c' : TaskCommitment} {p : EffectProposal}
    {d : AuthorizationDecision} (h : @DecisionChain S c p d) (hvalid : validate c' = .ok ())
    (hcreated : c'.createdAtMs = c.createdAtMs) (hexpires : c'.expiresAtMs = c.expiresAtMs) :
    DecisionChain c' (proposalFor c' p) (decisionOn (proposalFor c' p) d) := by
  obtain ⟨-, hproposal, hdecision, -, -, hp₁, hp₂, hd₁, hd₂⟩ := h
  exact {
    commitment_valid := hvalid
    proposal_valid := EffectProposal.validate_eq_ok.mpr (EffectProposal.validate_eq_ok.mp hproposal)
    decision_valid :=
      AuthorizationDecision.validate_eq_ok.mpr (AuthorizationDecision.validate_eq_ok.mp hdecision)
    commitment_hash := rfl
    proposal_hash := rfl
    created_le := hcreated ▸ hp₁
    expires_le := hexpires ▸ hp₂
    decided_ge := hd₁
    decision_expires_le := hd₂ }

variable [Sha256]

/-- A decision on the marked commitment. -/
def markedBundle : TransactionBundle where
  commitment := markedCommitment
  proposal := proposalFor markedCommitment positiveProposal
  decision := decisionOn (proposalFor markedCommitment positiveProposal) positiveDecision
  grant := none
  receipt := none
  reconciliations := []

theorem markedBundle_accepted : AcceptedBundle markedBundle where
  limit := Nat.zero_le _
  decision := decisionChain_relink (@GrantChain.toDecisionChain sha256 _ _ _ _ positiveGrant_chain)
    markedCommitment_valid rfl rfl
  grant := by rintro g ⟨⟩
  receipt := by rintro r ⟨⟩
  history h := absurd rfl h

theorem markedBundle_marked : ¬NoMark markedBundle := fun h ↦
  markedPrincipal_marked (h markedPrincipal (.tail _ (.head _)))

end Marked

open Vectors

/-- There are documents on which only the Rust verifier returns. -/
theorem verify_document_marked :
    verifyValue (document markedBundle) = .ok (report markedBundle) ∧
      ∃ e, verifyTransaction (ofJson (document markedBundle)) = .error e :=
  have h := verify_document (acceptedBundle_iff.mp markedBundle_accepted)
  ⟨h.1, h.2.2 markedBundle_marked⟩

theorem noMark_positive : NoMark positiveBundle := by decide +kernel

/-- The published bundle is one on which they agree. -/
theorem verifiers_agree_positive : Agree (document positiveBundle) := by
  have hacc := acceptedBundle_iff.mp positiveBundle_accepted
  refine (verifiers_agree_iff (distinct_document hacc) (bundleShaped_document _)).mpr ?_
  intro b hdocuments hacc'
  rw [hdocuments.unique (documents_document _) hacc' hacc]
  exact noMark_positive

/-- The marked bundle is one on which they do not. -/
theorem typed_bundles_disagree :
    typedBundle (document markedBundle) = some markedBundle ∧
      Core.verifyTransaction markedBundle = .ok (report markedBundle) ∧
      (∃ e, verifyTransaction (ofJson (document markedBundle)) = .error e) ∧
      ¬TypedAgree markedBundle (document markedBundle) := by
  have hacc := acceptedBundle_iff.mp markedBundle_accepted
  have hcore : Core.verifyTransaction markedBundle = .ok (report markedBundle) :=
    Core.verifyTransaction_eq_ok.mpr ⟨markedBundle_accepted, rfl⟩
  have hthrows : ∀ result, verifyTransaction (ofJson (document markedBundle)) ≠ .ok result :=
    fun result h ↦ markedBundle_marked ((verifyTransaction_document hacc).mp h).1
  refine ⟨?_, hcore, ?_, fun h ↦ hthrows _ ((h _).mpr ⟨_, hcore, rfl⟩)⟩
  · exact (typedBundle_eq_some (distinct_document hacc) (bundleShaped_document _) hacc).mpr
      (documents_document _)
  · cases hresult : verifyTransaction (ofJson (document markedBundle)) with
    | error e => exact ⟨e, rfl⟩
    | ok result => exact absurd hresult (hthrows result)

/-- On the published bundle they agree. -/
theorem typed_bundles_agree_positive : TypedAgree positiveBundle (document positiveBundle) := by
  have hacc := acceptedBundle_iff.mp positiveBundle_accepted
  have hdistinct := distinct_document hacc
  have hread : typedBundle (document positiveBundle) = some positiveBundle :=
    (typedBundle_eq_some hdistinct (bundleShaped_document _) hacc).mpr (documents_document _)
  exact ((typed_bundles_agree_iff hdistinct (bundleShaped_document _)).1 _ hread).mpr
    fun h ↦ h.2 noMark_positive

theorem verifyTransaction_accepts_positive :
    verifyTransaction (ofJson (document positiveBundle)) =
      .ok (ofReport (report positiveBundle)) := by
  have hacc := acceptedBundle_iff.mp positiveBundle_accepted
  exact ((verifyTransaction_accepts_iff (distinct_document hacc)).1 _).mpr
    ⟨_, documents_document _, hacc, noMark_positive, rfl⟩

end Etp.TypeScript
