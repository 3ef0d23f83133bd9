import Etp.TypeScript.Checks

/-!
# What the record validators accept

Each `validate…` of the TypeScript verifier, on the JavaScript value of a JSON
value: it accepts the objects that write a valid record, member for member and in
any order (`Writes`), provided that no trimmed text of the record begins or ends
with U+FEFF, and returns the fields of the record in the order of the source.

A reconciliation record is not compared with its own sequence number here; the
loop of `verifyTransaction` does that by the index.
-/

namespace Etp.TypeScript

open JsString Etp.Core

/-! ## Members of an object -/

/-- The value of a member, or `null`. -/
def look (ms : List (String × Json)) (name : String) : Json := (ms.lookup name).getD .null

section Members

variable {ms fields : List (String × Json)} {name : String}

theorem look_of_lookup {v : Json} (h : ms.lookup name = some v) : look ms name = v := by
  rw [look, h, Option.getD_some]

theorem isSome_lookup : (ms.lookup name).isSome ↔ name ∈ ms.map Prod.fst := by
  simp [List.lookup_isSome_iff]

theorem lookup_eq_look (h : name ∈ ms.map Prod.fst) : ms.lookup name = some (look ms name) := by
  obtain ⟨v, hv⟩ := Option.isSome_iff_exists.mp (isSome_lookup.mpr h)
  rw [look, hv, Option.getD_some]

theorem lookup_ofJsonMembers (ms : List (String × Json)) (name : String) :
    (ofJsonMembers ms).lookup (js name) = (ms.lookup name).map ofJson := by
  induction ms with
  | nil => rfl
  | cons e ms ih =>
      obtain ⟨k, v⟩ := e
      rw [ofJsonMembers, List.lookup_cons, List.lookup_cons, ih]
      by_cases h : name = k
      · rw [h, js]
        simp
      · have hne : js name ≠ utf16 k.toList := fun heq ↦ h (units_injective heq)
        rw [beq_eq_false_iff_ne.mpr h, beq_eq_false_iff_ne.mpr hne]

theorem field_ofJsonMembers (ms : List (String × Json)) (name : String) :
    field (ofJsonMembers ms) name = ofJson (look ms name) := by
  rw [field, look, lookup_ofJsonMembers]
  cases ms.lookup name <;> rfl

theorem hasOwn_ofJsonMembers : hasOwn (ofJsonMembers ms) name = true ↔ name ∈ ms.map Prod.fst := by
  rw [hasOwn, lookup_ofJsonMembers, Option.isSome_map, isSome_lookup]

theorem rejectFirst_eq_ok {α : Type} {items : List α} {p : α → Bool} {error : α → Thrown}
    {u : Unit} : rejectFirst items p error = .ok u ↔ ∀ a ∈ items, p a = false := by
  unfold rejectFirst
  cases h : items.find? p with
  | none => simpa using h
  | some a =>
      refine iff_of_false (by rintro ⟨⟩) fun hall ↦ ?_
      have := List.find?_some h
      rw [hall a (List.mem_of_find?_eq_some h)] at this
      cases this

theorem rejectMissing_eq_ok {path : JsString} {names : List String} {message : String} {u : Unit} :
    rejectMissing (ofJsonMembers ms) path names message = .ok u ↔
      ∀ name ∈ names, name ∈ ms.map Prod.fst := by
  rw [rejectMissing, rejectFirst_eq_ok]
  refine forall_congr' fun name ↦ forall_congr' fun _ ↦ ?_
  rw [Bool.not_eq_false', hasOwn_ofJsonMembers]

theorem rejectUnknown_eq_ok {path : JsString} {names : List String} {message : String} {u : Unit} :
    rejectUnknown (ofJsonMembers ms) path names message = .ok u ↔
      ∀ name ∈ ms.map Prod.fst, name ∈ names := by
  have hkeys : ∀ name : String, js name ∈ names.map js ↔ name ∈ names := fun name ↦
    List.mem_map_of_injective units_injective
  rw [rejectUnknown, rejectFirst_eq_ok]
  simp only [(ownKeys_perm _).mem_iff, ofJsonMembers_eq_map, KeyMap.mapVal, List.map_map,
    List.forall_mem_map, Bool.not_eq_false', List.contains_iff_mem]
  exact forall_congr' fun e ↦ forall_congr' fun _ ↦ hkeys e.1

theorem objectAt_eq_ok {v : Json} (hv : v.Distinct) {path : JsString} {record : Record} :
    objectAt (ofJson v) path = .ok record ↔
      Encodable v ∧ ∃ ms, v = .obj ms ∧ record = ofJsonMembers ms := by
  cases v with
  | obj ms =>
      show (assertCanonical (ofJson (.obj ms)) >>= fun _ ↦ Except.ok (ofJsonMembers ms)) =
        .ok record ↔ _
      simp only [assertCanonical, bind_eq_ok, mapError_eq_ok, canonicalJson_ofJson hv,
        Except.ok.injEq, Json.obj.injEq, exists_eq_left']
      constructor
      · rintro ⟨_, ⟨henc, -⟩, rfl⟩
        exact ⟨henc, rfl⟩
      · rintro ⟨henc, rfl⟩
        exact ⟨_, ⟨henc, rfl⟩, rfl⟩
  | _ =>
      refine iff_of_false (by rintro ⟨⟩) ?_
      rintro ⟨-, ms, hms, -⟩
      exact absurd hms (by rintro ⟨⟩)

theorem exactFields_eq_ok {v : Json} (hv : v.Distinct) {path : JsString} {names : List String}
    (hnames : names.Nodup) {record : Record} :
    exactFields (ofJson v) path names = .ok record ↔
      Encodable v ∧ ∃ ms, v = .obj ms ∧ (ms.map Prod.fst).Perm names ∧
        record = ofJsonMembers ms := by
  simp only [exactFields, bind_eq_ok, objectAt_eq_ok hv]
  constructor
  · rintro ⟨_, ⟨henc, ms, rfl, rfl⟩, ⟨⟩, hmissing, ⟨⟩, hunknown, ⟨⟩⟩
    cases hv with
    | obj hkeys _ =>
        refine ⟨henc, ms, rfl, (List.perm_ext_iff_of_nodup hkeys hnames).mpr fun name ↦ ?_, rfl⟩
        exact ⟨rejectUnknown_eq_ok.mp hunknown name, rejectMissing_eq_ok.mp hmissing name⟩
  · rintro ⟨henc, ms, rfl, hperm, rfl⟩
    exact ⟨_, ⟨henc, ms, rfl, rfl⟩, (), rejectMissing_eq_ok.mpr fun _ ↦ hperm.mem_iff.mpr, (),
      rejectUnknown_eq_ok.mpr fun _ ↦ hperm.mem_iff.mp, rfl⟩

/-! ## Reading a table of fields -/

/-- The check passes on a value under a condition, and returns it. -/
def Passes (check : Check) (v : Json) (P : Prop) : Prop :=
  ∀ path w, check (ofJson v) path = .ok w ↔ w = ofJson v ∧ P

theorem Accepts.passes {α : Type*} {check : Check} {write : α → Json} {InRange : α → Prop}
    (h : Accepts check write InRange) (v : Json) :
    Passes check v (∃ a, InRange a ∧ v = write a) := h v

theorem passes_already (v : Json) : Passes (already (ofJson v)) v True := by
  intro path w
  rw [already, Except.ok.injEq, eq_comm, and_true]

/-- The checks of a table pass on the members of their names. -/
theorem readFields_eq_ok {path : JsString} {table : List (String × Check)} {Ps : List Prop}
    (h : List.Forall₂ (fun e P ↦ Passes e.2 (look ms e.1) P) table Ps) {result : Record} :
    readFields (ofJsonMembers ms) path table = .ok result ↔
      (∀ P ∈ Ps, P) ∧ result = ofJsonMembers (table.map fun e ↦ (e.1, look ms e.1)) := by
  induction h generalizing result with
  | nil =>
      rw [readFields, Except.ok.injEq, eq_comm]
      exact ⟨fun h ↦ ⟨by rintro _ ⟨⟩, h⟩, fun h ↦ h.2⟩
  | @cons e P table Ps hpass _ ih =>
      obtain ⟨name, check⟩ := e
      have hcheck : ∀ path w, check (ofJson (look ms name)) path = .ok w ↔
          w = ofJson (look ms name) ∧ P := hpass
      simp only [readFields, bind_eq_ok, field_ofJsonMembers, hcheck, ih, Except.ok.injEq,
        List.map_cons, ofJsonMembers, List.forall_mem_cons]
      constructor
      · rintro ⟨_, ⟨rfl, hP⟩, _, ⟨hPs, rfl⟩, rfl⟩
        exact ⟨⟨hP, hPs⟩, rfl⟩
      · rintro ⟨⟨hP, hPs⟩, rfl⟩
        exact ⟨_, ⟨rfl, hP⟩, _, ⟨hPs, rfl⟩, rfl⟩

/-- The members hold what the fields do. -/
def Holds (ms fields : List (String × Json)) : Prop := ∀ e ∈ fields, look ms e.1 = e.2

theorem map_look {table : List (String × Check)} (hnames : table.map Prod.fst = fields.map Prod.fst)
    (h : Holds ms fields) : (table.map fun e ↦ (e.1, look ms e.1)) = fields := by
  have hcomp : (table.map fun e ↦ (e.1, look ms e.1)) =
      (fields.map Prod.fst).map fun name ↦ (name, look ms name) := by
    rw [← hnames, List.map_map]
    rfl
  rw [hcomp, List.map_map]
  refine (List.map_congr_left fun e he ↦ ?_).trans (List.map_id fields)
  exact Prod.ext rfl (h e he)

theorem holds_of_perm (hkeys : (fields.map Prod.fst).Nodup) (hperm : ms.Perm fields) :
    Holds ms fields := by
  intro e he
  have hms : (ms.map Prod.fst).Nodup := ((hperm.map Prod.fst).nodup_iff).mpr hkeys
  rw [look, (KeyMap.lookup_eq_some_iff hms).mpr (hperm.mem_iff.mpr he)]
  rfl

theorem perm_of_holds (hkeys : (fields.map Prod.fst).Nodup)
    (hperm : (ms.map Prod.fst).Perm (fields.map Prod.fst)) (h : Holds ms fields) :
    ms.Perm fields := by
  have hms : (ms.map Prod.fst).Nodup := hperm.nodup_iff.mpr hkeys
  have hlookup : ∀ e ∈ ms, look ms e.1 = e.2 := fun e he ↦ by
    rw [look, (KeyMap.lookup_eq_some_iff hms).mpr he]
    rfl
  refine (List.perm_ext_iff_of_nodup hms.of_map hkeys.of_map).mpr fun e ↦ ⟨fun he ↦ ?_, fun he ↦ ?_⟩
  · obtain ⟨f, hf, hfst⟩ := List.mem_map.mp (hperm.mem_iff.mp (List.mem_map_of_mem he))
    have heq : f = e := Prod.ext hfst ((h f hf).symm.trans (hfst ▸ hlookup e he))
    exact heq ▸ hf
  · obtain ⟨f, hf, hfst⟩ := List.mem_map.mp (hperm.mem_iff.mpr (List.mem_map_of_mem he))
    have heq : f = e := Prod.ext hfst ((hlookup f hf).symm.trans (hfst ▸ h e he))
    exact heq ▸ hf

/-! ### Reading the fields of a result -/

theorem numberAt_eq {n : Nat} (h : look ms name = writeNat n) (hn : n ≤ maxSafeInteger) :
    numberAt (ofJsonMembers ms) name = n := by
  have hfield : field (ofJsonMembers ms) name = .number (.ofInt n) := by
    rw [field_ofJsonMembers, h]
    rfl
  rw [numberAt, hfield]
  exact toInt_ofInt hn

theorem stringAt_eq {s : String} (h : look ms name = .str s) :
    stringAt (ofJsonMembers ms) name = units s := by
  have hfield : field (ofJsonMembers ms) name = .string (units s) := by
    rw [field_ofJsonMembers, h]
    rfl
  rw [stringAt, hfield]

theorem ordered_eq_ok {a b : Nat} {path : JsString} {u : Unit} :
    ordered a b path = .ok u ↔ a < b := by
  rw [ordered, rejectIf_eq_ok, not_le, Nat.cast_lt]

end Members

/-! ## Records in documents -/

/-- The object writes the record, its members in any order. -/
def Writes {α : Type} [Serialize α] (r : α) (v : Json) : Prop :=
  ∃ ms, v = .obj ms ∧ ms.Perm (Serialize.fields r)

/-- The texts of a record that `validate_trimmed_text` checks. -/
class Texts (α : Type) where
  texts : α → List String

/-- No trimmed text of the record begins or ends with U+FEFF. -/
def NoMark {α : Type} [Texts α] (r : α) : Prop := ∀ s ∈ Texts.texts r, Unmarked s

instance : Texts TaskCommitment where
  texts r := [r.commitmentId, r.principal]

instance : Texts EffectProposal where
  texts r := [r.proposalId, r.effectProfile, r.target]

instance : Texts AuthorizationDecision where
  texts r := [r.decisionId]

instance : Texts ExecutionGrant where
  texts r := [r.grantId, r.audience]

instance : Texts EffectReceipt where
  texts r := [r.receiptId, r.attemptId]

instance : Texts ReconciliationRecord where
  texts r := [r.reconciliationId]

theorem scalarText_iff_unmarked {s : String} {maximum : Nat} :
    ScalarText s maximum ↔ TrimmedText s maximum ∧ Unmarked s :=
  ⟨fun h ↦ ⟨h.toTrimmedText, h.unmarked⟩, fun h ↦ ⟨h.1, h.2⟩⟩

section Table

variable {α : Type} [ProtocolRecord α] [Deserialize α] [LawfulRecord α]

/-- A table under the names of a record reads the fields of the records that pass. -/
theorem readFields_record {ms : List (String × Json)} {path : JsString}
    {table : List (String × Check)} {Ps : List Prop} {Checked : α → Prop}
    (hpass : List.Forall₂ (fun e P ↦ Passes e.2 (look ms e.1) P) table Ps)
    (hnames : table.map Prod.fst = Deserialize.names α)
    (hPs : (∀ P ∈ Ps, P) ↔ ∃ r : α, Holds ms (Serialize.fields r) ∧ Checked r)
    {result : Record} :
    readFields (ofJsonMembers ms) path table = .ok result ↔
      ∃ r : α, Holds ms (Serialize.fields r) ∧ Checked r ∧
        result = ofJsonMembers (Serialize.fields r) := by
  rw [readFields_eq_ok hpass, hPs]
  constructor
  · rintro ⟨⟨r, hholds, hchecked⟩, rfl⟩
    rw [map_look (hnames.trans (LawfulRecord.names_eq r).symm) hholds]
    exact ⟨r, hholds, hchecked, rfl⟩
  · rintro ⟨r, hholds, hchecked, rfl⟩
    refine ⟨⟨r, hholds, hchecked⟩, ?_⟩
    rw [map_look (hnames.trans (LawfulRecord.names_eq r).symm) hholds]

theorem writes_of_holds {ms : List (String × Json)} {r : α}
    (hperm : (ms.map Prod.fst).Perm (Deserialize.names α)) (h : Holds ms (Serialize.fields r)) :
    Writes r (.obj ms) :=
  ⟨ms, rfl, perm_of_holds (fields_nodup r) (by rwa [LawfulRecord.names_eq r]) h⟩

theorem Writes.holds {r : α} {v : Json} (h : Writes r v) :
    ∃ ms, v = .obj ms ∧ (ms.map Prod.fst).Perm (Deserialize.names α) ∧
      Holds ms (Serialize.fields r) := by
  obtain ⟨ms, rfl, hperm⟩ := h
  refine ⟨ms, rfl, ?_, holds_of_perm (fields_nodup r) hperm⟩
  rw [← LawfulRecord.names_eq r]
  exact hperm.map Prod.fst

/-- A validator that takes the fields of an object and goes on with them. -/
theorem exactFields_record {v : Json} (hv : v.Distinct) {path : JsString}
    {read : Record → Except Thrown Record} {Valid : α → Prop} {result : Record}
    (hread : ∀ ms, read (ofJsonMembers ms) = .ok result ↔ ∃ r : α,
      Holds ms (Serialize.fields r) ∧ Valid r ∧ result = ofJsonMembers (Serialize.fields r)) :
    (exactFields (ofJson v) path (Deserialize.names α) >>= read) = .ok result ↔
      Encodable v ∧ ∃ r : α, Writes r v ∧ Valid r ∧
        result = ofJsonMembers (Serialize.fields r) := by
  simp only [bind_eq_ok, exactFields_eq_ok hv LawfulRecord.names_nodup]
  constructor
  · rintro ⟨_, ⟨henc, ms, rfl, hperm, rfl⟩, h⟩
    obtain ⟨r, hholds, hvalid, rfl⟩ := (hread ms).mp h
    exact ⟨henc, r, writes_of_holds hperm hholds, hvalid, rfl⟩
  · rintro ⟨henc, r, hr, hvalid, rfl⟩
    obtain ⟨ms, rfl, hperm, hholds⟩ := hr.holds
    exact ⟨_, ⟨henc, ms, rfl, hperm, rfl⟩, (hread ms).mpr ⟨r, hholds, hvalid, rfl⟩⟩

end Table

/-! ## Task commitments -/

section TaskCommitment

variable {ms : List (String × Json)} {path : JsString} {result : Record}

/-- What the table checks. -/
def TaskCommitmentChecked (r : TaskCommitment) : Prop :=
  r.version = profileVersion ∧ ScalarText r.commitmentId 256 ∧ ScalarText r.principal 512 ∧
    r.policyEpoch ≤ maxSafeInteger ∧ r.configurationEpoch ≤ maxSafeInteger ∧
    r.createdAtMs ≤ maxSafeInteger ∧ r.expiresAtMs ≤ maxSafeInteger

theorem taskCommitmentChecks_eq_ok :
    readFields (ofJsonMembers ms) path taskCommitmentChecks = .ok result ↔
      ∃ r : TaskCommitment, Holds ms (Serialize.fields r) ∧ TaskCommitmentChecked r ∧
        result = ofJsonMembers (Serialize.fields r) := by
  refine readFields_record
    (.cons (accepts_literalOne.passes _) <| .cons (accepts_identifier.passes _) <|
      .cons ((accepts_text 512).passes _) <| .cons (accepts_digest.passes _) <|
      .cons (accepts_digest.passes _) <| .cons (accepts_digest.passes _) <|
      .cons ((accepts_integer 0).passes _) <| .cons ((accepts_integer 0).passes _) <|
      .cons (accepts_timestamp.passes _) <| .cons (accepts_timestamp.passes _) .nil) rfl ?_
  simp only [List.forall_mem_cons, List.not_mem_nil, false_imp_iff, implies_true, and_true, Holds,
    Serialize.fields, Nat.zero_le, true_and, TaskCommitmentChecked]
  constructor
  · rintro ⟨⟨n₁, h₁, e₁⟩, ⟨s₂, h₂, e₂⟩, ⟨s₃, h₃, e₃⟩, ⟨d₄, e₄⟩, ⟨d₅, e₅⟩, ⟨d₆, e₆⟩, ⟨n₇, h₇, e₇⟩,
      ⟨n₈, h₈, e₈⟩, ⟨n₉, h₉, e₉⟩, n₁₀, h₁₀, e₁₀⟩
    exact ⟨⟨n₁, s₂, s₃, d₄, d₅, d₆, n₇, n₈, n₉, n₁₀⟩,
      ⟨e₁, e₂, e₃, e₄, e₅, e₆, e₇, e₈, e₉, e₁₀⟩, h₁, h₂, h₃, h₇, h₈, h₉, h₁₀⟩
  · rintro ⟨r, ⟨e₁, e₂, e₃, e₄, e₅, e₆, e₇, e₈, e₉, e₁₀⟩, h₁, h₂, h₃, h₇, h₈, h₉, h₁₀⟩
    exact ⟨⟨_, h₁, e₁⟩, ⟨_, h₂, e₂⟩, ⟨_, h₃, e₃⟩, ⟨_, e₄⟩, ⟨_, e₅⟩, ⟨_, e₆⟩, ⟨_, h₇, e₇⟩,
      ⟨_, h₈, e₈⟩, ⟨_, h₉, e₉⟩, _, h₁₀, e₁₀⟩

theorem validateTaskCommitment_eq_ok {v : Json} (hv : v.Distinct) :
    validateTaskCommitment (ofJson v) = .ok result ↔
      Encodable v ∧ ∃ r : TaskCommitment, Writes r v ∧ (validate r = .ok () ∧ NoMark r) ∧
        result = ofJsonMembers (Serialize.fields r) := by
  refine exactFields_record (α := TaskCommitment) hv fun ms ↦ ?_
  simp only [bind_eq_ok, taskCommitmentChecks_eq_ok, Except.ok.injEq]
  constructor
  · rintro ⟨_, ⟨r, hholds, ⟨h₁, h₂, h₃, h₄, h₅, h₆, h₇⟩, rfl⟩, ⟨⟩, hordered, rfl⟩
    rw [numberAt_eq rfl h₆, numberAt_eq rfl h₇, ordered_eq_ok] at hordered
    refine ⟨r, hholds, ⟨TaskCommitment.validate_eq_ok.mpr
      ⟨h₁, h₂.toTrimmedText, h₃.toTrimmedText, h₄, h₅, hordered, h₇⟩, ?_⟩, rfl⟩
    exact List.forall_mem_cons.mpr ⟨h₂.unmarked, List.forall_mem_singleton.mpr h₃.unmarked⟩
  · rintro ⟨r, hholds, ⟨hvalid, hmark⟩, rfl⟩
    obtain ⟨h₁, h₂, h₃, h₄, h₅, h₆, h₇⟩ := TaskCommitment.validate_eq_ok.mp hvalid
    obtain ⟨hm₂, hm₃⟩ := List.forall_mem_cons.mp hmark
    replace hm₃ := List.forall_mem_singleton.mp hm₃
    refine ⟨_, ⟨r, hholds, ⟨h₁, ⟨h₂, hm₂⟩, ⟨h₃, hm₃⟩, h₄, h₅, h₆.le.trans h₇, h₇⟩, rfl⟩,
      (), ?_, rfl⟩
    rw [numberAt_eq rfl (h₆.le.trans h₇), numberAt_eq rfl h₇, ordered_eq_ok]
    exact h₆

end TaskCommitment

/-! ## Effect proposals -/

section EffectProposal

variable {ms : List (String × Json)} {path : JsString} {result : Record}

/-- What the table checks. -/
def EffectProposalChecked (r : EffectProposal) : Prop :=
  r.version = profileVersion ∧ ScalarText r.proposalId 256 ∧ ScalarText r.effectProfile 256 ∧
    TokenText r.operation ∧ ScalarText r.target 4096 ∧ r.createdAtMs ≤ maxSafeInteger ∧
    r.expiresAtMs ≤ maxSafeInteger

theorem effectProposalChecks_eq_ok :
    readFields (ofJsonMembers ms) path effectProposalChecks = .ok result ↔
      ∃ r : EffectProposal, Holds ms (Serialize.fields r) ∧ EffectProposalChecked r ∧
        result = ofJsonMembers (Serialize.fields r) := by
  refine readFields_record
    (.cons (accepts_literalOne.passes _) <| .cons (accepts_identifier.passes _) <|
      .cons (accepts_digest.passes _) <| .cons ((accepts_text 256).passes _) <|
      .cons ((accepts_tokenText _ _).passes _) <| .cons ((accepts_nonemptyText 4096).passes _) <|
      .cons (accepts_digest.passes _) <| .cons (accepts_digest.passes _) <|
      .cons (accepts_digest.passes _) <| .cons (accepts_digest.passes _) <|
      .cons (accepts_timestamp.passes _) <| .cons (accepts_timestamp.passes _) .nil) rfl ?_
  simp only [List.forall_mem_cons, List.not_mem_nil, false_imp_iff, implies_true, and_true, Holds,
    Serialize.fields, true_and, EffectProposalChecked]
  constructor
  · rintro ⟨⟨n₁, h₁, e₁⟩, ⟨s₂, h₂, e₂⟩, ⟨d₃, e₃⟩, ⟨s₄, h₄, e₄⟩, ⟨s₅, h₅, e₅⟩, ⟨s₆, h₆, e₆⟩,
      ⟨d₇, e₇⟩, ⟨d₈, e₈⟩, ⟨d₉, e₉⟩, ⟨d₁₀, e₁₀⟩, ⟨n₁₁, h₁₁, e₁₁⟩, n₁₂, h₁₂, e₁₂⟩
    exact ⟨⟨n₁, s₂, d₃, s₄, s₅, s₆, d₇, d₈, d₉, d₁₀, n₁₁, n₁₂⟩,
      ⟨e₁, e₂, e₃, e₄, e₅, e₆, e₇, e₈, e₉, e₁₀, e₁₁, e₁₂⟩, h₁, h₂, h₄, h₅, h₆, h₁₁, h₁₂⟩
  · rintro ⟨r, ⟨e₁, e₂, e₃, e₄, e₅, e₆, e₇, e₈, e₉, e₁₀, e₁₁, e₁₂⟩, h₁, h₂, h₄, h₅, h₆, h₁₁, h₁₂⟩
    exact ⟨⟨_, h₁, e₁⟩, ⟨_, h₂, e₂⟩, ⟨_, e₃⟩, ⟨_, h₄, e₄⟩, ⟨_, h₅, e₅⟩, ⟨_, h₆, e₆⟩, ⟨_, e₇⟩,
      ⟨_, e₈⟩, ⟨_, e₉⟩, ⟨_, e₁₀⟩, ⟨_, h₁₁, e₁₁⟩, _, h₁₂, e₁₂⟩

theorem validateEffectProposal_eq_ok {v : Json} (hv : v.Distinct) :
    validateEffectProposal (ofJson v) = .ok result ↔
      Encodable v ∧ ∃ r : EffectProposal, Writes r v ∧ (validate r = .ok () ∧ NoMark r) ∧
        result = ofJsonMembers (Serialize.fields r) := by
  refine exactFields_record (α := EffectProposal) hv fun ms ↦ ?_
  simp only [bind_eq_ok, effectProposalChecks_eq_ok, Except.ok.injEq]
  constructor
  · rintro ⟨_, ⟨r, hholds, ⟨h₁, h₂, h₃, h₄, h₅, h₆, h₇⟩, rfl⟩, ⟨⟩, hordered, rfl⟩
    rw [numberAt_eq rfl h₆, numberAt_eq rfl h₇, ordered_eq_ok] at hordered
    refine ⟨r, hholds, ⟨EffectProposal.validate_eq_ok.mpr
      ⟨h₁, h₂.toTrimmedText, h₃.toTrimmedText, h₄, h₅.toTrimmedText, hordered, h₇⟩, ?_⟩, rfl⟩
    exact List.forall_mem_cons.mpr ⟨h₂.unmarked,
      List.forall_mem_cons.mpr ⟨h₃.unmarked, List.forall_mem_singleton.mpr h₅.unmarked⟩⟩
  · rintro ⟨r, hholds, ⟨hvalid, hmark⟩, rfl⟩
    obtain ⟨h₁, h₂, h₃, h₄, h₅, h₆, h₇⟩ := EffectProposal.validate_eq_ok.mp hvalid
    obtain ⟨hm₂, hmark⟩ := List.forall_mem_cons.mp hmark
    obtain ⟨hm₃, hm₅⟩ := List.forall_mem_cons.mp hmark
    replace hm₅ := List.forall_mem_singleton.mp hm₅
    refine ⟨_, ⟨r, hholds, ⟨h₁, ⟨h₂, hm₂⟩, ⟨h₃, hm₃⟩, h₄, ⟨h₅, hm₅⟩, h₆.le.trans h₇, h₇⟩, rfl⟩,
      (), ?_, rfl⟩
    rw [numberAt_eq rfl (h₆.le.trans h₇), numberAt_eq rfl h₇, ordered_eq_ok]
    exact h₆

end EffectProposal

/-! ## Authorization decisions -/

section AuthorizationDecision

variable {ms : List (String × Json)} {path : JsString} {result : Record}

/-- What the table checks, after the arrays and the outcome. -/
def AuthorizationDecisionChecked (r : AuthorizationDecision) : Prop :=
  r.version = profileVersion ∧ ScalarText r.decisionId 256 ∧ r.decidedAtMs ≤ maxSafeInteger ∧
    r.expiresAtMs ≤ maxSafeInteger

theorem authorizationDecisionChecks_eq_ok {ds : List Digest32} {o : DecisionOutcome}
    {ss : List String} (hds : look ms "evidence_hashes" = .arr (ds.map writeDigest))
    (ho : look ms "outcome" = .str o.name) (hss : look ms "reason_codes" = .arr (ss.map .str)) :
    readFields (ofJsonMembers ms) path (authorizationDecisionChecks
        (ofJson (look ms "evidence_hashes")) (ofJson (look ms "outcome"))
        (ofJson (look ms "reason_codes"))) = .ok result ↔
      ∃ r : AuthorizationDecision, Holds ms (Serialize.fields r) ∧
        ((r.evidenceHashes = ds ∧ r.outcome = o ∧ r.reasonCodes = ss) ∧
          AuthorizationDecisionChecked r) ∧
        result = ofJsonMembers (Serialize.fields r) := by
  refine readFields_record
    (.cons (accepts_literalOne.passes _) <| .cons (accepts_identifier.passes _) <|
      .cons (accepts_digest.passes _) <| .cons (passes_already _) <| .cons (passes_already _) <|
      .cons (passes_already _) <| .cons (accepts_timestamp.passes _) <|
      .cons (accepts_timestamp.passes _) .nil) rfl ?_
  simp only [List.forall_mem_cons, List.not_mem_nil, false_imp_iff, implies_true, and_true, Holds,
    Serialize.fields, true_and, AuthorizationDecisionChecked]
  constructor
  · rintro ⟨⟨n₁, h₁, e₁⟩, ⟨s₂, h₂, e₂⟩, ⟨d₃, e₃⟩, ⟨n₇, h₇, e₇⟩, n₈, h₈, e₈⟩
    exact ⟨⟨n₁, s₂, d₃, ds, o, ss, n₇, n₈⟩, ⟨e₁, e₂, e₃, hds, ho, hss, e₇, e₈⟩,
      ⟨rfl, rfl, rfl⟩, h₁, h₂, h₇, h₈⟩
  · rintro ⟨r, ⟨e₁, e₂, e₃, -, -, -, e₇, e₈⟩, -, h₁, h₂, h₇, h₈⟩
    exact ⟨⟨_, h₁, e₁⟩, ⟨_, h₂, e₂⟩, ⟨_, e₃⟩, ⟨_, h₇, e₇⟩, _, h₈, e₈⟩

theorem stringItems_map {α : Type*} {write : α → Json} {label : α → String}
    (h : ∀ a, write a = .str (label a)) (l : List α) :
    stringItems ((l.map write).map ofJson) = (l.map label).map units := by
  induction l with
  | nil => rfl
  | cons a l ih =>
      rw [List.map_cons, List.map_cons, h a, List.map_cons, List.map_cons, ← ih]
      rfl

theorem accepts_reasonCode : Accepts reasonCode .str TokenText := accepts_tokenText _ _

theorem accepts_decisionOutcome : Accepts (enumValue ["allow", "deny", "review"])
    (fun o : DecisionOutcome ↦ .str o.name) fun _ ↦ True := by
  refine accepts_enumValue fun s ↦ ?_
  constructor
  · intro h
    simp only [List.mem_cons, List.not_mem_nil, or_false] at h
    rcases h with rfl | rfl | rfl
    · exact ⟨.allow, rfl⟩
    · exact ⟨.deny, rfl⟩
    · exact ⟨.review, rfl⟩
  · rintro ⟨o, rfl⟩
    cases o <;> decide

theorem strictlyEqual_string {s t : String} :
    strictlyEqual (ofJson (.str s)) (.string (js t)) = true ↔ s = t := by
  show decide (units s = units t) = true ↔ _
  rw [decide_eq_true_iff, units_injective.eq_iff]

theorem name_eq_allow {o : DecisionOutcome} : o.name = "allow" ↔ o = .allow := by
  cases o <;> decide

theorem array_eq_ofJson (vs : List Json) : JsValue.array (vs.map ofJson) = ofJson (.arr vs) := by
  rw [ofJson, ofJsonValues_eq_map]

theorem validateAuthorizationDecision_eq_ok {v : Json} (hv : v.Distinct) :
    validateAuthorizationDecision (ofJson v) = .ok result ↔
      Encodable v ∧ ∃ r : AuthorizationDecision, Writes r v ∧ (validate r = .ok () ∧ NoMark r) ∧
        result = ofJsonMembers (Serialize.fields r) := by
  refine exactFields_record (α := AuthorizationDecision) hv fun ms ↦ ?_
  simp only [bind_eq_ok, field_ofJsonMembers, digestArray, accepts_digest.arrayOf,
    accepts_reasonCode.arrayOf, rejectIf_eq_ok, Except.ok.injEq]
  have hevidence : ∀ ds : List Digest32,
      stringItems ((ds.map writeDigest).map ofJson) = (ds.map Digest32.asStr).map units :=
    stringItems_map fun _ ↦ rfl
  have hreasons : ∀ ss : List String,
      stringItems ((ss.map Json.str).map ofJson) = (ss.map id).map units :=
        stringItems_map fun _ ↦ rfl
  simp only [List.map_id] at hreasons
  constructor
  · rintro ⟨_, ⟨ds, ⟨hlen, -⟩, hds, rfl⟩, _, ⟨ss, ⟨hslen, htokens⟩, hss, rfl⟩, ⟨⟩, hsorted, ⟨⟩,
      hsorted', ⟨⟩, hne, outcome, houtcome, ⟨⟩, hallow, fields, hread, ⟨⟩, hordered, rfl⟩
    obtain ⟨rfl, o, -, ho⟩ := (accepts_decisionOutcome _ _ _).mp houtcome
    rw [hevidence, sortedUnique_eq_ok, strictlyIncreasing_eq_true] at hsorted
    rw [hreasons, sortedUnique_eq_ok, strictlyIncreasing_eq_true] at hsorted'
    rw [array_eq_ofJson, array_eq_ofJson, ← hds, ← hss] at hread
    obtain ⟨r, hholds, ⟨⟨rfl, rfl, rfl⟩, h₁, h₂, h₃, h₄⟩, rfl⟩ :=
      (authorizationDecisionChecks_eq_ok hds ho hss).mp hread
    rw [numberAt_eq rfl h₃, numberAt_eq rfl h₄, ordered_eq_ok] at hordered
    rw [ho, strictlyEqual_string, name_eq_allow, List.length_map, List.length_map,
      List.length_eq_zero_iff, not_and] at hallow
    rw [List.length_map, List.length_map, List.length_eq_zero_iff] at hne
    refine ⟨r, hholds, ⟨AuthorizationDecision.validate_eq_ok.mpr ⟨h₁, h₂.toTrimmedText,
      ⟨hlen, hsorted⟩, ⟨hslen, htokens, hsorted'⟩, hne, ⟨hordered, h₄⟩, hallow⟩, ?_⟩, rfl⟩
    exact List.forall_mem_singleton.mpr h₂.unmarked
  · rintro ⟨r, hholds, ⟨hvalid, hmark⟩, rfl⟩
    obtain ⟨h₁, h₂, ⟨hlen, hsorted⟩, ⟨hslen, htokens, hsorted'⟩, hne, ⟨h₃, h₄⟩, hallow⟩ :=
      AuthorizationDecision.validate_eq_ok.mp hvalid
    have hmark := List.forall_mem_singleton.mp hmark
    have hds : look ms "evidence_hashes" = .arr (r.evidenceHashes.map writeDigest) :=
      hholds ("evidence_hashes", _) (by simp [Serialize.fields])
    have hss : look ms "reason_codes" = .arr (r.reasonCodes.map .str) :=
      hholds ("reason_codes", _) (by simp [Serialize.fields])
    have ho : look ms "outcome" = .str r.outcome.name :=
      hholds ("outcome", _) (by simp [Serialize.fields])
    refine ⟨_, ⟨r.evidenceHashes, ⟨hlen, fun _ _ ↦ trivial⟩, hds, rfl⟩, _,
      ⟨r.reasonCodes, ⟨hslen, htokens⟩, hss, rfl⟩, (), ?_, (), ?_, (), ?_, _,
      (accepts_decisionOutcome _ _ _).mpr ⟨rfl, _, trivial, ho⟩, (), ?_, _, ?_, (), ?_, rfl⟩
    · rw [hevidence, sortedUnique_eq_ok, strictlyIncreasing_eq_true]
      exact hsorted
    · rw [hreasons, sortedUnique_eq_ok, strictlyIncreasing_eq_true]
      exact hsorted'
    · rwa [List.length_map, List.length_map, List.length_eq_zero_iff]
    · rw [ho, strictlyEqual_string, name_eq_allow, List.length_map, List.length_map,
        List.length_eq_zero_iff, not_and]
      exact hallow
    · rw [array_eq_ofJson, array_eq_ofJson, ← hds, ← hss]
      exact (authorizationDecisionChecks_eq_ok hds ho hss).mpr
        ⟨r, hholds, ⟨⟨rfl, rfl, rfl⟩, h₁, ⟨h₂, hmark⟩, h₃.le.trans h₄, h₄⟩, rfl⟩
    · rw [numberAt_eq rfl (h₃.le.trans h₄), numberAt_eq rfl h₄, ordered_eq_ok]
      exact h₃

end AuthorizationDecision

/-! ## Execution grants -/

section ExecutionGrant

variable {ms : List (String × Json)} {path : JsString} {result : Record}

/-- What the table checks. -/
def ExecutionGrantChecked (r : ExecutionGrant) : Prop :=
  r.version = profileVersion ∧ ScalarText r.grantId 256 ∧ ScalarText r.audience 512 ∧
    r.notBeforeMs ≤ maxSafeInteger ∧ r.expiresAtMs ≤ maxSafeInteger ∧ r.uses = 1 ∧
    NonceText r.nonce

theorem executionGrantChecks_eq_ok :
    readFields (ofJsonMembers ms) path executionGrantChecks = .ok result ↔
      ∃ r : ExecutionGrant, Holds ms (Serialize.fields r) ∧ ExecutionGrantChecked r ∧
        result = ofJsonMembers (Serialize.fields r) := by
  refine readFields_record
    (.cons (accepts_literalOne.passes _) <| .cons (accepts_identifier.passes _) <|
      .cons (accepts_digest.passes _) <| .cons (accepts_digest.passes _) <|
      .cons ((accepts_text 512).passes _) <| .cons (accepts_timestamp.passes _) <|
      .cons (accepts_timestamp.passes _) <| .cons (accepts_singleUse.passes _) <|
      .cons (accepts_nonce.passes _) .nil) rfl ?_
  simp only [List.forall_mem_cons, List.not_mem_nil, false_imp_iff, implies_true, and_true, Holds,
    Serialize.fields, true_and, ExecutionGrantChecked]
  constructor
  · rintro ⟨⟨n₁, h₁, e₁⟩, ⟨s₂, h₂, e₂⟩, ⟨d₃, e₃⟩, ⟨d₄, e₄⟩, ⟨s₅, h₅, e₅⟩, ⟨n₆, h₆, e₆⟩,
      ⟨n₇, h₇, e₇⟩, ⟨n₈, h₈, e₈⟩, s₉, h₉, e₉⟩
    exact ⟨⟨n₁, s₂, d₃, d₄, s₅, n₆, n₇, n₈, s₉⟩, ⟨e₁, e₂, e₃, e₄, e₅, e₆, e₇, e₈, e₉⟩,
      h₁, h₂, h₅, h₆, h₇, h₈, h₉⟩
  · rintro ⟨r, ⟨e₁, e₂, e₃, e₄, e₅, e₆, e₇, e₈, e₉⟩, h₁, h₂, h₅, h₆, h₇, h₈, h₉⟩
    exact ⟨⟨_, h₁, e₁⟩, ⟨_, h₂, e₂⟩, ⟨_, e₃⟩, ⟨_, e₄⟩, ⟨_, h₅, e₅⟩, ⟨_, h₆, e₆⟩, ⟨_, h₇, e₇⟩,
      ⟨_, h₈, e₈⟩, _, h₉, e₉⟩

theorem validateExecutionGrant_eq_ok {v : Json} (hv : v.Distinct) :
    validateExecutionGrant (ofJson v) = .ok result ↔
      Encodable v ∧ ∃ r : ExecutionGrant, Writes r v ∧ (validate r = .ok () ∧ NoMark r) ∧
        result = ofJsonMembers (Serialize.fields r) := by
  refine exactFields_record (α := ExecutionGrant) hv fun ms ↦ ?_
  simp only [bind_eq_ok, executionGrantChecks_eq_ok, Except.ok.injEq, rejectIf_eq_ok, not_lt,
    gt_iff_lt]
  constructor
  · rintro ⟨_, ⟨r, hholds, ⟨h₁, h₂, h₃, h₄, h₅, h₆, h₇⟩, rfl⟩, ⟨⟩, hordered, ⟨⟩, hlifetime, rfl⟩
    rw [numberAt_eq rfl h₄, numberAt_eq rfl h₅, ordered_eq_ok] at hordered
    rw [numberAt_eq rfl h₅, numberAt_eq rfl h₄] at hlifetime
    have hlimit : r.expiresAtMs ≤ r.notBeforeMs + maxGrantLifetimeMs := by
      simp only [maxGrantLifetimeMs]
      omega
    refine ⟨r, hholds, ⟨ExecutionGrant.validate_eq_ok.mpr ⟨h₁, h₂.toTrimmedText, h₃.toTrimmedText,
      h₇, h₆, ⟨hordered, h₅⟩, hlimit⟩, ?_⟩, rfl⟩
    exact List.forall_mem_cons.mpr ⟨h₂.unmarked, List.forall_mem_singleton.mpr h₃.unmarked⟩
  · rintro ⟨r, hholds, ⟨hvalid, hmark⟩, rfl⟩
    obtain ⟨h₁, h₂, h₃, h₇, h₆, ⟨h₄, h₅⟩, hlimit⟩ := ExecutionGrant.validate_eq_ok.mp hvalid
    obtain ⟨hm₂, hm₃⟩ := List.forall_mem_cons.mp hmark
    replace hm₃ := List.forall_mem_singleton.mp hm₃
    refine ⟨_, ⟨r, hholds, ⟨h₁, ⟨h₂, hm₂⟩, ⟨h₃, hm₃⟩, h₄.le.trans h₅, h₅, h₆, h₇⟩, rfl⟩, (), ?_,
      (), ?_, rfl⟩
    · rw [numberAt_eq rfl (h₄.le.trans h₅), numberAt_eq rfl h₅, ordered_eq_ok]
      exact h₄
    · rw [numberAt_eq rfl h₅, numberAt_eq rfl (h₄.le.trans h₅)]
      simp only [maxGrantLifetimeMs] at hlimit
      omega

end ExecutionGrant

/-! ## Effect receipts -/

section EffectReceipt

variable {ms : List (String × Json)} {path : JsString} {result : Record}

/-- What the table checks, after the time of dispatch. -/
def EffectReceiptChecked (r : EffectReceipt) : Prop :=
  r.version = profileVersion ∧ ScalarText r.receiptId 256 ∧ ScalarText r.attemptId 256 ∧
    r.claimedAtMs ≤ maxSafeInteger ∧ r.completedAtMs ≤ maxSafeInteger

theorem accepts_receiptOutcome :
    Accepts (enumValue ["succeeded", "failed", "not_dispatched", "unknown"])
      (fun o : ReceiptOutcome ↦ .str o.name) fun _ ↦ True := by
  refine accepts_enumValue fun s ↦ ?_
  constructor
  · intro h
    simp only [List.mem_cons, List.not_mem_nil, or_false] at h
    rcases h with rfl | rfl | rfl | rfl
    · exact ⟨.succeeded, rfl⟩
    · exact ⟨.failed, rfl⟩
    · exact ⟨.notDispatched, rfl⟩
    · exact ⟨.unknown, rfl⟩
  · rintro ⟨o, rfl⟩
    cases o <;> decide

theorem effectReceiptChecks_eq_ok {o : Option Nat}
    (ho : look ms "dispatched_at_ms" = writeOption writeNat o) :
    readFields (ofJsonMembers ms) path
        (effectReceiptChecks (ofJson (look ms "dispatched_at_ms"))) = .ok result ↔
      ∃ r : EffectReceipt, Holds ms (Serialize.fields r) ∧
        (r.dispatchedAtMs = o ∧ EffectReceiptChecked r) ∧
        result = ofJsonMembers (Serialize.fields r) := by
  refine readFields_record
    (.cons (accepts_literalOne.passes _) <| .cons (accepts_identifier.passes _) <|
      .cons (accepts_digest.passes _) <| .cons (accepts_digest.passes _) <|
      .cons (accepts_identifier.passes _) <| .cons (accepts_timestamp.passes _) <|
      .cons (passes_already _) <| .cons (accepts_timestamp.passes _) <|
      .cons (accepts_receiptOutcome.passes _) <| .cons (accepts_digest.passes _) .nil) rfl ?_
  simp only [List.forall_mem_cons, List.not_mem_nil, false_imp_iff, implies_true, and_true, Holds,
    Serialize.fields, true_and, EffectReceiptChecked]
  constructor
  · rintro ⟨⟨n₁, h₁, e₁⟩, ⟨s₂, h₂, e₂⟩, ⟨d₃, e₃⟩, ⟨d₄, e₄⟩, ⟨s₅, h₅, e₅⟩, ⟨n₆, h₆, e₆⟩,
      ⟨n₈, h₈, e₈⟩, ⟨o₉, e₉⟩, d₁₀, e₁₀⟩
    exact ⟨⟨n₁, s₂, d₃, d₄, s₅, n₆, o, n₈, o₉, d₁₀⟩,
      ⟨e₁, e₂, e₃, e₄, e₅, e₆, ho, e₈, e₉, e₁₀⟩, rfl, h₁, h₂, h₅, h₆, h₈⟩
  · rintro ⟨r, ⟨e₁, e₂, e₃, e₄, e₅, e₆, -, e₈, e₉, e₁₀⟩, -, h₁, h₂, h₅, h₆, h₈⟩
    exact ⟨⟨_, h₁, e₁⟩, ⟨_, h₂, e₂⟩, ⟨_, e₃⟩, ⟨_, e₄⟩, ⟨_, h₅, e₅⟩, ⟨_, h₆, e₆⟩, ⟨_, h₈, e₈⟩,
      ⟨_, e₉⟩, _, e₁₀⟩

variable {r : EffectReceipt}

theorem dispatched_eq_null : strictlyEqual
      (field (ofJsonMembers (Serialize.fields r)) "dispatched_at_ms") .null = true ↔
    r.dispatchedAtMs = none := by
  have hfield : field (ofJsonMembers (Serialize.fields r)) "dispatched_at_ms" =
      ofJson (writeOption writeNat r.dispatchedAtMs) := field_ofJsonMembers _ _
  rw [hfield]
  cases r.dispatchedAtMs with
  | none => exact iff_of_true rfl rfl
  | some t => exact iff_of_false (by rintro ⟨⟩) (by rintro ⟨⟩)

theorem checkDispatchTime_eq_ok {u : Unit} (hclaimed : r.claimedAtMs ≤ maxSafeInteger)
    (hcompleted : r.completedAtMs ≤ maxSafeInteger)
    (hdispatched : ∀ t ∈ r.dispatchedAtMs, t ≤ maxSafeInteger) :
    checkDispatchTime path (ofJsonMembers (Serialize.fields r)) = .ok u ↔
      ∀ t ∈ r.dispatchedAtMs, r.claimedAtMs ≤ t ∧ t ≤ r.completedAtMs := by
  rw [checkDispatchTime]
  cases hd : r.dispatchedAtMs with
  | none =>
      rw [if_pos (dispatched_eq_null.mpr hd)]
      exact iff_of_true rfl (by rintro _ ⟨⟩)
  | some t =>
      have hnumber : numberAt (ofJsonMembers (Serialize.fields r)) "dispatched_at_ms" = t := by
        refine numberAt_eq ?_ (hdispatched t hd)
        show writeOption writeNat r.dispatchedAtMs = _
        rw [hd]
        rfl
      rw [if_neg fun h ↦ by rw [dispatched_eq_null.mp h] at hd; cases hd]
      simp only [bind_eq_ok, rejectIf_eq_ok, exists_const, not_lt, hnumber,
        @numberAt_eq (Serialize.fields r) "claimed_at_ms" _ rfl hclaimed,
        @numberAt_eq (Serialize.fields r) "completed_at_ms" _ rfl hcompleted, Nat.cast_le,
        Option.mem_def, Option.some.injEq, forall_eq']

theorem outcome_eq {o : ReceiptOutcome} :
    stringAt (ofJsonMembers (Serialize.fields r)) "outcome" = js o.name ↔ r.outcome = o := by
  have hfield : stringAt (ofJsonMembers (Serialize.fields r)) "outcome" = units r.outcome.name :=
    stringAt_eq rfl
  rw [hfield, js_eq_units, units_injective.eq_iff]
  cases r.outcome <;> cases o <;> decide

/-- The closing checks on the outcome and the time of dispatch. -/
theorem dispatchOutcome_iff :
    ((stringAt (ofJsonMembers (Serialize.fields r)) "outcome" ∈ [js "succeeded", js "failed"] →
        ¬strictlyEqual (field (ofJsonMembers (Serialize.fields r)) "dispatched_at_ms") .null =
          true) ∧
      (stringAt (ofJsonMembers (Serialize.fields r)) "outcome" = js "not_dispatched" →
        ¬(!strictlyEqual (field (ofJsonMembers (Serialize.fields r)) "dispatched_at_ms") .null) =
          true)) ↔
      (r.outcome = .notDispatched → r.dispatchedAtMs = none) ∧
        (r.outcome = .succeeded ∨ r.outcome = .failed → r.dispatchedAtMs ≠ none) := by
  have hsucceeded : _ = js "succeeded" ↔ r.outcome = _ := outcome_eq (o := .succeeded)
  have hfailed : _ = js "failed" ↔ r.outcome = _ := outcome_eq (o := .failed)
  have hnot : _ = js "not_dispatched" ↔ r.outcome = _ := outcome_eq (o := .notDispatched)
  rw [List.mem_pair, hsucceeded, hfailed, hnot, Bool.not_eq_true', Bool.not_eq_false,
    dispatched_eq_null]
  exact and_comm

theorem validateEffectReceipt_eq_ok {v : Json} (hv : v.Distinct) :
    validateEffectReceipt (ofJson v) = .ok result ↔
      Encodable v ∧ ∃ r : EffectReceipt, Writes r v ∧ (validate r = .ok () ∧ NoMark r) ∧
        result = ofJsonMembers (Serialize.fields r) := by
  refine exactFields_record (α := EffectReceipt) hv fun ms ↦ ?_
  simp only [bind_eq_ok, field_ofJsonMembers ms, Except.ok.injEq, rejectIf_eq_ok, not_lt, not_and]
  constructor
  · rintro ⟨_, hdispatched, _, hread, ⟨⟩, htimes, ⟨⟩, hcheck, ⟨⟩, hrequired, ⟨⟩, hforbidden, rfl⟩
    obtain ⟨rfl, o, hsafe, ho⟩ := (accepts_timestamp.nullOr _ _ _).mp hdispatched
    obtain ⟨r, hholds, ⟨rfl, h₁, h₂, h₃, h₄, h₅⟩, rfl⟩ := (effectReceiptChecks_eq_ok ho).mp hread
    rw [numberAt_eq rfl h₄, numberAt_eq rfl h₅, Nat.cast_le] at htimes
    rw [checkDispatchTime_eq_ok h₄ h₅ hsafe] at hcheck
    refine ⟨r, hholds, ⟨EffectReceipt.validate_eq_ok.mpr ⟨h₁, h₂.toTrimmedText, h₃.toTrimmedText,
      h₄, h₅, htimes, fun t ht ↦ ⟨hsafe t ht, hcheck t ht⟩,
      dispatchOutcome_iff.mp ⟨hrequired, hforbidden⟩⟩, ?_⟩, rfl⟩
    exact List.forall_mem_cons.mpr ⟨h₂.unmarked, List.forall_mem_singleton.mpr h₃.unmarked⟩
  · rintro ⟨r, hholds, ⟨hvalid, hmark⟩, rfl⟩
    obtain ⟨h₁, h₂, h₃, h₄, h₅, htimes, hcheck, houtcome⟩ := EffectReceipt.validate_eq_ok.mp hvalid
    obtain ⟨hm₂, hm₃⟩ := List.forall_mem_cons.mp hmark
    replace hm₃ := List.forall_mem_singleton.mp hm₃
    obtain ⟨hrequired, hforbidden⟩ := dispatchOutcome_iff.mpr houtcome
    have hsafe : ∀ t ∈ r.dispatchedAtMs, t ≤ maxSafeInteger := fun t ht ↦ (hcheck t ht).1
    have ho : look ms "dispatched_at_ms" = writeOption writeNat r.dispatchedAtMs :=
      hholds ("dispatched_at_ms", _) (List.mem_of_getElem? (i := 6) rfl)
    refine ⟨_, (accepts_timestamp.nullOr _ _ _).mpr ⟨rfl, _, hsafe, ho⟩, _,
      (effectReceiptChecks_eq_ok ho).mpr
        ⟨r, hholds, ⟨rfl, h₁, ⟨h₂, hm₂⟩, ⟨h₃, hm₃⟩, h₄, h₅⟩, rfl⟩,
      (), ?_, (), ?_, (), hrequired, (), hforbidden, rfl⟩
    · rw [numberAt_eq rfl h₄, numberAt_eq rfl h₅, Nat.cast_le]
      exact htimes
    · rw [checkDispatchTime_eq_ok h₄ h₅ hsafe]
      exact fun t ht ↦ (hcheck t ht).2

end EffectReceipt

/-! ## Reconciliation records -/

section ReconciliationRecord

variable {ms : List (String × Json)} {path : JsString} {result : Record}

/-- What the validator checks: all but the sequence number against the parent. -/
def ReconciliationRecordChecked (r : ReconciliationRecord) : Prop :=
  r.version = profileVersion ∧ ScalarText r.reconciliationId 256 ∧
    (1 ≤ r.sequence ∧ r.sequence ≤ maxSafeInteger) ∧ r.observedAtMs ≤ maxSafeInteger

theorem accepts_reconciliationOutcome :
    Accepts (enumValue ["effect_confirmed", "no_effect_confirmed", "partial_effect",
        "still_unknown", "compensated"])
      (fun o : ReconciliationOutcome ↦ .str o.name) fun _ ↦ True := by
  refine accepts_enumValue fun s ↦ ?_
  constructor
  · intro h
    simp only [List.mem_cons, List.not_mem_nil, or_false] at h
    rcases h with rfl | rfl | rfl | rfl | rfl
    · exact ⟨.effectConfirmed, rfl⟩
    · exact ⟨.noEffectConfirmed, rfl⟩
    · exact ⟨.partialEffect, rfl⟩
    · exact ⟨.stillUnknown, rfl⟩
    · exact ⟨.compensated, rfl⟩
  · rintro ⟨o, rfl⟩
    cases o <;> decide

theorem reconciliationRecordChecks_eq_ok {o : Option Digest32}
    (ho : look ms "parent_reconciliation_hash" = writeOption writeDigest o) :
    readFields (ofJsonMembers ms) path (reconciliationRecordChecks
        (ofJson (look ms "parent_reconciliation_hash"))) = .ok result ↔
      ∃ r : ReconciliationRecord, Holds ms (Serialize.fields r) ∧
        (r.parentReconciliationHash = o ∧ ReconciliationRecordChecked r) ∧
        result = ofJsonMembers (Serialize.fields r) := by
  refine readFields_record
    (.cons (accepts_literalOne.passes _) <| .cons (accepts_identifier.passes _) <|
      .cons (accepts_digest.passes _) <| .cons ((accepts_integer 1).passes _) <|
      .cons (passes_already _) <| .cons (accepts_timestamp.passes _) <|
      .cons (accepts_reconciliationOutcome.passes _) <|
      .cons (accepts_digest.passes _) .nil) rfl ?_
  simp only [List.forall_mem_cons, List.not_mem_nil, false_imp_iff, implies_true, and_true, Holds,
    Serialize.fields, true_and, ReconciliationRecordChecked]
  constructor
  · rintro ⟨⟨n₁, h₁, e₁⟩, ⟨s₂, h₂, e₂⟩, ⟨d₃, e₃⟩, ⟨n₄, h₄, e₄⟩, ⟨n₆, h₆, e₆⟩, ⟨o₇, e₇⟩, d₈, e₈⟩
    exact ⟨⟨n₁, s₂, d₃, n₄, o, n₆, o₇, d₈⟩, ⟨e₁, e₂, e₃, e₄, ho, e₆, e₇, e₈⟩, rfl, h₁, h₂, h₄, h₆⟩
  · rintro ⟨r, ⟨e₁, e₂, e₃, e₄, -, e₆, e₇, e₈⟩, -, h₁, h₂, h₄, h₆⟩
    exact ⟨⟨_, h₁, e₁⟩, ⟨_, h₂, e₂⟩, ⟨_, e₃⟩, ⟨_, h₄, e₄⟩, ⟨_, h₆, e₆⟩, ⟨_, e₇⟩, _, e₈⟩

theorem validateReconciliationRecord_eq_ok {v : Json} (hv : v.Distinct) :
    validateReconciliationRecord (ofJson v) = .ok result ↔
      Encodable v ∧ ∃ r : ReconciliationRecord, Writes r v ∧ ReconciliationRecordChecked r ∧
        result = ofJsonMembers (Serialize.fields r) := by
  refine exactFields_record (α := ReconciliationRecord) hv fun ms ↦ ?_
  simp only [bind_eq_ok, field_ofJsonMembers ms]
  constructor
  · rintro ⟨_, hparent, hread⟩
    obtain ⟨rfl, o, -, ho⟩ := (accepts_digest.nullOr _ _ _).mp hparent
    obtain ⟨r, hholds, ⟨rfl, hchecked⟩, rfl⟩ := (reconciliationRecordChecks_eq_ok ho).mp hread
    exact ⟨r, hholds, hchecked, rfl⟩
  · rintro ⟨r, hholds, hchecked, rfl⟩
    have ho : look ms "parent_reconciliation_hash" =
        writeOption writeDigest r.parentReconciliationHash :=
      hholds ("parent_reconciliation_hash", _) (List.mem_of_getElem? (i := 4) rfl)
    exact ⟨_, (accepts_digest.nullOr _ _ _).mpr ⟨rfl, _, fun _ _ ↦ trivial, ho⟩,
      (reconciliationRecordChecks_eq_ok ho).mpr ⟨r, hholds, ⟨rfl, hchecked⟩, rfl⟩⟩

/-- With its place in the history a checked record is a valid one. -/
theorem validate_of_checked {r : ReconciliationRecord} :
    (ReconciliationRecordChecked r ∧
        (r.sequence = 1 ↔ r.parentReconciliationHash = none)) ↔
      validate r = .ok () ∧ NoMark r := by
  rw [ReconciliationRecord.validate_eq_ok, ReconciliationRecordChecked,
    scalarText_iff_unmarked, NoMark]
  simp only [Texts.texts, List.forall_mem_singleton]
  constructor
  · rintro ⟨⟨h₁, ⟨h₂, hm⟩, h₃, h₄⟩, h₅⟩
    exact ⟨⟨h₁, h₂, h₄, h₃, h₅⟩, hm⟩
  · rintro ⟨⟨h₁, h₂, h₄, h₃, h₅⟩, hm⟩
    exact ⟨⟨h₁, ⟨h₂, hm⟩, h₃, h₄⟩, h₅⟩

end ReconciliationRecord

end Etp.TypeScript
