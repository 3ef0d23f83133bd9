import Etp.TypeScript.Records
import Etp.Core.Acceptance

/-!
# What the TypeScript verifier accepts

`verifyTransaction` on the JavaScript value of a JSON value.  It returns exactly on
the objects that write a bundle which the Rust verifier accepts and no text of which
has U+FEFF at an end, and it returns the report on that bundle
(`verifyTransaction_eq_ok`).

The two verifiers check in different orders and walk the reconciliations in different
ways: this one counts indices and keeps the parent's hash, the Rust one compares each
record with its parent.  On a history both amount to `Chained ParentLink`.
-/

namespace Etp.TypeScript

open JsString Etp.Core

/-! ## Records as values -/

section Records

variable {ms ns : List (String × Json)}

theorem lookup_perm (hkeys : (ms.map Prod.fst).Nodup) (hperm : ms.Perm ns) (name : String) :
    ms.lookup name = ns.lookup name := by
  have hkeys' := (hperm.map Prod.fst).nodup_iff.mp hkeys
  ext v
  rw [KeyMap.lookup_eq_some_iff hkeys, KeyMap.lookup_eq_some_iff hkeys', hperm.mem_iff]

theorem sortKeys_perm (hkeys : (ms.map Prod.fst).Nodup) (hperm : ms.Perm ns) :
    (Json.obj ms).sortKeys = (Json.obj ns).sortKeys := by
  have hkeys' := (hperm.map Prod.fst).nodup_iff.mp hkeys
  rw [Json.sortKeys, Json.sortKeys]
  congr 1
  refine (KeyMap.sorted_collect _).ext (KeyMap.sorted_collect _) fun name ↦ ?_
  rw [Json.lookup_sortKeysMembers hkeys, Json.lookup_sortKeysMembers hkeys',
    lookup_perm hkeys hperm]

theorem look_distinct (h : (Json.obj ms).Distinct) (name : String) : (look ms name).Distinct := by
  cases h with
  | obj hkeys h =>
      rw [look]
      cases hl : ms.lookup name with
      | none => exact .null
      | some v => exact h _ ((KeyMap.lookup_eq_some_iff hkeys).mp hl)

theorem look_eq_of_ne_null {name : String} (h : look ms name ≠ .null) :
    ms.lookup name = some (look ms name) := by
  rw [look] at h ⊢
  cases hl : ms.lookup name with
  | none =>
      rw [hl] at h
      exact absurd rfl h
  | some v => rfl

theorem ofJson_eq_null {v : Json} : ofJson v = .null ↔ v = .null := by
  cases v <;> simp [ofJson]

variable {α : Type} [ProtocolRecord α] [Deserialize α] [LawfulRecord α] {r : α} {v : Json}

/-- The value that the TypeScript verifier keeps of a record. -/
def recordValue {α : Type} [Serialize α] (r : α) : Record := ofJsonMembers (Serialize.fields r)

/-- The hash of a record as a JavaScript string. -/
def hashUnits [Sha256] {α : Type} [ProtocolRecord α] (r : α) : JsString :=
  units (recordHash r).asStr

omit [Deserialize α] [LawfulRecord α] in
theorem writes_fields (r : α) : Writes r (.obj (Serialize.fields r)) := ⟨_, rfl, .refl _⟩

omit [Deserialize α] [LawfulRecord α] in
theorem Writes.distinct (h : Writes r v) (hv : v.Distinct) :
    (Json.obj (Serialize.fields r)).Distinct := by
  obtain ⟨ms, rfl, hperm⟩ := h
  cases hv with
  | obj hkeys hvalues =>
      exact .obj ((hperm.map Prod.fst).nodup_iff.mp hkeys) fun e he ↦
        hvalues e (hperm.mem_iff.mpr he)

omit [Deserialize α] [LawfulRecord α] in
theorem Writes.ne_null (h : Writes r v) : v ≠ .null := by
  obtain ⟨_, rfl, -⟩ := h
  rintro ⟨⟩

/-- Sorted, a document of a valid record is the value that serde writes. -/
theorem Writes.sortKeys_eq (h : Writes r v) (hvalid : validate r = .ok ()) :
    v.sortKeys = Serialize.toValue r := by
  obtain ⟨ms, rfl, hperm⟩ := h
  have hkeys := fields_nodup r
  rw [← sortKeys_toValue hvalid, sortKeys_perm ((hperm.map Prod.fst).nodup_iff.mpr hkeys) hperm]
  exact sortKeys_perm hkeys (KeyMap.collect_perm hkeys).symm

theorem Writes.encodable (h : Writes r v) (hv : v.Distinct) (hvalid : validate r = .ok ()) :
    Encodable v := by
  have henc := encodable_toValue hvalid
  refine ⟨?_, ?_, ?_⟩
  · rw [← hv.height_sortKeys, h.sortKeys_eq hvalid]
    exact henc.height
  · rw [← hv.nodes_sortKeys, h.sortKeys_eq hvalid]
    exact henc.nodes
  · rw [h.sortKeys_eq hvalid, ← sortKeys_toValue hvalid]
    exact henc.bounded

end Records

/-! ## Hashes and comparisons -/

section Hashes

variable [Sha256] {α : Type} [ProtocolRecord α] [Deserialize α] [LawfulRecord α] {r : α}

/-- The hash of a valid record is its commitment. -/
theorem hashRecord_eq_ok
    (hdomain : ¬(js (ProtocolRecord.domain α) = [] ∨ 0 ∈ js (ProtocolRecord.domain α)))
    (hdistinct : (Json.obj (Serialize.fields r)).Distinct) (hvalid : validate r = .ok ())
    {hash : JsString} :
    hashRecord (ProtocolRecord.domain α) (recordValue r) = .ok hash ↔ hash = hashUnits r := by
  have hwrites := writes_fields r
  have htext : (Json.obj (Serialize.fields r)).sortKeys = (Serialize.toValue r).sortKeys := by
    rw [hwrites.sortKeys_eq hvalid, sortKeys_toValue hvalid]
  have hbytes : toBuffer (utf16 (Json.obj (Serialize.fields r)).sortKeys.text) =
      utf8 (canonicalText r) := by
    rw [toBuffer_utf16, htext, canonicalText]
  have hencode : canonicalJson (.object (recordValue r)) =
      .ok (utf16 (Json.obj (Serialize.fields r)).sortKeys.text) :=
    (canonicalJson_ofJson hdistinct).mpr ⟨hwrites.encodable hdistinct hvalid, rfl⟩
  have hscalar := assertScalarString_utf16 "hash domain" (ProtocolRecord.domain α).toList
  have hdomainBytes : toBuffer (utf16 (ProtocolRecord.domain α).toList) =
      utf8 (ProtocolRecord.domain α) := toBuffer_units _
  rw [hashRecord, commitment, rejectIf_false hdomain, ok_bind, js, hscalar, ok_bind, hencode,
    ok_bind, hbytes, hdomainBytes]
  constructor
  · rintro ⟨⟩
    rfl
  · rintro rfl
    rfl

end Hashes

/-! ### Fields of a record that was checked -/

section Fields

variable {fields : List (String × Json)} {name : String} {path : JsString} {u : Unit}

theorem equal_eq_ok {actual expected : JsValue} :
    equal actual expected path = .ok u ↔ strictlyEqual actual expected = true := by
  rw [equal, rejectIf_eq_ok, Bool.not_eq_true', Bool.not_eq_false]

theorem equal_digest {d e : Digest32} :
    strictlyEqual (.string (units d.asStr)) (.string (units e.asStr)) = true ↔ d = e := by
  rw [Digest32.ext_iff]
  exact strictlyEqual_string

end Fields

/-! ## Each record -/

section Each

variable [Sha256]

/-- A validator and a hash of the source, for one type of record: the validator takes the
documents of valid records without marks, the hash of which is the commitment. -/
structure Handles (α : Type) [ProtocolRecord α] [Deserialize α] [LawfulRecord α] [Texts α]
    (check : JsValue → Except Thrown Record) (hash : Record → Except Thrown JsString) : Prop where
  check_eq_ok : ∀ {v : Json} {result : Record}, v.Distinct → (check (ofJson v) = .ok result ↔
    ∃ r : α, Writes r v ∧ (validate r = .ok () ∧ NoMark r) ∧ result = recordValue r)
  hash_eq_ok : ∀ {r : α}, (Json.obj (Serialize.fields r)).Distinct → validate r = .ok () →
    ∀ {h : JsString}, hash (recordValue r) = .ok h ↔ h = hashUnits r

variable {α : Type} [ProtocolRecord α] [Deserialize α] [LawfulRecord α] [Texts α]
  {check : JsValue → Except Thrown Record}

theorem handles_of
    (hcheck : ∀ {v : Json} {result : Record}, v.Distinct → (check (ofJson v) = .ok result ↔
      Encodable v ∧ ∃ r : α, Writes r v ∧ (validate r = .ok () ∧ NoMark r) ∧
        result = ofJsonMembers (Serialize.fields r)))
    (hdomain : ¬(js (ProtocolRecord.domain α) = [] ∨ 0 ∈ js (ProtocolRecord.domain α))) :
    Handles α check (hashRecord (ProtocolRecord.domain α)) where
  check_eq_ok {v result} hv := by
    rw [hcheck hv]
    constructor
    · rintro ⟨-, h⟩
      exact h
    · rintro ⟨r, hwrites, hvalid, rfl⟩
      exact ⟨hwrites.encodable hv hvalid.1, r, hwrites, hvalid, rfl⟩
  hash_eq_ok hdistinct hvalid := hashRecord_eq_ok hdomain hdistinct hvalid

theorem handles_taskCommitment : Handles TaskCommitment validateTaskCommitment hashTaskCommitment :=
  handles_of validateTaskCommitment_eq_ok (by decide)

theorem handles_effectProposal : Handles EffectProposal validateEffectProposal hashEffectProposal :=
  handles_of validateEffectProposal_eq_ok (by decide)

theorem handles_authorizationDecision :
    Handles AuthorizationDecision validateAuthorizationDecision hashAuthorizationDecision :=
  handles_of validateAuthorizationDecision_eq_ok (by decide)

theorem handles_executionGrant : Handles ExecutionGrant validateExecutionGrant hashExecutionGrant :=
  handles_of validateExecutionGrant_eq_ok (by decide)

theorem handles_effectReceipt : Handles EffectReceipt validateEffectReceipt hashEffectReceipt :=
  handles_of validateEffectReceipt_eq_ok (by decide)

variable {hash : Record → Except Thrown JsString} {v : Json}

/-- Checking a record and hashing it, and what follows. -/
theorem Handles.bind_eq_ok {β : Type} (h : Handles α check hash) (hv : v.Distinct)
    {next : Record → JsString → Except Thrown β} {b : β} :
    (do
        let r ← check (ofJson v)
        let d ← hash r
        next r d) = .ok b ↔
      ∃ r : α, (Writes r v ∧ validate r = .ok () ∧ NoMark r) ∧
        next (recordValue r) (hashUnits r) = .ok b := by
  simp only [Etp.bind_eq_ok, h.check_eq_ok hv]
  constructor
  · rintro ⟨_, ⟨r, hwrites, ⟨hvalid, hmark⟩, rfl⟩, d, hd, hnext⟩
    obtain rfl := (h.hash_eq_ok (hwrites.distinct hv) hvalid).mp hd
    exact ⟨r, ⟨hwrites, hvalid, hmark⟩, hnext⟩
  · rintro ⟨r, ⟨hwrites, hvalid, hmark⟩, hnext⟩
    exact ⟨_, ⟨r, hwrites, ⟨hvalid, hmark⟩, rfl⟩, _,
      (h.hash_eq_ok (hwrites.distinct hv) hvalid).mpr rfl, hnext⟩

end Each

/-! ## The chain -/

section Chain

theorem TaskCommitment.numbers {c : TaskCommitment} (h : validate c = .ok ()) :
    numberAt (recordValue c) "created_at_ms" = c.createdAtMs ∧
      numberAt (recordValue c) "expires_at_ms" = c.expiresAtMs := by
  obtain ⟨-, -, -, -, -, hlt, hle⟩ := TaskCommitment.validate_eq_ok.mp h
  exact ⟨numberAt_eq rfl (hlt.le.trans hle), numberAt_eq rfl hle⟩

theorem EffectProposal.numbers {p : EffectProposal} (h : validate p = .ok ()) :
    numberAt (recordValue p) "created_at_ms" = p.createdAtMs ∧
      numberAt (recordValue p) "expires_at_ms" = p.expiresAtMs := by
  obtain ⟨-, -, -, -, -, hlt, hle⟩ := EffectProposal.validate_eq_ok.mp h
  exact ⟨numberAt_eq rfl (hlt.le.trans hle), numberAt_eq rfl hle⟩

theorem AuthorizationDecision.numbers {d : AuthorizationDecision} (h : validate d = .ok ()) :
    numberAt (recordValue d) "decided_at_ms" = d.decidedAtMs ∧
      numberAt (recordValue d) "expires_at_ms" = d.expiresAtMs := by
  obtain ⟨-, -, -, -, -, ⟨hlt, hle⟩, -⟩ := AuthorizationDecision.validate_eq_ok.mp h
  exact ⟨numberAt_eq rfl (hlt.le.trans hle), numberAt_eq rfl hle⟩

theorem ExecutionGrant.numbers {g : ExecutionGrant} (h : validate g = .ok ()) :
    numberAt (recordValue g) "not_before_ms" = g.notBeforeMs ∧
      numberAt (recordValue g) "expires_at_ms" = g.expiresAtMs := by
  obtain ⟨-, -, -, -, -, ⟨hlt, hle⟩, -⟩ := ExecutionGrant.validate_eq_ok.mp h
  exact ⟨numberAt_eq rfl (hlt.le.trans hle), numberAt_eq rfl hle⟩

theorem EffectReceipt.numbers {r : EffectReceipt} (h : validate r = .ok ()) :
    numberAt (recordValue r) "claimed_at_ms" = r.claimedAtMs ∧
      numberAt (recordValue r) "completed_at_ms" = r.completedAtMs := by
  obtain ⟨-, -, -, hclaimed, hcompleted, -⟩ := EffectReceipt.validate_eq_ok.mp h
  exact ⟨numberAt_eq rfl hclaimed, numberAt_eq rfl hcompleted⟩

variable [Sha256] {ms : List (String × Json)}

theorem verifyDecision_eq_ok (hms : (Json.obj ms).Distinct)
    {result : Record × JsString × JsString × JsString} :
    verifyDecision (ofJsonMembers ms) = .ok result ↔
      ∃ (c : TaskCommitment) (p : EffectProposal) (d : AuthorizationDecision),
        (Writes c (look ms "commitment") ∧ Writes p (look ms "proposal") ∧
          Writes d (look ms "decision")) ∧ (NoMark c ∧ NoMark p ∧ NoMark d) ∧
        DecisionChain c p d ∧ result = (recordValue d, hashUnits c, hashUnits p, hashUnits d) := by
  simp only [verifyDecision, field_ofJsonMembers ms,
    handles_taskCommitment.bind_eq_ok (look_distinct hms _),
    handles_effectProposal.bind_eq_ok (look_distinct hms _),
    handles_authorizationDecision.bind_eq_ok (look_distinct hms _),
    bind_eq_ok, rejectIf_eq_ok, equal_eq_ok, exists_const, not_lt, gt_iff_lt, Except.ok.injEq]
  constructor
  · rintro ⟨c, ⟨hc, hcv, hcm⟩, p, ⟨hp, hpv, hpm⟩, hlink, hcreated, hexpires, d,
      ⟨hd, hdv, hdm⟩, hlink', hdecided, hexpires', rfl⟩
    rw [(EffectProposal.numbers hpv).1, (TaskCommitment.numbers hcv).1, Nat.cast_le] at hcreated
    rw [(EffectProposal.numbers hpv).2, (TaskCommitment.numbers hcv).2, Nat.cast_le] at hexpires
    rw [(AuthorizationDecision.numbers hdv).1, (EffectProposal.numbers hpv).1, Nat.cast_le]
      at hdecided
    rw [(AuthorizationDecision.numbers hdv).2, (EffectProposal.numbers hpv).2, Nat.cast_le]
      at hexpires'
    exact ⟨c, p, d, ⟨hc, hp, hd⟩, ⟨hcm, hpm, hdm⟩, ⟨hcv, hpv, hdv, equal_digest.mp hlink,
      equal_digest.mp hlink', hcreated, hexpires, hdecided, hexpires'⟩, rfl⟩
  · rintro ⟨c, p, d, ⟨hc, hp, hd⟩, ⟨hcm, hpm, hdm⟩, hchain, rfl⟩
    obtain ⟨hcv, hpv, hdv, hlink, hlink', hcreated, hexpires, hdecided, hexpires'⟩ := hchain
    refine ⟨c, ⟨hc, hcv, hcm⟩, p, ⟨hp, hpv, hpm⟩, equal_digest.mpr hlink, ?_, ?_, d,
      ⟨hd, hdv, hdm⟩, equal_digest.mpr hlink', ?_, ?_, rfl⟩
    · rwa [(EffectProposal.numbers hpv).1, (TaskCommitment.numbers hcv).1, Nat.cast_le]
    · rwa [(EffectProposal.numbers hpv).2, (TaskCommitment.numbers hcv).2, Nat.cast_le]
    · rwa [(AuthorizationDecision.numbers hdv).1, (EffectProposal.numbers hpv).1, Nat.cast_le]
    · rwa [(AuthorizationDecision.numbers hdv).2, (EffectProposal.numbers hpv).2, Nat.cast_le]

variable {c : TaskCommitment} {p : EffectProposal} {d : AuthorizationDecision} {v : Json}

theorem verifyGrant_eq_ok (hchain : DecisionChain c p d) (hv : v.Distinct)
    {result : Record × JsString} :
    verifyGrant (recordValue d) (hashUnits p) (hashUnits d) (ofJson v) = .ok result ↔
      ∃ g : ExecutionGrant, Writes g v ∧ NoMark g ∧ GrantChain c p d g ∧
        result = (recordValue g, hashUnits g) := by
  have houtcome : stringAt (recordValue d) "outcome" = js "allow" ↔ d.outcome = .allow := by
    have hname : stringAt (recordValue d) "outcome" = units d.outcome.name := stringAt_eq rfl
    rw [hname, js_eq_units, units_injective.eq_iff, name_eq_allow]
  simp only [verifyGrant, handles_executionGrant.bind_eq_ok hv, bind_eq_ok, rejectIf_eq_ok,
    equal_eq_ok, exists_const, not_lt, gt_iff_lt, not_not, houtcome, (AuthorizationDecision.numbers
    hchain.decision_valid).1, (AuthorizationDecision.numbers hchain.decision_valid).2,
    Except.ok.injEq]
  constructor
  · rintro ⟨hallow, g, ⟨hg, hgv, hgm⟩, hlink, hlink', hstart, hexpires, rfl⟩
    rw [(ExecutionGrant.numbers hgv).1, Nat.cast_le] at hstart
    rw [(ExecutionGrant.numbers hgv).2, Nat.cast_le] at hexpires
    exact ⟨g, hg, hgm, ⟨hchain, hgv, hallow, equal_digest.mp hlink, equal_digest.mp hlink', hstart,
      hexpires⟩, rfl⟩
  · rintro ⟨g, hg, hgm, ⟨-, hgv, hallow, hlink, hlink', hstart, hexpires⟩, rfl⟩
    refine ⟨hallow, g, ⟨hg, hgv, hgm⟩, equal_digest.mpr hlink, equal_digest.mpr hlink', ?_,
      ?_, rfl⟩
    · rwa [(ExecutionGrant.numbers hgv).1, Nat.cast_le]
    · rwa [(ExecutionGrant.numbers hgv).2, Nat.cast_le]

theorem verifyReceipt_eq_ok {g : ExecutionGrant} (hg : validate g = .ok ()) (hv : v.Distinct)
    {result : Record × JsString} :
    verifyReceipt (recordValue g) (hashUnits p) (hashUnits g) (ofJson v) = .ok result ↔
      ∃ r : EffectReceipt, Writes r v ∧ NoMark r ∧ ReceiptFor p g r ∧
        result = (recordValue r, hashUnits r) := by
  simp only [verifyReceipt, handles_effectReceipt.bind_eq_ok hv, bind_eq_ok, rejectIf_eq_ok,
    equal_eq_ok, exists_const, not_lt, not_le, ge_iff_le, (ExecutionGrant.numbers hg).1,
    (ExecutionGrant.numbers hg).2, Except.ok.injEq]
  constructor
  · rintro ⟨r, ⟨hr, hrv, hrm⟩, hlink, hlink', hstart, hend, rfl⟩
    rw [(EffectReceipt.numbers hrv).1, Nat.cast_le] at hstart
    rw [(EffectReceipt.numbers hrv).1, Nat.cast_lt] at hend
    exact ⟨r, hr, hrm, ⟨hrv, equal_digest.mp hlink, equal_digest.mp hlink', hstart, hend⟩, rfl⟩
  · rintro ⟨r, hr, hrm, ⟨hrv, hlink, hlink', hstart, hend⟩, rfl⟩
    refine ⟨r, ⟨hr, hrv, hrm⟩, equal_digest.mpr hlink, equal_digest.mpr hlink', ?_, ?_, rfl⟩
    · rwa [(EffectReceipt.numbers hrv).1, Nat.cast_le]
    · rwa [(EffectReceipt.numbers hrv).1, Nat.cast_lt]

end Chain

/-! ## The reconciliations -/

section Reconciliations

theorem ReconciliationRecord.numbers {q : ReconciliationRecord}
    (hsequence : q.sequence ≤ maxSafeInteger) (hobserved : q.observedAtMs ≤ maxSafeInteger) :
    field (recordValue q) "sequence" = .number (.finite q.sequence) ∧
      numberAt (recordValue q) "observed_at_ms" = q.observedAtMs := by
  refine ⟨?_, numberAt_eq rfl hobserved⟩
  have hfield : field (recordValue q) "sequence" = .number (.ofInt q.sequence) :=
    field_ofJsonMembers _ _
  rw [hfield, JsNumber.ofInt_of_le (by simpa [maxSafeInteger, JsNumber.maxSafe] using hsequence)]

theorem equal_sequence {n k : Nat} :
    strictlyEqual (.number (.finite n)) (.number (.finite (k + 1))) = true ↔ n = k + 1 := by
  rw [strictlyEqual, JsNumber.same, decide_eq_true_iff]
  exact Nat.cast_inj (R := Int) (n := k + 1)

theorem equal_orNull {o e : Option Digest32} :
    strictlyEqual (ofJson (writeOption writeDigest o)) (orNull (e.map fun d ↦ units d.asStr)) =
      true ↔ o = e := by
  cases o with
  | none =>
      cases e with
      | none => exact iff_of_true rfl rfl
      | some e => exact iff_of_false (by rintro ⟨⟩) (by rintro ⟨⟩)
  | some d =>
      cases e with
      | none => exact iff_of_false (by rintro ⟨⟩) (by rintro ⟨⟩)
      | some e => exact equal_digest.trans Option.some_inj.symm

theorem isTerminal_name (o : ReconciliationOutcome) : isTerminal (units o.name) = o.isTerminal := by
  cases o <;> decide

variable [Sha256] {receipt : EffectReceipt} {previous : Option ReconciliationRecord}
  {identifiers : List String} {index : Nat}

/-- What the loop keeps of the record before. -/
def carried (q : ReconciliationRecord) : Record × JsString := (recordValue q, hashUnits q)

/-- The comparisons of one round, by the index and by the parent's values, are those with the
parent. -/
theorem parentLink_iff (hunknown : receipt.outcome = .unknown)
    (hprev : ∀ q ∈ previous, ReconciliationFor receipt q)
    (hindex : index = (previous.map ReconciliationRecord.sequence).getD 0)
    {r : ReconciliationRecord} :
    ((previous.any fun q ↦ q.outcome.isTerminal) = false ∧ ReconciliationRecordChecked r ∧
        r.receiptHash = recordHash receipt ∧ r.sequence = index + 1 ∧
        r.parentReconciliationHash = previous.map recordHash ∧
        (previous.map ReconciliationRecord.observedAtMs).getD receipt.completedAtMs ≤
          r.observedAtMs) ↔
      NoMark r ∧ ReconciliationFor receipt r ∧ ParentLink previous r := by
  cases previous with
  | none =>
      obtain rfl : index = 0 := hindex
      constructor
      · rintro ⟨-, hchecked, hreceipt, hsequence, hparent, hobserved⟩
        obtain ⟨hvalid, hmark⟩ := validate_of_checked.mp ⟨hchecked, iff_of_true hsequence hparent⟩
        exact ⟨hmark, ⟨hvalid, hunknown, hreceipt, hobserved⟩, hsequence, hparent⟩
      · rintro ⟨hmark, ⟨hvalid, -, hreceipt, hobserved⟩, hsequence, hparent⟩
        obtain ⟨hchecked, -⟩ := validate_of_checked.mpr ⟨hvalid, hmark⟩
        exact ⟨rfl, hchecked, hreceipt, hsequence, hparent, hobserved⟩
  | some q =>
      obtain rfl : index = q.sequence := hindex
      have hq := hprev q rfl
      have hpos : 0 < q.sequence :=
        (ReconciliationRecord.validate_eq_ok.mp hq.record_valid).2.2.2.1.1
      constructor
      · rintro ⟨hterminal, hchecked, hreceipt, hsequence, hparent, hobserved⟩
        have hplace : r.sequence = 1 ↔ r.parentReconciliationHash = none := by
          rw [hparent]
          exact iff_of_false (by omega) (by rintro ⟨⟩)
        obtain ⟨hvalid, hmark⟩ := validate_of_checked.mp ⟨hchecked, hplace⟩
        exact ⟨hmark, ⟨hvalid, hunknown, hreceipt, hq.observed_ge.trans hobserved⟩, hterminal,
          hsequence, hparent, hobserved⟩
      · rintro ⟨hmark, ⟨hvalid, -, hreceipt, -⟩, hterminal, hsequence, hparent, hobserved⟩
        obtain ⟨hchecked, -⟩ := validate_of_checked.mpr ⟨hvalid, hmark⟩
        exact ⟨hterminal, hchecked, hreceipt, hsequence, hparent, hobserved⟩

theorem hashReconciliationRecord_eq_ok {r : ReconciliationRecord}
    (hdistinct : (Json.obj (Serialize.fields r)).Distinct) (hvalid : validate r = .ok ())
    {hash : JsString} : hashReconciliationRecord (recordValue r) = .ok hash ↔ hash = hashUnits r :=
  hashRecord_eq_ok (by decide) hdistinct hvalid

/-- One round of the Rust loop. -/
theorem core_verifyReconciliations_cons (hv : validate receipt = .ok ())
    (hprev : ∀ q ∈ previous, ReconciliationFor receipt q) {r : ReconciliationRecord}
    {rs : List ReconciliationRecord} :
    Core.verifyReconciliations receipt previous identifiers (r :: rs) =
        .ok ((r :: rs).map recordHash) ↔
      r.reconciliationId ∉ identifiers ∧ (ReconciliationFor receipt r ∧ ParentLink previous r) ∧
        Core.verifyReconciliations receipt (some r) (r.reconciliationId :: identifiers) rs =
          .ok (rs.map recordHash) := by
  simp only [Core.verifyReconciliations, bind_eq_ok, rejectIf_eq_ok, exists_const,
    Core.verifyReconciliation_eq_ok hprev, Except.ok.injEq, List.map_cons, List.cons.injEq]
  constructor
  · rintro ⟨hid, _, ⟨⟨-, hfor, hlink⟩, rfl⟩, _, hrest, -, rfl⟩
    exact ⟨hid, ⟨hfor, hlink⟩, hrest⟩
  · rintro ⟨hid, ⟨hfor, hlink⟩, hrest⟩
    exact ⟨hid, _, ⟨⟨hv, hfor, hlink⟩, rfl⟩, _, hrest, rfl, rfl⟩

/-- The time that the next observation may not precede. -/
theorem lowerTime_eq (hv : validate receipt = .ok ())
    (hprev : ∀ q ∈ previous, ReconciliationFor receipt q) :
    ((previous.map carried).map fun q ↦ numberAt q.1 "observed_at_ms").getD
        (numberAt (recordValue receipt) "completed_at_ms") =
      ((previous.map ReconciliationRecord.observedAtMs).getD receipt.completedAtMs : Nat) := by
  cases previous with
  | none => exact (EffectReceipt.numbers hv).2
  | some q =>
      obtain ⟨-, -, hobserved, ⟨-, hsequence⟩, -⟩ :=
        ReconciliationRecord.validate_eq_ok.mp (hprev q rfl).record_valid
      exact (ReconciliationRecord.numbers hsequence hobserved).2

omit [Sha256] in
theorem validateReconciliationRecord_iff {v : Json} (hv : v.Distinct) {result : Record} :
    validateReconciliationRecord (ofJson v) = .ok result ↔
      Encodable v ∧ ∃ r : ReconciliationRecord, Writes r v ∧ ReconciliationRecordChecked r ∧
        result = recordValue r := validateReconciliationRecord_eq_ok hv

/-- One round of the loop. -/
theorem verifyReconciliations_cons {receipt : Record} {receiptHash : JsString} {index : Nat}
    {prior : Option (Record × JsString)} {terminal : Bool} {identifiers : List JsString}
    {value : JsValue} {values : List JsValue} {result : List JsString × Option Record} :
    verifyReconciliations receipt receiptHash index prior terminal identifiers (value :: values) =
        .ok result ↔
      terminal = false ∧ ∃ current, validateReconciliationRecord value = .ok current ∧
        stringAt current "reconciliation_id" ∉ identifiers ∧
        strictlyEqual (field current "receipt_hash") (.string receiptHash) = true ∧
        strictlyEqual (field current "sequence") (.number (.finite (index + 1))) = true ∧
        strictlyEqual (field current "parent_reconciliation_hash") (orNull (prior.map Prod.snd)) =
          true ∧
        (prior.map fun q ↦ numberAt q.1 "observed_at_ms").getD
            (numberAt receipt "completed_at_ms") ≤
          numberAt current "observed_at_ms" ∧
        ∃ hash, hashReconciliationRecord current = .ok hash ∧
        ∃ hashes last, verifyReconciliations receipt receiptHash (index + 1) (some (current, hash))
            (isTerminal (stringAt current "outcome"))
            (stringAt current "reconciliation_id" :: identifiers) values = .ok (hashes, last) ∧
          result = (hash :: hashes, last) := by
  cases prior <;>
    simp only [verifyReconciliations, bind_eq_ok, rejectIf_eq_ok, exists_const, equal_eq_ok,
      Bool.not_eq_true, not_lt, Except.ok.injEq, Prod.exists, Option.map_none, Option.map_some,
      Option.getD_none, Option.getD_some, eq_comm (b := result)]

/-- **Both loops accept the same histories.**  The loop by the index runs through the documents
of the records that the loop by the parent runs through. -/
theorem verifyReconciliations_eq_ok (hv : validate receipt = .ok ()) {vs : List Json}
    (hvs : ∀ v ∈ vs, v.Distinct) (hunknown : vs ≠ [] → receipt.outcome = .unknown)
    (hprev : ∀ q ∈ previous, ReconciliationFor receipt q)
    (hindex : index = (previous.map ReconciliationRecord.sequence).getD 0)
    {result : List JsString × Option Record} :
    verifyReconciliations (recordValue receipt) (hashUnits receipt) index (previous.map carried)
        (previous.any fun q ↦ q.outcome.isTerminal) (identifiers.map units) (vs.map ofJson) =
        .ok result ↔
      ∃ rs : List ReconciliationRecord, List.Forall₂ Writes rs vs ∧ (∀ r ∈ rs, NoMark r) ∧
        Core.verifyReconciliations receipt previous identifiers rs = .ok (rs.map recordHash) ∧
        result = (rs.map hashUnits, (rs.getLast?.or previous).map recordValue) := by
  induction vs generalizing previous identifiers index result with
  | nil =>
      have hlast : (previous.map carried).map Prod.fst = previous.map recordValue := by
        rw [Option.map_map]
        rfl
      rw [List.map_nil, verifyReconciliations, hlast, Except.ok.injEq, eq_comm]
      constructor
      · intro h
        exact ⟨[], .nil, by simp, rfl, h⟩
      · rintro ⟨_, ⟨⟩, -, -, h⟩
        exact h
  | cons v vs ih =>
      obtain ⟨hdistinct, hdistincts⟩ := List.forall_mem_cons.mp hvs
      have hunknown := hunknown (List.cons_ne_nil v vs)
      have hid : ∀ r : ReconciliationRecord,
          stringAt (recordValue r) "reconciliation_id" = units r.reconciliationId :=
        fun r ↦ stringAt_eq rfl
      have hterminal : ∀ r : ReconciliationRecord,
          isTerminal (stringAt (recordValue r) "outcome") = r.outcome.isTerminal := fun r ↦ by
        have houtcome : stringAt (recordValue r) "outcome" = units r.outcome.name := stringAt_eq rfl
        rw [houtcome, isTerminal_name]
      have hnext : ∀ {r : ReconciliationRecord}, ReconciliationFor receipt r →
          r.sequence = index + 1 → ∀ {result}, _ ↔ _ := fun {r} hfor hsequence {result} ↦
        @ih (some r) (r.reconciliationId :: identifiers) (index + 1) hdistincts (fun _ ↦ hunknown)
          (fun q hq ↦ Option.some.inj hq ▸ hfor) hsequence.symm result
      have hparentHash : (previous.map carried).map Prod.snd =
          (previous.map recordHash).map fun d ↦ units d.asStr := by
        rw [Option.map_map, Option.map_map]
        rfl
      have hround := fun r : ReconciliationRecord ↦ parentLink_iff hunknown hprev hindex (r := r)
      rw [List.map_cons, verifyReconciliations_cons, lowerTime_eq hv hprev]
      simp only [validateReconciliationRecord_iff hdistinct]
      constructor
      · rintro ⟨hopen, _, ⟨-, r, hwrites, hchecked, rfl⟩, hfresh, hreceipt, hsequence, hparent,
          htime, hash, hhash, hashes, last, hrest, rfl⟩
        rw [hid, List.mem_map_of_injective units_injective] at hfresh
        rw [(ReconciliationRecord.numbers hchecked.2.2.1.2 hchecked.2.2.2).1] at hsequence
        rw [(ReconciliationRecord.numbers hchecked.2.2.1.2 hchecked.2.2.2).2, Nat.cast_le] at htime
        replace hsequence := equal_sequence.mp hsequence
        rw [hparentHash] at hparent
        obtain ⟨hmark, hfor, hlink⟩ := (hround r).mp ⟨hopen, hchecked, equal_digest.mp hreceipt,
          hsequence, equal_orNull.mp hparent, htime⟩
        obtain rfl := (hashReconciliationRecord_eq_ok (hwrites.distinct hdistinct)
          hfor.record_valid).mp hhash
        rw [hid, hterminal] at hrest
        obtain ⟨rs, hrs, hmarks, hcore, hresult⟩ := (hnext hfor hsequence).mp hrest
        obtain ⟨rfl, rfl⟩ := Prod.mk.inj hresult
        refine ⟨r :: rs, .cons hwrites hrs, List.forall_mem_cons.mpr ⟨hmark, hmarks⟩,
          (core_verifyReconciliations_cons hv hprev).mpr ⟨hfresh, ⟨hfor, hlink⟩, hcore⟩, ?_⟩
        rw [List.map_cons, List.getLast?_cons]
        cases rs.getLast? <;> rfl
      · rintro ⟨_, hwrites, hmarks, hcore, rfl⟩
        cases hwrites with
        | @cons r _ rs _ hwrites hrs =>
            obtain ⟨hmark, hmarks⟩ := List.forall_mem_cons.mp hmarks
            obtain ⟨hfresh, ⟨hfor, hlink⟩, hcore⟩ :=
              (core_verifyReconciliations_cons hv hprev).mp hcore
            obtain ⟨hopen, hchecked, hreceipt, hsequence, hparent, htime⟩ :=
              (hround r).mpr ⟨hmark, hfor, hlink⟩
            have hnumbers := ReconciliationRecord.numbers hchecked.2.2.1.2 hchecked.2.2.2
            have hdistinct' := hwrites.distinct hdistinct
            refine ⟨hopen, _, ⟨hwrites.encodable hdistinct hfor.record_valid, r, hwrites, hchecked,
              rfl⟩, ?_, equal_digest.mpr hreceipt, ?_, ?_, ?_, hashUnits r,
              (hashReconciliationRecord_eq_ok hdistinct' hfor.record_valid).mpr rfl,
              rs.map hashUnits, (rs.getLast?.or (some r)).map recordValue, ?_, ?_⟩
            · rwa [hid, List.mem_map_of_injective units_injective]
            · rw [hnumbers.1]
              exact equal_sequence.mpr hsequence
            · rw [hparentHash]
              exact equal_orNull.mpr hparent
            · rwa [hnumbers.2, Nat.cast_le]
            · rw [hid, hterminal]
              exact (hnext hfor hsequence).mpr ⟨rs, hrs, hmarks, hcore, rfl⟩
            · rw [List.map_cons, List.getLast?_cons]
              cases rs.getLast? <;> rfl

end Reconciliations

/-! ## The size of a bundle -/

section Size

variable {α : Type} [ProtocolRecord α] [Deserialize α] [LawfulRecord α] {r : α} {v : Json}

theorem Writes.height_le (h : Writes r v) (hv : v.Distinct) (hvalid : validate r = .ok ()) :
    v.height ≤ 3 := by
  obtain ⟨_, _, hplain, -, -⟩ := LawfulRecord.plain hvalid
  rw [← hv.height_sortKeys, h.sortKeys_eq hvalid]
  refine Nat.succ_le_succ (Json.heightMembers_le_iff.mpr fun e he ↦ hplain.height e ?_)
  exact (KeyMap.collect_perm (fields_nodup r)).mem_iff.mp he

omit [Deserialize α] [LawfulRecord α] in
theorem Writes.nodes_eq (h : Writes r v) :
    v.nodes = ((Serialize.fields r).map fun e ↦ e.2.nodes).sum + 1 := by
  obtain ⟨ms, rfl, hperm⟩ := h
  rw [Json.nodes, Json.nodesMembers_eq_sum, (hperm.map _).sum_eq]

theorem Writes.bounded (h : Writes r v) (hv : v.Distinct) (hvalid : validate r = .ok ()) :
    v.bounded maxSafeInteger = true := by
  rw [← hv.bounded_sortKeys]
  exact (h.encodable hv hvalid).bounded

theorem nodes_taskCommitment {c : TaskCommitment} (h : Writes c v) : v.nodes = 11 := h.nodes_eq

theorem nodes_effectProposal {p : EffectProposal} (h : Writes p v) : v.nodes = 13 := h.nodes_eq

theorem nodesValues_strings (ss : List String) :
    Json.nodesValues (ss.map Json.str) = ss.length := by
  induction ss with
  | nil => rfl
  | cons s ss ih =>
    rw [List.map_cons, Json.nodesValues, ih, Json.nodes, List.length_cons, Nat.add_comm]

theorem nodesValues_digests (ds : List Digest32) :
    Json.nodesValues (ds.map writeDigest) = ds.length := by
  have hmap := nodesValues_strings (ds.map Digest32.asStr)
  rwa [List.map_map, List.length_map] at hmap

theorem nodes_authorizationDecision {d : AuthorizationDecision} (h : Writes d v)
    (hvalid : validate d = .ok ()) : v.nodes ≤ 329 := by
  obtain ⟨-, -, ⟨hevidence, -⟩, ⟨hreasons, -⟩, -⟩ := AuthorizationDecision.validate_eq_ok.mp hvalid
  rw [h.nodes_eq]
  simp only [Serialize.fields, List.map_cons, List.map_nil, List.sum_cons, List.sum_nil, Json.nodes,
    nodesValues_strings, nodesValues_digests, writeNat, writeDigest]
  omega

theorem nodes_executionGrant {g : ExecutionGrant} (h : Writes g v) : v.nodes = 10 := h.nodes_eq

theorem nodes_effectReceipt {r : EffectReceipt} (h : Writes r v) : v.nodes = 11 := by
  rw [h.nodes_eq]
  simp only [Serialize.fields, List.map_cons, List.map_nil, List.sum_cons, List.sum_nil, Json.nodes,
    writeNat, writeDigest]
  cases r.dispatchedAtMs <;> rfl

theorem nodes_reconciliationRecord {q : ReconciliationRecord} (h : Writes q v) : v.nodes = 9 := by
  rw [h.nodes_eq]
  simp only [Serialize.fields, List.map_cons, List.map_nil, List.sum_cons, List.sum_nil, Json.nodes,
    writeNat, writeDigest]
  cases q.parentReconciliationHash <;> rfl

/-- A value within which no more than so much of the budget is used. -/
structure Small (v : Json) (height nodes : Nat) : Prop where
  height_le : v.height ≤ height
  bounded : v.bounded maxSafeInteger = true
  nodes_le : v.nodes ≤ nodes

theorem Writes.small {n : Nat} (h : Writes r v) (hv : v.Distinct) (hvalid : validate r = .ok ())
    (hn : v.nodes ≤ n) : Small v 4 n :=
  ⟨(h.height_le hv hvalid).trans (by decide), h.bounded hv hvalid, hn⟩

theorem small_null {h n : Nat} (hh : 1 ≤ h) (hn : 1 ≤ n) : Small .null h n := ⟨hh, rfl, hn⟩

omit [ProtocolRecord α] [Deserialize α] [LawfulRecord α] in
theorem Small.encodable {h n : Nat} (hsmall : Small v h n) (hv : v.Distinct)
    (hh : h ≤ maxCanonicalNestingDepth) (hn : n ≤ maxCanonicalNodes) : Encodable v where
  height := hsmall.height_le.trans hh
  nodes := hsmall.nodes_le.trans hn
  bounded := by
    rw [hv.bounded_sortKeys]
    exact hsmall.bounded

/-- The sum over the members of an object is at most that over all names it may have. -/
theorem sum_members_le {ms : List (String × Json)} {names : List String}
    (hkeys : (ms.map Prod.fst).Nodup) (hnames : ∀ k ∈ ms.map Prod.fst, k ∈ names) :
    (ms.map fun e ↦ e.2.nodes).sum ≤ (names.map fun k ↦ (look ms k).nodes).sum := by
  have hlook : (ms.map fun e ↦ e.2.nodes) = (ms.map Prod.fst).map fun k ↦ (look ms k).nodes := by
    rw [List.map_map]
    refine List.map_congr_left fun e he ↦ ?_
    rw [Function.comp_apply, look, (KeyMap.lookup_eq_some_iff hkeys).mpr he]
    rfl
  obtain ⟨l, hperm, hsub⟩ := List.subperm_of_subset hkeys hnames
  rw [hlook, ← (hperm.map _).sum_eq]
  exact (hsub.map _).sum_le_sum (by simp)

/-- An object of small members under given names is small. -/
theorem small_obj {ms : List (String × Json)} {names : List String} {h : Nat}
    {budget : String → Nat} (hms : (Json.obj ms).Distinct)
    (hnames : ∀ k ∈ ms.map Prod.fst, k ∈ names)
    (hsmall : ∀ k ∈ names, Small (look ms k) h (budget k)) :
    Small (.obj ms) (h + 1) ((names.map budget).sum + 1) := by
  have hkeys : (ms.map Prod.fst).Nodup := by
    cases hms with
    | obj hkeys _ => exact hkeys
  have hmembers : ∀ e ∈ ms, Small e.2 h (budget e.1) := by
    intro e he
    have hlook := look_of_lookup ((KeyMap.lookup_eq_some_iff hkeys).mpr he)
    exact hlook ▸ hsmall e.1 (hnames e.1 (List.mem_map_of_mem he))
  refine ⟨?_, ?_, ?_⟩
  · exact Nat.succ_le_succ (Json.heightMembers_le_iff.mpr fun e he ↦ (hmembers e he).height_le)
  · exact Json.boundedMembers_iff.mpr fun e he ↦ (hmembers e he).bounded
  · have hsum : (names.map fun k ↦ (look ms k).nodes).sum ≤ (names.map budget).sum :=
      List.sum_le_sum fun k hk ↦ (hsmall k hk).nodes_le
    rw [Json.nodes, Json.nodesMembers_eq_sum]
    exact Nat.succ_le_succ ((sum_members_le hkeys hnames).trans hsum)

end Size

/-! ## The whole transaction -/

/-- A member that may be `null` or left out writes an optional record. -/
def OptionWrites {α : Type} [Serialize α] (o : Option α) (v : Json) : Prop :=
  match o with
  | none => v = .null
  | some r => Writes r v

/-- The members write the records of the bundle, and nothing else. -/
structure BundleWrites (b : TransactionBundle) (ms : List (String × Json)) : Prop where
  names : ∀ k ∈ ms.map Prod.fst, k ∈ bundleFields
  commitment : Writes b.commitment (look ms "commitment")
  proposal : Writes b.proposal (look ms "proposal")
  decision : Writes b.decision (look ms "decision")
  grant : OptionWrites b.grant (look ms "grant")
  receipt : OptionWrites b.receipt (look ms "receipt")
  reconciliations : ∃ vs, (ms.lookup "reconciliations").getD (.arr []) = .arr vs ∧
    List.Forall₂ Writes b.reconciliations vs

instance : Texts TransactionBundle where
  texts b := Texts.texts b.commitment ++ Texts.texts b.proposal ++ Texts.texts b.decision ++
    b.grant.toList.flatMap Texts.texts ++ b.receipt.toList.flatMap Texts.texts ++
    b.reconciliations.flatMap Texts.texts

theorem noMark_bundle {b : TransactionBundle} : NoMark b ↔
    (NoMark b.commitment ∧ NoMark b.proposal ∧ NoMark b.decision) ∧ (∀ g ∈ b.grant, NoMark g) ∧
      (∀ r ∈ b.receipt, NoMark r) ∧ ∀ q ∈ b.reconciliations, NoMark q := by
  have hflat : ∀ {α : Type} [Texts α] (l : List α),
      (∀ s ∈ l.flatMap Texts.texts, Unmarked s) ↔ ∀ a ∈ l, NoMark a := by
    intro α _ l
    simp only [List.mem_flatMap, NoMark]
    constructor
    · intro h a ha s hs
      exact h s ⟨a, ha, hs⟩
    · rintro h s ⟨a, ha, hs⟩
      exact h a ha s hs
  have hbundle : NoMark b ↔ ∀ s ∈ Texts.texts b.commitment ++ Texts.texts b.proposal ++
    Texts.texts b.decision ++ b.grant.toList.flatMap Texts.texts ++
    b.receipt.toList.flatMap Texts.texts ++ b.reconciliations.flatMap Texts.texts, Unmarked s :=
    Iff.rfl
  rw [hbundle]
  simp only [List.forall_mem_append, hflat, Option.mem_toList, Option.mem_def, and_assoc, NoMark]

/-- A state under the name that both sources write. -/
def stateName : TransactionState → String
  | .decided => "decided"
  | .granted => "granted"
  | .notDispatched => "not_dispatched"
  | .succeeded => "succeeded"
  | .failed => "failed"
  | .unknown => "unknown"
  | .effectConfirmed => "effect_confirmed"
  | .noEffectConfirmed => "no_effect_confirmed"
  | .partialEffect => "partial_effect"
  | .stillUnknown => "still_unknown"
  | .compensated => "compensated"

/-- The report of the Rust verifier in JavaScript strings. -/
def ofReport (report : Core.VerifiedTransaction) : VerifiedTransaction where
  commitmentHash := units report.commitmentHash.asStr
  proposalHash := units report.proposalHash.asStr
  decisionHash := units report.decisionHash.asStr
  grantHash := report.grantHash.map fun d ↦ units d.asStr
  receiptHash := report.receiptHash.map fun d ↦ units d.asStr
  reconciliationHashes := report.reconciliationHashes.map fun d ↦ units d.asStr
  state := units (stateName report.state)

section Transaction

variable {ms : List (String × Json)}

theorem reconciliationItems_eq_ok {items : List JsValue} :
    reconciliationItems (ofJsonMembers ms) = .ok items ↔
      ∃ vs, (ms.lookup "reconciliations").getD (.arr []) = .arr vs ∧
        vs.length ≤ Core.maxReconciliationRecords ∧ items = vs.map ofJson := by
  have hlookup : ((ofJsonMembers ms).lookup (js "reconciliations")).getD (.array []) =
      ofJson ((ms.lookup "reconciliations").getD (.arr [])) := by
    rw [lookup_ofJsonMembers]
    cases ms.lookup "reconciliations" <;> rfl
  rw [reconciliationItems, hlookup]
  cases (ms.lookup "reconciliations").getD (.arr []) with
  | arr vs =>
      rw [ofJson, ofJsonValues_eq_map]
      simp only [bind_eq_ok, rejectIf_eq_ok, exists_const, gt_iff_lt, not_lt, List.length_map,
        Except.ok.injEq, Json.arr.injEq, exists_eq_left']
      exact and_congr_right fun _ ↦ eq_comm
  | _ =>
      refine iff_of_false (by rintro ⟨⟩) ?_
      rintro ⟨vs, hvs, -⟩
      cases hvs

/-- The nodes that each part of a bundle with `n` reconciliations may use. -/
def bundleBudget (n : Nat) (name : String) : Nat :=
  if name = "reconciliations" then 9 * n + 1 else 329

theorem small_option {α : Type} [ProtocolRecord α] [Deserialize α] [LawfulRecord α] {o : Option α}
    {v : Json} (h : OptionWrites o v) (hv : v.Distinct) (hvalid : ∀ r ∈ o, validate r = .ok ())
    (hn : ∀ {r : α}, Writes r v → v.nodes ≤ 329) : Small v 4 329 := by
  cases o with
  | none =>
      obtain rfl : v = .null := h
      exact small_null (by decide) (by decide)
  | some r => exact Writes.small h hv (hvalid r rfl) (hn h)

theorem nodes_reconciliations {vs : List Json} {qs : List ReconciliationRecord}
    (h : List.Forall₂ Writes qs vs) : (Json.arr vs).nodes = 9 * qs.length + 1 := by
  induction h with
  | nil => rfl
  | cons hwrites _ ih =>
      rw [Json.nodes, Json.nodesValues, nodes_reconciliationRecord hwrites, List.length_cons]
      rw [Json.nodes] at ih
      omega

theorem small_reconciliations {vs : List Json} {qs : List ReconciliationRecord}
    (hv : (Json.arr vs).Distinct) (h : List.Forall₂ Writes qs vs)
    (hvalid : ∀ q ∈ qs, validate q = .ok ()) : Small (.arr vs) 4 (9 * qs.length + 1) := by
  have hitems : ∀ v ∈ vs, v.height ≤ 3 ∧ v.bounded maxSafeInteger = true := by
    cases hv with
    | arr hvs =>
        intro v hmem
        obtain ⟨q, hq, hwrites⟩ : ∃ q ∈ qs, Writes q v := by
          obtain ⟨i, hi, rfl⟩ := List.getElem_of_mem hmem
          have hi' : i < qs.length := h.length_eq ▸ hi
          exact ⟨qs[i], List.getElem_mem hi', h.get hi' hi⟩
        exact ⟨hwrites.height_le (hvs v hmem) (hvalid q hq),
          hwrites.bounded (hvs v hmem) (hvalid q hq)⟩
  refine ⟨?_, ?_, (nodes_reconciliations h).le⟩
  · exact Nat.succ_le_succ (Json.heightValues_le_iff.mpr fun v hmem ↦ (hitems v hmem).1)
  · exact Json.boundedValues_iff.mpr fun v hmem ↦ (hitems v hmem).2

variable [Sha256] {b : TransactionBundle}

/-- The documents of accepted bundles are small. -/
theorem small_bundle (hms : (Json.obj ms).Distinct) (h : BundleWrites b ms)
    (hacc : AcceptedBundle b) : Small (.obj ms) 5 (9 * b.reconciliations.length + 1647) := by
  have hchain := hacc.decision
  have hdistinct := fun name ↦ look_distinct hms name
  have hmembers : ∀ k ∈ bundleFields,
      Small (look ms k) 4 (bundleBudget b.reconciliations.length k) := by
    simp only [bundleFields, List.forall_mem_cons, List.not_mem_nil, false_imp_iff, implies_true,
      and_true, bundleBudget, String.reduceEq, reduceIte]
    refine ⟨?_, ?_, ?_, ?_, ?_, ?_⟩
    · exact h.commitment.small (hdistinct _) hchain.commitment_valid
        ((nodes_taskCommitment h.commitment).le.trans (by decide))
    · exact h.proposal.small (hdistinct _) hchain.proposal_valid
        ((nodes_effectProposal h.proposal).le.trans (by decide))
    · exact h.decision.small (hdistinct _) hchain.decision_valid
        (nodes_authorizationDecision h.decision hchain.decision_valid)
    · exact small_option h.grant (hdistinct _) (fun g hg ↦ (hacc.grant g hg).grant_valid) fun hg ↦
        (nodes_executionGrant hg).le.trans (by decide)
    · exact small_option h.receipt (hdistinct _) hacc.acceptable.receipt_valid fun hr ↦
        (nodes_effectReceipt hr).le.trans (by decide)
    · obtain ⟨vs, hvs, hrecords⟩ := h.reconciliations
      cases hlookup : ms.lookup "reconciliations" with
      | none =>
          rw [look, hlookup]
          exact small_null (by decide) (Nat.le_add_left _ _)
      | some v =>
          rw [hlookup] at hvs
          obtain rfl : v = .arr vs := hvs
          have harray := hdistinct "reconciliations"
          rw [look_of_lookup hlookup] at harray ⊢
          exact small_reconciliations harray hrecords hacc.acceptable.reconciliations_valid
  have hsum : (bundleFields.map (bundleBudget b.reconciliations.length)).sum + 1 =
      9 * b.reconciliations.length + 1647 := by
    simp [bundleFields, bundleBudget]
    omega
  rw [← hsum]
  exact small_obj hms h.names hmembers

/-- The documents of accepted bundles are within the limits of the encoding. -/
theorem encodable_bundle (hms : (Json.obj ms).Distinct) (h : BundleWrites b ms)
    (hacc : AcceptedBundle b) : Encodable (.obj ms) := by
  have hlimit := hacc.limit
  refine (small_bundle hms h hacc).encodable hms (by decide) ?_
  simp only [Core.maxReconciliationRecords, maxCanonicalNodes] at hlimit ⊢
  omega

omit [Sha256] in
theorem outcome_unknown {r : EffectReceipt} :
    stringAt (recordValue r) "outcome" = js "unknown" ↔ r.outcome = .unknown :=
  outcome_eq (o := .unknown)

omit [Sha256] in
/-- The outcome of the last record is the state of the transaction. -/
theorem state_eq {r : EffectReceipt} {last : Option ReconciliationRecord} :
    stringAt ((last.map recordValue).getD (recordValue r)) "outcome" =
      units (stateName (finalState r last)) := by
  cases last with
  | none =>
      have houtcome : stringAt (recordValue r) "outcome" = units r.outcome.name := stringAt_eq rfl
      show stringAt (recordValue r) "outcome" = _
      rw [houtcome, finalState]
      cases r.outcome <;> rfl
  | some q =>
      have houtcome : stringAt (recordValue q) "outcome" = units q.outcome.name := stringAt_eq rfl
      show stringAt (recordValue q) "outcome" = _
      rw [houtcome, finalState]
      cases q.outcome <;> rfl

omit [Sha256] in
theorem distinct_reconciliations (hms : (Json.obj ms).Distinct) {vs : List Json}
    (hvs : (ms.lookup "reconciliations").getD (.arr []) = .arr vs) : ∀ v ∈ vs, v.Distinct := by
  have harray := look_distinct hms "reconciliations"
  rw [look] at harray
  cases hlookup : ms.lookup "reconciliations" with
  | none =>
      rw [hlookup] at hvs
      obtain rfl : [] = vs := Json.arr.inj hvs
      rintro v ⟨⟩
  | some w =>
      rw [hlookup] at hvs harray
      obtain rfl : w = .arr vs := hvs
      cases harray with
      | arr h => exact h

omit [Sha256] in
theorem strictlyEqual_null {v : Json} : strictlyEqual (ofJson v) .null = true ↔ v = .null := by
  cases v <;> simp [ofJson, strictlyEqual]

omit [Sha256] in
theorem requiresReceipt_eq_ok {values : List JsValue} {u : Unit} :
    requiresReceipt values = .ok u ↔ values = [] := by
  rw [requiresReceipt, rejectIf_eq_ok, gt_iff_lt, Nat.not_lt, Nat.le_zero, List.length_eq_zero_iff]

theorem ofReport_received {c : TaskCommitment} {p : EffectProposal} {d : AuthorizationDecision}
    {g : ExecutionGrant} {r : EffectReceipt} {qs : List ReconciliationRecord} :
    { commitmentHash := hashUnits c, proposalHash := hashUnits p, decisionHash := hashUnits d
      grantHash := some (hashUnits g), receiptHash := some (hashUnits r)
      reconciliationHashes := qs.map hashUnits
      state := stringAt ((qs.getLast?.map recordValue).getD (recordValue r)) "outcome" } =
      ofReport (report ⟨c, p, d, some g, some r, qs⟩) := by
  have hhashes : ((qs.map recordHash).map fun d ↦ units d.asStr) = qs.map hashUnits := by
    rw [List.map_map]
    rfl
  rw [state_eq, ofReport, report, hhashes]
  rfl

/-- **What the TypeScript verifier accepts.**  It returns on the value of a JSON document exactly
when the document writes a bundle that the Rust verifier accepts and no text of which has a
byte order mark at an end, and what it returns is the report on that bundle. -/
theorem verifyTransaction_eq_ok {v : Json} (hv : v.Distinct) {result : VerifiedTransaction} :
    verifyTransaction (ofJson v) = .ok result ↔
      ∃ ms b, v = .obj ms ∧ BundleWrites b ms ∧ AcceptedBundle b ∧ NoMark b ∧
        result = ofReport (report b) := by
  rw [verifyTransaction]
  simp only [bind_eq_ok, objectAt_eq_ok hv]
  constructor
  · rintro ⟨_, ⟨-, ms, rfl, rfl⟩, ⟨⟩, hunknown, ⟨⟩, -,
      ⟨decision, taskHash, proposalHash, decisionHash⟩, hdecision, items, hitems, htail⟩
    obtain ⟨c, p, d, ⟨hc, hp, hd⟩, ⟨hcm, hpm, hdm⟩, hchain, heq⟩ :=
      (verifyDecision_eq_ok hv).mp hdecision
    obtain ⟨rfl, rfl, rfl, rfl⟩ := by simpa only [Prod.mk.injEq] using heq
    obtain ⟨vs, hvs, hlen, rfl⟩ := reconciliationItems_eq_ok.mp hitems
    have hnames := rejectUnknown_eq_ok.mp hunknown
    rw [field_ofJsonMembers, field_ofJsonMembers] at htail
    split at htail
    · rename_i hgrant
      simp only [bind_eq_ok, rejectIf_eq_ok, exists_const, requiresReceipt_eq_ok,
        Bool.not_eq_true', Bool.not_eq_false, strictlyEqual_null, List.map_eq_nil_iff,
        Except.ok.injEq] at htail
      obtain ⟨hreceipt, rfl, rfl⟩ := htail
      exact ⟨ms, ⟨c, p, d, none, none, []⟩, rfl,
        ⟨hnames, hc, hp, hd, ofJson_eq_null.mp hgrant, hreceipt, [], hvs, .nil⟩,
        ⟨hlen, hchain, by simp, by simp, by simp⟩,
        noMark_bundle.mpr ⟨⟨hcm, hpm, hdm⟩, by simp, by simp, by simp⟩, rfl⟩
    · simp only [bind_eq_ok, verifyGrant_eq_ok hchain (look_distinct hv _)] at htail
      obtain ⟨⟨_, _⟩, ⟨g, hg, hgm, hgrant, heq⟩, htail⟩ := htail
      obtain ⟨rfl, rfl⟩ := Prod.mk.inj heq
      dsimp only at htail
      split at htail
      · rename_i hreceipt
        simp only [bind_eq_ok, exists_const, requiresReceipt_eq_ok, List.map_eq_nil_iff,
          Except.ok.injEq] at htail
        obtain ⟨rfl, rfl⟩ := htail
        exact ⟨ms, ⟨c, p, d, some g, none, []⟩, rfl,
          ⟨hnames, hc, hp, hd, hg, ofJson_eq_null.mp hreceipt, [], hvs, .nil⟩,
          ⟨hlen, hchain, by simpa using hgrant, by simp, by simp⟩,
          noMark_bundle.mpr ⟨⟨hcm, hpm, hdm⟩, by simpa using hgm, by simp, by simp⟩, rfl⟩
      · simp only [bind_eq_ok, verifyReceipt_eq_ok hgrant.grant_valid (look_distinct hv _)] at htail
        obtain ⟨⟨_, _⟩, ⟨r, hr, hrm, hreceipt, heq⟩, htail⟩ := htail
        obtain ⟨rfl, rfl⟩ := Prod.mk.inj heq
        have hrv := hreceipt.receipt_valid
        simp only [rejectIf_eq_ok, exists_const, List.length_map, Except.ok.injEq] at htail
        obtain ⟨hkind, ⟨hashes, last⟩, hloop, rfl⟩ := htail
        have hunknown : vs ≠ [] → r.outcome = .unknown := fun hne ↦
          by_contra fun ho ↦ hkind ⟨List.length_pos_iff.mpr hne, mt outcome_unknown.mp ho⟩
        obtain ⟨qs, hqs, hqm, hcore, heq⟩ :=
          (@verifyReconciliations_eq_ok _ r none [] 0 hrv vs (distinct_reconciliations hv hvs)
            hunknown (by simp) rfl _).mp hloop
        obtain ⟨rfl, rfl⟩ := Prod.mk.inj heq
        obtain ⟨⟨heach, hlinked, hnodup, -⟩, -⟩ :=
          (Core.verifyReconciliations_eq_ok hrv (by simp)).mp hcore
        refine ⟨ms, ⟨c, p, d, some g, some r, qs⟩, rfl,
          ⟨hnames, hc, hp, hd, hg, hr, vs, hvs, hqs⟩,
          ⟨hqs.length_eq ▸ hlen, hchain, by simpa using hgrant, by simpa using hreceipt,
            fun _ ↦ ⟨r, rfl, heach, hlinked, hnodup⟩⟩,
          noMark_bundle.mpr ⟨⟨hcm, hpm, hdm⟩, by simpa using hgm, by simpa using hrm, hqm⟩, ?_⟩
        rw [Option.or_none]
        exact ofReport_received
  · rintro ⟨ms, b, rfl, hwrites, hacc, hmark, rfl⟩
    obtain ⟨vs, hvs, hqs⟩ := hwrites.reconciliations
    obtain ⟨⟨hcm, hpm, hdm⟩, hgm, hrm, hqm⟩ := noMark_bundle.mp hmark
    have hpresent : ∀ {name : String}, look ms name ≠ .null → name ∈ ms.map Prod.fst := fun h ↦
      KeyMap.mem_keys_of_lookup (look_eq_of_ne_null h)
    have hrequired : ∀ name ∈ ["commitment", "proposal", "decision"], name ∈ ms.map Prod.fst := by
      simp only [List.forall_mem_cons, List.not_mem_nil, false_imp_iff, implies_true, and_true]
      exact ⟨hpresent hwrites.commitment.ne_null, hpresent hwrites.proposal.ne_null,
        hpresent hwrites.decision.ne_null⟩
    refine ⟨_, ⟨encodable_bundle hv hwrites hacc, ms, rfl, rfl⟩, (),
      rejectUnknown_eq_ok.mpr hwrites.names, (), rejectMissing_eq_ok.mpr hrequired, _,
      (verifyDecision_eq_ok hv).mpr ⟨_, _, _, ⟨hwrites.commitment, hwrites.proposal,
        hwrites.decision⟩, ⟨hcm, hpm, hdm⟩, hacc.decision, rfl⟩, _,
      reconciliationItems_eq_ok.mpr ⟨vs, hvs, hqs.length_eq ▸ hacc.limit, rfl⟩, ?_⟩
    obtain ⟨c, p, d, g, r, qs⟩ := b
    have hgrant := hwrites.grant
    have hreceipt := hwrites.receipt
    rw [field_ofJsonMembers, field_ofJsonMembers]
    cases g with
    | none =>
        obtain rfl : r = none := Option.eq_none_iff_forall_not_mem.mpr fun r hr ↦ by
          obtain ⟨g, hg, -⟩ := hacc.receipt r hr
          cases hg
        obtain rfl : qs = [] := by
          by_contra hne
          obtain ⟨r, hr, -⟩ := hacc.history hne
          cases hr
        obtain rfl : vs = [] := by
          cases hqs
          rfl
        rw [show look ms "grant" = .null from hgrant, show look ms "receipt" = .null from hreceipt]
        rfl
    | some g =>
        have hchain := hacc.grant g rfl
        split
        · rename_i hnull
          exact absurd (ofJson_eq_null.mp hnull) (Writes.ne_null hgrant)
        · refine bind_eq_ok.mpr ⟨_, (verifyGrant_eq_ok hacc.decision (look_distinct hv _)).mpr
            ⟨g, hgrant, hgm g rfl, hchain, rfl⟩, ?_⟩
          dsimp only
          cases r with
          | none =>
              obtain rfl : qs = [] := by
                by_contra hne
                obtain ⟨r, hr, -⟩ := hacc.history hne
                cases hr
              obtain rfl : vs = [] := by
                cases hqs
                rfl
              rw [show look ms "receipt" = .null from hreceipt]
              rfl
          | some r =>
              obtain ⟨g', hg', hfor⟩ := hacc.receipt r rfl
              obtain rfl : g = g' := Option.some.inj hg'
              have hhistory := hacc.history_of_receipt (r := r) rfl
              have hunknown : vs ≠ [] → r.outcome = .unknown := fun hne ↦ by
                refine hacc.acceptable.unknown (fun hnil ↦ hne ?_) r rfl
                obtain rfl : qs = [] := hnil
                cases hqs
                rfl
              split
              · rename_i hnull
                exact absurd (ofJson_eq_null.mp hnull) (Writes.ne_null hreceipt)
              · refine bind_eq_ok.mpr ⟨_, (verifyReceipt_eq_ok hchain.grant_valid
                  (look_distinct hv _)).mpr ⟨r, hreceipt, hrm r rfl, hfor, rfl⟩, ?_⟩
                have hloop := (@verifyReconciliations_eq_ok _ r none [] 0 hfor.receipt_valid vs
                  (distinct_reconciliations hv hvs) hunknown (by simp) rfl _).mpr
                  ⟨qs, hqs, hqm, (Core.verifyReconciliations_eq_ok hfor.receipt_valid (by simp)).mpr
                    ⟨⟨hhistory.each, hhistory.linked, hhistory.distinct, by simp⟩, rfl⟩, rfl⟩
                refine bind_eq_ok.mpr ⟨(), rejectIf_eq_ok.mpr ?_, bind_eq_ok.mpr ⟨_, hloop, ?_⟩⟩
                · rintro ⟨hlen, houtcome⟩
                  rw [List.length_map] at hlen
                  exact houtcome (outcome_unknown.mpr (hunknown (List.length_pos_iff.mp hlen)))
                · rw [← ofReport_received, Option.or_none]

end Transaction

end Etp.TypeScript
