import Etp.Lib.Json.Language
import Etp.TypeScript.Agreement
import Etp.TypeScript.Strict

/-!
# Both implementations on one text

From a text to the report, the TypeScript verifier takes `parseStrictJson` and
`verifyTransaction`, and the Rust verifier `parse_transaction_bundle`, which reads with
serde.  `verifyText_eq_ok` is the comparison: the first takes the texts that the second
takes, except for those of other spellings than the schema's and those of a bundle with a
byte order mark at the end of a text, and reports the same.

Neither the limits of the strict parser nor its duplicate and number checks make a
difference.  A bundle that serde reads is small enough, its objects repeat no name, and its
numbers are safe integers.
-/

namespace Etp.TypeScript

open JsString Etp.Core

/-- What `verifyTransaction(parseStrictJson(text))` throws. -/
inductive TextError where
  | parsing (failure : Failure)
  | verifying (error : Thrown)

/-- `verifyTransaction(parseStrictJson(text))` -/
def verifyText [Sha256] (text : JsString) : Except TextError VerifiedTransaction := do
  let value ← (parseStrictJson text).mapError .parsing
  (verifyTransaction value).mapError .verifying

/-! ## The shape of what is written -/

section Record

variable {α : Type} [ProtocolRecord α] [Deserialize α] [Schema α] [LawfulSchema α] {r : α}
  {v : Json}

theorem Writes.schemaShaped (h : Writes r v) : SchemaShaped α v := by
  obtain ⟨ms, rfl, hperm⟩ := h
  refine ⟨ms, rfl, ?_, fun x hx ↦ ?_⟩
  · refine (hperm.map Prod.fst).trans ?_
    rw [LawfulRecord.names_eq r]
    exact LawfulSchema.names_perm
  · have hmem : ("outcome", x) ∈ ms := by
      obtain ⟨l₁, l₂, rfl, -⟩ := List.lookup_eq_some_iff.mp hx
      exact List.mem_append_right _ List.mem_cons_self
    exact LawfulSchema.outcome_str r _ (hperm.mem_iff.mp hmem) rfl

omit [Schema α] [LawfulSchema α] in
theorem Writes.distinct_of_valid [LawfulRecord α] (h : Writes r v) (hr : validate r = .ok ()) :
    v.Distinct := by
  obtain ⟨ms, rfl, hperm⟩ := h
  have hdocument := distinct_recordDocument hr
  cases hdocument with
  | obj hkeys hvalues =>
      exact .obj ((hperm.map Prod.fst).nodup_iff.mpr hkeys) fun e he ↦
        hvalues e (hperm.mem_iff.mp he)

end Record

section Bundle

variable {b : TransactionBundle} {ms : List (String × Json)} {name : String}

theorem OptionWrites.schemaShaped {α : Type} [ProtocolRecord α] [Deserialize α] [Schema α]
    [LawfulSchema α] {o : Option α} (h : OptionWrites o (look ms name)) :
    look ms name = .null ∨ SchemaShaped α (look ms name) := by
  cases o with
  | none => exact .inl h
  | some r => exact .inr (Writes.schemaShaped (r := r) h)

theorem OptionWrites.distinct {α : Type} [ProtocolRecord α] [Deserialize α] [LawfulRecord α]
    {o : Option α} (h : OptionWrites o (look ms name)) (ho : ∀ r ∈ o, validate r = .ok ()) :
    (look ms name).Distinct := by
  cases o with
  | none =>
      have hnull : look ms name = .null := h
      rw [hnull]
      exact .null
  | some r => exact Writes.distinct_of_valid (r := r) h (ho r rfl)

/-- What writes a bundle has the shape of the schema. -/
theorem BundleWrites.shape (h : BundleWrites b ms) : BundleShape ms where
  names := h.names
  commitment := h.commitment.schemaShaped
  proposal := h.proposal.schemaShaped
  decision := h.decision.schemaShaped
  grant := h.grant.schemaShaped
  receipt := h.receipt.schemaShaped
  reconciliations := by
    obtain ⟨vs, hvs, hwrites⟩ := h.reconciliations
    refine ⟨vs, hvs, fun v hv ↦ ?_⟩
    obtain ⟨i, rfl⟩ := List.mem_iff_get.mp hv
    have hi : i.val < b.reconciliations.length := by
      rw [hwrites.length_eq]
      exact i.isLt
    exact (hwrites.get hi i.isLt).schemaShaped

variable [Sha256]

/-- What writes an acceptable bundle repeats a name at the top only. -/
theorem BundleWrites.distinct (h : BundleWrites b ms) (hacc : Acceptable b)
    (hkeys : (ms.map Prod.fst).Nodup) : (Json.obj ms).Distinct := by
  have hchain := (acceptedBundle_iff.mpr hacc).decision
  have hreconciliations : (look ms "reconciliations").Distinct := by
    obtain ⟨vs, hvs, hwrites⟩ := h.reconciliations
    cases hlookup : ms.lookup "reconciliations" with
    | none =>
        rw [look, hlookup]
        exact .null
    | some v =>
        rw [hlookup] at hvs
        obtain rfl : v = .arr vs := hvs
        rw [look, hlookup]
        refine .arr fun w hw ↦ ?_
        obtain ⟨i, rfl⟩ := List.mem_iff_get.mp hw
        have hi : i.val < b.reconciliations.length := by
          rw [hwrites.length_eq]
          exact i.isLt
        refine (hwrites.get hi i.isLt).distinct_of_valid ?_
        exact hacc.reconciliations_valid _ (List.get_mem _ _)
  have hlook : ∀ k ∈ bundleFields, (look ms k).Distinct := by
    simp only [bundleFields, List.forall_mem_cons, List.not_mem_nil, false_imp_iff, implies_true,
      and_true]
    refine ⟨?_, ?_, ?_, ?_, ?_, hreconciliations⟩
    · exact h.commitment.distinct_of_valid hchain.commitment_valid
    · exact h.proposal.distinct_of_valid hchain.proposal_valid
    · exact h.decision.distinct_of_valid hchain.decision_valid
    · refine h.grant.distinct fun g hg ↦ ?_
      exact ((acceptedBundle_iff.mpr hacc).grant g hg).grant_valid
    · exact h.receipt.distinct hacc.receipt_valid
  refine .obj hkeys fun e he ↦ ?_
  have hvalue : look ms e.1 = e.2 := by
    rw [look, (KeyMap.lookup_eq_some_iff hkeys).mpr he]
    rfl
  rw [← hvalue]
  exact hlook e.1 (h.names e.1 (List.mem_map_of_mem he))

end Bundle

/-! ## The bytes of a reconciliation -/

theorem bytesOf_reconciliationRecord {q : ReconciliationRecord} {v : Json} (h : Writes q v) :
    107 ≤ Json.bytesOf v.text := by
  obtain ⟨ms, rfl, hperm⟩ := h
  have hname : ∀ e : String × Json, (Json.quote e.1).length ≤ Json.bytesOf (Json.memberText e) := by
    intro e
    rw [Json.memberText, Json.bytesOf_append]
    exact (Json.length_le_bytesOf _).trans (Nat.le_add_right _ _)
  have hfields : 107 ≤ ((Serialize.fields q).map fun e ↦ (Json.quote e.1).length).sum :=
    show 107 ≤ (_ : Nat) by
      simp only [Serialize.fields, List.map_cons, List.map_nil]
      decide
  rw [← (hperm.map _).sum_eq] at hfields
  exact (hfields.trans (List.sum_le_sum fun e _ ↦ hname e)).trans (Json.sum_le_bytesOf_obj ms)

/-- Each reconciliation takes its share of the bytes of a bundle. -/
theorem BundleWrites.bytes {b : TransactionBundle} {ms : List (String × Json)}
    (h : BundleWrites b ms) :
    107 * b.reconciliations.length ≤ Json.bytesOf (Json.obj ms).text := by
  obtain ⟨vs, hvs, hwrites⟩ := h.reconciliations
  have hrecords : ∀ {qs : List ReconciliationRecord} {vs : List Json}, List.Forall₂ Writes qs vs →
      107 * qs.length ≤ (vs.map fun v ↦ Json.bytesOf v.text).sum := by
    intro qs vs h
    induction h with
    | nil => rfl
    | cons hq _ ih =>
        have := bytesOf_reconciliationRecord hq
        rw [List.length_cons, List.map_cons, List.sum_cons]
        omega
  cases hlookup : ms.lookup "reconciliations" with
  | none =>
      rw [hlookup] at hvs
      obtain rfl : [] = vs := Json.arr.inj hvs
      rw [List.forall₂_nil_right_iff.mp hwrites]
      exact Nat.zero_le _
  | some v =>
      rw [hlookup] at hvs
      obtain rfl : v = .arr vs := hvs
      have hmem : ("reconciliations", Json.arr vs) ∈ ms := by
        obtain ⟨l₁, l₂, rfl, -⟩ := List.lookup_eq_some_iff.mp hlookup
        exact List.mem_append_right _ List.mem_cons_self
      exact ((hrecords hwrites).trans (Json.sum_le_bytesOf_arr vs)).trans
        (Json.bytesOf_member_le hmem)

/-! ## Texts -/

section Texts

variable {text : String} {v : Json}

/-- The bytes of a text denote what the grammar says. -/
theorem denotes_utf8 : Denotes (utf8 text) v ↔ Json.Text v text.toList := by
  simp only [Denotes, decodeUtf8_utf8, Option.some.injEq, exists_eq_left', Json.parse_eq_some]

theorem Accepted.spells (h : Accepted (units text) v) : Json.Text v text.toList := by
  obtain ⟨cs, hcs, htext⟩ := h.spelled
  rwa [utf16_injective hcs]

variable [Sha256]

/-- The text of a bundle in the shape of the schema is within the limits. -/
theorem accepted_of_writes {b : TransactionBundle} {ms : List (String × Json)}
    (hlen : (utf8 text).length ≤ maxTransportInputBytes) (htext : Json.Text (.obj ms) text.toList)
    (hkeys : (ms.map Prod.fst).Nodup) (hwrites : BundleWrites b ms) (hacc : Acceptable b) :
    Accepted (units text) (.obj ms) := by
  have hdistinct := hwrites.distinct hacc hkeys
  have hencodable := encodable_bundle hdistinct hwrites (acceptedBundle_iff.mpr hacc)
  exact {
    spelled := ⟨text.toList, rfl, htext⟩
    bytes := by rwa [toBuffer_units]
    distinct := hdistinct
    bounded := by
      rw [← hdistinct.bounded_sortKeys]
      exact hencodable.bounded
    height := hencodable.height
    nodes := hencodable.nodes }

/-- The text denotes a document in the shape of the schema. -/
def ShapedText (text : String) : Prop := ∃ v, Json.Text v text.toList ∧ BundleShaped v

/-- What the TypeScript verifier takes, said of the texts that the Rust verifier takes. -/
theorem verifyText_eq_ok {result : VerifiedTransaction} :
    verifyText (units text) = .ok result ↔
      ∃ b, parseTransactionBundle (utf8 text) = .ok b ∧ ShapedText text ∧ NoMark b ∧
        result = ofReport (report b) := by
  simp only [verifyText, bind_eq_ok, mapError_eq_ok, parseStrictJson_iff_accepted,
    parseTransactionBundle_eq_ok]
  constructor
  · rintro ⟨_, ⟨v, hv, rfl⟩, hverify⟩
    obtain ⟨b, ⟨ms, rfl, hwrites⟩, hacc, hmark, rfl⟩ :=
      (verifyTransaction_eq_report hv.distinct).mp hverify
    have hkeys : (ms.map Prod.fst).Nodup := by
      cases hv.distinct with
      | obj hkeys _ => exact hkeys
    have hlen : (utf8 text).length ≤ maxTransportInputBytes := by
      rw [← toBuffer_units]
      exact hv.bytes
    have hmembers : bundleMembers (.obj ms) = some ms :=
      structMembers_obj.mpr ⟨⟨hkeys, hwrites.names⟩, rfl⟩
    refine ⟨b, ⟨hlen, hacc, .obj ms, ms, denotes_utf8.mpr hv.spells, hmembers, hwrites.spells⟩, ?_,
      hmark, rfl⟩
    exact ⟨.obj ms, hv.spells, ms, rfl, hwrites.shape⟩
  · rintro ⟨b, ⟨hlen, hacc, v, ms, hv, hmembers, hspells⟩, ⟨w, hw, ms', rfl, hshape⟩, hmark, rfl⟩
    obtain rfl := hv.unique (denotes_utf8.mpr hw)
    obtain ⟨⟨hkeys, -⟩, rfl⟩ := structMembers_obj.mp hmembers
    have hwrites := hshape.writes hspells
    have haccepted := accepted_of_writes hlen hw hkeys hwrites hacc
    refine ⟨_, ⟨_, haccepted, rfl⟩, ?_⟩
    exact (verifyTransaction_eq_report haccepted.distinct).mpr
      ⟨b, ⟨ms', rfl, hwrites⟩, hacc, hmark, rfl⟩

/-- Both implementations take the text, with the same report, or neither does. -/
def TextsAgree (text : String) : Prop :=
  ∀ result, verifyText (units text) = .ok result ↔
    ∃ b, parseTransactionBundle (utf8 text) = .ok b ∧ result = ofReport (report b)

/-- **From a text to its report.**  The TypeScript verifier takes no string that is not a
sequence of scalar values.  On every text it agrees with the Rust verifier, unless the Rust
verifier takes the text and the text spells a record in another way than the schema or a
trimmed text of the bundle begins or ends with U+FEFF. -/
theorem texts_agree_iff :
    (∀ s result, verifyText s = .ok result → ∃ text, s = units text) ∧
      ∀ text, TextsAgree text ↔
        ∀ b, parseTransactionBundle (utf8 text) = .ok b → ShapedText text ∧ NoMark b := by
  refine ⟨fun s result h ↦ ?_, fun text ↦ ⟨fun h b hb ↦ ?_, fun h result ↦ ?_⟩⟩
  · simp only [verifyText, bind_eq_ok, mapError_eq_ok, parseStrictJson_iff_accepted] at h
    obtain ⟨_, ⟨v, hv, rfl⟩, -⟩ := h
    obtain ⟨cs, rfl, -⟩ := hv.spelled
    exact ⟨String.ofList cs, by rw [units, String.toList_ofList]⟩
  · obtain ⟨b', hb', hshape, hmark, -⟩ := verifyText_eq_ok.mp ((h _).mpr ⟨b, hb, rfl⟩)
    rw [hb] at hb'
    obtain rfl := Except.ok.inj hb'
    exact ⟨hshape, hmark⟩
  · refine verifyText_eq_ok.trans (exists_congr fun b ↦ and_congr_right fun hb ↦ ?_)
    obtain ⟨hshape, hmark⟩ := h b hb
    exact ⟨fun hreport ↦ hreport.2.2, fun hresult ↦ ⟨hshape, hmark, hresult⟩⟩

end Texts

end Etp.TypeScript
