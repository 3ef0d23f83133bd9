import Etp.Cli.Script
import Etp.TypeScript.Texts

/-!
# Both commands on one file

`commands_agree` says for every file what the script prints, by what the Rust command prints.
The script drops a byte order mark at the beginning of the file, which the command does not take
for JSON.  And it takes documents in the shape of the schema only (`InputShaped`), where the
command reads an array for a record, `null` for no description and repeated names in what is
expected.

The limits make no difference.  The strict parser counts the values of the whole envelope, the
expected hashes next to the bundle: a reconciliation takes more than a hundred bytes
(`BundleWrites.bytes`), so that a file within the limit has fewer than ten thousand of them.
-/

namespace Etp.Cli

open Etp.TypeScript JsString Etp.Core

/-! ## The report -/

section Report

variable {rep : Core.VerifiedTransaction} {e : Json}

theorem ofJson_arr (vs : List Json) : ofJson (.arr vs) = .array (vs.map ofJson) := by
  rw [ofJson, ofJsonValues_eq_map]

theorem ofVerified_ofReport :
    ofJsonMembers (reportMembers rep) = ofVerified (ofReport rep) := by
  have hoption : ∀ o : Option Digest32, ofJson (writeOption writeDigest o) =
      orNull (o.map fun d ↦ units d.asStr) := by
    rintro (_ | d) <;> rfl
  simp only [reportMembers, ofJsonMembers, hoption, ofJson_arr, ofVerified, ofReport, List.map_map]
  rfl

theorem distinct_writeOption (o : Option Digest32) : (writeOption writeDigest o).Distinct := by
  cases o with
  | none => exact .null
  | some d => exact .str _

theorem distinct_shown : (Json.obj (shownMembers rep)).Distinct := by
  refine .obj (by simp [shownMembers, reportMembers]) ?_
  simp only [shownMembers, reportMembers, List.forall_mem_cons, List.not_mem_nil, false_imp_iff,
    implies_true, and_true]
  refine ⟨.bool _, .str _, .str _, .str _, distinct_writeOption _, distinct_writeOption _, ?_,
    .str _⟩
  refine .arr fun v hv ↦ ?_
  obtain ⟨d, -, rfl⟩ := List.mem_map.mp hv
  exact .str _

theorem distinct_report : (Json.obj (reportMembers rep)).Distinct := by
  have h := @distinct_shown rep
  cases h with
  | obj hkeys hvalues =>
      exact .obj (List.nodup_cons.mp hkeys).2 fun e he ↦ hvalues e (.tail _ he)

theorem nodes_report :
    (Json.obj (reportMembers rep)).nodes = rep.reconciliationHashes.length + 8 := by
  have hoption : ∀ o : Option Digest32, (writeOption writeDigest o).nodes = 1 := by
    rintro (_ | d) <;> rfl
  simp only [reportMembers, Json.nodes, Json.nodesMembers, hoption, nodesValues_digests,
    writeDigest]
  omega

theorem height_report : (Json.obj (reportMembers rep)).height ≤ 3 := by
  have hoption : ∀ o : Option Digest32, (writeOption writeDigest o).height = 1 := by
    rintro (_ | d) <;> rfl
  have hhashes : Json.heightValues (rep.reconciliationHashes.map writeDigest) ≤ 1 := by
    refine Json.heightValues_le_iff.mpr fun v hv ↦ ?_
    obtain ⟨d, -, rfl⟩ := List.mem_map.mp hv
    exact le_rfl
  simp only [reportMembers, Json.height, Json.heightMembers, hoption, writeDigest]
  omega

theorem bounded_report {n : Nat} : (Json.obj (reportMembers rep)).bounded n = true := by
  have hoption : ∀ o : Option Digest32, (writeOption writeDigest o).bounded n = true := by
    rintro (_ | d) <;> rfl
  have hhashes : Json.boundedValues n (rep.reconciliationHashes.map writeDigest) = true := by
    refine Json.boundedValues_iff.mpr fun v hv ↦ ?_
    obtain ⟨d, -, rfl⟩ := List.mem_map.mp hv
    rfl
  simp [reportMembers, Json.bounded, Json.boundedMembers, hoption, hhashes, writeDigest]

/-- The two comparisons with what the envelope expects. -/
theorem checkExpected_eq_ok {u : Unit} (he : e.Distinct) (henc : Encodable e) :
    checkExpected (some (ofJson e)) (ofReport rep) = .ok u ↔
      e.sortKeys = (Json.obj (reportMembers rep)).sortKeys := by
  have hreport : (.object (ofVerified (ofReport rep)) : JsValue) =
      ofJson (.obj (reportMembers rep)) := by
    rw [ofJson, ofVerified_ofReport]
  have hwanted : canonicalJson (ofJson e) = .ok (utf16 e.sortKeys.text) :=
    (canonicalJson_ofJson he).mpr ⟨henc, rfl⟩
  rw [checkExpected, hreport]
  simp only [bind_eq_ok, mapError_eq_ok, hwanted, Except.ok.injEq, exists_eq_left', rejectIf_eq_ok,
    not_not, canonicalJson_ofJson distinct_report]
  constructor
  · rintro ⟨_, ⟨-, rfl⟩, htext⟩
    exact Json.text_injective (utf16_injective htext)
  · intro hsort
    refine ⟨_, ⟨⟨?_, ?_, ?_⟩, rfl⟩, by rw [hsort]⟩
    · exact height_report.trans (by decide)
    · rw [← distinct_report.nodes_sortKeys, ← hsort, he.nodes_sortKeys]
      exact henc.nodes
    · rw [← hsort]
      exact henc.bounded

end Report

/-! ## What the command reads -/

/-- What the checks of an envelope let through. -/
structure VectorEnvelope.Admitted (envelope : VectorEnvelope) : Prop where
  profile : envelope.profile = coreProfile
  description : ∀ d ∈ envelope.description, d.length ≤ 4096 ∧ ∀ c ∈ d.toList, isControl c = false

/-- The bundle of an input, with what is expected of it. -/
inductive Holds : VerifyInput → TransactionBundle → Option Json → Prop
  | vector {envelope : VectorEnvelope} (h : envelope.Admitted) :
      Holds (.vector envelope) envelope.transaction (some envelope.expected)
  | transaction {b : TransactionBundle} : Holds (.transaction b) b none

theorem unwrap_eq_ok {input : VerifyInput} {b : TransactionBundle} {expected : Option Json} :
    input.unwrap = .ok (b, expected) ↔ Holds input b expected := by
  cases input with
  | vector envelope =>
      have hdescription : (¬∃ d ∈ envelope.description, d.length > 4096 ∨
            d.toList.any isControl = true) ↔
          ∀ d ∈ envelope.description, d.length ≤ 4096 ∧ ∀ c ∈ d.toList, isControl c = false := by
        simp [not_or]
      simp only [VerifyInput.unwrap, bind_eq_ok, rejectIf_eq_ok, not_not, hdescription,
        exists_const]
      constructor
      · rintro ⟨hprofile, hdescription, ⟨⟩⟩
        exact .vector ⟨hprofile, hdescription⟩
      · rintro ⟨h⟩
        exact ⟨h.profile, h.description, rfl⟩
  | transaction bundle =>
      constructor
      · rintro ⟨⟩
        exact .transaction
      · rintro ⟨⟩
        rfl

section Command

variable [Sha256]

/-- The report of the bundle is the one that is expected, if any is. -/
def Meets (expected : Option Json) (b : TransactionBundle) : Prop :=
  ∀ e ∈ expected, e.sortKeys = (Json.obj (reportMembers (report b))).sortKeys

/-- What is printed for a bundle. -/
def shown (b : TransactionBundle) : Json := .obj (shownMembers (report b))

/-- When the command prints a result, and which. -/
theorem verifyFile_eq_ok {text : String} {out : Json} :
    verifyFile (utf8 text) = .ok out ↔ (utf8 text).length ≤ Core.maxTransportInputBytes ∧
      ∃ v input b expected, Json.Text v text.toList ∧ readInput v = some input ∧
        Holds input b expected ∧ Acceptable b ∧ Meets expected b ∧ out = (shown b).sortKeys := by
  have hread : ∀ input, strictDeserialize (utf8 text) = some input ↔
      ∃ v, Json.Text v text.toList ∧ readInput v = some input := by
    intro input
    simp [strictDeserialize, decodeUtf8_utf8, Json.parse_eq_some, Option.bind_eq_some_iff]
  have hmeets : ∀ expected b, (¬∃ e ∈ expected,
      e.sortKeys ≠ (Json.obj (reportMembers (report b))).sortKeys) ↔ Meets expected b := by
    simp [Meets]
  simp only [verifyFile, verifiedJson, bind_eq_ok, rejectIf_eq_ok, not_lt, gt_iff_lt, exists_const,
    okOr_eq_ok, hread, mapError_eq_ok, Core.verifyTransaction_eq_ok]
  refine and_congr_right fun _ ↦ ?_
  constructor
  · rintro ⟨input, ⟨v, htext, hinput⟩, ⟨b, expected⟩, hunwrap, _, ⟨hacc, rfl⟩, hexpected, ⟨⟩⟩
    exact ⟨v, input, b, expected, htext, hinput, unwrap_eq_ok.mp hunwrap,
      acceptedBundle_iff.mp hacc, (hmeets expected b).mp hexpected, rfl⟩
  · rintro ⟨v, input, b, expected, htext, hinput, hholds, hacc, hexpected, rfl⟩
    exact ⟨input, ⟨v, htext, hinput⟩, (b, expected), unwrap_eq_ok.mpr hholds, _,
      ⟨acceptedBundle_iff.mpr hacc, rfl⟩, (hmeets expected b).mpr hexpected, rfl⟩

end Command

/-! ## The documents of the schema's shape -/

/-- A description is a string of at most 4096 characters without control characters. -/
def Described (ms : List (String × Json)) : Prop :=
  ∀ d, ms.lookup "description" = some d →
    ∃ s, d = .str s ∧ s.length ≤ 4096 ∧ ∀ c ∈ s.toList, isControl c = false

/-- The document is a bundle, or the envelope of one with what is expected of it. -/
inductive Submits (b : TransactionBundle) : Option Json → Json → Prop
  | bundle {ms : List (String × Json)} (h : BundleWrites b ms) : Submits b none (.obj ms)
  | vector {ms : List (String × Json)} {t e : Json}
      (names : ∀ k ∈ ms.map Prod.fst, k ∈ envelopeFields)
      (profile : ms.lookup "profile" = some (.str coreProfile)) (described : Described ms)
      (transaction : ms.lookup "transaction" = some t) (documents : Documents b t)
      (expected : ms.lookup "expected" = some e) : Submits b (some e) (.obj ms)

/-- The envelopes that say the same to both commands: one takes `null` for no description, and
the other does not. -/
structure EnvelopeShape (ms : List (String × Json)) : Prop where
  transaction : ∃ t, ms.lookup "transaction" = some t ∧ BundleShaped t
  description : ms.lookup "description" ≠ some .null

structure InputShaped (v : Json) : Prop where
  distinct : v.Distinct
  shape : BundleShaped v ∨ ∃ ms, v = .obj ms ∧ EnvelopeShape ms

section Shape

variable [Sha256] {v : Json} {b : TransactionBundle} {expected : Option Json}
  {ms : List (String × Json)}

theorem readTransaction_of_documents (hv : v.Distinct) (h : Documents b v) (hacc : Acceptable b) :
    readTransaction v = some b := by
  obtain ⟨ms, rfl, hwrites⟩ := h
  have hkeys : (ms.map Prod.fst).Nodup := by
    cases hv with
    | obj hkeys _ => exact hkeys
  have hmembers : bundleMembers (.obj ms) = some ms :=
    structMembers_obj.mpr ⟨⟨hkeys, hwrites.names⟩, rfl⟩
  rw [readTransaction, hmembers, Option.bind_some]
  exact (readBundle_eq_some hacc).mpr hwrites.spells

theorem documents_of_readTransaction (hshape : BundleShaped v) (h : readTransaction v = some b)
    (hacc : Acceptable b) : Documents b v := by
  obtain ⟨ms, rfl, hshape⟩ := hshape
  rw [readTransaction, Option.bind_eq_some_iff] at h
  obtain ⟨ms', hmembers, hread⟩ := h
  obtain ⟨-, rfl⟩ := structMembers_obj.mp hmembers
  exact ⟨ms, rfl, hshape.writes ((readBundle_eq_some hacc).mp hread)⟩

omit [Sha256] in
theorem readEnvelope_eq_some {envelope : VectorEnvelope} :
    readEnvelope (.obj ms) = some envelope ↔
      ((ms.map Prod.fst).Nodup ∧ ∀ k ∈ ms.map Prod.fst, k ∈ envelopeFields) ∧
        ms.lookup "profile" = some (.str envelope.profile) ∧
        optionalField readText ms "description" = some envelope.description ∧
        (∃ t, ms.lookup "transaction" = some t ∧ readTransaction t = some envelope.transaction) ∧
        ms.lookup "expected" = some envelope.expected := by
  have htext : ∀ v s, readText v = some s ↔ v = .str s := by
    intro v s
    cases v <;> simp [readText]
  simp only [readEnvelope, Option.bind_eq_bind, Option.bind_eq_some_iff, structMembers_obj,
    Option.some.injEq, requiredField, htext]
  constructor
  · rintro ⟨_, ⟨hnames, rfl⟩, _, ⟨_, hprofile, rfl⟩, _, hdescription, _, htransaction, _, hexpected,
      rfl⟩
    exact ⟨hnames, hprofile, hdescription, htransaction, hexpected⟩
  · rintro ⟨hnames, hprofile, hdescription, htransaction, hexpected⟩
    exact ⟨_, ⟨hnames, rfl⟩, _, ⟨_, hprofile, rfl⟩, _, hdescription, _, htransaction, _, hexpected,
      rfl⟩

omit [Sha256] in
/-- The description of an envelope that is admitted, unless it is `null`. -/
theorem described_iff (hnull : ms.lookup "description" ≠ some .null) :
    Described ms ↔ ∃ o, optionalField readText ms "description" = some o ∧
      ∀ d ∈ o, d.length ≤ 4096 ∧ ∀ c ∈ d.toList, isControl c = false := by
  rw [Described, optionalField]
  cases hlookup : ms.lookup "description" with
  | none => simp
  | some v =>
      cases v with
      | null => exact absurd hlookup hnull
      | str s => simp [readOption, readText]
      | _ => simp [readOption, readText]

omit [Sha256] in
theorem mem_names {name : String} {v : Json} (h : ms.lookup name = some v) :
    name ∈ ms.map Prod.fst := KeyMap.mem_keys_of_lookup h

omit [Sha256] in
/-- A bundle is no envelope. -/
theorem readEnvelope_bundle (h : ∀ k ∈ ms.map Prod.fst, k ∈ bundleFields) :
    readEnvelope (.obj ms) = none := by
  by_contra hsome
  obtain ⟨envelope, hread⟩ := Option.ne_none_iff_exists'.mp hsome
  obtain ⟨-, hprofile, -⟩ := readEnvelope_eq_some.mp hread
  exact absurd (h _ (mem_names hprofile)) (by decide)

omit [Sha256] in
theorem Submits.shaped (hv : v.Distinct) (h : Submits b expected v) : InputShaped v := by
  refine ⟨hv, ?_⟩
  cases h with
  | bundle hwrites => exact .inl ⟨_, rfl, hwrites.shape⟩
  | vector _ _ hdescribed htransaction hdocuments _ =>
      obtain ⟨ts, rfl, hwrites⟩ := hdocuments
      refine .inr ⟨_, rfl, ⟨_, htransaction, ts, rfl, hwrites.shape⟩, fun hnull ↦ ?_⟩
      obtain ⟨s, hs, -⟩ := hdescribed _ hnull
      cases hs

/-- What the command reads from a document that submits an acceptable bundle. -/
theorem Submits.read (hv : v.Distinct) (h : Submits b expected v) (hacc : Acceptable b) :
    ∃ input, readInput v = some input ∧ Holds input b expected := by
  cases h with
  | bundle hwrites =>
      refine ⟨.transaction b, ?_, .transaction⟩
      have htransaction := readTransaction_of_documents hv ⟨_, rfl, hwrites⟩ hacc
      rw [readInput, readEnvelope_bundle hwrites.names]
      exact congrArg (Option.map VerifyInput.transaction) htransaction
  | @vector ms t e hnames hprofile hdescribed htransaction hdocuments hexpected =>
      obtain ⟨hkeys, hvalues⟩ : (ms.map Prod.fst).Nodup ∧ ∀ e ∈ ms, e.2.Distinct := by
        cases hv with
        | obj hkeys hvalues => exact ⟨hkeys, hvalues⟩
      have hdescription : ms.lookup "description" ≠ some .null := by
        intro hnull
        obtain ⟨s, hs, -⟩ := hdescribed _ hnull
        cases hs
      obtain ⟨o, ho, hadmitted⟩ := (described_iff hdescription).mp hdescribed
      have ht := hvalues _ ((KeyMap.lookup_eq_some_iff hkeys).mp htransaction)
      have henvelope : readEnvelope (.obj ms) = some ⟨coreProfile, o, b, e⟩ :=
        readEnvelope_eq_some.mpr ⟨⟨hkeys, hnames⟩, hprofile, ho,
          ⟨t, htransaction, readTransaction_of_documents ht hdocuments hacc⟩, hexpected⟩
      exact ⟨.vector ⟨coreProfile, o, b, e⟩, by rw [readInput, henvelope], .vector ⟨rfl, hadmitted⟩⟩

/-- The acceptable bundles that the command reads from the documents of the schema's shape. -/
theorem submits_of_read {input : VerifyInput} (hshape : InputShaped v)
    (hread : readInput v = some input) (hholds : Holds input b expected) (hacc : Acceptable b) :
    Submits b expected v := by
  rcases hshape.shape with ⟨ms, rfl, hbundle⟩ | ⟨ms, rfl, htransaction, hdescription⟩
  · rw [readInput, readEnvelope_bundle hbundle.names] at hread
    obtain ⟨b', hb', rfl⟩ := Option.map_eq_some_iff.mp hread
    cases hholds
    obtain ⟨_, ⟨⟩, hwrites⟩ := documents_of_readTransaction ⟨ms, rfl, hbundle⟩ hb' hacc
    exact .bundle hwrites
  · obtain ⟨t, htransaction, ht⟩ := htransaction
    rw [readInput] at hread
    cases henvelope : readEnvelope (.obj ms) with
    | none =>
        -- A bundle has no member `transaction`.
        rw [henvelope] at hread
        obtain ⟨b', hb', rfl⟩ := Option.map_eq_some_iff.mp hread
        rw [readTransaction, Option.bind_eq_some_iff] at hb'
        obtain ⟨_, hmembers, -⟩ := hb'
        obtain ⟨⟨-, hnames⟩, -⟩ := structMembers_obj.mp hmembers
        exact absurd (hnames _ (mem_names htransaction)) (by decide)
    | some envelope =>
        rw [henvelope] at hread
        obtain rfl := Option.some.inj hread
        obtain ⟨⟨-, hnames⟩, hprofile, hdesc, ⟨t', ht', hreadt⟩, hexpected⟩ :=
          readEnvelope_eq_some.mp henvelope
        rw [htransaction] at ht'
        obtain rfl := Option.some.inj ht'
        obtain ⟨hadmitted⟩ := hholds
        refine .vector hnames ?_ ?_ htransaction
          (documents_of_readTransaction ht hreadt hacc) hexpected
        · rw [hprofile, hadmitted.profile]
        · exact (described_iff hdescription).mpr ⟨_, hdesc, hadmitted.description⟩

omit [Sha256] in
theorem small_str {t : String} {h n : Nat} (hh : 1 ≤ h) (hn : 1 ≤ n) : Small (.str t) h n :=
  ⟨hh, rfl, hn⟩

/-- What is expected of a bundle is as small as its report. -/
theorem small_expected {e : Json} (he : e.Distinct) (hmeets : Meets (some e) b) :
    Small e 5 (b.reconciliations.length + 8) := by
  have hsort := hmeets e rfl
  have hreport := @distinct_report (report b)
  refine ⟨?_, ?_, ?_⟩
  · rw [← he.height_sortKeys, hsort, hreport.height_sortKeys]
    exact height_report.trans (by decide)
  · rw [← he.bounded_sortKeys, hsort, hreport.bounded_sortKeys]
    exact bounded_report
  · rw [← he.nodes_sortKeys, hsort, hreport.nodes_sortKeys, nodes_report]
    simp [report]

/-- What the members of an envelope use. -/
def envelopeBudget (n : Nat) (name : String) : Nat :=
  if name = "transaction" then 9 * n + 1647 else if name = "expected" then n + 8 else 1

theorem small_envelope {t e : Json} (hv : (Json.obj ms).Distinct)
    (hnames : ∀ k ∈ ms.map Prod.fst, k ∈ envelopeFields)
    (hprofile : ms.lookup "profile" = some (.str coreProfile)) (hdescribed : Described ms)
    (htransaction : ms.lookup "transaction" = some t) (hdocuments : Documents b t)
    (hexpected : ms.lookup "expected" = some e) (hacc : Acceptable b) (hmeets : Meets (some e) b) :
    Small (.obj ms) 6 (10 * b.reconciliations.length + 1658) := by
  have hdistinct := fun name ↦ look_distinct hv name
  have hmembers : ∀ k ∈ envelopeFields,
      Small (look ms k) 5 (envelopeBudget b.reconciliations.length k) := by
    simp only [envelopeFields, List.forall_mem_cons, List.not_mem_nil, false_imp_iff, implies_true,
      and_true, envelopeBudget, String.reduceEq, reduceIte]
    refine ⟨?_, ?_, ?_, ?_⟩
    · rw [look_of_lookup hprofile]
      exact small_str (by decide) le_rfl
    · cases hlookup : ms.lookup "description" with
      | none =>
          rw [look, hlookup]
          exact small_null (by decide) le_rfl
      | some d =>
          obtain ⟨s, rfl, -⟩ := hdescribed d hlookup
          rw [look_of_lookup hlookup]
          exact small_str (by decide) le_rfl
    · have ht := hdistinct "transaction"
      obtain ⟨ts, rfl, hwrites⟩ := hdocuments
      rw [look_of_lookup htransaction] at ht ⊢
      exact small_bundle ht hwrites (acceptedBundle_iff.mpr hacc)
    · have he := hdistinct "expected"
      rw [look_of_lookup hexpected] at he ⊢
      exact small_expected he hmeets
  have hsum : (envelopeFields.map (envelopeBudget b.reconciliations.length)).sum + 1 =
      10 * b.reconciliations.length + 1658 := by
    simp [envelopeFields, envelopeBudget]
    omega
  rw [← hsum]
  exact small_obj hv hnames hmembers

/-- The text of a document that submits an acceptable bundle is within the limits: the bytes of
the reconciliations leave room for what is expected of them. -/
theorem accepted_of_submits {text : String}
    (hlen : (utf8 text).length ≤ Core.maxTransportInputBytes) (htext : Json.Text v text.toList)
    (hv : v.Distinct) (h : Submits b expected v) (hacc : Acceptable b) (hmeets : Meets expected b) :
    Accepted (units text) v := by
  cases h with
  | bundle hwrites =>
      cases hv with
      | obj hkeys _ => exact accepted_of_writes hlen htext hkeys hwrites hacc
  | @vector ms t e hnames hprofile hdescribed htransaction hdocuments hexpected =>
      have hsmall := small_envelope hv hnames hprofile hdescribed htransaction hdocuments hexpected
        hacc hmeets
      have hrecords : 107 * b.reconciliations.length ≤ 1048576 := by
        obtain ⟨ts, rfl, hwrites⟩ := hdocuments
        have hmem : ("transaction", Json.obj ts) ∈ ms := by
          obtain ⟨l₁, l₂, rfl, -⟩ := List.lookup_eq_some_iff.mp htransaction
          exact List.mem_append_right _ List.mem_cons_self
        calc 107 * b.reconciliations.length
          _ ≤ Json.bytesOf (Json.obj ts).text := hwrites.bytes
          _ ≤ Json.bytesOf (Json.obj ms).text := Json.bytesOf_member_le hmem
          _ ≤ Json.bytesOf text.toList := Json.bytesOf_text_le htext
          _ ≤ 1048576 := hlen
      exact {
        spelled := ⟨text.toList, rfl, htext⟩
        bytes := by rwa [toBuffer_units]
        distinct := hv
        bounded := hsmall.bounded
        height := hsmall.height_le.trans (by decide)
        nodes := hsmall.nodes_le.trans (by omega) }

end Shape

/-! ## What the script takes -/

section Script

variable {ms : List (String × Json)} {v : Json} {input : VerificationInput}

theorem length_codePoints_units (s : String) : (codePoints (units s)).length = s.length := by
  rw [units, codePoints_utf16, List.length_map, String.length_toList]

theorem checkDescription_eq_ok {u : Unit} :
    checkDescription (ofJsonMembers ms) = .ok u ↔ Described ms := by
  have hstring : ∀ s : String,
      ¬((codePoints (units s)).length > 4096 ∨ (units s).any isControlUnit = true) ↔
        s.length ≤ 4096 ∧ ∀ c ∈ s.toList, isControl c = false := by
    intro s
    rw [length_codePoints_units, any_control_units]
    simp [not_or]
  rw [checkDescription, Described, hasOwn, lookup_ofJsonMembers, Option.isSome_map,
    field_ofJsonMembers, look]
  cases ms.lookup "description" with
  | none => simp
  | some d =>
      rw [if_pos Option.isSome_some, Option.getD_some]
      cases d with
      | str s =>
          refine rejectIf_eq_ok.trans ((hstring s).trans ?_)
          simp
      | _ =>
          refine iff_of_false (by rintro ⟨⟩) fun h ↦ ?_
          obtain ⟨s, hs, -⟩ := h _ rfl
          cases hs

theorem object_eq_ok {path : JsString} {record : Record} :
    object (ofJson v) path = .ok record ↔ ∃ ms, v = .obj ms ∧ record = ofJsonMembers ms := by
  cases v with
  | obj ms =>
      simp only [object, ofJson, Except.ok.injEq, Json.obj.injEq, exists_eq_left']
      exact eq_comm
  | _ =>
      refine iff_of_false (by rintro ⟨⟩) ?_
      rintro ⟨ms, hms, -⟩
      cases hms

theorem look_eq_str {name s : String} :
    look ms name = .str s ↔ ms.lookup name = some (.str s) := by
  rw [look]
  cases ms.lookup name <;> simp

theorem strictlyEqual_str {s : String} :
    strictlyEqual (ofJson v) (.string (js s)) = true ↔ v = .str s := by
  cases v with
  | str t => exact strictlyEqual_string.trans (by rw [Json.str.injEq])
  | _ => simp [ofJson, strictlyEqual]

/-- What the script takes for an envelope. -/
structure Enveloped (ms : List (String × Json)) : Prop where
  required : ∀ name ∈ ["profile", "transaction", "expected"], name ∈ ms.map Prod.fst
  names : ∀ name ∈ ms.map Prod.fst, name ∈ envelopeFields
  profile : ms.lookup "profile" = some (.str coreProfile)
  described : Described ms
  expected : ∃ es, look ms "expected" = .obj es

theorem unwrap_envelope (h : "transaction" ∈ ms.map Prod.fst) :
    unwrapVerificationInput (ofJson (.obj ms)) = .ok input ↔ Enveloped ms ∧
      input = ⟨ofJson (look ms "transaction"), some (ofJson (look ms "expected"))⟩ := by
  have hobject : object (ofJson (.obj ms)) (js "input") = .ok (ofJsonMembers ms) :=
    object_eq_ok.mpr ⟨ms, rfl, rfl⟩
  have hprofile :
      ¬((!strictlyEqual (ofJson (look ms "profile")) (.string (js coreProfile))) = true) ↔
        ms.lookup "profile" = some (.str coreProfile) := by
    rw [← look_eq_str, Bool.not_eq_true, Bool.not_eq_false', strictlyEqual_str]
  rw [unwrapVerificationInput]
  simp only [bind_eq_ok, hobject, Except.ok.injEq, exists_eq_left', hasOwn_ofJsonMembers.mpr h,
    reduceIte, rejectMissing_eq_ok, rejectUnknown_eq_ok, rejectIf_eq_ok, checkDescription_eq_ok,
    field_ofJsonMembers, hprofile, object_eq_ok, exists_const]
  constructor
  · rintro ⟨hrequired, hnames, hprofile, hdescribed, _, ⟨es, hes, rfl⟩, rfl⟩
    exact ⟨⟨hrequired, hnames, hprofile, hdescribed, es, hes⟩, rfl⟩
  · rintro ⟨⟨hrequired, hnames, hprofile, hdescribed, es, hes⟩, rfl⟩
    exact ⟨hrequired, hnames, hprofile, hdescribed, _, ⟨es, hes, rfl⟩, rfl⟩

theorem unwrap_bundle (h : "transaction" ∉ ms.map Prod.fst) :
    unwrapVerificationInput (ofJson (.obj ms)) = .ok input ↔ input = ⟨ofJson (.obj ms), none⟩ := by
  have hown : hasOwn (ofJsonMembers ms) "transaction" = false :=
    Bool.eq_false_iff.mpr fun hown ↦ h (hasOwn_ofJsonMembers.mp hown)
  have hobject : object (ofJson (.obj ms)) (js "input") = .ok (ofJsonMembers ms) :=
    object_eq_ok.mpr ⟨ms, rfl, rfl⟩
  rw [unwrapVerificationInput]
  simp only [bind_eq_ok, hobject, Except.ok.injEq, exists_eq_left', hown, Bool.false_eq_true,
    reduceIte]
  rw [ofJson]
  exact eq_comm

theorem encodable_lookup {name : String} {w : Json} (hv : (Json.obj ms).Distinct)
    (henc : Encodable (.obj ms)) (hlookup : ms.lookup name = some w) : Encodable w := by
  obtain ⟨hkeys, hvalues⟩ : (ms.map Prod.fst).Nodup ∧ ∀ e ∈ ms, e.2.Distinct := by
    cases hv with
    | obj hkeys hvalues => exact ⟨hkeys, hvalues⟩
  have hmem := (KeyMap.lookup_eq_some_iff hkeys).mp hlookup
  refine ⟨?_, ?_, ?_⟩
  · have hheight : Json.heightMembers ms ≤ maxCanonicalNestingDepth :=
      (Nat.le_succ _).trans henc.height
    exact Json.heightMembers_le_iff.mp hheight _ hmem
  · have hnodes := henc.nodes
    rw [Json.nodes, Json.nodesMembers_eq_sum] at hnodes
    refine (List.single_le_sum (by simp) _ ?_).trans ((Nat.le_succ _).trans hnodes)
    exact List.mem_map.mpr ⟨_, hmem, rfl⟩
  · have hbounded := henc.bounded
    rw [hv.bounded_sortKeys] at hbounded
    rw [(hvalues _ hmem).bounded_sortKeys]
    exact Json.boundedMembers_iff.mp hbounded _ hmem

/-- Only objects are written as objects. -/
theorem exists_of_sortKeys {es : List (String × Json)} (h : v.sortKeys = (Json.obj es).sortKeys) :
    ∃ ms, v = .obj ms := by
  cases v with
  | obj ms => exact ⟨ms, rfl⟩
  | _ => simp [Json.sortKeys] at h

variable [Sha256] {printed : JsValue}

theorem shown_eq (b : TransactionBundle) :
    (.object ((js "valid", .boolean true) :: ofVerified (ofReport (report b))) : JsValue) =
      ofJson (shown b) := by
  rw [← ofVerified_ofReport]
  rfl

/-- What the script prints for a parsed document. -/
theorem verifyParsed_eq_ok (hv : v.Distinct) (henc : Encodable v) :
    verifyParsed (ofJson v) = .ok printed ↔ ∃ b expected, Submits b expected v ∧ Acceptable b ∧
      NoMark b ∧ Meets expected b ∧ printed = ofJson (shown b) := by
  simp only [verifyParsed, bind_eq_ok, Except.ok.injEq]
  constructor
  · rintro ⟨input, hunwrap, verified, hverify, _, hcheck, rfl⟩
    obtain ⟨ms, rfl⟩ : ∃ ms, v = .obj ms := by
      obtain ⟨_, hobject, -⟩ := bind_eq_ok.mp hunwrap
      obtain ⟨ms, rfl, -⟩ := object_eq_ok.mp hobject
      exact ⟨ms, rfl⟩
    by_cases htransaction : "transaction" ∈ ms.map Prod.fst
    · obtain ⟨henveloped, rfl⟩ := (unwrap_envelope htransaction).mp hunwrap
      obtain ⟨b, hdocuments, hacc, hmark, rfl⟩ :=
        (verifyTransaction_eq_report (look_distinct hv _)).mp hverify
      have hexpected := lookup_eq_look (henveloped.required "expected" (by decide))
      have hmeets := (checkExpected_eq_ok (look_distinct hv _)
        (encodable_lookup hv henc hexpected)).mp hcheck
      refine ⟨b, _, .vector henveloped.names henveloped.profile henveloped.described
        (lookup_eq_look htransaction) hdocuments hexpected, hacc, hmark, ?_, shown_eq b⟩
      rintro _ ⟨⟩
      exact hmeets
    · obtain rfl := (unwrap_bundle htransaction).mp hunwrap
      obtain ⟨b, ⟨_, ⟨⟩, hwrites⟩, hacc, hmark, rfl⟩ := (verifyTransaction_eq_report hv).mp hverify
      exact ⟨b, none, .bundle hwrites, hacc, hmark, by rintro _ ⟨⟩, shown_eq b⟩
  · rintro ⟨b, _, hsubmits, hacc, hmark, hmeets, rfl⟩
    cases hsubmits with
    | @bundle ms hwrites =>
        have htransaction : "transaction" ∉ ms.map Prod.fst := fun hmem ↦
          absurd (hwrites.names _ hmem) (by decide)
        refine ⟨_, (unwrap_bundle htransaction).mpr rfl, ofReport (report b), ?_, (), rfl,
          shown_eq b⟩
        exact (verifyTransaction_eq_report hv).mpr ⟨b, ⟨ms, rfl, hwrites⟩, hacc, hmark, rfl⟩
    | @vector ms t e hnames hprofile hdescribed htransaction hdocuments hexpected =>
        have hmeets := hmeets e rfl
        have henveloped : Enveloped ms := {
          required := by
            simp only [List.forall_mem_cons, List.not_mem_nil, false_imp_iff, implies_true,
              and_true]
            exact ⟨mem_names hprofile, mem_names htransaction, mem_names hexpected⟩
          names := hnames
          profile := hprofile
          described := hdescribed
          expected := by
            rw [look_of_lookup hexpected]
            exact exists_of_sortKeys hmeets }
        refine ⟨_, (unwrap_envelope (mem_names htransaction)).mpr ⟨henveloped, rfl⟩,
          ofReport (report b), ?_, (), ?_, shown_eq b⟩
        · rw [← look_of_lookup htransaction] at hdocuments
          exact (verifyTransaction_eq_report (look_distinct hv _)).mpr
            ⟨b, hdocuments, hacc, hmark, rfl⟩
        · have hdistinct := look_distinct hv "expected"
          rw [look_of_lookup hexpected] at hdistinct ⊢
          exact (checkExpected_eq_ok hdistinct (encodable_lookup hv henc hexpected)).mpr hmeets

end Script

/-! ## The two commands -/

section Commands

variable {text : String} {v : Json} {bytes : List UInt8}

/-- A document does not begin with a byte order mark. -/
theorem dropMark_text (h : Json.Text v text.toList) : dropMark text.toList = text.toList := by
  obtain ⟨w, u, w', hw, -, hu, htext⟩ := h
  obtain ⟨d, us, rfl, hd⟩ := hu.starts
  rw [htext]
  cases w with
  | nil =>
      have hne : d ≠ byteOrderMark := by
        rintro rfl
        exact absurd hd.ascii (by decide)
      exact if_neg hne
  | cons c w =>
      have hne : c ≠ byteOrderMark := by
        rintro rfl
        exact absurd (hw _ List.mem_cons_self) (by decide)
      exact if_neg hne

/-- The text of a file, without the byte order mark that it may begin with. -/
def FileOf (bytes : List UInt8) (text : String) : Prop :=
  bytes = utf8 text ∨ bytes = utf8 (String.ofList (byteOrderMark :: text.toList))

theorem decode_of_fileOf (hfile : FileOf bytes text) (htext : Json.Text v text.toList) :
    decode bytes = some (units text) := by
  rcases hfile with rfl | rfl
  · rw [decode, decodeUtf8_utf8, Option.map_some, dropMark_text htext]
    rfl
  · have hdrop : dropMark (byteOrderMark :: text.toList) = text.toList := by
      rw [dropMark, if_pos rfl]
    rw [decode, decodeUtf8_utf8, Option.map_some, String.toList_ofList, hdrop]
    rfl

theorem exists_fileOf {s : JsString} (h : decode bytes = some s) :
    ∃ text, FileOf bytes text ∧ s = units text := by
  obtain ⟨whole, hwhole, rfl⟩ := Option.map_eq_some_iff.mp h
  obtain rfl := decodeUtf8_eq_some.mp hwhole
  refine ⟨String.ofList (dropMark whole.toList), ?_, by rw [units, String.toList_ofList]⟩
  rw [FileOf, String.toList_ofList]
  cases hcs : whole.toList with
  | nil => exact .inl (congrArg utf8 (by rw [dropMark, ← hcs, String.ofList_toList]))
  | cons c cs =>
      by_cases hc : c = byteOrderMark
      · refine .inr (congrArg utf8 ?_)
        rw [dropMark, if_pos hc, ← hc, ← hcs, String.ofList_toList]
      · refine .inl (congrArg utf8 ?_)
        rw [dropMark, if_neg hc, ← hcs, String.ofList_toList]

theorem Holds.eq {input : VerifyInput} {b b' : TransactionBundle} {expected expected' : Option Json}
    (h : Holds input b expected) (h' : Holds input b' expected') :
    b = b' ∧ expected = expected' := by
  cases h <;> cases h' <;> exact ⟨rfl, rfl⟩

/-- The text holds the bundle, in the shape of the schema and without a mark. -/
def Comparable (text : String) (b : TransactionBundle) : Prop :=
  ∃ v input expected, Json.Text v text.toList ∧ InputShaped v ∧ readInput v = some input ∧
    Holds input b expected ∧ NoMark b

variable [Sha256]

/-- **The commands agree.**  The script prints a result for a file when the Rust command prints
one for its text, without the byte order mark that the file may begin with, unless the text
spells a record in another way than the schema or a trimmed text of the bundle begins or ends
with U+FEFF.  What they print is the same, up to the order of the members. -/
theorem commands_agree {printed : JsValue} :
    main bytes = .ok printed ↔ ∃ text b, FileOf bytes text ∧ Comparable text b ∧
      verifyFile (utf8 text) = .ok (shown b).sortKeys ∧ printed = ofJson (shown b) := by
  simp only [main, bind_eq_ok, okOr_eq_ok, mapError_eq_ok, parseStrictJson_iff_accepted]
  constructor
  · rintro ⟨s, hs, _, ⟨v, hv, rfl⟩, hprinted⟩
    obtain ⟨text, hfile, rfl⟩ := exists_fileOf hs
    obtain ⟨b, expected, hsubmits, hacc, hmark, hmeets, rfl⟩ :=
      (verifyParsed_eq_ok hv.distinct hv.encodable).mp hprinted
    obtain ⟨input, hread, hholds⟩ := hsubmits.read hv.distinct hacc
    have hlen : (utf8 text).length ≤ Core.maxTransportInputBytes := by
      rw [← toBuffer_units]
      exact hv.bytes
    refine ⟨text, b, hfile, ⟨v, input, expected, hv.spells, hsubmits.shaped hv.distinct, hread,
      hholds, hmark⟩, ?_, rfl⟩
    exact verifyFile_eq_ok.mpr
      ⟨hlen, v, input, b, expected, hv.spells, hread, hholds, hacc, hmeets, rfl⟩
  · rintro ⟨text, b, hfile, ⟨v, input, expected, htext, hshape, hread, hholds, hmark⟩, hout, rfl⟩
    obtain ⟨hlen, v', input', b', expected', htext', hread', hholds', hacc, hmeets, -⟩ :=
      verifyFile_eq_ok.mp hout
    obtain rfl := (denotes_utf8.mpr htext).unique (denotes_utf8.mpr htext')
    obtain rfl := Option.some.inj (hread.symm.trans hread')
    obtain ⟨rfl, rfl⟩ := hholds.eq hholds'
    have hsubmits := submits_of_read hshape hread hholds hacc
    have haccepted := accepted_of_submits hlen htext hshape.distinct hsubmits hacc hmeets
    refine ⟨units text, decode_of_fileOf hfile htext, _, ⟨v, haccepted, rfl⟩, ?_⟩
    exact (verifyParsed_eq_ok hshape.distinct haccepted.encodable).mpr
      ⟨b, expected, hsubmits, hacc, hmark, hmeets, rfl⟩

end Commands

end Etp.Cli
