import Etp.Sqlite.Later
import Etp.Sqlite.Lifecycle

/-!
# What a receipt closes

`record_receipt` compares the receipt with the marker of the claim, but
`mark_dispatch_started` does not look for a receipt.  So a receipt closes its attempt
only as long as nobody writes a first marker after it: `LateMark` is that call, with
everything that the function does check.

Without late marks the row of a claim that has a receipt never changes again, and a
run that has one changes it (`receiptsClose_iff`).
-/

namespace Etp.Sqlite

open Etp.Core SqliteEffectStore

section Runs

variable [Sha256] {t : Tables} {hash : Digest32}

/-- A claim with a receipt and without a marker, and what `mark_dispatch_started` checks
before it writes one. -/
structure MarksReceived (t : Tables) (c : DurableClaim) (x : RegisteredChain) (dispatched : Nat)
    (s : CurrentnessSnapshot) : Prop where
  receipt : (t.receipt c.grantHash).isSome
  claim : t.claim c.grantHash = some c
  unmarked : c.dispatchStartedAtMs = none
  claimed_le : c.claimedAtMs ≤ dispatched
  dispatched_le : dispatched ≤ maxSafeInteger
  guards : MarkGuards t c x dispatched s

/-- The call writes a first marker after the receipt. -/
def LateMark (db : Db) (call : Call) : Prop :=
  ∃ t c x dispatched s, db = t.encode ∧
    call = .markDispatchStarted c.grantHash c.attemptId dispatched ∧
    MarksReceived t c x dispatched s

/-- No call of the run writes a first marker after the receipt. -/
def NoLateMark (calls : List Call) : Prop :=
  Machine.Along step (fun db call ↦ ¬LateMark db call) .empty calls

theorem noLateMark_iff {calls : List Call} : NoLateMark calls ↔
    ∀ before call after, calls = before ++ call :: after → ¬LateMark (run before) call :=
  Machine.along_iff

theorem NoLateMark.of_prefix {calls more : List Call} (h : NoLateMark (calls ++ more)) :
    NoLateMark calls := (Machine.along_append.mp h).1

theorem receiptByGrantHash_isSome : (t.encode.receiptByGrantHash hash.asStr).isSome ↔
    (t.receipt hash).isSome := by
  rw [Tables.receiptByGrantHash_encode, Tables.receipt, Option.isSome_map, Option.isSome_map]

/-! ## Claims with a receipt -/

/-- A change that is no late mark leaves the claim of a receipt alone. -/
theorem Change.claim_of_receipt (hw : WellFormed t) {call : Call} {t' : Tables}
    (h : Change t call t') (hlate : ¬LateMark t.encode call) (hr : (t.receipt hash).isSome) :
    t'.claim hash = t.claim hash := by
  obtain ⟨r, hr⟩ := Option.isSome_iff_exists.mp hr
  obtain ⟨-, c, -, hc, -⟩ := hw.received hash r hr
  cases h with
  | claimed g hfree =>
      rw [Tables.claim_addClaim (Tables.claimable_setTime.mpr hfree), if_neg]
      · rfl
      · rintro rfl
        rw [hfree.grant] at hc
        cases hc
  | @marked q x d s hq hnone hle hmax g =>
      rw [Tables.claim_mark (t := t.setTime d) hq rfl hnone hle hmax, if_neg]
      · rfl
      · rintro rfl
        exact hlate ⟨t, q, x, d, s, rfl, rfl, by rw [hr]; rfl, hq, hnone, hle, hmax, g⟩
  | _ => rfl

/-- Once a receipts row exists for a grant, the claims row of the grant stays what it is. -/
def ReceiptsClose (calls : List Call) : Prop :=
  ∀ before middle after (hash : Digest32), calls = before ++ (middle ++ after) →
    ((run before).receiptByGrantHash hash.asStr).isSome →
      (run (before ++ middle)).claimByGrantHash hash.asStr =
        (run before).claimByGrantHash hash.asStr

theorem NoLateMark.receiptsClose {calls : List Call} (h : NoLateMark calls) :
    ReceiptsClose calls := by
  rintro before middle after hash rfl hr
  rw [← List.append_assoc] at h
  replace h := h.of_prefix
  -- The receipt stays, so every call of the middle part finds it.
  induction middle using List.reverseRecOn with
  | nil => rw [List.append_nil]
  | append_singleton middle call ih =>
      rw [← List.append_assoc] at h ⊢
      rw [← ih h.of_prefix]
      obtain ⟨t, -, hrun⟩ := exists_tables before
      obtain ⟨u, hu, hrun'⟩ := exists_tables (before ++ middle)
      obtain ⟨v, hchange, hstep⟩ := exists_change hu call
      have hlate : ¬LateMark u.encode call := by
        rw [← hrun']
        exact noLateMark_iff.mp h _ call [] rfl
      have hlater : Precedes (run before) (run (before ++ middle)) :=
        ⟨⟨before, rfl⟩, middle, by rw [run, run, Machine.run_append]⟩
      rw [hrun, hrun'] at hlater
      obtain ⟨-, -, hkept⟩ := hlater.kept_encode
      rw [hrun, receiptByGrantHash_isSome] at hr
      obtain ⟨r, hr⟩ := Option.isSome_iff_exists.mp hr
      have hr' : (u.receipt hash).isSome := by
        rw [hkept.receipt hr]
        rfl
      have hlast : run (before ++ middle ++ [call]) = v.encode := by
        rw [run] at hrun'
        rw [run, Machine.run_concat, hrun', hstep]
      rw [hlast, hrun']
      exact claimByGrantHash_encode_eq_iff.mpr (hchange.claim_of_receipt hu hlate hr')

/-! ## Late marks are made -/

/-- The attempts of the claims are plain text, as `claim` checked. -/
theorem attempts_plain (calls : List Call) : ∃ t, WellFormed t ∧ run calls = t.encode ∧
    ∀ c ∈ t.claims, PlainText c.1.attemptId 256 := by
  have hstep : ∀ {t : Tables} {call t'}, WellFormed t → Change t call t' →
      (∀ c ∈ t.claims, PlainText c.1.attemptId 256) →
        ∀ c ∈ t'.claims, PlainText c.1.attemptId 256 := by
    intro t call t' _ hchange hp
    cases hchange with
    | claimed g _ =>
        intro c hc
        rcases List.mem_append.mp hc with hc | hc
        · exact hp c hc
        · rw [List.mem_singleton.mp hc]
          exact g.valid.attempt
    | marked _ _ _ _ _ =>
        intro c hc
        rcases mem_updateWhere.mp hc with ⟨hc, -⟩ | ⟨q, hq, -, rfl⟩
        · exact hp c hc
        · rw [Tables.withMarker_attemptId]
          exact hp q hq
    | _ => exact hp
  obtain ⟨t, hw, hplain, hrun⟩ := exists_run
    (R := fun t t' ↦ (∀ c ∈ t.claims, PlainText c.1.attemptId 256) →
      ∀ c ∈ t'.claims, PlainText c.1.attemptId 256)
    (fun _ h ↦ h) (fun h h' hp ↦ h' (h hp)) hstep WellFormed.empty calls
  exact ⟨t, hw, hrun, hplain (by rintro _ ⟨⟩)⟩

/-- The run that goes on with a late mark. -/
theorem run_lateMark {calls : List Call} (ht : run calls = t.encode) {c : DurableClaim}
    {x : RegisteredChain} {d : Nat} {s : CurrentnessSnapshot} (h : MarksReceived t c x d s) :
    ∃ u : Tables, run (calls ++ [.markDispatchStarted c.grantHash c.attemptId d]) = u.encode ∧
      u.claim c.grantHash = some { c with dispatchStartedAtMs := some d } := by
  obtain ⟨u, hu, hrun, hplain⟩ := attempts_plain calls
  obtain rfl : t = u := Tables.encode_injective (ht.symm.trans hrun)
  obtain ⟨q, hq, hqc⟩ := Option.map_eq_some_iff.mp h.claim
  have htext := hplain q (mem_of_lookupBy hq)
  rw [hqc] at htext
  have hok := (markDispatchStartedTx_encode hu.claim_grants).mpr
    ⟨htext, h.dispatched_le, c, h.claim, rfl, h.claimed_le, rfl,
      .inr ⟨h.unmarked, ⟨x, s, h.guards⟩, rfl⟩⟩
  have hwritten := Tables.claim_mark (t := t.setTime d) h.claim rfl h.unmarked h.claimed_le
    h.dispatched_le c.grantHash
  refine ⟨(t.setTime d).mark c.grantHash c.attemptId d, ?_, hwritten.trans (if_pos rfl)⟩
  rw [run] at ht
  rw [run, Machine.run_concat, ht]
  exact congrArg Prod.snd (transaction_ok hok)

/-- A late mark changes the claim. -/
theorem claim_of_lateMark {calls : List Call} {call : Call} (h : LateMark (run calls) call) :
    ∃ hash : Digest32, ((run calls).receiptByGrantHash hash.asStr).isSome ∧
      (run (calls ++ [call])).claimByGrantHash hash.asStr ≠
        (run calls).claimByGrantHash hash.asStr := by
  obtain ⟨t, c, x, d, s, ht, rfl, hmark⟩ := h
  obtain ⟨u, hu, hwritten⟩ := run_lateMark ht hmark
  refine ⟨c.grantHash, ?_, fun heq ↦ ?_⟩
  · rw [ht, receiptByGrantHash_isSome]
    exact hmark.receipt
  · rw [hu, ht, claimByGrantHash_encode_eq_iff, hwritten, hmark.claim, Option.some.injEq] at heq
    have := congrArg DurableClaim.dispatchStartedAtMs heq
    rw [hmark.unmarked] at this
    cases this

/-- **When receipts close their attempts.**  In a run, no claims row changes after its
receipt exactly if no call writes a first marker after the receipt. -/
theorem receiptsClose_iff (calls : List Call) : ReceiptsClose calls ↔ NoLateMark calls := by
  refine ⟨fun h ↦ noLateMark_iff.mpr ?_, NoLateMark.receiptsClose⟩
  rintro before call after hcalls hlate
  obtain ⟨hash, hr, hne⟩ := claim_of_lateMark hlate
  exact hne (h before [call] after hash hcalls hr)

/-! ## Receipts and markers -/

/-- Every receipt reports the marker of its claim, in the way its outcome allows. -/
def MarkersAgree (db : Db) : Prop :=
  ∀ hash r, loadReceiptByGrant db hash = .ok (some r) →
    ∃ c, loadClaim db hash = .ok (some c) ∧ Evidence r c.dispatchStartedAtMs

theorem NoLateMark.markersAgree {calls : List Call} (h : NoLateMark calls) :
    MarkersAgree (run calls) := by
  have hstep : ∃ t, WellFormed t ∧ run calls = t.encode ∧ ∀ hash r, t.receipt hash = some r →
      ∃ c, t.claim hash = some c ∧ Evidence r c.dispatchStartedAtMs := by
    induction calls using List.reverseRecOn with
    | nil => exact ⟨.empty, .empty, rfl, by rintro _ _ ⟨⟩⟩
    | append_singleton calls call ih =>
        obtain ⟨t, hw, hrun, hagree⟩ := ih h.of_prefix
        obtain ⟨t', hchange, hstep⟩ := exists_change hw call
        have hlate : ¬LateMark t.encode call := by
          rw [← hrun]
          exact noLateMark_iff.mp h calls call [] rfl
        refine ⟨t', hw.change hchange, ?_, fun hash r hr ↦ ?_⟩
        · rw [run] at hrun
          rw [run, Machine.run_concat, hrun, hstep]
        have hold : t.receipt hash = some r → ∃ c, t'.claim hash = some c ∧
            Evidence r c.dispatchStartedAtMs := by
          intro hr
          obtain ⟨c, hc, hevidence⟩ := hagree hash r hr
          exact ⟨c, (hchange.claim_of_receipt hw hlate (by rw [hr]; rfl)).trans hc, hevidence⟩
        cases hchange with
        | received g hfree =>
            rw [Tables.receipt_addReceipt hfree] at hr
            split_ifs at hr with hh
            · subst hh
              cases hr
              exact ⟨_, g.claim, g.evidence⟩
            · exact hold hr
        | _ => exact hold hr
  obtain ⟨t, -, hrun, hagree⟩ := hstep
  intro hash r hr
  rw [hrun, Tables.loadReceiptByGrant_encode, Except.ok.injEq] at hr
  obtain ⟨c, hc, hevidence⟩ := hagree hash r hr
  refine ⟨c, ?_, hevidence⟩
  rw [hrun, Tables.loadClaim_encode, hc]

/-- A late mark leaves a receipt that denies it. -/
theorem not_markersAgree_of_lateMark {calls : List Call} {call : Call}
    (h : LateMark (run calls) call) (hagree : MarkersAgree (run calls)) :
    ¬MarkersAgree (run (calls ++ [call])) := by
  obtain ⟨t, c, x, d, s, ht, rfl, hmark⟩ := h
  obtain ⟨u, hu, hwritten⟩ := run_lateMark ht hmark
  obtain ⟨r, hr⟩ := Option.isSome_iff_exists.mp hmark.receipt
  have hlater : Precedes (run calls)
      (run (calls ++ [.markDispatchStarted c.grantHash c.attemptId d])) :=
    ⟨⟨calls, rfl⟩, _, by rw [run, run, Machine.run_append]⟩
  rw [ht, hu] at hlater
  obtain ⟨-, -, hkept⟩ := hlater.kept_encode
  intro hagree'
  obtain ⟨q, hq, hbefore⟩ := hagree c.grantHash r (by rw [ht, Tables.loadReceiptByGrant_encode, hr])
  rw [ht, Tables.loadClaim_encode, hmark.claim] at hq
  obtain rfl : c = q := Option.some.inj (Except.ok.inj hq)
  obtain ⟨q', hq', hafter⟩ := hagree' c.grantHash r
    (by rw [hu, Tables.loadReceiptByGrant_encode, hkept.receipt hr])
  rw [hu, Tables.loadClaim_encode, hwritten] at hq'
  obtain rfl := Option.some.inj (Except.ok.inj hq')
  have hreported := hbefore.reported.symm.trans hafter.reported
  rw [hmark.unmarked] at hreported
  cases hreported

/-- **When receipts and markers agree.**  In every state of a run each receipt reports the
marker of its claim exactly if no call writes a first marker after the receipt. -/
theorem markersAgree_iff (calls : List Call) :
    (∀ before after, calls = before ++ after → MarkersAgree (run before)) ↔ NoLateMark calls := by
  constructor
  · intro h
    refine noLateMark_iff.mpr fun before call after hcalls hlate ↦ ?_
    refine not_markersAgree_of_lateMark hlate (h before _ hcalls) (h _ after ?_)
    rw [hcalls, List.append_cons]
  · rintro h before after rfl
    exact h.of_prefix.markersAgree

end Runs

/-! ## A late mark -/

section Positive

open Vectors

theorem notDispatchedReceipt_for :
    ReceiptFor positiveProposal positiveGrant notDispatchedReceipt :=
  { positiveReceipt_for with receipt_valid := notDispatchedReceipt_valid }

theorem notDispatchedReceipt_guards : ReceiptGuards positive_claimable.claimed notDispatchedReceipt
    positiveAttempt.chain (newClaim positiveAttempt.chain positiveRequest 1760000004000) where
  chain := by
    rw [notDispatchedReceipt_for.receipt_grant_hash]
    exact positiveAttempt.chain_prepared
  receiptFor := notDispatchedReceipt_for
  claim := by
    rw [notDispatchedReceipt_for.receipt_grant_hash]
    exact positive_claimable.claim_claimed
  attempt := rfl
  claimed := rfl
  evidence := (evidence_iff notDispatchedReceipt_valid).mpr rfl

theorem notDispatchedReceipt_receivable :
    Tables.Receivable notDispatchedReceipt positive_claimable.claimed where
  claim := by
    rw [notDispatchedReceipt_guards.claim]
    rfl
  grant := rfl
  id := by
    intro q hq
    cases hq
  hash := by
    intro q hq
    cases hq

/-- The claim of the positive attempt is closed without a dispatch. -/
def closedCalls : List Call :=
  positiveAttempt.setup ++ [positiveAttempt.claimCall 1760000004000] ++
    [.recordReceipt notDispatchedReceipt]

/-- The tables with the receipt and no marker. -/
def closedTables : Tables :=
  positive_claimable.claimed.addReceipt ⟨notDispatchedReceipt, notDispatchedReceipt_valid⟩

theorem run_closedCalls : run closedCalls = closedTables.encode :=
  run_received positive_claimable.run_claimed notDispatchedReceipt_guards
    notDispatchedReceipt_receivable

theorem receipt_closedTables :
    closedTables.receipt positiveAttempt.chain.grantHash = some notDispatchedReceipt := by
  have := Tables.receipt_addReceipt (r := ⟨notDispatchedReceipt, notDispatchedReceipt_valid⟩)
    notDispatchedReceipt_receivable positiveAttempt.chain.grantHash
  exact this.trans (if_pos notDispatchedReceipt_for.receipt_grant_hash)

/-- The marker of the positive attempt, after the receipt that says there was none. -/
theorem closedCalls_lateMark :
    LateMark (run closedCalls) (positiveAttempt.markCall 1760000004100) := by
  refine ⟨closedTables, newClaim positiveAttempt.chain positiveRequest 1760000004000,
    positiveAttempt.chain, 1760000004100, positiveSnapshot, run_closedCalls, rfl, ?_⟩
  exact {
    receipt := by
      show (closedTables.receipt positiveAttempt.chain.grantHash).isSome
      rw [receipt_closedTables]
      rfl
    claim := positive_claimable.claim_claimed
    unmarked := rfl
    claimed_le := positive_markable.claimed_le
    dispatched_le := positive_markable.le
    guards := positive_markable.guards rfl rfl rfl }

end Positive

end Etp.Sqlite
