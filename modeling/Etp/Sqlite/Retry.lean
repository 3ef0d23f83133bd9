import Etp.Sqlite.Fence
import Etp.Sqlite.Terminal

/-!
# Repeated calls

A client that lost the answer of a call makes it again.  Four operations have a branch
for that: they look for what the first call has written and, if it is there, answer as
they did then.  Before that branch every one of them checks its input against the rows
of now, so an answer is stable only if no row that is checked can change.

The one that can is the marker of a claim with a receipt.
-/

namespace Etp.Sqlite

open Etp.Core SqliteEffectStore

section Runs

variable [Sha256]

/-- What the four operations return. -/
inductive Reply where
  | hash (h : Digest32)
  | marker (m : DispatchMarker)

/-- The call returns `Ok` with the answer. -/
inductive Answers (db : Db) : Call → Reply → Prop
  | registered {c : TaskCommitment} {p : EffectProposal} {d : AuthorizationDecision}
      {g : ExecutionGrant} {h : Digest32} (hok : (registerChain c p d g db).1 = .ok h) :
      Answers db (.registerChain c p d g) (.hash h)
  | marked {hash : Digest32} {attemptId : String} {dispatched : Nat} {m : DispatchMarker}
      (hok : (markDispatchStarted hash attemptId dispatched db).1 = .ok m) :
      Answers db (.markDispatchStarted hash attemptId dispatched) (.marker m)
  | received {r : EffectReceipt} {h : Digest32} (hok : (recordReceipt r db).1 = .ok h) :
      Answers db (.recordReceipt r) (.hash h)
  | appended {r : ReconciliationRecord} {h : Digest32}
      (hok : (appendReconciliation r db).1 = .ok h) :
      Answers db (.appendReconciliation r) (.hash h)

/-- The call answers the same again, and changes nothing. -/
def Repeats (db : Db) (call : Call) (answer : Reply) : Prop :=
  Answers db call answer ∧ step db call = db

/-- Whatever was answered is answered again, at every later moment of the run. -/
def RetriesStable (calls : List Call) : Prop :=
  ∀ before call after rest answer, calls = before ++ call :: (after ++ rest) →
    Answers (run before) call answer → Repeats (run (before ++ call :: after)) call answer

/-! ## What each operation finds again -/

section Again

variable {t u v : Tables} (hlater : Precedes u.encode v.encode)

include hlater

/-- The first call left `u`, and the second one is made on `v`. -/
theorem registerChain_again {c : TaskCommitment} {p : EffectProposal} {d : AuthorizationDecision}
    {g : ExecutionGrant} {h : Digest32}
    (hok : registerChain c p d g t.encode = (.ok h, u.encode)) :
    registerChain c p d g v.encode = (.ok h, v.encode) := by
  obtain ⟨x, ⟨rfl, rfl, rfl, rfl⟩, rfl, hcases⟩ :=
    registerChainTx_encode.mp (transaction_eq_ok.mp hok)
  have hstored : u.chainById x.grant.grantId = some x := by
    rcases hcases with ⟨hfound, hu⟩ | ⟨hfresh, hu⟩
    · rwa [Tables.encode_injective hu]
    · rw [Tables.encode_injective hu, Tables.chainById_addChain hfresh, if_pos rfl]
  obtain ⟨hw, hw', hkept⟩ := hlater.kept_encode
  exact transaction_ok (registerChainTx_encode.mpr
    ⟨x, ⟨rfl, rfl, rfl, rfl⟩, rfl, .inl ⟨hkept.chainById hw hw' hstored, rfl⟩⟩)

theorem markDispatchStarted_again (hw : WellFormed t) {hash : Digest32} {attemptId : String}
    {dispatched : Nat} {m : DispatchMarker}
    (hok : markDispatchStarted hash attemptId dispatched t.encode = (.ok m, u.encode)) :
    markDispatchStarted hash attemptId dispatched v.encode = (.ok m, v.encode) := by
  obtain ⟨htext, hmax, c, hc, hattempt, hle, rfl, hcases⟩ :=
    (markDispatchStartedTx_encode hw.claim_grants).mp (transaction_eq_ok.mp hok)
  have hstored : ∃ q, u.claim hash = some q ∧ q.attemptId = attemptId ∧
      q.claimedAtMs ≤ dispatched ∧ q.dispatchStartedAtMs = some dispatched := by
    rcases hcases with ⟨hmarked, hu⟩ | ⟨hnone, -, hu⟩
    · rw [Tables.encode_injective hu]
      exact ⟨c, hc, hattempt, hle, hmarked⟩
    · rw [Tables.encode_injective hu]
      have hmark := Tables.claim_mark (t := t.setTime dispatched) hc hattempt hnone hle hmax hash
      exact ⟨_, hmark.trans (if_pos rfl), hattempt, hle, rfl⟩
  obtain ⟨q, hq, hqattempt, hqle, hmarked⟩ := hstored
  obtain ⟨-, hw', hkept⟩ := hlater.kept_encode
  obtain ⟨q', hq', hqq'⟩ := hkept.claim hq
  rw [hqq'.eq_of_marked (by rw [hmarked]; exact Option.some_ne_none _)] at hq'
  exact transaction_ok ((markDispatchStartedTx_encode hw'.claim_grants).mpr
    ⟨htext, hmax, q, hq', hqattempt, hqle, rfl, .inl ⟨hmarked, rfl⟩⟩)

/-- A receipt is taken again as long as its claim is what it was. -/
theorem recordReceipt_again {r : EffectReceipt} {h : Digest32}
    (hok : recordReceipt r t.encode = (.ok h, u.encode))
    (hclaim : (u.receipt r.grantHash).isSome → v.claim r.grantHash = u.claim r.grantHash) :
    recordReceipt r v.encode = (.ok h, v.encode) := by
  obtain ⟨rfl, x, c, hguards, hcases⟩ := recordReceiptTx_encode.mp (transaction_eq_ok.mp hok)
  have hstored : u.chain r.grantHash = some x ∧ u.claim r.grantHash = some c ∧
      ∃ q, u.receipt r.grantHash = some q ∧ recordHash q = recordHash r := by
    rcases hcases with ⟨⟨q, hq, hhash⟩, hu⟩ | ⟨hfree, hu⟩
    · rw [Tables.encode_injective hu]
      exact ⟨hguards.chain, hguards.claim, q, hq, hhash⟩
    · rw [Tables.encode_injective hu]
      have hreceipt := Tables.receipt_addReceipt (r := ⟨r, hguards.receiptFor.receipt_valid⟩) hfree
        r.grantHash
      exact ⟨hguards.chain, hguards.claim, r, hreceipt.trans (if_pos rfl), rfl⟩
  obtain ⟨hx, hc, q, hq, hhash⟩ := hstored
  obtain ⟨-, -, hkept⟩ := hlater.kept_encode
  have hc' : v.claim r.grantHash = some c := (hclaim (by rw [hq]; rfl)).trans hc
  exact transaction_ok (recordReceiptTx_encode.mpr ⟨rfl, x, c,
    { hguards with chain := hkept.chain hx, claim := hc' },
    .inl ⟨⟨q, hkept.receipt hq, hhash⟩, rfl⟩⟩)

theorem history_later (hash : Digest32) : u.history hash <+: v.history hash := by
  obtain ⟨hw, -, -⟩ := hlater.kept_encode
  obtain ⟨calls, hrun⟩ := hlater.later
  obtain ⟨v', -, hpre, hv'⟩ := exists_run
    (R := fun t t' ↦ t.history hash <+: t'.history hash) (fun _ ↦ List.prefix_rfl)
    List.IsPrefix.trans (fun _ hchange ↦ hchange.history hash) hw calls
  obtain rfl : v' = v := Tables.encode_injective (hv'.symm.trans hrun.symm)
  exact hpre

theorem appendReconciliation_again (hw : WellFormed t) {r : ReconciliationRecord} {h : Digest32}
    (hok : appendReconciliation r t.encode = (.ok h, u.encode)) :
    appendReconciliation r v.encode = (.ok h, v.encode) := by
  obtain ⟨rfl, hv, receipt, hreceipt, hcases⟩ :=
    (appendReconciliationTx_encode hw).mp (transaction_eq_ok.mp hok)
  have hstored : u.receiptByHash r.receiptHash = some receipt ∧
      ∃ q, (u.history r.receiptHash)[r.sequence - 1]? = some q ∧ recordHash q = recordHash r := by
    rcases hcases with ⟨⟨q, hq, hhash⟩, hu⟩ | ⟨hguards, hu⟩
    · rw [Tables.encode_injective hu]
      exact ⟨hreceipt, q, hq, hhash⟩
    · rw [Tables.encode_injective hu]
      have hlinked := (hw.addRecord (r := ⟨r, hv⟩) hreceipt hguards).linked r.receiptHash
      have hhistory := Tables.history_addRecord (t := t) ⟨r, hv⟩ r.receiptHash
      rw [if_pos rfl] at hhistory
      rw [hhistory] at hlinked ⊢
      -- The record is the last one of its history, so its number is the length.
      have hseq := sequence_eq_of_linked hlinked (t.history r.receiptHash).length (by simp)
      rw [List.getElem_concat_length rfl] at hseq
      refine ⟨hreceipt, r, ?_, rfl⟩
      rw [hseq, Nat.add_sub_cancel, List.getElem?_concat_length]
  obtain ⟨hreceipt, q, hq, hhash⟩ := hstored
  obtain ⟨hu, hw', hkept⟩ := hlater.kept_encode
  obtain ⟨hkey, hgrant⟩ := hu.receipt_of_receiptByHash hreceipt
  obtain ⟨-, hreceipt'⟩ := hw'.receiptByHash_of_receipt (hkept.receipt hgrant)
  rw [hkey] at hreceipt'
  obtain ⟨more, hmore⟩ := history_later hlater r.receiptHash
  have hq' : (v.history r.receiptHash)[r.sequence - 1]? = some q := by
    rw [← hmore, List.getElem?_append_left (List.getElem?_eq_some_iff.mp hq).1, hq]
  exact transaction_ok ((appendReconciliationTx_encode hw').mpr
    ⟨rfl, hv, receipt, hreceipt', .inl ⟨⟨q, hq', hhash⟩, rfl⟩⟩)

end Again

/-! ## Runs -/

/-- Without late marks every answer is stable. -/
theorem NoLateMark.retriesStable {calls : List Call} (h : NoLateMark calls) :
    RetriesStable calls := by
  rintro before call after rest answer rfl hanswer
  obtain ⟨t, hw, ht⟩ := exists_tables before
  obtain ⟨u, hchange, hstep⟩ := exists_change hw call
  obtain ⟨v, -, hv⟩ := exists_tables (before ++ call :: after)
  have hu : run (before ++ [call]) = u.encode := by
    rw [run] at ht
    rw [run, Machine.run_concat, ht, hstep]
  have hlater : Precedes u.encode v.encode := by
    have := precedes_run (before ++ [call]) after
    rwa [List.append_assoc, List.singleton_append, hu, hv] at this
  rw [ht] at hanswer
  rw [hv]
  have hrepeat : ∀ {α : Type} {f : Db → Except StoreError α × Db} {a : α},
      (f t.encode).1 = .ok a → (f t.encode).2 = step t.encode call →
        f t.encode = (.ok a, u.encode) := fun hok hsnd ↦
    Prod.ext hok (hsnd.trans hstep)
  cases hanswer with
  | registered hok =>
      have hagain := registerChain_again hlater (hrepeat hok rfl)
      exact ⟨.registered (congrArg Prod.fst hagain), congrArg Prod.snd hagain⟩
  | marked hok =>
      have hagain := markDispatchStarted_again hlater hw (hrepeat hok rfl)
      exact ⟨.marked (congrArg Prod.fst hagain), congrArg Prod.snd hagain⟩
  | @received r _ hok =>
      have hclaim : (u.receipt r.grantHash).isSome → v.claim r.grantHash = u.claim r.grantHash := by
        intro hr
        have hclose := h.receiptsClose (before ++ [.recordReceipt r]) after rest r.grantHash
          (by simp) (by rw [hu, receiptByGrantHash_isSome]; exact hr)
        rw [List.append_assoc, List.singleton_append, hu, hv] at hclose
        exact claimByGrantHash_encode_eq_iff.mp hclose
      have hagain := recordReceipt_again hlater (hrepeat hok rfl) hclaim
      exact ⟨.received (congrArg Prod.fst hagain), congrArg Prod.snd hagain⟩
  | appended hok =>
      have hagain := appendReconciliation_again hlater hw (hrepeat hok rfl)
      exact ⟨.appended (congrArg Prod.fst hagain), congrArg Prod.snd hagain⟩

/-- A receipt in the tables was taken by some call of the run, from the claim of that moment. -/
theorem exists_recorded (calls : List Call) {t : Tables} (ht : run calls = t.encode)
    {hash : Digest32} {r : EffectReceipt} (hr : t.receipt hash = some r) :
    ∃ before after, ∃ (u : Tables) (c : DurableClaim),
      calls = before ++ .recordReceipt r :: after ∧ run before = u.encode ∧
      u.claim r.grantHash = some c ∧ Evidence r c.dispatchStartedAtMs ∧
        Answers (run before) (.recordReceipt r) (.hash (recordHash r)) := by
  induction calls using List.reverseRecOn generalizing t with
  | nil =>
      obtain rfl : t = .empty := Tables.encode_injective (ht.symm.trans Tables.encode_empty.symm)
      cases hr
  | append_singleton calls call ih =>
      obtain ⟨u, hu, hrun⟩ := exists_tables calls
      obtain ⟨t', hchange, hstep⟩ := exists_change hu call
      obtain rfl : t' = t := by
        refine Tables.encode_injective (hstep.symm.trans ?_)
        rw [← ht, ← hrun, run, run, Machine.run_concat]
      have hold : u.receipt hash = some r → ∃ before after, ∃ (u : Tables) (c : DurableClaim),
          calls ++ [call] = before ++ .recordReceipt r :: after ∧ run before = u.encode ∧
            u.claim r.grantHash = some c ∧ Evidence r c.dispatchStartedAtMs ∧
              Answers (run before) (.recordReceipt r) (.hash (recordHash r)) := by
        intro hr
        obtain ⟨before, after, v, c, rfl, hrest⟩ := ih hrun hr
        exact ⟨before, after ++ [call], v, c, by simp, hrest⟩
      cases hchange with
      | received g hfree =>
          rw [Tables.receipt_addReceipt hfree] at hr
          split_ifs at hr with hh
          · cases hr
            refine ⟨calls, [], u, _, rfl, hrun, g.claim, g.evidence, .received ?_⟩
            rw [hrun, recordReceipt_of_guards g hfree]
          · exact hold hr
      | _ => exact hold hr

/-- A late mark takes the answer back that its receipt was given. -/
theorem not_retriesStable {before : List Call} {call : Call} (after : List Call)
    (hlate : LateMark (run before) call) : ¬RetriesStable (before ++ call :: after) := by
  intro h
  obtain ⟨t, c, x, d, s, hrun, rfl, hmark⟩ := hlate
  obtain ⟨r, hr⟩ := Option.isSome_iff_exists.mp hmark.receipt
  obtain ⟨earlier, between, u, c', rfl, hu, hc', hevidence, hanswer⟩ :=
    exists_recorded before hrun hr
  obtain ⟨t', hw, hrun'⟩ := exists_tables (earlier ++ .recordReceipt r :: between)
  obtain rfl : t' = t := Tables.encode_injective (hrun'.symm.trans hrun)
  have hkey : r.grantHash = c.grantHash := (hw.receiptByHash_of_receipt hr).1
  -- The claim that the receipt was compared with had no marker either.
  have hlater := precedes_run earlier (.recordReceipt r :: between)
  rw [hu, hrun] at hlater
  obtain ⟨-, -, hkept⟩ := hlater.kept_encode
  obtain ⟨q, hq, hkeptq⟩ := hkept.claim hc'
  rw [hkey, hmark.claim] at hq
  cases hq
  have hreported : r.dispatchedAtMs = none := by
    rw [hevidence.reported, ← hkeptq.eq_of_unmarked hmark.unmarked, hmark.unmarked]
  -- After the mark it has one.
  obtain ⟨hagain, -⟩ := h earlier (.recordReceipt r)
    (between ++ [.markDispatchStarted c.grantHash c.attemptId d]) after _ (by simp) hanswer
  obtain ⟨v, hv, hwritten⟩ := run_lateMark hrun hmark
  rw [List.append_assoc, List.cons_append] at hv
  rw [hv] at hagain
  cases hagain with
  | received hok =>
      obtain ⟨-, _, c'', hguards, -⟩ := recordReceiptTx_encode.mp (transaction_fst_ok hok)
      have hclaim := hguards.claim
      rw [hkey, hwritten, Option.some.injEq] at hclaim
      have hmarker := hguards.evidence.reported
      rw [← hclaim, hreported] at hmarker
      cases hmarker

/-- **When retries are stable.**  In a run, every answer of a registration, a marker, a
receipt or a reconciliation is given again to the same call at every later moment, with
no change, exactly if no call writes a first marker after the receipt. -/
theorem retriesStable_iff (calls : List Call) : RetriesStable calls ↔ NoLateMark calls := by
  refine ⟨fun h ↦ noLateMark_iff.mpr ?_, NoLateMark.retriesStable⟩
  rintro before call after rfl hlate
  exact not_retriesStable after hlate h

end Runs

section Positive

open Vectors

/-- The answer to a not-dispatched receipt is lost to a marker that is written after it. -/
theorem retries_unstable :
    ¬RetriesStable (closedCalls ++ [positiveAttempt.markCall 1760000004100]) :=
  not_retriesStable [] closedCalls_lateMark

end Positive

end Etp.Sqlite
