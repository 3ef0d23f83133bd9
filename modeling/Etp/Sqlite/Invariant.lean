import Etp.Core.Acceptance
import Etp.Sqlite.Operations

/-!
# The invariant of the store

`WellFormed` says what every database of a run satisfies, on the typed tables:
unique keys, a registered chain for every claim, a matching claim for every
receipt, and for every receipt a history that the verifier would accept.

`Change` lists what a call can do, with the checks that let it.
`exists_change` is the one place where the operations are taken apart;
`WellFormed.change` is the step lemma and `exists_run` the run lemma.
-/

namespace Etp.Sqlite

open Etp.Core SqliteEffectStore

variable [Sha256] {t : Tables} {db' : Db}

/-! ## Histories -/

section History

variable {records : List ReconciliationRecord} (h : Chained ParentLink none records)

include h

/-- The record with sequence number `n` is the one at position `n`. -/
theorem find_sequence {n : Nat} (hn : 0 < n) :
    (records.find? fun r ↦ r.sequence = n) = records[n - 1]? := by
  ext q
  rw [List.find?_eq_some_iff_getElem]
  constructor
  · rintro ⟨hq, i, hi, rfl, -⟩
    have := sequence_eq_of_linked h i hi
    simp only [decide_eq_true_eq] at hq
    rw [show n - 1 = i by omega, List.getElem?_eq_getElem hi]
  · intro hq
    obtain ⟨hi, rfl⟩ := List.getElem?_eq_some_iff.mp hq
    have hseq := sequence_eq_of_linked h (n - 1) hi
    refine ⟨by simp only [decide_eq_true_eq]; omega, n - 1, hi, rfl, fun j hj ↦ ?_⟩
    have := sequence_eq_of_linked h j (by omega)
    simp only [Bool.not_eq_true', decide_eq_false_iff_not]
    omega

theorem sequences_increasing : records.Pairwise fun a b ↦ a.sequence < b.sequence := by
  rw [List.pairwise_iff_getElem]
  intro i j hi hj hij
  rw [sequence_eq_of_linked h i hi, sequence_eq_of_linked h j hj]
  omega

theorem rows_increasing :
    (records.map reconciliationRow).Pairwise fun a b ↦ a.sequence < b.sequence := by
  rw [List.pairwise_map]
  exact (sequences_increasing h).imp fun hab ↦ by simp only [reconciliationRow]; omega

end History

namespace Tables

theorem loadLatestReconciliation_encode {hash : Digest32}
    (h : Chained ParentLink none (t.history hash)) :
    loadLatestReconciliation t.encode hash = .ok (t.history hash).getLast? := by
  rw [loadLatestReconciliation, Db.latestReconciliation, reconciliationsOf_encode,
    insertionSort_desc_of_increasing (rows_increasing h), List.head?_reverse, List.getLast?_map]
  simpa using transposeMap_map (v := id) fun r hr ↦
    decodeReconciliation_row (t.valid_of_mem_history (List.mem_of_getLast? hr))

omit [Sha256] in
theorem mapM_map_ok {α β γ ε : Type} {f : β → Except ε γ} {row : α → β} {g : α → γ} {l : List α}
    (h : ∀ a ∈ l, f (row a) = .ok (g a)) : (l.map row).mapM f = .ok (l.map g) := by
  induction l with
  | nil => rfl
  | cons a l ih =>
      rw [List.map_cons, List.mapM_cons, h a (by simp), ih fun b hb ↦ h b (by simp [hb])]
      rfl

theorem loadAllReconciliations_encode {hash : Digest32}
    (h : Chained ParentLink none (t.history hash)) :
    loadAllReconciliations t.encode hash = .ok (t.history hash) := by
  rw [loadAllReconciliations, Db.reconciliationsInOrder, reconciliationsOf_encode,
    insertionSort_of_increasing (rows_increasing h)]
  simpa using mapM_map_ok (g := id) fun r hr ↦
    decodeReconciliation_row (t.valid_of_mem_history hr)

end Tables

/-! ## Well-formed tables -/

/-- A claim in the window of its grant, marked no earlier than it was made. -/
structure ClaimedFor (x : RegisteredChain) (c : DurableClaim) : Prop where
  not_before_le : x.grant.notBeforeMs ≤ c.claimedAtMs
  lt_expires : c.claimedAtMs < x.grant.expiresAtMs
  marked : ∀ d ∈ c.dispatchStartedAtMs, c.claimedAtMs ≤ d ∧ d < x.grant.expiresAtMs

/-- A receipt of the attempt that holds the claim. -/
structure ReceivedFor (x : RegisteredChain) (c : DurableClaim) (r : EffectReceipt) : Prop where
  receiptFor : ReceiptFor x.proposal x.grant r
  attempt : c.attemptId = r.attemptId
  claimed : c.claimedAtMs = r.claimedAtMs
  reported : ∀ d ∈ r.dispatchedAtMs, c.dispatchStartedAtMs = some d

structure WellFormed (t : Tables) : Prop where
  grant_ids : UniqueBy (fun x ↦ x.grant.grantId) t.chains
  grant_hashes : UniqueBy RegisteredChain.grantHash t.chains
  proposal_hashes : UniqueBy (fun x ↦ recordHash x.proposal) t.chains
  decision_hashes : UniqueBy (fun x ↦ recordHash x.decision) t.chains
  claim_grants : UniqueBy (fun c ↦ c.1.grantHash) t.claims
  attempts : UniqueBy (fun c ↦ c.1.attemptId) t.claims
  receipt_grants : UniqueBy (fun r ↦ r.1.grantHash) t.receipts
  receipt_ids : UniqueBy (fun r ↦ r.1.receiptId) t.receipts
  receipt_hashes : UniqueBy (fun r ↦ recordHash r.1) t.receipts
  record_ids : UniqueBy (fun r ↦ r.1.reconciliationId) t.reconciliations
  claimed : ∀ hash c, t.claim hash = some c → ∃ x, t.chain hash = some x ∧ ClaimedFor x c
  known_key : ∀ hash c, t.claim hash = some c → (t.snapshot c.currentnessKey).isSome
  received : ∀ hash r, t.receipt hash = some r →
    ∃ x c, t.chain hash = some x ∧ t.claim hash = some c ∧ ReceivedFor x c r
  history : ∀ hash r, t.receiptByHash hash = some r →
    History r (t.history hash) ∧ (t.history hash).length ≤ maxReconciliationRecords
  no_orphans : ∀ hash, t.receiptByHash hash = none → t.history hash = []

theorem WellFormed.empty : WellFormed .empty where
  grant_ids := .nil
  grant_hashes := .nil
  proposal_hashes := .nil
  decision_hashes := .nil
  claim_grants := .nil
  attempts := .nil
  receipt_grants := .nil
  receipt_ids := .nil
  receipt_hashes := .nil
  record_ids := .nil
  claimed _ _ h := by cases h
  known_key _ _ h := by cases h
  received _ _ h := by cases h
  history _ _ h := by cases h
  no_orphans _ _ := rfl

namespace WellFormed

variable (h : WellFormed t) {hash : Digest32}

include h

theorem linked (hash : Digest32) : Chained ParentLink none (t.history hash) := by
  cases hr : t.receiptByHash hash with
  | none => rw [h.no_orphans hash hr]; trivial
  | some r => exact (h.history hash r hr).1.linked

/-- A receipt is found under its own two keys. -/
theorem receipt_of_receiptByHash {r : EffectReceipt} (hr : t.receiptByHash hash = some r) :
    recordHash r = hash ∧ t.receipt r.grantHash = some r := by
  obtain ⟨r', hlookup, rfl⟩ := Option.map_eq_some_iff.mp hr
  obtain ⟨hmem, hkey⟩ := h.receipt_hashes.lookupBy_eq_some_iff.mp hlookup
  exact ⟨hkey, Option.map_eq_some_iff.mpr
    ⟨r', h.receipt_grants.lookupBy_eq_some_iff.mpr ⟨hmem, rfl⟩, rfl⟩⟩

theorem receiptByHash_of_receipt {r : EffectReceipt} (hr : t.receipt hash = some r) :
    r.grantHash = hash ∧ t.receiptByHash (recordHash r) = some r := by
  obtain ⟨r', hlookup, rfl⟩ := Option.map_eq_some_iff.mp hr
  obtain ⟨hmem, hkey⟩ := h.receipt_grants.lookupBy_eq_some_iff.mp hlookup
  exact ⟨hkey, Option.map_eq_some_iff.mpr
    ⟨r', h.receipt_hashes.lookupBy_eq_some_iff.mpr ⟨hmem, rfl⟩, rfl⟩⟩

theorem chainById_of_chain {x : RegisteredChain} (hx : t.chain hash = some x) :
    x.grantHash = hash ∧ t.chainById x.grant.grantId = some x := by
  obtain ⟨hmem, hkey⟩ := h.grant_hashes.lookupBy_eq_some_iff.mp hx
  exact ⟨hkey, h.grant_ids.lookupBy_eq_some_iff.mpr ⟨hmem, rfl⟩⟩

theorem chain_of_chainById {grantId : String} {x : RegisteredChain}
    (hx : t.chainById grantId = some x) :
    x.grant.grantId = grantId ∧ t.chain x.grantHash = some x := by
  obtain ⟨hmem, hkey⟩ := h.grant_ids.lookupBy_eq_some_iff.mp hx
  exact ⟨hkey, h.grant_hashes.lookupBy_eq_some_iff.mpr ⟨hmem, rfl⟩⟩

end WellFormed

/-! ## Appending a reconciliation -/

/-- The checks of `append_reconciliation` on a record for a free position. -/
structure NewRecord (t : Tables) (r : ReconciliationRecord) (receipt : EffectReceipt) : Prop where
  length_lt : (t.history r.receiptHash).length < maxReconciliationRecords
  recordFor : ReconciliationFor receipt r
  parent : ParentLink (t.history r.receiptHash).getLast? r

/-- What lets `append_reconciliation` write. -/
structure AppendGuards (t : Tables) (r : ReconciliationRecord) (receipt : EffectReceipt) : Prop
    extends NewRecord t r receipt where
  free : Tables.Appendable r t

omit [Sha256] in
theorem sequence_bounds {r : ReconciliationRecord} (hv : validate r = .ok ()) :
    0 < r.sequence ∧ r.sequence ≤ maxSafeInteger :=
  (ReconciliationRecord.validate_eq_ok.mp hv).2.2.2.1

/-- A free position of a history is one past its end. -/
theorem Tables.Appendable.position_none {r : ReconciliationRecord} (hfree : Tables.Appendable r t)
    (h : WellFormed t) (hpos : 0 < r.sequence) :
    (t.history r.receiptHash)[r.sequence - 1]? = none := by
  rw [← find_sequence (h.linked _) hpos, List.find?_eq_none]
  intro q hq
  obtain ⟨hmem, hreceipt⟩ := List.mem_filter.mp hq
  obtain ⟨q', hq', rfl⟩ := List.mem_map.mp hmem
  simpa using hfree.position q' hq' (by simpa using hreceipt)

theorem newRecordPlan_encode (h : WellFormed t) {r : ReconciliationRecord} {receipt : EffectReceipt}
    {row : ReconciliationRow} (hv : validate r = .ok ())
    (hreceipt : t.receiptByHash r.receiptHash = some receipt) :
    newRecordPlan receipt r t.encode = .ok row ↔
      NewRecord t r receipt ∧ row = reconciliationRow r := by
  obtain ⟨hpos, hmax⟩ := sequence_bounds hv
  have hh := (h.history _ _ hreceipt).1
  have hprev : ∀ q ∈ (t.history r.receiptHash).getLast?, ReconciliationFor receipt q :=
    fun q hq ↦ hh.each q (List.mem_of_getLast? hq)
  have hreceiptValid : validate receipt = .ok () := by
    obtain ⟨r', -, rfl⟩ := Option.map_eq_some_iff.mp hreceipt
    exact r'.2
  have hcount : (t.encode.reconciliationsOf r.receiptHash.asStr).length =
      (t.history r.receiptHash).length := by
    rw [Tables.reconciliationsOf_encode, List.length_map]
  simp only [newRecordPlan, bind_eq_ok, rejectIf_eq_ok, hcount, not_le, ge_iff_le,
    Tables.loadLatestReconciliation_encode (h.linked _), fromProtocol_eq_ok,
    verifyReconciliation_eq_ok hprev, canonicalJson_of_valid hv, safeI64_eq_ok, Except.ok.injEq,
    exists_eq_left', exists_const]
  constructor
  · rintro ⟨hlen, _, ⟨⟨-, hfor, hparent⟩, rfl⟩, _, ⟨-, rfl⟩, rfl⟩
    exact ⟨⟨hlen, hfor, hparent⟩, rfl⟩
  · rintro ⟨g, rfl⟩
    exact ⟨g.length_lt, _, ⟨⟨hreceiptValid, g.recordFor, g.parent⟩, rfl⟩, _, ⟨hmax, rfl⟩, rfl⟩

theorem appendPlan_encode (h : WellFormed t) {r : ReconciliationRecord} {hash : Digest32}
    {row : Option ReconciliationRow} :
    appendPlan r t.encode = .ok (hash, row) ↔ hash = recordHash r ∧
      validate r = .ok () ∧ ∃ receipt, t.receiptByHash r.receiptHash = some receipt ∧
        ((∃ q ∈ (t.history r.receiptHash)[r.sequence - 1]?, recordHash q = recordHash r) ∧
            row = none ∨
          (t.history r.receiptHash)[r.sequence - 1]? = none ∧ NewRecord t r receipt ∧
            row = some (reconciliationRow r)) := by
  have hstored : ∀ {n : Nat} {q : ReconciliationRecord},
      (t.history r.receiptHash)[n]? = some q → validate q = .ok () := fun hq ↦
    t.valid_of_mem_history (List.mem_of_getElem? hq)
  simp only [appendPlan, bind_eq_ok, fromProtocol_eq_ok, commitment_eq_ok,
    Tables.loadReceiptByHash_encode, okOr_eq_ok, Except.ok.injEq, exists_eq_left']
  constructor
  · rintro ⟨_, hv, _, ⟨-, rfl⟩, receipt, hreceipt, existing, hat, hrest⟩
    obtain ⟨hpos, hmax⟩ := sequence_bounds hv
    rw [Tables.loadReconciliationAt_encode _ _ hmax, find_sequence (h.linked _) hpos] at hat
    obtain rfl := Except.ok.inj hat
    cases hex : (t.history r.receiptHash)[r.sequence - 1]? with
    | some q =>
        simp only [hex, bind_eq_ok, fromProtocol_eq_ok, commitment_eq_ok, rejectIf_eq_ok, not_not,
          exists_const, Except.ok.injEq, Prod.mk.injEq] at hrest
        obtain ⟨_, ⟨-, rfl⟩, heq, rfl, rfl⟩ := hrest
        exact ⟨rfl, hv, receipt, hreceipt, .inl ⟨⟨q, rfl, heq⟩, rfl⟩⟩
    | none =>
        simp only [hex, bind_eq_ok, newRecordPlan_encode h hv hreceipt, Except.ok.injEq,
          Prod.mk.injEq] at hrest
        obtain ⟨_, ⟨hnew, rfl⟩, rfl, rfl⟩ := hrest
        exact ⟨rfl, hv, receipt, hreceipt, .inr ⟨rfl, hnew, rfl⟩⟩
  · rintro ⟨rfl, hv, receipt, hreceipt, hcases⟩
    obtain ⟨hpos, hmax⟩ := sequence_bounds hv
    have hat : loadReconciliationAt t.encode r.receiptHash r.sequence =
        .ok (t.history r.receiptHash)[r.sequence - 1]? := by
      rw [Tables.loadReconciliationAt_encode _ _ hmax, find_sequence (h.linked _) hpos]
    refine ⟨(), hv, _, ⟨hv, rfl⟩, receipt, hreceipt, _, hat, ?_⟩
    rcases hcases with ⟨⟨q, hq, heq⟩, rfl⟩ | ⟨hnone, hnew, rfl⟩
    · simp only [Option.mem_def.mp hq, commitment_of_valid (hstored hq), fromProtocol_ok, ok_bind,
        heq, ne_eq, not_true_eq_false, not_false_eq_true, rejectIf_false]
    · have hrow := (newRecordPlan_encode h hv hreceipt).mpr ⟨hnew, rfl⟩
      simp only [hnone, hrow, ok_bind]

theorem appendReconciliationTx_encode (h : WellFormed t) {r : ReconciliationRecord}
    {hash : Digest32} :
    appendReconciliationTx r t.encode = .ok (hash, db') ↔ hash = recordHash r ∧
      ∃ hv : validate r = .ok (), ∃ receipt, t.receiptByHash r.receiptHash = some receipt ∧
        ((∃ q ∈ (t.history r.receiptHash)[r.sequence - 1]?, recordHash q = recordHash r) ∧
            db' = t.encode ∨
          AppendGuards t r receipt ∧ db' = (t.addRecord ⟨r, hv⟩).encode) := by
  simp only [appendReconciliationTx, bind_eq_ok, Prod.exists, appendPlan_encode h,
    Except.ok.injEq, Prod.mk.injEq]
  constructor
  · rintro ⟨_, row, ⟨rfl, hv, receipt, hreceipt, hcases⟩, db, hdb, rfl, rfl⟩
    refine ⟨rfl, hv, receipt, hreceipt, ?_⟩
    rcases hcases with ⟨hsame, rfl⟩ | ⟨-, hnew, rfl⟩
    · exact .inl ⟨hsame, (Except.ok.inj hdb).symm⟩
    · obtain ⟨hfree, rfl⟩ := (Tables.insertReconciliation_encode (r := ⟨r, hv⟩)
        (sequence_bounds hv).1).mp (mapError_eq_ok.mp hdb)
      exact .inr ⟨⟨hnew, hfree⟩, rfl⟩
  · rintro ⟨rfl, hv, receipt, hreceipt, ⟨hsame, rfl⟩ | ⟨g, rfl⟩⟩
    · exact ⟨_, none, ⟨rfl, hv, receipt, hreceipt, .inl ⟨hsame, rfl⟩⟩, _, rfl, rfl, rfl⟩
    · have hpos := (sequence_bounds hv).1
      have hinsert := (Tables.insertReconciliation_encode (r := ⟨r, hv⟩) hpos).mpr ⟨g.free, rfl⟩
      refine ⟨_, _, ⟨rfl, hv, receipt, hreceipt,
        .inr ⟨g.free.position_none h hpos, g.toNewRecord, rfl⟩⟩, _, ?_, rfl, rfl⟩
      exact mapError_eq_ok.mpr hinsert

/-! ## What a call can do -/

/-- Everything a call can do to the tables, with the checks that let it. -/
inductive Change (t : Tables) : Call → Tables → Prop
  | same {call : Call} : Change t call t
  | registered {x : RegisteredChain} (hfresh : t.Fresh x) :
      Change t (.registerChain x.commitment x.proposal x.decision x.grant) (t.addChain x)
  | put {s : CurrentnessSnapshot} (hv : ValidSnapshot s)
      (hadvance : ∀ previous ∈ t.snapshot s.key, Advances previous s) :
      Change t (.putCurrentness s) (t.putSnapshot ⟨s, hv⟩)
  | claimed {x : RegisteredChain} {request : ClaimRequest} {now : Nat} {s : CurrentnessSnapshot}
      (hguards : ClaimGuards t x request now s)
      (hfree : Tables.Claimable (newClaim x request now) t) :
      Change t (.claim x.grant request now)
        ((t.setTime now).addClaim ⟨_, hguards.newClaim_valid⟩)
  | marked {c : DurableClaim} {x : RegisteredChain} {dispatched : Nat} {s : CurrentnessSnapshot}
      (hc : t.claim c.grantHash = some c) (hnone : c.dispatchStartedAtMs = none)
      (hle : c.claimedAtMs ≤ dispatched) (hmax : dispatched ≤ maxSafeInteger)
      (hguards : MarkGuards t c x dispatched s) :
      Change t (.markDispatchStarted c.grantHash c.attemptId dispatched)
        ((t.setTime dispatched).mark c.grantHash c.attemptId dispatched)
  | received {r : EffectReceipt} {x : RegisteredChain} {c : DurableClaim}
      (hguards : ReceiptGuards t r x c) (hfree : Tables.Receivable r t) :
      Change t (.recordReceipt r) (t.addReceipt ⟨r, hguards.receiptFor.receipt_valid⟩)
  | appended {r : ReconciliationRecord} {receipt : EffectReceipt}
      (hreceipt : t.receiptByHash r.receiptHash = some receipt)
      (hguards : AppendGuards t r receipt) :
      Change t (.appendReconciliation r) (t.addRecord ⟨r, hguards.recordFor.record_valid⟩)

/-- Every call on a well-formed database makes one of the changes. -/
theorem exists_change (h : WellFormed t) (call : Call) :
    ∃ t', Change t call t' ∧ step t.encode call = t'.encode := by
  have same : ∀ {call}, step t.encode call = t.encode →
      ∃ t', Change t call t' ∧ step t.encode call = t'.encode := fun he ↦ ⟨t, .same, he⟩
  cases call with
  | registerChain c p d g =>
      rcases transaction_snd t.encode (registerChainTx c p d g t.encode) with
        he | ⟨a, hok⟩
      · exact same he
      · obtain ⟨x, ⟨rfl, rfl, rfl, rfl⟩, -, ⟨-, he⟩ | ⟨hfresh, he⟩⟩ := registerChainTx_encode.mp hok
        · exact same he
        · exact ⟨_, .registered hfresh, he⟩
  | putCurrentness s =>
      rcases transaction_snd t.encode (putCurrentnessTx s t.encode) with he | ⟨a, hok⟩
      · exact same he
      · obtain ⟨hv, ⟨-, he⟩ | ⟨hadvance, he⟩⟩ := putCurrentnessTx_encode.mp hok
        · exact same he
        · exact ⟨_, .put hv hadvance, he⟩
  | claim g request now =>
      rcases transaction_snd t.encode (claimTx g request now t.encode) with
        he | ⟨a, hok⟩
      · exact same he
      · obtain ⟨x, s, rfl, rfl, hguards, hfree, he⟩ := claimTx_encode.mp hok
        exact ⟨_, .claimed hguards hfree, he⟩
  | markDispatchStarted hash attemptId dispatched =>
      rcases transaction_snd t.encode
        (markDispatchStartedTx hash attemptId dispatched t.encode) with he | ⟨a, hok⟩
      · exact same he
      · obtain ⟨-, hmax, c, hc, rfl, hle, -, hcases⟩ :=
          (markDispatchStartedTx_encode h.claim_grants).mp hok
        obtain rfl := claim_grantHash hc
        rcases hcases with ⟨-, he⟩ | ⟨hnone, ⟨x, s, hguards⟩, he⟩
        · exact same he
        · exact ⟨_, .marked hc hnone hle hmax hguards, he⟩
  | recordReceipt r =>
      rcases transaction_snd t.encode (recordReceiptTx r t.encode) with he | ⟨a, hok⟩
      · exact same he
      · obtain ⟨-, x, c, hguards, ⟨-, he⟩ | ⟨hfree, he⟩⟩ := recordReceiptTx_encode.mp hok
        · exact same he
        · exact ⟨_, .received hguards hfree, he⟩
  | appendReconciliation r =>
      rcases transaction_snd t.encode (appendReconciliationTx r t.encode) with
        he | ⟨a, hok⟩
      · exact same he
      · obtain ⟨-, hv, receipt, hreceipt, ⟨-, he⟩ | ⟨hguards, he⟩⟩ :=
          (appendReconciliationTx_encode h).mp hok
        · exact same he
        · exact ⟨_, .appended hreceipt hguards, he⟩

/-! ## The step lemma -/

namespace WellFormed

theorem setTime (h : WellFormed t) (now : Nat) : WellFormed (t.setTime now) := { h with }

theorem addChain (h : WellFormed t) {x : RegisteredChain} (hfresh : t.Fresh x) :
    WellFormed (t.addChain x) := by
  have hchain : ∀ {hash y}, t.chain hash = some y → (t.addChain x).chain hash = some y := fun hy ↦
    lookupBy_append_of_some hy _
  exact { h with
    grant_ids := uniqueBy_concat.mpr ⟨h.grant_ids, hfresh.id⟩
    grant_hashes := uniqueBy_concat.mpr ⟨h.grant_hashes, hfresh.hash⟩
    proposal_hashes := uniqueBy_concat.mpr ⟨h.proposal_hashes, hfresh.proposal⟩
    decision_hashes := uniqueBy_concat.mpr ⟨h.decision_hashes, hfresh.decision⟩
    claimed := fun hash c hc ↦ by
      obtain ⟨y, hy, hfor⟩ := h.claimed hash c hc
      exact ⟨y, hchain hy, hfor⟩
    received := fun hash r hr ↦ by
      obtain ⟨y, c, hy, hc, hfor⟩ := h.received hash r hr
      exact ⟨y, c, hchain hy, hc, hfor⟩ }

theorem putSnapshot (h : WellFormed t) (s : {s : CurrentnessSnapshot // ValidSnapshot s}) :
    WellFormed (t.putSnapshot s) :=
  { h with
    known_key := fun hash c hc ↦ by
      rw [Tables.snapshot_putSnapshot]
      split_ifs
      · rfl
      · exact h.known_key hash c hc }

theorem addClaim (h : WellFormed t) {c : {c : DurableClaim // ValidClaim c}} {x : RegisteredChain}
    (hfree : Tables.Claimable c.1 t) (hx : t.chain c.1.grantHash = some x)
    (hfor : ClaimedFor x c.1) : WellFormed (t.addClaim c) := by
  have hkept : ∀ {hash q}, t.claim hash = some q → (t.addClaim c).claim hash = some q := by
    intro hash q hq
    rw [Tables.claim_addClaim hfree, if_neg, hq]
    rintro rfl
    rw [hfree.grant] at hq
    cases hq
  have hnew : ∀ {hash q}, (t.addClaim c).claim hash = some q →
      hash = c.1.grantHash ∧ q = c.1 ∨ t.claim hash = some q := by
    intro hash q hq
    rw [Tables.claim_addClaim hfree] at hq
    split_ifs at hq with hh
    · exact .inl ⟨hh.symm, (Option.some.inj hq).symm⟩
    · exact .inr hq
  have hfresh : ∀ q ∈ t.claims, q.1.grantHash ≠ c.1.grantHash := by
    simpa [Tables.claim, lookupBy_eq_none_iff] using hfree.grant
  exact { h with
    claim_grants := uniqueBy_concat.mpr ⟨h.claim_grants, hfresh⟩
    attempts := uniqueBy_concat.mpr ⟨h.attempts, hfree.attempt⟩
    claimed := fun hash q hq ↦ by
      rcases hnew hq with ⟨rfl, rfl⟩ | hq
      · exact ⟨x, hx, hfor⟩
      · exact h.claimed hash q hq
    known_key := fun hash q hq ↦ by
      rcases hnew hq with ⟨rfl, rfl⟩ | hq
      · exact hfree.snapshot
      · exact h.known_key hash q hq
    received := fun hash r hr ↦ by
      obtain ⟨y, q, hy, hq, hfor⟩ := h.received hash r hr
      exact ⟨y, q, hy, hkept hq, hfor⟩ }

theorem mark (h : WellFormed t) {c : DurableClaim} {x : RegisteredChain} {dispatched : Nat}
    (hc : t.claim c.grantHash = some c) (hnone : c.dispatchStartedAtMs = none)
    (hle : c.claimedAtMs ≤ dispatched) (hmax : dispatched ≤ maxSafeInteger)
    (hx : t.chain c.grantHash = some x) (hlt : dispatched < x.grant.expiresAtMs) :
    WellFormed (t.mark c.grantHash c.attemptId dispatched) := by
  have hclaim := Tables.claim_mark hc rfl hnone hle hmax
  exact { h with
    claim_grants := h.claim_grants.updateWhere (Tables.withMarker_grantHash dispatched)
    attempts := h.attempts.updateWhere (Tables.withMarker_attemptId dispatched)
    claimed := fun hash q hq ↦ by
      rw [hclaim] at hq
      split_ifs at hq with hh
      · subst hh
        cases hq
        obtain ⟨y, hy, hfor⟩ := h.claimed _ c hc
        rw [hx] at hy
        cases hy
        exact ⟨x, hx, hfor.not_before_le, hfor.lt_expires, fun d hd ↦ by cases hd; exact ⟨hle, hlt⟩⟩
      · exact h.claimed hash q hq
    known_key := fun hash q hq ↦ by
      rw [hclaim] at hq
      split_ifs at hq with hh
      · cases hq
        exact h.known_key _ c hc
      · exact h.known_key hash q hq
    received := fun hash r hr ↦ by
      obtain ⟨y, q, hy, hq, hfor⟩ := h.received hash r hr
      by_cases hh : c.grantHash = hash
      · subst hh
        rw [hc] at hq
        cases hq
        refine ⟨y, { c with dispatchStartedAtMs := some dispatched }, hy,
          by rw [hclaim, if_pos rfl], hfor.receiptFor, hfor.attempt, hfor.claimed, fun d hd ↦ ?_⟩
        rw [hfor.reported d hd] at hnone
        cases hnone
      · exact ⟨y, q, hy, by rw [hclaim, if_neg hh, hq], hfor⟩ }

theorem addReceipt (h : WellFormed t) {r : Valid EffectReceipt} {x : RegisteredChain}
    {c : DurableClaim} (hfree : Tables.Receivable r.1 t) (hx : t.chain r.1.grantHash = some x)
    (hc : t.claim r.1.grantHash = some c) (hfor : ReceivedFor x c r.1) :
    WellFormed (t.addReceipt r) := by
  have hfresh : ∀ q ∈ t.receipts, q.1.grantHash ≠ r.1.grantHash := by
    simpa [Tables.receipt, lookupBy_eq_none_iff] using hfree.grant
  have hnone : t.receiptByHash (recordHash r.1) = none := by
    simpa [Tables.receiptByHash, lookupBy_eq_none_iff] using hfree.hash
  exact { h with
    receipt_grants := uniqueBy_concat.mpr ⟨h.receipt_grants, hfresh⟩
    receipt_ids := uniqueBy_concat.mpr ⟨h.receipt_ids, hfree.id⟩
    receipt_hashes := uniqueBy_concat.mpr ⟨h.receipt_hashes, hfree.hash⟩
    received := fun hash q hq ↦ by
      rw [Tables.receipt_addReceipt hfree] at hq
      split_ifs at hq with hh
      · subst hh
        cases hq
        exact ⟨x, c, hx, hc, hfor⟩
      · exact h.received hash q hq
    history := fun hash q hq ↦ by
      rw [Tables.receiptByHash_addReceipt hfree] at hq
      split_ifs at hq with hh
      · subst hh
        cases hq
        have hnil : (t.addReceipt r).history (recordHash r.1) = [] := h.no_orphans _ hnone
        rw [hnil]
        exact ⟨history_nil _, Nat.zero_le _⟩
      · exact h.history hash q hq
    no_orphans := fun hash hq ↦ by
      rw [Tables.receiptByHash_addReceipt hfree] at hq
      split_ifs at hq with hh
      exact h.no_orphans hash hq }

theorem addRecord (h : WellFormed t) {r : Valid ReconciliationRecord} {receipt : EffectReceipt}
    (hreceipt : t.receiptByHash r.1.receiptHash = some receipt) (g : AppendGuards t r.1 receipt) :
    WellFormed (t.addRecord r) := by
  exact { h with
    record_ids := uniqueBy_concat.mpr ⟨h.record_ids, g.free.id⟩
    history := fun hash q hq ↦ by
      have hq' : t.receiptByHash hash = some q := hq
      rw [Tables.history_addRecord]
      split_ifs with hh
      · subst hh
        rw [hreceipt] at hq'
        cases hq'
        obtain ⟨hh, -⟩ := h.history _ _ hreceipt
        refine ⟨⟨?_, ?_, ?_⟩, by simpa using g.length_lt⟩
        · intro y hy
          rcases List.mem_append.mp hy with hy | hy
          · exact hh.each y hy
          · rw [List.mem_singleton.mp hy]
            exact g.recordFor
        · exact Chained.concat_iff.mpr ⟨hh.linked, by rw [Option.or_none]; exact g.parent⟩
        · rw [List.map_append, List.map_singleton]
          refine List.nodup_append.mpr ⟨hh.distinct, List.nodup_singleton _, ?_⟩
          rintro id hid _ hid' rfl
          obtain ⟨y, hy, rfl⟩ := List.mem_map.mp hid
          obtain ⟨y', hy', rfl⟩ := List.mem_map.mp (List.mem_of_mem_filter hy)
          exact g.free.id y' hy' (List.mem_singleton.mp hid')
      · exact h.history hash q hq'
    no_orphans := fun hash hq ↦ by
      have hq' : t.receiptByHash hash = none := hq
      rw [Tables.history_addRecord, if_neg, h.no_orphans hash hq']
      rintro rfl
      rw [hreceipt] at hq'
      cases hq' }

/-- Every change keeps the tables well-formed. -/
theorem change {t' : Tables} {call : Call} (h : WellFormed t) (hc : Change t call t') :
    WellFormed t' := by
  cases hc with
  | same => exact h
  | registered hfresh => exact h.addChain hfresh
  | put hv _ => exact h.putSnapshot ⟨_, hv⟩
  | claimed g hfree =>
      refine (h.setTime _).addClaim (Tables.claimable_setTime.mpr hfree)
        (h.chain_of_chainById g.chain).2 ⟨g.not_before_le, g.lt_expires, ?_⟩
      rintro d ⟨⟩
  | marked hc hnone hle hmax g => exact (h.setTime _).mark hc hnone hle hmax g.chain g.lt_expires
  | received g hfree =>
      refine h.addReceipt hfree g.chain g.claim ⟨g.receiptFor, g.attempt, g.claimed, ?_⟩
      intro d hd
      rw [← g.evidence.reported]
      exact hd
  | appended hreceipt g => exact h.addRecord hreceipt g

end WellFormed

/-! ## What a change leaves -/

namespace Change

variable {t' : Tables} {call : Call} (h : Change t call t') {hash : Digest32}

include h

theorem chain {x : RegisteredChain} (hx : t.chain hash = some x) : t'.chain hash = some x := by
  cases h with
  | registered _ => exact lookupBy_append_of_some hx _
  | _ => exact hx

theorem snapshot {key : String} {s : CurrentnessSnapshot} (hs : t.snapshot key = some s) :
    ∃ s', t'.snapshot key = some s' ∧ (s' = s ∨ Advances s s') := by
  cases h with
  | put hv hadvance =>
      rw [Tables.snapshot_putSnapshot]
      split_ifs with hk
      · subst hk
        exact ⟨_, rfl, .inr (hadvance s hs)⟩
      · exact ⟨s, hs, .inl rfl⟩
  | _ => exact ⟨s, hs, .inl rfl⟩

/-- A claim changes only when its first marker is written. -/
theorem claim {c : DurableClaim} (hc : t.claim hash = some c) :
    t'.claim hash = some c ∨ c.dispatchStartedAtMs = none ∧
      ∃ d x s, call = .markDispatchStarted hash c.attemptId d ∧ c.claimedAtMs ≤ d ∧
        MarkGuards t c x d s ∧ t'.claim hash = some { c with dispatchStartedAtMs := some d } := by
  cases h with
  | claimed g hfree =>
      refine .inl ?_
      rw [Tables.claim_addClaim (Tables.claimable_setTime.mpr hfree), if_neg, ← hc]
      · rfl
      · rintro rfl
        rw [hfree.grant] at hc
        cases hc
  | marked hc' hnone hle hmax g =>
      rename_i c' x d s
      have hmark := Tables.claim_mark (t := t.setTime d) hc' rfl hnone hle hmax hash
      by_cases hh : c'.grantHash = hash
      · subst hh
        rw [hc'] at hc
        cases hc
        rw [if_pos rfl] at hmark
        exact .inr ⟨hnone, d, x, s, rfl, hle, g, hmark⟩
      · rw [if_neg hh] at hmark
        exact .inl (hmark.trans hc)
  | _ => exact .inl hc

theorem receipt {r : EffectReceipt} (hr : t.receipt hash = some r) : t'.receipt hash = some r := by
  cases h with
  | received g hfree =>
      rw [Tables.receipt_addReceipt hfree, if_neg, hr]
      rintro rfl
      rw [hfree.grant] at hr
      cases hr
  | _ => exact hr

theorem history (hash : Digest32) : t.history hash <+: t'.history hash := by
  cases h with
  | appended _ g =>
      rw [Tables.history_addRecord]
      split_ifs
      · exact List.prefix_append _ _
      · exact List.prefix_rfl
  | _ => exact List.prefix_rfl

theorem lastTrustedTime {last : Nat} (hlast : last ∈ t.lastTrustedTimeMs) :
    ∃ last' ∈ t'.lastTrustedTimeMs, last ≤ last' := by
  cases h with
  | claimed g _ => exact ⟨_, rfl, g.time last hlast⟩
  | marked _ _ _ _ g => exact ⟨_, rfl, g.time last hlast⟩
  | _ => exact ⟨last, hlast, le_rfl⟩

end Change

/-- What the time that passes can do to a claim: write its marker, once. -/
def ClaimKept (c c' : DurableClaim) : Prop :=
  c' = c ∨ c.dispatchStartedAtMs = none ∧ ∃ d, c' = { c with dispatchStartedAtMs := some d }

namespace ClaimKept

omit [Sha256]

theorem refl (c : DurableClaim) : ClaimKept c c := .inl rfl

theorem trans {a b c : DurableClaim} (h : ClaimKept a b) (h' : ClaimKept b c) : ClaimKept a c := by
  rcases h with rfl | ⟨hnone, d, rfl⟩
  · exact h'
  · rcases h' with rfl | ⟨hmarked, -⟩
    · exact .inr ⟨hnone, d, rfl⟩
    · cases hmarked

variable {c c' : DurableClaim} (h : ClaimKept c c')

include h

theorem attemptId : c'.attemptId = c.attemptId := by
  rcases h with rfl | ⟨-, d, rfl⟩ <;> rfl

theorem claimedAtMs : c'.claimedAtMs = c.claimedAtMs := by
  rcases h with rfl | ⟨-, d, rfl⟩ <;> rfl

theorem eq_of_marked (hc : c.dispatchStartedAtMs ≠ none) : c' = c := by
  rcases h with rfl | ⟨hnone, -⟩
  · rfl
  · exact absurd hnone hc

theorem eq_of_unmarked (hc : c'.dispatchStartedAtMs = none) : c' = c := by
  rcases h with rfl | ⟨-, d, rfl⟩
  · rfl
  · cases hc

end ClaimKept

theorem Change.claimKept {t' : Tables} {call : Call} (h : Change t call t') {hash : Digest32}
    {c : DurableClaim} (hc : t.claim hash = some c) :
    ∃ c', t'.claim hash = some c' ∧ ClaimKept c c' := by
  rcases h.claim hc with hsame | ⟨hnone, d, -, -, -, -, -, hmarked⟩
  · exact ⟨c, hsame, .refl c⟩
  · exact ⟨_, hmarked, .inr ⟨hnone, d, rfl⟩⟩

/-! ## Runs -/

/-- A relation that every change obeys holds between the tables at the two ends of a run. -/
theorem exists_run {R : Tables → Tables → Prop} (hrefl : ∀ t, R t t)
    (htrans : ∀ {t u v}, R t u → R u v → R t v)
    (hstep : ∀ {t call t'}, WellFormed t → Change t call t' → R t t') (h : WellFormed t)
    (calls : List Call) :
    ∃ t', WellFormed t' ∧ R t t' ∧ Machine.run step t.encode calls = t'.encode := by
  induction calls generalizing t with
  | nil => exact ⟨t, h, hrefl t, rfl⟩
  | cons call calls ih =>
      obtain ⟨u, hchange, hstep'⟩ := exists_change h call
      obtain ⟨v, hv, huv, hrun⟩ := ih (h.change hchange)
      exact ⟨v, hv, htrans (hstep h hchange) huv, by rw [Machine.run_cons, hstep', hrun]⟩

/-- Every run ends in the encoding of well-formed tables. -/
theorem exists_tables (calls : List Call) : ∃ t, WellFormed t ∧ run calls = t.encode := by
  obtain ⟨t, h, -, hrun⟩ := exists_run (R := fun _ _ ↦ True) (fun _ ↦ trivial)
    (fun _ _ ↦ trivial) (fun _ _ ↦ trivial) WellFormed.empty calls
  exact ⟨t, h, hrun⟩

/-- The tables after every number of calls of a run. -/
structure Timeline (calls : List Call) (t : ℕ → Tables) : Prop where
  encode : ∀ n, run (calls.take n) = (t n).encode
  wellFormed : ∀ n, WellFormed (t n)
  change : ∀ n, ∀ call ∈ calls[n]?, Change (t n) call (t (n + 1))
  ended : ∀ n, calls[n]? = none → t (n + 1) = t n

theorem exists_timeline (calls : List Call) : ∃ t, Timeline calls t := by
  choose t hw hrun using fun n ↦ exists_tables (calls.take n)
  refine ⟨t, hrun, hw, fun n call hcall ↦ ?_, fun n hcall ↦ Tables.encode_injective ?_⟩
  · obtain ⟨u, hchange, hstep⟩ := exists_change (hw n) call
    have : t (n + 1) = u := Tables.encode_injective (by
      rw [← hrun, ← hstep, ← hrun, List.take_add_one, Option.mem_def.mp hcall, Option.toList_some,
        run, run, Machine.run_concat])
    exact this ▸ hchange
  · rw [← hrun, ← hrun, List.take_add_one, hcall, Option.toList_none, List.append_nil]

namespace Timeline

variable {calls : List Call} {t : ℕ → Tables} (h : Timeline calls t) {n m : ℕ} {hash : Digest32}

include h

/-- A relation that every change obeys holds between any two moments of a run. -/
theorem mono {R : Tables → Tables → Prop} (hrefl : ∀ t, R t t)
    (htrans : ∀ {t u v}, R t u → R u v → R t v)
    (hstep : ∀ {t call t'}, WellFormed t → Change t call t' → R t t') (hle : n ≤ m) :
    R (t n) (t m) := by
  induction m, hle using Nat.le_induction with
  | base => exact hrefl _
  | succ m _ ih =>
      cases hcall : calls[m]? with
      | none => rwa [h.ended m hcall]
      | some call => exact htrans ih (hstep (h.wellFormed m) (h.change m call hcall))

theorem chain {x : RegisteredChain} (hle : n ≤ m) (hx : (t n).chain hash = some x) :
    (t m).chain hash = some x :=
  h.mono (R := fun t u ↦ t.chain hash = some x → u.chain hash = some x) (fun _ hx ↦ hx)
    (fun htu huv hx ↦ huv (htu hx)) (fun _ hc hx ↦ hc.chain hx) hle hx

theorem receipt {r : EffectReceipt} (hle : n ≤ m) (hr : (t n).receipt hash = some r) :
    (t m).receipt hash = some r :=
  h.mono (R := fun t u ↦ t.receipt hash = some r → u.receipt hash = some r) (fun _ hr ↦ hr)
    (fun htu huv hr ↦ huv (htu hr)) (fun _ hc hr ↦ hc.receipt hr) hle hr

theorem history (hle : n ≤ m) (hash : Digest32) : (t n).history hash <+: (t m).history hash :=
  h.mono (R := fun t u ↦ t.history hash <+: u.history hash) (fun _ ↦ List.prefix_rfl)
    List.IsPrefix.trans (fun _ hc ↦ hc.history hash) hle

theorem claim {c : DurableClaim} (hle : n ≤ m) (hc : (t n).claim hash = some c) :
    ∃ c', (t m).claim hash = some c' ∧ ClaimKept c c' :=
  h.mono (R := fun t u ↦ ∀ c, t.claim hash = some c → ∃ c', u.claim hash = some c' ∧ ClaimKept c c')
    (fun _ c hc ↦ ⟨c, hc, .refl c⟩)
    (fun htu huv c hc ↦ by
      obtain ⟨c', hc', hk⟩ := htu c hc
      obtain ⟨c'', hc'', hk'⟩ := huv c' hc'
      exact ⟨c'', hc'', hk.trans hk'⟩)
    (fun _ hchange _ hc ↦ hchange.claimKept hc) hle c hc

end Timeline

end Etp.Sqlite
