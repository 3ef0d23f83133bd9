import Etp.Core.MemoryStore
import Etp.Sqlite.Attempt

/-!
# Agreement with the batch verifier

The ledger of a database collects, for every registered grant, the records that
the store holds about it.  Each of these bundles is accepted by
`verify_transaction`, and `append_reconciliation` adds a record to one of them
exactly when the longer bundle is accepted and no other history uses the
record's identifier, which is a key of the whole table.

The store compares hashes where the verifier compares records, so this needs that
SHA-256 does not collide on the records that were presented.
-/

namespace Etp.Sqlite

open Etp.Core SqliteEffectStore

section Agreement

variable [Sha256]

/-- The records that the store holds about a registered grant. -/
def storedBundle (db : Db) (row : ChainRow) : Option TransactionBundle := do
  let chain ← (decodeChain row).toOption
  let receipt ← (loadReceiptByGrant db chain.grantHash).toOption
  let reconciliations ←
    match receipt with
    | none => some []
    | some r => (loadAllReconciliations db (recordHash r)).toOption
  some {
    commitment := chain.commitment
    proposal := chain.proposal
    decision := chain.decision
    grant := some chain.grant
    receipt
    reconciliations }

def ledger (db : Db) : Ledger := fun grantId ↦ (db.chainByGrantId grantId).bind (storedBundle db)

/-- The preimages of the records that a call presents. -/
def SqliteEffectStore.Call.preimages : Call → Set (List UInt8)
  | .registerChain c p d g => {preimage c, preimage p, preimage d, preimage g}
  | .putCurrentness _ => ∅
  | .claim g _ _ => {preimage g}
  | .markDispatchStarted _ _ _ => ∅
  | .recordReceipt r => {preimage r}
  | .appendReconciliation r => {preimage r}

/-- The preimages of all records that a run presents. -/
def presented (calls : List Call) : Set (List UInt8) := {x | ∃ call ∈ calls, x ∈ call.preimages}

/-! ## The bundles of the tables -/

namespace Tables

variable (t : Tables)

/-- The history of the receipt of a grant. -/
def records (hash : Digest32) : List ReconciliationRecord :=
  (t.receipt hash).elim [] fun r ↦ t.history (recordHash r)

def bundle (x : RegisteredChain) : TransactionBundle where
  commitment := x.commitment
  proposal := x.proposal
  decision := x.decision
  grant := some x.grant
  receipt := t.receipt x.grantHash
  reconciliations := t.records x.grantHash

end Tables

variable {t : Tables} {x : RegisteredChain} {r : ReconciliationRecord} {id : String}

theorem storedBundle_row (h : WellFormed t) :
    storedBundle t.encode x.row = some (t.bundle x) := by
  simp only [storedBundle, x.decodeChain_row, Except.toOption, t.loadReceiptByGrant_encode,
    Option.bind_eq_bind, Option.bind_some, RegisteredChain.stored, Tables.bundle, Tables.records]
  cases t.receipt x.grantHash with
  | none => rfl
  | some r =>
      simp only [Tables.loadAllReconciliations_encode (h.linked _)]
      rfl

theorem ledger_encode (h : WellFormed t) :
    ledger t.encode id = (t.chainById id).map t.bundle := by
  rw [ledger, t.chainByGrantId_encode]
  cases t.chainById id with
  | none => rfl
  | some x => rw [Option.map_some, Option.bind_some, storedBundle_row h, Option.map_some]

theorem ledger_encode_eq_some (h : WellFormed t) {b : TransactionBundle} :
    ledger t.encode id = some b ↔ ∃ x, t.chainById id = some x ∧ t.bundle x = b := by
  rw [ledger_encode h, Option.map_eq_some_iff]

theorem mem_of_mem_bundle {y : ReconciliationRecord} (hy : y ∈ (t.bundle x).reconciliations) :
    ∃ q ∈ t.reconciliations, q.1 = y := by
  simp only [Tables.bundle, Tables.records] at hy
  cases hr : t.receipt x.grantHash with
  | none => simp [hr] at hy
  | some receipt =>
      simp only [hr, Option.elim_some] at hy
      obtain ⟨q, hq, rfl⟩ := List.mem_map.mp (List.mem_of_mem_filter hy)
      exact ⟨q, hq, rfl⟩

/-- The record at a position after the first names the one before it. -/
theorem exists_predecessor {hash : Digest32} (hl : Chained ParentLink none (t.history hash))
    {q : ReconciliationRecord} (hq : q ∈ t.history hash) (hne : q.parentReconciliationHash ≠ none) :
    ∃ p ∈ t.history hash, q.parentReconciliationHash = some (recordHash p) ∧
      p.sequence < (t.history hash).length := by
  obtain ⟨i, hi, rfl⟩ := List.mem_iff_getElem.mp hq
  obtain ⟨hfirst, hstep⟩ := Chained.iff_getElem.mp hl
  cases i with
  | zero =>
      have hlink := hfirst _ (List.head?_eq_getElem?.trans (List.getElem?_eq_getElem hi))
      exact absurd hlink.hash hne
  | succ i =>
      have hpos := sequence_eq_of_linked hl i (by omega)
      exact ⟨_, List.getElem_mem _, (hstep i hi).hash, by omega⟩

namespace WellFormed

variable (h : WellFormed t)

include h

/-- The bundle of a registered chain is accepted. -/
theorem accepted (hx : t.chain x.grantHash = some x) : AcceptedBundle (t.bundle x) := by
  have hreceipt : ∀ r ∈ t.receipt x.grantHash, ReceiptFor x.proposal x.grant r ∧
      History r (t.history (recordHash r)) ∧
        (t.history (recordHash r)).length ≤ maxReconciliationRecords := by
    intro r hr
    obtain ⟨y, c, hy, -, hfor⟩ := h.received _ r hr
    rw [hx] at hy
    cases hy
    exact ⟨hfor.receiptFor, h.history _ r (h.receiptByHash_of_receipt hr).2⟩
  refine ⟨?_, x.verified.toDecisionChain, ?_, fun r hr ↦ ⟨x.grant, rfl, (hreceipt r hr).1⟩, ?_⟩
  · cases hr : t.receipt x.grantHash with
    | none => simp [Tables.bundle, Tables.records, hr]
    | some r => simpa [Tables.bundle, Tables.records, hr] using (hreceipt r hr).2.2
  · rintro _ ⟨⟩
    exact x.verified
  · intro hne
    cases hr : t.receipt x.grantHash with
    | none => exact absurd (by simp [Tables.bundle, Tables.records, hr]) hne
    | some r =>
        refine ⟨r, hr, ?_⟩
        simpa [Tables.bundle, Tables.records, hr] using (hreceipt r hr).2.1

theorem chain_of_ledger {b : TransactionBundle} (hb : ledger t.encode id = some b) :
    ∃ x, t.chainById id = some x ∧ x.grant.grantId = id ∧ t.chain x.grantHash = some x ∧
      t.bundle x = b := by
  obtain ⟨x, hx, rfl⟩ := (ledger_encode_eq_some h).mp hb
  obtain ⟨hid, hchain⟩ := h.chain_of_chainById hx
  exact ⟨x, hx, hid, hchain, rfl⟩

theorem sound : (ledger t.encode).Sound := by
  intro id b hb
  obtain ⟨x, -, -, hx, rfl⟩ := h.chain_of_ledger hb
  exact verifies_iff.mpr (h.accepted hx)

theorem uniqueReceipts : (ledger t.encode).UniqueReceipts := by
  intro id b r id' b' r' hb hr hb' hr' heq
  obtain ⟨x, -, rfl, hx, rfl⟩ := h.chain_of_ledger hb
  obtain ⟨y, -, rfl, hy, rfl⟩ := h.chain_of_ledger hb'
  obtain ⟨hg, hhash⟩ := h.receiptByHash_of_receipt hr
  obtain ⟨hg', hhash'⟩ := h.receiptByHash_of_receipt hr'
  -- The two receipts are one, and so are the chains that it names.
  rw [heq, hhash'] at hhash
  obtain rfl := Option.some.inj hhash
  rw [← hg, hg'] at hx
  rw [hx] at hy
  rw [Option.some.inj hy]

/-- A receipt of the store is that of a bundle, whose history is the one it names. -/
theorem exists_bundle {receipt : EffectReceipt} {hash : Digest32}
    (hr : t.receiptByHash hash = some receipt) :
    ∃ x, t.chain x.grantHash = some x ∧ t.receipt x.grantHash = some receipt ∧
      hash = recordHash receipt ∧ (t.bundle x).reconciliations = t.history hash ∧
        ledger t.encode x.grant.grantId = some (t.bundle x) := by
  obtain ⟨hhash, hreceipt⟩ := h.receipt_of_receiptByHash hr
  obtain ⟨x, -, hx, -, -⟩ := h.received _ _ hreceipt
  obtain ⟨hg, hid⟩ := h.chainById_of_chain hx
  rw [← hg] at hx hreceipt
  refine ⟨x, hx, hreceipt, hhash.symm, ?_, (ledger_encode_eq_some h).mpr ⟨x, hid, rfl⟩⟩
  simp only [Tables.bundle, Tables.records, hreceipt, Option.elim_some, hhash]

/-- Every record of the store stands in the history of one bundle. -/
theorem exists_bundle_of_mem {q : Valid ReconciliationRecord} (hq : q ∈ t.reconciliations) :
    ∃ x receipt, t.receiptByHash q.1.receiptHash = some receipt ∧
      ledger t.encode x.grant.grantId = some (t.bundle x) ∧
        (t.bundle x).reconciliations = t.history q.1.receiptHash ∧
          q.1 ∈ t.history q.1.receiptHash := by
  have hmem : q.1 ∈ t.history q.1.receiptHash :=
    List.mem_filter.mpr ⟨List.mem_map.mpr ⟨q, hq, rfl⟩, by simp⟩
  cases hr : t.receiptByHash q.1.receiptHash with
  | none =>
      rw [h.no_orphans _ hr] at hmem
      cases hmem
  | some receipt =>
      obtain ⟨x, -, -, -, hrecords, hledger⟩ := h.exists_bundle hr
      exact ⟨x, receipt, rfl, hledger, hrecords, hmem⟩

/-! ## One append -/

/-- What the checks of `append_reconciliation` say about the bundle. -/
theorem extend_of_guards {receipt : EffectReceipt}
    (hreceipt : t.receiptByHash r.receiptHash = some receipt) (g : AppendGuards t r receipt) :
    ∃ x, t.chain x.grantHash = some x ∧ t.receipt x.grantHash = some receipt ∧
      ledger t.encode x.grant.grantId = some (t.bundle x) ∧
        AcceptedBundle ((t.bundle x).extend r) ∧
          (ledger t.encode).UnusedElsewhere x.grant.grantId r := by
  obtain ⟨x, hx, hr, -, hrecords, hledger⟩ := h.exists_bundle hreceipt
  have hunused : ∀ {y : RegisteredChain},
      r.reconciliationId ∉
        (t.bundle y).reconciliations.map ReconciliationRecord.reconciliationId := by
    intro y hmem
    obtain ⟨z, hz, hid⟩ := List.mem_map.mp hmem
    obtain ⟨q, hq, rfl⟩ := mem_of_mem_bundle hz
    exact g.free.id q hq hid
  refine ⟨x, hx, hr, hledger, (accepted_extend_iff (h.accepted hx)).mpr ?_, ?_⟩
  · refine ⟨hrecords ▸ g.length_lt, ⟨receipt, hr, g.recordFor⟩, hrecords ▸ g.parent, hunused⟩
  · intro id' b' _ hb'
    obtain ⟨y, -, -, -, rfl⟩ := h.chain_of_ledger hb'
    exact hunused

variable {S : Set (List UInt8)} (hS : CollisionFree S)
  (hknown : ∀ q ∈ t.reconciliations, preimage q.1 ∈ S) (hr : preimage r ∈ S)

include hS hknown hr

omit hr in
/-- No stored record names the last record of a history as its parent. -/
theorem parent_free {hash : Digest32} (hparent : ParentLink (t.history hash).getLast? r) :
    ∀ q ∈ t.reconciliations, r.parentReconciliationHash ≠ none →
      q.1.parentReconciliationHash ≠ r.parentReconciliationHash := by
  intro q hq hne heq
  obtain ⟨_, _, _, _, _, hmem⟩ := h.exists_bundle_of_mem hq
  obtain ⟨p, hp, hpq, hlt⟩ := exists_predecessor (h.linked _) hmem (by rwa [heq])
  cases hlast : (t.history hash).getLast? with
  | none =>
      rw [hlast] at hparent
      exact hne hparent.hash
  | some last =>
      rw [hlast] at hparent
      have hlastmem : last ∈ t.history hash := List.mem_of_getLast? hlast
      -- The predecessor of the stored record is the last record of the history.
      have hpl : recordHash p = recordHash last := by
        rw [← Option.some.injEq, ← hpq, heq]
        exact hparent.hash
      obtain ⟨p', hp', rfl⟩ := List.mem_map.mp (List.mem_of_mem_filter hp)
      obtain ⟨last', hlast', rfl⟩ := List.mem_map.mp (List.mem_of_mem_filter hlastmem)
      have hsame : p'.1 = last'.1 :=
        eq_of_recordHash_eq hS (hknown p' hp') (hknown last' hlast') p'.2 last'.2 hpl
      have hhash : q.1.receiptHash = hash := by
        have h₁ := of_decide_eq_true (List.mem_filter.mp hp).2
        have h₂ := of_decide_eq_true (List.mem_filter.mp hlastmem).2
        rw [← h₁, ← h₂, hsame]
      rw [hhash] at hlt
      have hlen : (t.history hash).length - 1 < (t.history hash).length := by omega
      have hpos := sequence_eq_of_linked (h.linked hash) _ hlen
      rw [List.getLast?_eq_getElem?, List.getElem?_eq_getElem hlen] at hlast
      rw [Option.some.inj hlast, ← hsame] at hpos
      omega

/-- A record that extends the bundle passes the checks of `append_reconciliation`. -/
theorem guards_of_extend (hx : t.chain x.grantHash = some x)
    (hb : ledger t.encode x.grant.grantId = some (t.bundle x))
    (hext : AcceptedBundle ((t.bundle x).extend r))
    (hunused : (ledger t.encode).UnusedElsewhere x.grant.grantId r) :
    ∃ receipt, t.receiptByHash r.receiptHash = some receipt ∧ AppendGuards t r receipt := by
  obtain ⟨hlen, ⟨receipt, hrc, hfor⟩, hparent, hid⟩ := (accepted_extend_iff (h.accepted hx)).mp hext
  have hhash : t.receiptByHash r.receiptHash = some receipt := by
    rw [hfor.receipt_hash]
    exact (h.receiptByHash_of_receipt hrc).2
  have hrecords : (t.bundle x).reconciliations = t.history r.receiptHash := by
    have hrc' : t.receipt x.grantHash = some receipt := hrc
    simp only [Tables.bundle, Tables.records, hrc', Option.elim_some, hfor.receipt_hash]
  have hseq := sequence_of_extend hext
  rw [hrecords] at hlen hparent hid hseq
  have hid' : ∀ q ∈ t.reconciliations, q.1.reconciliationId ≠ r.reconciliationId := by
    intro q hq heq
    obtain ⟨y, _, _, hy, hyrecords, hmem⟩ := h.exists_bundle_of_mem hq
    by_cases hyx : y.grant.grantId = x.grant.grantId
    · -- The same grant: the record would be in the history already.
      rw [hyx, hb] at hy
      have hhist := congrArg TransactionBundle.reconciliations (Option.some.inj hy)
      rw [hrecords, hyrecords] at hhist
      exact hid (List.mem_map.mpr ⟨q.1, hhist ▸ hmem, heq⟩)
    · exact hunused _ _ hyx hy (List.mem_map.mpr ⟨q.1, hyrecords ▸ hmem, heq⟩)
  have hne : ∀ q ∈ t.reconciliations, recordHash q.1 ≠ recordHash r := by
    intro q hq heq
    have := eq_of_recordHash_eq hS (hknown q hq) hr q.2 hfor.record_valid heq
    exact hid' q hq (by rw [this])
  refine ⟨receipt, hhash, ⟨hlen, hfor, hparent⟩, by rw [hhash]; rfl, ?_, hid', hne, ?_⟩
  · intro q hq hqr heq
    have hmem : q.1 ∈ t.history r.receiptHash :=
      List.mem_filter.mpr ⟨List.mem_map.mpr ⟨q, hq, rfl⟩, by simpa using hqr⟩
    obtain ⟨i, hi, hqi⟩ := List.mem_iff_getElem.mp hmem
    have := sequence_eq_of_linked (h.linked r.receiptHash) i hi
    rw [hqi] at this
    omega
  · exact h.parent_free hS hknown hparent

omit hS hknown hr in
/-- The ledger after a record was added. -/
theorem ledger_addRecord {receipt : EffectReceipt} (hv : validate r = .ok ())
    (hreceipt : t.receiptByHash r.receiptHash = some receipt) (g : AppendGuards t r receipt)
    (hx : t.chain x.grantHash = some x) (hrc : t.receipt x.grantHash = some receipt) :
    ledger (t.addRecord ⟨r, hv⟩).encode = (ledger t.encode).append x.grant.grantId r := by
  have hw := h.addRecord (r := ⟨r, hv⟩) hreceipt g
  obtain ⟨-, hid⟩ := h.chainById_of_chain hx
  funext id
  by_cases hj : id = x.grant.grantId
  · subst hj
    rw [Ledger.append, Function.update_self, ledger_encode h, ledger_encode hw, hid]
    have hid' : (t.addRecord ⟨r, hv⟩).chainById x.grant.grantId = some x := hid
    rw [hid', Option.map_some, Option.map_some, Option.map_some]
    have hrc' : (t.addRecord ⟨r, hv⟩).receipt x.grantHash = some receipt := hrc
    simp only [Tables.bundle, Tables.records, hrc, hrc', Option.elim_some, Tables.history_addRecord,
      g.recordFor.receipt_hash, if_true, TransactionBundle.extend]
  · rw [Ledger.append, Function.update_of_ne hj, ledger_encode h, ledger_encode hw]
    have hsame : (t.addRecord ⟨r, hv⟩).chainById id = t.chainById id := rfl
    rw [hsame]
    cases hy : t.chainById id with
    | none => rfl
    | some y =>
        obtain ⟨rfl, hchain⟩ := h.chain_of_chainById hy
        have hreceipts : (t.addRecord ⟨r, hv⟩).receipt y.grantHash = t.receipt y.grantHash := rfl
        simp only [Option.map_some, Tables.bundle, Tables.records, hreceipts]
        cases hry : t.receipt y.grantHash with
        | none => rfl
        | some ry =>
            obtain ⟨hgy, hhy⟩ := h.receiptByHash_of_receipt hry
            obtain ⟨hgx, -⟩ := h.receiptByHash_of_receipt hrc
            simp only [Option.elim_some, Tables.history_addRecord]
            rw [if_neg]
            rintro heq
            rw [← heq, hreceipt] at hhy
            obtain rfl := Option.some.inj hhy
            rw [← hgy, hgx, hx] at hchain
            exact hj (by rw [Option.some.inj hchain])

theorem append_course : AppendCourse ledger Ledger.UnusedElsewhere t.encode r
    (appendReconciliation r t.encode).1 (appendReconciliation r t.encode).2 := by
  cases hop : appendReconciliationTx r t.encode with
  | ok p =>
      obtain ⟨hash, db'⟩ := p
      rw [appendReconciliation, hop]
      obtain ⟨rfl, hv, receipt, hreceipt, ⟨⟨q, hq, heq⟩, rfl⟩ | ⟨g, rfl⟩⟩ :=
        (appendReconciliationTx_encode h).mp hop
      · -- The position is taken by a record of the same hash, which is the same record.
        obtain ⟨x, -, -, -, hrecords, hledger⟩ := h.exists_bundle hreceipt
        have hmem := List.mem_of_getElem? hq
        obtain ⟨q', hq', rfl⟩ := List.mem_map.mp (List.mem_of_mem_filter hmem)
        have hqr : q'.1 = r := eq_of_recordHash_eq hS (hknown q' hq') hr q'.2 hv heq
        refine .replayed hledger ⟨(sequence_bounds hv).1, ?_⟩ rfl rfl
        rw [hrecords, ← hqr]
        rwa [← hqr] at hq
      · obtain ⟨x, hx, hrc, hledger, hext, hunused⟩ := h.extend_of_guards hreceipt g
        exact .added hledger hext hunused rfl (h.ledger_addRecord hv hreceipt g hx hrc)
  | error e =>
      rw [appendReconciliation, hop]
      have hfail : ∀ db', appendReconciliationTx r t.encode ≠ .ok (recordHash r, db') := by
        intro db' hok
        rw [hop] at hok
        cases hok
      refine .rejected ?_ ?_ rfl rfl
      · intro id b hb hext hunused
        obtain ⟨x, hid, rfl, hx, rfl⟩ := h.chain_of_ledger hb
        obtain ⟨receipt, hreceipt, g⟩ := h.guards_of_extend hS hknown hr hx hb hext hunused
        exact hfail _ ((appendReconciliationTx_encode h).mpr
          ⟨rfl, g.recordFor.record_valid, receipt, hreceipt, .inr ⟨g, rfl⟩⟩)
      · intro id b hb hat
        obtain ⟨x, -, rfl, hx, rfl⟩ := h.chain_of_ledger hb
        obtain ⟨receipt, hrc, hfor⟩ := (h.accepted hx).exists_receipt hat.mem
        have hreceipt : t.receiptByHash r.receiptHash = some receipt := by
          rw [hfor.receipt_hash]
          exact (h.receiptByHash_of_receipt hrc).2
        have hrc' : t.receipt x.grantHash = some receipt := hrc
        have hpos := hat.2
        simp only [Tables.bundle, Tables.records, hrc', Option.elim_some,
          ← hfor.receipt_hash] at hpos
        exact hfail _ ((appendReconciliationTx_encode h).mpr
          ⟨rfl, hfor.record_valid, receipt, hreceipt, .inl ⟨⟨r, hpos, rfl⟩, rfl⟩⟩)

end WellFormed

/-! ## Runs -/

/-- What is in the tables after a run is among what it presented. -/
theorem exists_presented (calls : List Call) : ∃ t, WellFormed t ∧ run calls = t.encode ∧
    (∀ x ∈ t.chains, preimage x.grant ∈ presented calls) ∧
    (∀ q ∈ t.receipts, preimage q.1 ∈ presented calls) ∧
    ∀ q ∈ t.reconciliations, preimage q.1 ∈ presented calls := by
  induction calls using List.reverseRecOn with
  | nil => exact ⟨.empty, .empty, rfl, by rintro _ ⟨⟩, by rintro _ ⟨⟩, by rintro _ ⟨⟩⟩
  | append_singleton calls call ih =>
      obtain ⟨t, hw, hrun, hchains, hreceipts, hrecords⟩ := ih
      obtain ⟨t', hchange, hstep⟩ := exists_change hw call
      have hold : presented calls ⊆ presented (calls ++ [call]) := fun x ⟨c, hc, hx⟩ ↦
        ⟨c, List.mem_append_left _ hc, hx⟩
      have hnew : call.preimages ⊆ presented (calls ++ [call]) := fun x hx ↦
        ⟨call, List.mem_append_right _ List.mem_cons_self, hx⟩
      have hrun' : run (calls ++ [call]) = t'.encode := by
        rw [run] at hrun
        rw [run, Machine.run_concat, hrun, hstep]
      have hold₁ := fun x hx ↦ hold (hchains x hx)
      have hold₂ := fun q hq ↦ hold (hreceipts q hq)
      have hold₃ := fun q hq ↦ hold (hrecords q hq)
      refine ⟨t', hw.change hchange, hrun', ?_⟩
      cases hchange with
      | registered _ =>
          refine ⟨fun x hx ↦ ?_, hold₂, hold₃⟩
          rcases List.mem_append.mp hx with hx | hx
          · exact hold₁ x hx
          · rw [List.mem_singleton.mp hx]
            exact hnew (.inr (.inr (.inr rfl)))
      | received _ _ =>
          refine ⟨hold₁, fun q hq ↦ ?_, hold₃⟩
          rcases List.mem_append.mp hq with hq | hq
          · exact hold₂ q hq
          · rw [List.mem_singleton.mp hq]
            exact hnew rfl
      | appended _ _ =>
          refine ⟨hold₁, hold₂, fun q hq ↦ ?_⟩
          rcases List.mem_append.mp hq with hq | hq
          · exact hold₃ q hq
          · rw [List.mem_singleton.mp hq]
            exact hnew rfl
      | marked _ _ _ _ _ => exact ⟨hold₁, hold₂, hold₃⟩
      | _ => exact ⟨hold₁, hold₂, hold₃⟩

/-- Every registered grant has an accepted bundle in the ledger. -/
def LedgerComplete (db : Db) : Prop :=
  ∀ row ∈ db.authorizationChains, ∃ b, ledger db row.grantId = some b

theorem WellFormed.ledgerComplete {t : Tables} (h : WellFormed t) : LedgerComplete t.encode := by
  intro row hrow
  obtain ⟨x, hx, rfl⟩ := List.mem_map.mp hrow
  have hid : t.chainById x.grant.grantId = some x :=
    h.grant_ids.lookupBy_eq_some_iff.mpr ⟨hx, rfl⟩
  exact ⟨_, (ledger_encode_eq_some h).mpr ⟨x, hid, rfl⟩⟩

/-- In every database that a run reaches, the ledger is sound and an append does what the
batch verifier allows, as long as SHA-256 does not collide on the records presented. -/
theorem append_agrees (calls : List Call) (r : ReconciliationRecord)
    (hfree : CollisionFree (presented (calls ++ [.appendReconciliation r]))) :
    LedgerComplete (run calls) ∧ (ledger (run calls)).Sound ∧
      AppendAgrees ledger Ledger.UnusedElsewhere (run calls) r
        (appendReconciliation r (run calls)).1 (appendReconciliation r (run calls)).2 := by
  obtain ⟨t, h, hrun, -, -, hknown⟩ := exists_presented calls
  have hold : ∀ q ∈ t.reconciliations,
      preimage q.1 ∈ presented (calls ++ [.appendReconciliation r]) := by
    intro q hq
    obtain ⟨c, hc, hx⟩ := hknown q hq
    exact ⟨c, by simp [hc], hx⟩
  have hr : preimage r ∈ presented (calls ++ [.appendReconciliation r]) :=
    ⟨.appendReconciliation r, by simp, rfl⟩
  rw [hrun]
  exact ⟨h.ledgerComplete, h.sound,
    (h.append_course hfree hold hr).agrees h.sound h.uniqueReceipts⟩

/-- **Both stores agree with the batch verifier.**  In every state that a run of either store
reaches, every registered grant has a bundle that `verify_transaction` accepts, and
`append_reconciliation` does exactly what the verifier allows, as long as SHA-256 does not
collide on the records that the run and the call present. -/
theorem stores_agree_with_verifier :
    (∀ (calls : List MemoryGrantStore.Call) (r : ReconciliationRecord),
      CollisionFree (MemoryGrantStore.presented (calls ++ [.appendReconciliation r])) →
        (MemoryGrantStore.ledger (MemoryGrantStore.run calls)).Sound ∧
          AppendAgrees MemoryGrantStore.ledger (fun _ _ _ ↦ True) (MemoryGrantStore.run calls) r
            (MemoryGrantStore.appendReconciliation r (MemoryGrantStore.run calls)).1
            (MemoryGrantStore.appendReconciliation r (MemoryGrantStore.run calls)).2) ∧
      ∀ (calls : List Call) (r : ReconciliationRecord),
        CollisionFree (presented (calls ++ [.appendReconciliation r])) →
          LedgerComplete (run calls) ∧ (ledger (run calls)).Sound ∧
            AppendAgrees ledger Ledger.UnusedElsewhere (run calls) r
              (appendReconciliation r (run calls)).1 (appendReconciliation r (run calls)).2 :=
  ⟨MemoryGrantStore.append_agrees, append_agrees⟩

end Agreement

/-! ## The positive vector -/

section Positive

open Vectors

def positiveMemoryRequest : GrantClaimRequest where
  attemptId := "attempt-01"
  expectedAudience := "executor:edge-01"
  observedPolicyEpoch := 7
  observedConfigurationEpoch := 12
  observedPreStateDigest := positiveProposal.preStateDigest
  observedResourceClaimDigest := positiveProposal.resourceClaimDigest
  revoked := false

/-- The calls of the vector's attempt, for the store in memory. -/
def positiveMemoryCalls : List MemoryGrantStore.Call := [
  .register positiveCommitment positiveProposal positiveDecision positiveGrant,
  .claim positiveGrant positiveMemoryRequest (some 1760000004000),
  .recordReceipt positiveReceipt]

/-- The preimages of the vector's records. -/
def positivePreimages : Set (List UInt8) :=
  {preimage positiveCommitment, preimage positiveProposal, preimage positiveDecision,
    preimage positiveGrant, preimage positiveReceipt, preimage firstObservation}

theorem positive_collisionFree : CollisionFree positivePreimages := by
  refine table.collisionFree.mono ?_
  rintro p (rfl | rfl | rfl | rfl | rfl | rfl) <;> simp [table]

theorem presented_positiveMemoryCalls :
    MemoryGrantStore.presented (positiveMemoryCalls ++ [.appendReconciliation firstObservation]) ⊆
      positivePreimages := by
  rintro p ⟨call, hcall, hp⟩
  simp only [positiveMemoryCalls, List.cons_append, List.nil_append, List.mem_cons,
    List.not_mem_nil, or_false] at hcall
  rcases hcall with rfl | rfl | rfl | rfl
  · rcases hp with rfl | rfl | rfl | rfl <;> simp [positivePreimages]
  · rcases hp with rfl
    simp [positivePreimages]
  · rcases hp with rfl
    simp [positivePreimages]
  · rcases hp with rfl
    simp [positivePreimages]

theorem presented_positiveCalls :
    presented (positiveCalls ++ [.appendReconciliation firstObservation]) ⊆ positivePreimages := by
  rintro p ⟨call, hcall, hp⟩
  simp only [positiveCalls, Attempt.setup, List.cons_append, List.nil_append, List.mem_cons,
    List.not_mem_nil, or_false] at hcall
  rcases hcall with rfl | rfl | rfl | rfl | rfl | rfl
  · rcases hp with rfl | rfl | rfl | rfl
    · exact .inl rfl
    · exact .inr (.inl rfl)
    · exact .inr (.inr (.inl rfl))
    · exact .inr (.inr (.inr (.inl rfl)))
  · cases hp
  · rcases hp with rfl
    exact .inr (.inr (.inr (.inl rfl)))
  · cases hp
  · rcases hp with rfl
    exact .inr (.inr (.inr (.inr (.inl rfl))))
  · rcases hp with rfl
    exact .inr (.inr (.inr (.inr (.inr rfl))))

/-- The first observation, appended to the vector's attempt in either store. -/
theorem stores_agree_with_verifier_positive :
    AppendAgrees MemoryGrantStore.ledger (fun _ _ _ ↦ True)
        (MemoryGrantStore.run positiveMemoryCalls) firstObservation
        (MemoryGrantStore.appendReconciliation firstObservation
          (MemoryGrantStore.run positiveMemoryCalls)).1
        (MemoryGrantStore.appendReconciliation firstObservation
          (MemoryGrantStore.run positiveMemoryCalls)).2 ∧
      AppendAgrees ledger Ledger.UnusedElsewhere (run positiveCalls) firstObservation
        (appendReconciliation firstObservation (run positiveCalls)).1
        (appendReconciliation firstObservation (run positiveCalls)).2 :=
  ⟨(stores_agree_with_verifier.1 _ _
      (positive_collisionFree.mono presented_positiveMemoryCalls)).2,
    (stores_agree_with_verifier.2 _ _ (positive_collisionFree.mono presented_positiveCalls)).2.2⟩

end Positive

end Etp.Sqlite
