import Etp.Sqlite.Batch

/-!
# The checks of the code and the constraints of the schema

Before it writes, an operation makes checks of its own, and then the schema makes
another set: keys, foreign keys, `CHECK`s and the guard trigger.  Here the second set is
compared with the first, on every database of a run.  What is left for the schema to
find is an identifier that is in use: the grant or the attempt of a claim, the
identifier of a receipt, the identifier of a record.

The hashes are the reason for the hypothesis.  A chain, a receipt or a record that is
stored under the same hash as a new one would violate a key, and so would a record whose
parent hash is in use; it takes a collision to get there.
-/

namespace Etp.Sqlite

open Etp.Core SqliteEffectStore

section Agreement

variable [Sha256]

/-! ## What is to be compared -/

/-- What the schema finds, where the call gets as far as its statement. -/
def ConstraintsAgree (db : Db) : Call → Prop
  | .registerChain c p d g =>
      (∀ hash row, registerChainPlan c p d g db = .ok (hash, some row) →
        ∃ db', db.insertChain row = .ok db') ∧
      (registerChain c p d g db).1 ≠ .error .unavailable
  | .putCurrentness _ => True
  | .claim grant request now =>
      ∀ claim row, claimPlan grant request now db = .ok (claim, row) →
        ((db.setLastTrustedTime row.claimedAtMs).insertClaim row = .error .constraintViolation ↔
          (db.claimByGrantHash row.grantHash).isSome ∨
            ∃ q ∈ db.claims, q.attemptId = row.attemptId ∧ q.grantHash ≠ row.grantHash) ∧
        ((db.setLastTrustedTime row.claimedAtMs).insertClaim row = .error .constraintViolation →
          (SqliteEffectStore.claim grant request now db).1 =
            .error (if (db.claimByGrantHash row.grantHash).isSome then .grantAlreadyClaimed
              else .attemptAlreadyUsed))
  | .markDispatchStarted hash attemptId dispatchedAtMs =>
      (∀ dispatched, markPlan hash attemptId dispatchedAtMs db = .ok (some dispatched) →
        (∃ db', (db.setLastTrustedTime dispatched).setDispatchStarted dispatched hash.asStr
          attemptId = .ok db') ∧
        db.claims.countP (fun r ↦ r.grantHash = hash.asStr ∧ r.attemptId = attemptId ∧
          r.dispatchStartedAtMs = none) = 1) ∧
      (markDispatchStarted hash attemptId dispatchedAtMs db).1 ≠ .error .unavailable
  | .recordReceipt r =>
      ∀ hash row, receiptPlan r db = .ok (hash, some row) →
        (db.insertReceipt row = .error .constraintViolation ↔
          row.receiptId ∈ db.receipts.map ReceiptRow.receiptId)
  | .appendReconciliation r =>
      ∀ hash row, appendPlan r db = .ok (hash, some row) →
        (db.insertReconciliation row = .error .constraintViolation ↔
          row.reconciliationId ∈ db.reconciliations.map ReconciliationRow.reconciliationId) ∧
        (db.insertReconciliation row = .error .constraintViolation →
          (appendReconciliation r db).1 = .error .reconciliationIdentifierConflict)

/-! ## Statements that fail -/

omit [Sha256] in
theorem eq_violation_iff {α : Type} {x : Except SqliteFailure α} :
    x = .error .constraintViolation ↔ ∀ a, x ≠ .ok a := by
  cases x with
  | error e => cases e; simp
  | ok a => simp

omit [Sha256] in
theorem transaction_fst_error {α : Type} {db : Db} {op : Except StoreError (α × Db)}
    {e : StoreError} : (transaction db op).1 = .error e ↔ op = .error e := by
  cases op with
  | error e' => simp [transaction]
  | ok p => simp [transaction]

section Unavailable

variable {α β : Type} {x : Except StoreError α} {f : α → Except StoreError β}

/-- The answer is not that the database is unavailable. -/
def Available (x : Except StoreError α) : Prop := x ≠ .error .unavailable

omit [Sha256]

theorem available_bind (hx : Available x) (hf : ∀ a, x = .ok a → Available (f a)) :
    Available (x >>= f) := by
  cases x with
  | error e => exact fun h ↦ hx (by cases h; rfl)
  | ok a => exact hf a rfl

theorem available_ok (a : α) : Available (.ok a : Except StoreError α) := by rintro ⟨⟩

theorem available_rejectIf {c : Prop} [Decidable c] {e : StoreError} (he : e ≠ .unavailable) :
    Available (rejectIf c e : Except StoreError Unit) := by
  intro h
  exact he (rejectIf_eq_error.mp h).2

theorem available_fromProtocol (x : Except ProtocolError α) : Available (fromProtocol x) := by
  cases x <;> rintro ⟨⟩

theorem available_okOr {o : Option α} {e : StoreError} (he : e ≠ .unavailable) :
    Available (okOr o e) := by
  cases o with
  | none => exact fun h ↦ he (by cases h; rfl)
  | some a => exact available_ok a

theorem available_safeI64 (value : Nat) (field : String) : Available (safeI64 value field) := by
  unfold safeI64
  split_ifs <;> rintro ⟨⟩

end Unavailable

theorem available_registerChainPlan (c : TaskCommitment) (p : EffectProposal)
    (d : AuthorizationDecision) (g : ExecutionGrant) (db : Db) :
    Available (registerChainPlan c p d g db) := by
  refine available_bind (available_fromProtocol _) fun _ _ ↦ ?_
  refine available_bind (available_fromProtocol _) fun _ _ ↦ ?_
  refine available_bind (available_fromProtocol _) fun _ _ ↦ ?_
  refine available_bind (available_fromProtocol _) fun _ _ ↦ ?_
  refine available_bind (available_fromProtocol _) fun _ _ ↦ ?_
  refine available_bind (available_fromProtocol _) fun _ _ ↦ ?_
  refine available_bind (available_fromProtocol _) fun _ _ ↦ ?_
  refine available_bind ?_ fun _ _ ↦ available_ok _
  unfold storeChainPlan
  split
  · exact available_bind (available_rejectIf (by decide)) fun _ _ ↦ available_ok _
  · refine available_bind (available_rejectIf (by decide)) fun _ _ ↦ ?_
    exact available_bind (available_rejectIf (by decide)) fun _ _ ↦ available_ok _

section Tables

variable {t : Tables}

/-- On typed tables the reads of the marker's plan succeed. -/
theorem available_markPlan (hash : Digest32) (attemptId : String) (dispatchedAtMs : Nat) :
    Available (markPlan hash attemptId dispatchedAtMs t.encode) := by
  refine available_bind (available_rejectIf (by decide)) fun _ _ ↦ ?_
  refine available_bind (available_safeI64 _ _) fun _ _ ↦ ?_
  rw [Tables.loadClaim_encode, ok_bind]
  refine available_bind (available_okOr (by decide)) fun c _ ↦ ?_
  refine available_bind (available_rejectIf (by decide)) fun _ _ ↦ ?_
  refine available_bind (available_rejectIf (by decide)) fun _ _ ↦ ?_
  split
  · exact available_bind (available_rejectIf (by decide)) fun _ _ ↦ available_ok _
  · refine available_bind (available_rejectIf (by decide)) fun _ _ ↦ ?_
    rw [Tables.loadChainByGrantHash_encode, ok_bind]
    refine available_bind (available_okOr (by decide)) fun x _ ↦ ?_
    refine available_bind (available_rejectIf (by decide)) fun _ _ ↦ ?_
    rw [Tables.loadCurrentness_encode, ok_bind]
    refine available_bind (available_okOr (by decide)) fun s _ ↦ ?_
    refine available_bind ?_ fun _ _ ↦ ?_
    · exact available_bind (available_rejectIf (by decide)) fun _ _ ↦
        available_rejectIf (by decide)
    refine available_bind (available_rejectIf (by decide)) fun _ _ ↦ ?_
    refine available_bind ?_ fun _ _ ↦ available_ok _
    refine available_bind (available_rejectIf (by decide)) fun _ _ ↦ ?_
    refine available_bind (available_rejectIf (by decide)) fun _ _ ↦ ?_
    refine available_bind (available_rejectIf (by decide)) fun _ _ ↦ ?_
    exact available_rejectIf (by decide)

/-! ## What the schema still finds -/

/-- The two updates of a first marker go through, on one row. -/
theorem agrees_markDispatchStarted (hw : WellFormed t) (hash : Digest32) (attemptId : String)
    (dispatchedAtMs : Nat) :
    ConstraintsAgree t.encode (.markDispatchStarted hash attemptId dispatchedAtMs) := by
  have hupdate : ∀ dispatched, markPlan hash attemptId dispatchedAtMs t.encode =
      .ok (some dispatched) → ∃ db', (t.encode.setLastTrustedTime dispatched).setDispatchStarted
        dispatched hash.asStr attemptId = .ok db' := by
    intro dispatched h
    obtain ⟨-, hmax, c, hc, -, hle, ⟨-, ⟨⟩⟩ | ⟨-, -, heq⟩⟩ := markPlan_encode.mp h
    obtain rfl := Option.some.inj heq
    exact ⟨_, setDispatchStarted_of_claim hw.claim_grants attemptId hc hle hmax⟩
  refine ⟨fun dispatched h ↦ ⟨hupdate dispatched h, ?_⟩, fun hanswer ↦ ?_⟩
  · obtain ⟨-, -, c, hc, hattempt, -, ⟨-, ⟨⟩⟩ | ⟨hnone, -⟩⟩ := markPlan_encode.mp h
    obtain ⟨c', hlookup, rfl⟩ := Option.map_eq_some_iff.mp hc
    have hgrant : c'.1.grantHash = hash := (key_of_lookupBy hlookup :)
    have hle : t.encode.claims.countP (fun r ↦ r.grantHash = hash.asStr ∧ r.attemptId = attemptId ∧
        r.dispatchStartedAtMs = none) ≤ 1 := by
      have hu : UniqueBy ClaimRow.grantHash t.encode.claims := by
        rw [UniqueBy, Tables.encode, List.map_map]
        exact hw.claim_grants.of_determines fun _ _ _ _ heq ↦ asStr_injective heq
      refine le_trans (List.countP_mono_left fun r _ hr ↦ ?_)
        (uniqueBy_iff_countP.mp hu hash.asStr)
      exact decide_eq_true (of_decide_eq_true hr).1
    refine le_antisymm hle (List.countP_pos_iff.mpr
      ⟨c'.1.row, List.mem_map_of_mem (mem_of_lookupBy hlookup), decide_eq_true ⟨?_, hattempt, ?_⟩⟩)
    · exact congrArg Digest32.asStr hgrant
    · rw [DurableClaim.row, hnone]
      rfl
  · rw [markDispatchStarted, transaction_fst_error, markDispatchStartedTx] at hanswer
    refine available_bind (available_markPlan hash attemptId _) (fun plan hplan ↦ ?_) hanswer
    refine available_bind ?_ fun _ _ ↦ available_ok _
    cases plan with
    | none => exact available_ok _
    | some dispatched =>
        obtain ⟨db', hdb'⟩ := hupdate dispatched hplan
        rw [execute, hdb']
        exact available_ok _

/-- The schema finds that the grant, or the attempt, of a claim is in use. -/
theorem agrees_claim (hw : WellFormed t) (g : ExecutionGrant) (request : ClaimRequest) (now : Nat) :
    ConstraintsAgree t.encode (.claim g request now) := by
  intro claim row h
  have hplan := h
  obtain ⟨x, s, rfl, rfl, rfl, hguards⟩ := claimPlan_encode.mp h
  have hclaimed : (t.encode.claimByGrantHash (newClaim x request now).row.grantHash).isSome ↔
      (t.claim x.grantHash).isSome := by
    show (t.encode.claimByGrantHash x.grantHash.asStr).isSome ↔ _
    rw [Tables.claimByGrantHash_encode, Tables.claim, Option.isSome_map, Option.isSome_map]
  have hviolation :
      (t.encode.setLastTrustedTime (newClaim x request now).row.claimedAtMs).insertClaim
      (newClaim x request now).row = .error .constraintViolation ↔
        (t.encode.claimByGrantHash (newClaim x request now).row.grantHash).isSome ∨
          ∃ q ∈ t.encode.claims, q.attemptId = (newClaim x request now).row.attemptId ∧
            q.grantHash ≠ (newClaim x request now).row.grantHash := by
    rw [eq_violation_iff, hclaimed]
    have hinsert := fun db' ↦ @Tables.insertClaim_encode _ (t.setTime now) db'
      ⟨_, hguards.newClaim_valid⟩ rfl
    constructor
    · intro hno
      by_contra hfree
      obtain ⟨hgrant, hattempt⟩ := not_or.mp hfree
      have hnone : t.claim x.grantHash = none := by simpa using hgrant
      refine hno _ ((hinsert _).mpr ⟨Tables.claimable_setTime.mpr ⟨?_, ?_, hnone, ?_⟩, rfl⟩)
      · show (t.chain x.grantHash).isSome
        rw [(hw.chain_of_chainById hguards.chain).2]
        rfl
      · show (t.snapshot request.currentnessKey).isSome
        rw [hguards.snapshot]
        rfl
      · intro q hq heq
        refine hattempt ⟨q.1.row, List.mem_map_of_mem hq, heq, fun hgrant ↦ ?_⟩
        refine lookupBy_eq_none_iff.mp (Option.map_eq_none_iff.mp hnone) q hq ?_
        exact asStr_injective hgrant
    · intro hused db' hok
      obtain ⟨hfree, -⟩ := (hinsert db').mp hok
      have hfree := Tables.claimable_setTime.mp hfree
      rcases hused with hgrant | ⟨_, hq, heq, -⟩
      · have hnone : t.claim x.grantHash = none := hfree.grant
        rw [hnone] at hgrant
        cases hgrant
      · obtain ⟨q, hmem, rfl⟩ := List.mem_map.mp hq
        exact hfree.attempt q hmem heq
  refine ⟨hviolation, fun hno ↦ ?_⟩
  rw [SqliteEffectStore.claim, transaction_fst_error, claimTx, hplan, ok_bind]
  dsimp only
  rw [hno]
  rfl

variable {S : Set (List UInt8)} (hS : CollisionFree S)

include hS

/-- A chain that passed the checks violates no key of `authorization_chains`. -/
theorem agrees_registerChain (hknown : ∀ x ∈ t.chains, preimage x.grant ∈ S)
    (c : TaskCommitment) (p : EffectProposal) (d : AuthorizationDecision) {g : ExecutionGrant}
    (hg : preimage g ∈ S) : ConstraintsAgree t.encode (.registerChain c p d g) := by
  have hinsert : ∀ hash row, registerChainPlan c p d g t.encode = .ok (hash, some row) →
      ∃ db', t.encode.insertChain row = .ok db' := by
    intro hash row h
    obtain ⟨x, ⟨-, -, -, rfl⟩, -, ⟨-, ⟨⟩⟩ | ⟨hnew, hrow⟩⟩ := registerChainPlan_encode.mp h
    obtain rfl := Option.some.inj hrow
    have hids : ∀ y ∈ t.chains, y.grant.grantId ≠ x.grant.grantId :=
      lookupBy_eq_none_iff.mp hnew.id
    refine ⟨_, Tables.insertChain_encode.mpr
      ⟨⟨hids, fun y hy heq ↦ ?_, hnew.proposal, hnew.decision⟩, rfl⟩⟩
    have := eq_of_recordHash_eq hS (hknown y hy) hg y.verified.grant_valid
      x.verified.grant_valid heq
    exact hids y hy (by rw [this])
  refine ⟨hinsert, fun hanswer ↦ ?_⟩
  rw [registerChain, transaction_fst_error, registerChainTx] at hanswer
  refine available_bind (available_registerChainPlan c p d g _) (fun plan hplan ↦ ?_) hanswer
  refine available_bind ?_ fun _ _ ↦ available_ok _
  obtain ⟨hash, _ | row⟩ := plan
  · exact available_ok _
  · obtain ⟨db', hdb'⟩ := hinsert hash row hplan
    rw [execute, hdb']
    exact available_ok _

/-- The schema finds that the identifier of a receipt is in use. -/
theorem agrees_recordReceipt (hknown : ∀ q ∈ t.receipts, preimage q.1 ∈ S) {r : EffectReceipt}
    (hr : preimage r ∈ S) : ConstraintsAgree t.encode (.recordReceipt r) := by
  intro hash row h
  obtain ⟨-, x, c, hguards, ⟨-, ⟨⟩⟩ | ⟨hnone, hrow⟩⟩ := receiptPlan_encode.mp h
  obtain rfl := Option.some.inj hrow
  have hinsert := fun db' ↦ @Tables.insertReceipt_encode _ t db'
    ⟨r, hguards.receiptFor.receipt_valid⟩
  have hused : (receiptRow r).receiptId ∈ t.encode.receipts.map ReceiptRow.receiptId ↔
      ∃ q ∈ t.receipts, q.1.receiptId = r.receiptId := by
    rw [← List.mem_map]
    exact mem_column (g := id) (fun _ ↦ rfl) Function.injective_id
  rw [eq_violation_iff, hused]
  constructor
  · intro hno
    by_contra hfree
    refine hno _ ((hinsert _).mpr ⟨⟨?_, hnone, fun q hq heq ↦ hfree ⟨q, hq, heq⟩, ?_⟩, rfl⟩)
    · rw [hguards.claim]
      rfl
    · intro q hq heq
      have := eq_of_recordHash_eq hS (hknown q hq) hr q.2 hguards.receiptFor.receipt_valid heq
      exact hfree ⟨q, hq, by rw [this]⟩
  · rintro ⟨q, hq, heq⟩ db' hok
    exact ((hinsert db').mp hok).1.id q hq heq

/-- The schema finds that the identifier of a record is in use. -/
theorem agrees_appendReconciliation (hw : WellFormed t)
    (hknown : ∀ q ∈ t.reconciliations, preimage q.1 ∈ S) {r : ReconciliationRecord}
    (hr : preimage r ∈ S) : ConstraintsAgree t.encode (.appendReconciliation r) := by
  intro hash row h
  have hplan := h
  obtain ⟨-, -, receipt, hreceipt, ⟨-, ⟨⟩⟩ | ⟨hnone, ⟨-, hfor, hparent⟩, hrow⟩⟩ :=
    (appendPlan_encode hw).mp h
  obtain rfl := Option.some.inj hrow
  have hinsert := fun db' ↦ @Tables.insertReconciliation_encode _ t db' ⟨r, hfor.record_valid⟩
    (sequence_bounds hfor.record_valid).1
  have hused : (reconciliationRow r).reconciliationId ∈
      t.encode.reconciliations.map ReconciliationRow.reconciliationId ↔
        ∃ q ∈ t.reconciliations, q.1.reconciliationId = r.reconciliationId := by
    rw [← List.mem_map]
    exact mem_column (g := id) (fun _ ↦ rfl) Function.injective_id
  have hplace : ∀ q ∈ t.reconciliations, q.1.receiptHash = r.receiptHash →
      q.1.sequence ≠ r.sequence := by
    intro q hq hhash
    have hmem : q.1 ∈ t.history r.receiptHash :=
      List.mem_filter.mpr ⟨List.mem_map_of_mem hq, by simpa using hhash⟩
    rw [← find_sequence (hw.linked _) (sequence_bounds hfor.record_valid).1] at hnone
    simpa using List.find?_eq_none.mp hnone q.1 hmem
  have hviolation : t.encode.insertReconciliation (reconciliationRow r) =
      .error .constraintViolation ↔ (reconciliationRow r).reconciliationId ∈
        t.encode.reconciliations.map ReconciliationRow.reconciliationId := by
    rw [eq_violation_iff, hused]
    constructor
    · intro hno
      by_contra hfree
      refine hno _ ((hinsert _).mpr ⟨⟨?_, hplace, fun q hq heq ↦ hfree ⟨q, hq, heq⟩, ?_,
        hw.parent_free hS hknown hparent⟩, rfl⟩)
      · rw [hreceipt]
        rfl
      · intro q hq heq
        have := eq_of_recordHash_eq hS (hknown q hq) hr q.2 hfor.record_valid heq
        exact hfree ⟨q, hq, by rw [this]⟩
    · rintro ⟨q, hq, heq⟩ db' hok
      exact ((hinsert db').mp hok).1.id q hq heq
  refine ⟨hviolation, fun hno ↦ ?_⟩
  rw [appendReconciliation, transaction_fst_error, appendReconciliationTx, hplan, ok_bind]
  dsimp only
  rw [execute, hno]
  exact congrArg Except.error (if_pos (hviolation.mp hno))

end Tables

/-! ## Runs -/

/-- **The checks and the constraints agree.**  In every database of a run, as long as
SHA-256 does not collide on the records that the run and the call present: the `INSERT` of
`register_chain` and the `UPDATE`s of `mark_dispatch_started` violate nothing, the first
marker is written to one row, and neither call reports the database as unavailable; the
`INSERT` of `claim` fails exactly if the grant is claimed or the attempt is in use, and is
reported so; and those of `record_receipt` and `append_reconciliation` fail exactly if the
identifier is stored, so that an append never reports a fork from there. -/
theorem constraints_agree (calls : List Call) (call : Call)
    (hfree : CollisionFree (presented (calls ++ [call]))) : ConstraintsAgree (run calls) call := by
  obtain ⟨t, hw, hrun, hchains, hreceipts, hrecords⟩ := exists_presented calls
  have hold : presented calls ⊆ presented (calls ++ [call]) := fun x ⟨c, hc, hx⟩ ↦
    ⟨c, List.mem_append_left _ hc, hx⟩
  have hnew : call.preimages ⊆ presented (calls ++ [call]) := fun x hx ↦
    ⟨call, List.mem_append_right _ List.mem_cons_self, hx⟩
  rw [hrun]
  cases call with
  | registerChain c p d g =>
      exact agrees_registerChain hfree (fun x hx ↦ hold (hchains x hx)) c p d
        (hnew (.inr (.inr (.inr rfl))))
  | putCurrentness s => trivial
  | claim g request now => exact agrees_claim hw g request now
  | markDispatchStarted hash attemptId d => exact agrees_markDispatchStarted hw hash attemptId d
  | recordReceipt r =>
      exact agrees_recordReceipt hfree (fun q hq ↦ hold (hreceipts q hq)) (hnew rfl)
  | appendReconciliation r =>
      exact agrees_appendReconciliation hfree hw (fun q hq ↦ hold (hrecords q hq)) (hnew rfl)

end Agreement

section Positive

open Vectors

/-- The first observation, which is new to the run of the positive vector. -/
theorem constraints_agree_positive :
    ConstraintsAgree (run positiveCalls) (.appendReconciliation firstObservation) :=
  constraints_agree _ _ (positive_collisionFree.mono presented_positiveCalls)

end Positive

end Etp.Sqlite
