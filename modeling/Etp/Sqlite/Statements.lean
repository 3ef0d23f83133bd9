import Etp.Sqlite.Tables

/-!
# Writing to the tables

The statements of the store, on the typed tables: when the schema lets one
through, and which tables it leaves.  After each update the queries are given
again, so that no later proof opens a table.
-/

namespace Etp.Sqlite.Tables

open Etp.Core

variable [Sha256] (t : Tables)

/-! ## Updates -/

/-- The tables with `last_trusted_time_ms` set. -/
def setTime (now : Nat) : Tables := { t with lastTrustedTimeMs := some now }

/-- The tables after the chain has been inserted. -/
def addChain (x : RegisteredChain) : Tables := { t with chains := t.chains ++ [x] }

/-- Inserts the snapshot, or puts it in the place of the one with its key. -/
def putSnapshot (s : {s : CurrentnessSnapshot // ValidSnapshot s}) : Tables :=
  { t with
    currentness :=
      if (t.snapshot s.1.key).isSome then
        updateWhere (fun q ↦ q.1.key = s.1.key) (fun _ ↦ s) t.currentness
      else t.currentness ++ [s] }

/-- The tables after the claim has been inserted. -/
def addClaim (c : {c : DurableClaim // ValidClaim c}) : Tables :=
  { t with claims := t.claims ++ [c] }

/-- The claim with a dispatch marker, where the marker is one that its row can hold. -/
def withMarker (dispatched : Nat) (c : {c : DurableClaim // ValidClaim c}) :
    {c : DurableClaim // ValidClaim c} :=
  if h : c.1.claimedAtMs ≤ dispatched ∧ dispatched ≤ maxSafeInteger then
    ⟨{ c.1 with dispatchStartedAtMs := some dispatched },
      { c.2 with dispatched := fun _ hd ↦ by cases hd; exact h }⟩
  else c

/-- The `WHERE` clause of the statement that writes a dispatch marker. -/
def unmarked (hash : Digest32) (attemptId : String) (c : {c : DurableClaim // ValidClaim c}) :
    Bool :=
  c.1.grantHash = hash ∧ c.1.attemptId = attemptId ∧ c.1.dispatchStartedAtMs = none

/-- The tables after the marker of an attempt has been written. -/
def mark (hash : Digest32) (attemptId : String) (dispatched : Nat) : Tables :=
  { t with claims := updateWhere (unmarked hash attemptId) (withMarker dispatched) t.claims }

def addReceipt (r : Valid EffectReceipt) : Tables := { t with receipts := t.receipts ++ [r] }

def addRecord (r : Valid ReconciliationRecord) : Tables :=
  { t with reconciliations := t.reconciliations ++ [r] }

/-! ## Statements -/

/-- No row shares a unique column with the chain. -/
structure Fresh (x : RegisteredChain) : Prop where
  id : ∀ y ∈ t.chains, y.grant.grantId ≠ x.grant.grantId
  hash : ∀ y ∈ t.chains, y.grantHash ≠ x.grantHash
  proposal : ∀ y ∈ t.chains, recordHash y.proposal ≠ recordHash x.proposal
  decision : ∀ y ∈ t.chains, recordHash y.decision ≠ recordHash x.decision

variable {t} {db' : Db}

/-- A chain is inserted when its grant, its proposal and its decision are in no other. -/
theorem insertChain_encode {x : RegisteredChain} :
    t.encode.insertChain x.row = .ok db' ↔ t.Fresh x ∧ db' = (t.addChain x).encode := by
  have hid : x.row.grantId ∈ t.encode.authorizationChains.map ChainRow.grantId ↔
      x.grant.grantId ∈ t.chains.map fun y ↦ y.grant.grantId :=
    mem_column (g := id) (fun _ ↦ rfl) Function.injective_id
  have hhash : x.row.grantHash ∈ t.encode.authorizationChains.map ChainRow.grantHash ↔
      x.grantHash ∈ t.chains.map RegisteredChain.grantHash :=
    mem_column (g := Digest32.asStr) (fun _ ↦ rfl) asStr_injective
  have hproposal : x.row.proposalHash ∈ t.encode.authorizationChains.map ChainRow.proposalHash ↔
      recordHash x.proposal ∈ t.chains.map fun y ↦ recordHash y.proposal :=
    mem_column (g := Digest32.asStr) (fun _ ↦ rfl) asStr_injective
  have hdecision : x.row.decisionHash ∈ t.encode.authorizationChains.map ChainRow.decisionHash ↔
      recordHash x.decision ∈ t.chains.map fun y ↦ recordHash y.decision :=
    mem_column (g := Digest32.asStr) (fun _ ↦ rfl) asStr_injective
  simp only [Db.insertChain, bind_eq_ok, rejectIf_eq_ok, exists_const, Except.ok.injEq, hid, hhash,
    hproposal, hdecision, not_or, List.mem_map, not_exists, not_and]
  have henc : (t.addChain x).encode =
      { t.encode with authorizationChains := t.encode.authorizationChains ++ [x.row] } := by
    simp [encode, addChain]
  rw [henc, eq_comm (b := db')]
  refine and_congr_left fun _ ↦ ⟨?_, ?_⟩
  · rintro ⟨h₁, h₂, h₃, h₄⟩
    exact ⟨h₁, h₂, h₃, h₄⟩
  · rintro ⟨h₁, h₂, h₃, h₄⟩
    exact ⟨h₁, h₂, h₃, h₄⟩

theorem snapshot_isSome_iff {key : String} :
    (t.snapshot key).isSome ↔ key ∈ t.currentness.map fun s ↦ s.1.key := by
  rw [snapshot, Option.isSome_map, lookupBy_isSome_iff, List.mem_map]

theorem currentnessKey_mem_encode {key : String} :
    key ∈ t.encode.currentness.map CurrentnessRow.currentnessKey ↔ (t.snapshot key).isSome := by
  rw [snapshot_isSome_iff]
  exact mem_column (g := id) (fun _ ↦ rfl) Function.injective_id

/-- A snapshot is inserted where its key has none. -/
theorem insertCurrentness_encode {s : {s : CurrentnessSnapshot // ValidSnapshot s}}
    (h : t.snapshot s.1.key = none) :
    t.encode.insertCurrentness s.1.row = .ok (t.putSnapshot s).encode := by
  have hkey : s.1.row.currentnessKey ∉ t.encode.currentness.map CurrentnessRow.currentnessKey := by
    have : s.1.row.currentnessKey = s.1.key := rfl
    rw [this, currentnessKey_mem_encode, h]
    exact Bool.noConfusion
  rw [Db.insertCurrentness, rejectIf_false (by simp [hkey, checkCurrentness_row s.2]), ok_bind]
  simp [encode, putSnapshot, h]

/-- A snapshot replaces the one of its key. -/
theorem updateCurrentness_encode {s : {s : CurrentnessSnapshot // ValidSnapshot s}}
    (h : (t.snapshot s.1.key).isSome) :
    t.encode.updateCurrentness s.1.row = .ok (t.putSnapshot s).encode := by
  rw [Db.updateCurrentness, rejectIf_false (by simp [checkCurrentness_row s.2]), ok_bind]
  have := map_updateWhere_encode t.currentness (e := fun s ↦ s.1.row)
    (p := fun q ↦ q.1.key = s.1.key) (q := fun r ↦ r.currentnessKey = s.1.row.currentnessKey)
    (f := fun _ ↦ s) (h := fun _ ↦ s.1.row) (fun _ ↦ rfl) fun _ _ _ ↦ rfl
  simp only [encode, putSnapshot, h, if_true]
  rw [this]

/-- The claim satisfies the keys and the foreign keys of `claims`. -/
structure Claimable (c : DurableClaim) (t : Tables) : Prop where
  chain : (t.chain c.grantHash).isSome
  snapshot : (t.snapshot c.currentnessKey).isSome
  grant : t.claim c.grantHash = none
  attempt : ∀ q ∈ t.claims, q.1.attemptId ≠ c.attemptId

/-- The trusted time is no part of a constraint. -/
theorem claimable_setTime {c : DurableClaim} {now : Nat} :
    Claimable c (t.setTime now) ↔ Claimable c t :=
  ⟨fun ⟨h₁, h₂, h₃, h₄⟩ ↦ ⟨h₁, h₂, h₃, h₄⟩, fun ⟨h₁, h₂, h₃, h₄⟩ ↦ ⟨h₁, h₂, h₃, h₄⟩⟩

theorem claim_eq_none_iff {hash : Digest32} :
    t.claim hash = none ↔ hash ∉ t.claims.map fun c ↦ c.1.grantHash := by
  simp [claim, lookupBy_eq_none_iff]

/-- A claim is inserted when its chain and its snapshot are stored, and neither its grant nor
its attempt has a claim. -/
theorem insertClaim_encode {c : {c : DurableClaim // ValidClaim c}}
    (hnone : c.1.dispatchStartedAtMs = none) :
    t.encode.insertClaim c.1.row = .ok db' ↔ Claimable c.1 t ∧ db' = (t.addClaim c).encode := by
  have hchain : c.1.row.grantHash ∈ t.encode.authorizationChains.map ChainRow.grantHash ↔
      (t.chain c.1.grantHash).isSome := by
    rw [chain, lookupBy_isSome_iff, ← List.mem_map]
    exact mem_column (g := Digest32.asStr) (fun _ ↦ rfl) asStr_injective
  have hkey : c.1.row.currentnessKey ∈ t.encode.currentness.map CurrentnessRow.currentnessKey ↔
      (t.snapshot c.1.currentnessKey).isSome := currentnessKey_mem_encode
  have hgrant : c.1.row.grantHash ∈ t.encode.claims.map ClaimRow.grantHash ↔
      c.1.grantHash ∈ t.claims.map fun c ↦ c.1.grantHash :=
    mem_column (g := Digest32.asStr) (fun _ ↦ rfl) asStr_injective
  have hattempt : c.1.row.attemptId ∈ t.encode.claims.map ClaimRow.attemptId ↔
      c.1.attemptId ∈ t.claims.map fun c ↦ c.1.attemptId :=
    mem_column (g := id) (fun _ ↦ rfl) Function.injective_id
  have hcheck : Db.checkClaim c.1.row := by
    have := c.2.age_pos
    refine ⟨by simp only [DurableClaim.row]; omega, ?_⟩
    simp [DurableClaim.row, hnone]
  simp only [Db.insertClaim, bind_eq_ok, rejectIf_eq_ok, exists_const, Except.ok.injEq, hchain,
    hkey, hgrant, hattempt, hcheck, not_or, not_not, and_true, ← claim_eq_none_iff]
  have henc : (t.addClaim c).encode = { t.encode with claims := t.encode.claims ++ [c.1.row] } := by
    simp [encode, addClaim]
  rw [henc, eq_comm (b := db'), List.mem_map]
  push Not
  refine and_congr_left fun _ ↦ ⟨?_, ?_⟩
  · rintro ⟨h₁, h₂, h₃, h₄⟩
    exact ⟨h₁, h₂, h₃, h₄⟩
  · rintro ⟨h₁, h₂, h₃, h₄⟩
    exact ⟨h₁, h₂, h₃, h₄⟩

/-- The statement that writes a marker succeeds where the marker is no earlier than the claim that
it is for. -/
theorem setDispatchStarted_encode {hash : Digest32} {attemptId : String} {dispatched : Nat}
    (hmax : dispatched ≤ maxSafeInteger)
    (hle : ∀ c ∈ t.claims, unmarked hash attemptId c → c.1.claimedAtMs ≤ dispatched) :
    t.encode.setDispatchStarted dispatched hash.asStr attemptId =
      .ok (t.mark hash attemptId dispatched).encode := by
  have hselected : ∀ c : {c : DurableClaim // ValidClaim c},
      decide (c.1.row.grantHash = hash.asStr ∧ c.1.row.attemptId = attemptId ∧
        c.1.row.dispatchStartedAtMs = none) = unmarked hash attemptId c := fun c ↦ by
    simp [unmarked, DurableClaim.row, Digest32.ext_iff]
  have hset : ∀ c ∈ t.claims, unmarked hash attemptId c →
      { c.1.row with dispatchStartedAtMs := some (dispatched : Int) } =
        (withMarker dispatched c).1.row := fun c hc hu ↦ by
    simp [withMarker, hle c hc hu, hmax, DurableClaim.row]
  rw [Db.setDispatchStarted, rejectIf_false, ok_bind]
  · have := map_updateWhere_encode t.claims (e := fun c ↦ c.1.row)
      (p := unmarked hash attemptId) (f := withMarker dispatched)
      (q := fun r ↦ r.grantHash = hash.asStr ∧ r.attemptId = attemptId ∧
        r.dispatchStartedAtMs = none)
      (h := fun r ↦ { r with dispatchStartedAtMs := some (dispatched : Int) }) hselected hset
    simp only [encode, mark]
    rw [this]
  · simp only [encode, List.mem_map]
    rintro ⟨_, ⟨c, hc, rfl⟩, hu, hbad⟩
    have hu' := (hselected c) ▸ hu
    have hclaimed := hle c hc hu'
    have hage := c.2.age_pos
    simp only [unmarked, decide_eq_true_eq] at hu'
    rcases hbad with hbad | hbad
    · simp [Db.claimsUpdateGuard, DurableClaim.row, hu'.2.2] at hbad
    · refine hbad ⟨by simp only [DurableClaim.row]; omega, ?_⟩
      simp only [DurableClaim.row, Option.mem_def, Option.some.injEq, forall_eq']
      omega

/-- The receipt satisfies the keys and the foreign key of `receipts`. -/
structure Receivable (r : EffectReceipt) (t : Tables) : Prop where
  claim : (t.claim r.grantHash).isSome
  grant : t.receipt r.grantHash = none
  id : ∀ q ∈ t.receipts, q.1.receiptId ≠ r.receiptId
  hash : ∀ q ∈ t.receipts, recordHash q.1 ≠ recordHash r

theorem receipt_eq_none_iff {hash : Digest32} :
    t.receipt hash = none ↔ hash ∉ t.receipts.map fun r ↦ r.1.grantHash := by
  simp [receipt, lookupBy_eq_none_iff]

/-- A receipt is inserted when its grant has a claim and no receipt, and the receipt itself is
new. -/
theorem insertReceipt_encode {r : Valid EffectReceipt} :
    t.encode.insertReceipt (receiptRow r.1) = .ok db' ↔
      Receivable r.1 t ∧ db' = (t.addReceipt r).encode := by
  have hclaim : (receiptRow r.1).grantHash ∈ t.encode.claims.map ClaimRow.grantHash ↔
      (t.claim r.1.grantHash).isSome := by
    rw [claim, Option.isSome_map, lookupBy_isSome_iff, ← List.mem_map]
    exact mem_column (g := Digest32.asStr) (fun _ ↦ rfl) asStr_injective
  have hgrant : (receiptRow r.1).grantHash ∈ t.encode.receipts.map ReceiptRow.grantHash ↔
      r.1.grantHash ∈ t.receipts.map fun r ↦ r.1.grantHash :=
    mem_column (g := Digest32.asStr) (fun _ ↦ rfl) asStr_injective
  have hid : (receiptRow r.1).receiptId ∈ t.encode.receipts.map ReceiptRow.receiptId ↔
      r.1.receiptId ∈ t.receipts.map fun r ↦ r.1.receiptId :=
    mem_column (g := id) (fun _ ↦ rfl) Function.injective_id
  have hhash : (receiptRow r.1).receiptHash ∈ t.encode.receipts.map ReceiptRow.receiptHash ↔
      recordHash r.1 ∈ t.receipts.map fun r ↦ recordHash r.1 :=
    mem_column (g := Digest32.asStr) (fun _ ↦ rfl) asStr_injective
  simp only [Db.insertReceipt, bind_eq_ok, rejectIf_eq_ok, exists_const, Except.ok.injEq, hclaim,
    hgrant, hid, hhash, not_or, not_not, ← receipt_eq_none_iff]
  have henc : (t.addReceipt r).encode =
      { t.encode with receipts := t.encode.receipts ++ [receiptRow r.1] } := by
    simp [encode, addReceipt]
  rw [henc, eq_comm (b := db'), List.mem_map, List.mem_map]
  push Not
  refine and_congr_left fun _ ↦ ⟨?_, ?_⟩
  · rintro ⟨h₁, h₂, h₃, h₄⟩
    exact ⟨h₁, h₂, h₃, h₄⟩
  · rintro ⟨h₁, h₂, h₃, h₄⟩
    exact ⟨h₁, h₂, h₃, h₄⟩

/-- The record satisfies the keys and the foreign key of `reconciliations`. -/
structure Appendable (r : ReconciliationRecord) (t : Tables) : Prop where
  receipt : (t.receiptByHash r.receiptHash).isSome
  position : ∀ q ∈ t.reconciliations, q.1.receiptHash = r.receiptHash → q.1.sequence ≠ r.sequence
  id : ∀ q ∈ t.reconciliations, q.1.reconciliationId ≠ r.reconciliationId
  hash : ∀ q ∈ t.reconciliations, recordHash q.1 ≠ recordHash r
  parent : ∀ q ∈ t.reconciliations, r.parentReconciliationHash ≠ none →
    q.1.parentReconciliationHash ≠ r.parentReconciliationHash

/-- A record is inserted when its receipt is stored, its place in the history is free and the
record itself is new. -/
theorem insertReconciliation_encode {r : Valid ReconciliationRecord} (hpos : 0 < r.1.sequence) :
    t.encode.insertReconciliation (reconciliationRow r.1) = .ok db' ↔
      Appendable r.1 t ∧ db' = (t.addRecord r).encode := by
  have hreceipt :
      (reconciliationRow r.1).receiptHash ∈ t.encode.receipts.map ReceiptRow.receiptHash ↔
        (t.receiptByHash r.1.receiptHash).isSome := by
    rw [receiptByHash, Option.isSome_map, lookupBy_isSome_iff, ← List.mem_map]
    exact mem_column (g := Digest32.asStr) (fun _ ↦ rfl) asStr_injective
  have hid : (reconciliationRow r.1).reconciliationId ∈
      t.encode.reconciliations.map ReconciliationRow.reconciliationId ↔
      r.1.reconciliationId ∈ t.reconciliations.map fun r ↦ r.1.reconciliationId :=
    mem_column (g := id) (fun _ ↦ rfl) Function.injective_id
  have hhash : (reconciliationRow r.1).reconciliationHash ∈
      t.encode.reconciliations.map ReconciliationRow.reconciliationHash ↔
      recordHash r.1 ∈ t.reconciliations.map fun r ↦ recordHash r.1 :=
    mem_column (g := Digest32.asStr) (fun _ ↦ rfl) asStr_injective
  have hposition : ((reconciliationRow r.1).receiptHash, (reconciliationRow r.1).sequence) ∈
      t.encode.reconciliations.map (fun q ↦ (q.receiptHash, q.sequence)) ↔
      ∃ q ∈ t.reconciliations, q.1.receiptHash = r.1.receiptHash ∧ q.1.sequence = r.1.sequence := by
    simp [encode, reconciliationRow, Digest32.ext_iff]
  have hparent : (∃ parent ∈ (reconciliationRow r.1).parentReconciliationHash,
      some parent ∈ t.encode.reconciliations.map ReconciliationRow.parentReconciliationHash) ↔
      ∃ q ∈ t.reconciliations, r.1.parentReconciliationHash ≠ none ∧
        q.1.parentReconciliationHash = r.1.parentReconciliationHash := by
    cases hp : r.1.parentReconciliationHash <;>
      simp [encode, reconciliationRow, hp, asStr_injective.eq_iff]
  have hseq : (reconciliationRow r.1).sequence > 0 := by simp only [reconciliationRow]; omega
  simp only [Db.insertReconciliation, bind_eq_ok, rejectIf_eq_ok, exists_const, Except.ok.injEq,
    hreceipt, hid, hhash, hposition, hparent, hseq, not_true_eq_false, false_or, not_or, not_not]
  have henc : (t.addRecord r).encode =
      { t.encode with reconciliations := t.encode.reconciliations ++ [reconciliationRow r.1] } := by
    simp [encode, addRecord]
  rw [henc, eq_comm (b := db'), List.mem_map, List.mem_map]
  push Not
  exact and_congr_left fun _ ↦ ⟨fun ⟨h₁, h₂, h₃, h₄, h₅⟩ ↦ ⟨h₁, h₂, h₃, h₄, h₅⟩,
    fun ⟨h₁, h₂, h₃, h₄, h₅⟩ ↦ ⟨h₁, h₂, h₃, h₄, h₅⟩⟩

/-! ## Queries after an update -/

section Queries

theorem chain_addChain {x : RegisteredChain} (h : t.Fresh x) (hash : Digest32) :
    (t.addChain x).chain hash = if x.grantHash = hash then some x else t.chain hash :=
  lookupBy_concat h.hash

theorem chainById_addChain {x : RegisteredChain} (h : t.Fresh x) (grantId : String) :
    (t.addChain x).chainById grantId =
      if x.grant.grantId = grantId then some x else t.chainById grantId := lookupBy_concat h.id

/-- The current snapshots after a statement on one of them. -/
theorem snapshot_putSnapshot (s : {s : CurrentnessSnapshot // ValidSnapshot s}) (key : String) :
    (t.putSnapshot s).snapshot key = if s.1.key = key then some s.1 else t.snapshot key := by
  by_cases hold : (t.snapshot s.1.key).isSome
  · have hput : t.putSnapshot s = { t with
        currentness := updateWhere (fun q ↦ q.1.key = s.1.key) (fun _ ↦ s) t.currentness } := by
      simp [putSnapshot, hold]
    rw [hput, snapshot, lookupBy_replace (by simpa [snapshot] using hold),
      apply_ite (Option.map Subtype.val)]
    rfl
  · have hput : t.putSnapshot s = { t with currentness := t.currentness ++ [s] } := by
      simp [putSnapshot, hold]
    have hfresh : ∀ q ∈ t.currentness, q.1.key ≠ s.1.key := by
      simpa [snapshot, lookupBy_eq_none_iff] using hold
    rw [hput, snapshot, lookupBy_concat hfresh, apply_ite (Option.map Subtype.val)]
    rfl

theorem claim_addClaim {c : {c : DurableClaim // ValidClaim c}} (h : Claimable c.1 t)
    (hash : Digest32) :
    (t.addClaim c).claim hash = if c.1.grantHash = hash then some c.1 else t.claim hash := by
  have hfresh : ∀ q ∈ t.claims, q.1.grantHash ≠ c.1.grantHash := by
    simpa [claim, lookupBy_eq_none_iff] using h.grant
  rw [claim, addClaim, lookupBy_concat hfresh, apply_ite (Option.map Subtype.val)]
  rfl

omit [Sha256] in
/-- A marker leaves the grant of a claim as it is. -/
theorem withMarker_grantHash (dispatched : Nat) (c : {c : DurableClaim // ValidClaim c}) :
    (withMarker dispatched c).1.grantHash = c.1.grantHash := by
  unfold withMarker
  split <;> rfl

omit [Sha256] in
theorem withMarker_attemptId (dispatched : Nat) (c : {c : DurableClaim // ValidClaim c}) :
    (withMarker dispatched c).1.attemptId = c.1.attemptId := by
  unfold withMarker
  split <;> rfl

/-- The claims after a marker: only the one of the marked attempt is another. -/
theorem claim_mark {hash : Digest32} {attemptId : String} {dispatched : Nat} {c : DurableClaim}
    (hc : t.claim hash = some c) (hattempt : c.attemptId = attemptId)
    (hnone : c.dispatchStartedAtMs = none) (hle : c.claimedAtMs ≤ dispatched)
    (hmax : dispatched ≤ maxSafeInteger) (hash' : Digest32) :
    (t.mark hash attemptId dispatched).claim hash' =
      if hash = hash' then some { c with dispatchStartedAtMs := some dispatched }
      else t.claim hash' := by
  simp only [claim, mark]
  rw [lookupBy_updateWhere (withMarker_grantHash dispatched), Option.map_map]
  obtain ⟨c', hlookup, rfl⟩ := Option.map_eq_some_iff.mp hc
  by_cases hh : hash = hash'
  · subst hh
    have hu : unmarked hash attemptId c' = true := by
      simp [unmarked, key_of_lookupBy hlookup, hattempt, hnone]
    simp [hlookup, hu, withMarker, hle, hmax]
  · rw [if_neg hh]
    cases hq : lookupBy (fun c : {c : DurableClaim // ValidClaim c} ↦ c.1.grantHash)
        hash' t.claims with
    | none => rfl
    | some q =>
        have hu : unmarked hash attemptId q = false := by
          simp [unmarked, key_of_lookupBy hq, Ne.symm hh]
        simp [hu]

theorem receipt_addReceipt {r : Valid EffectReceipt} (h : Receivable r.1 t) (hash : Digest32) :
    (t.addReceipt r).receipt hash = if r.1.grantHash = hash then some r.1 else t.receipt hash := by
  have hfresh : ∀ q ∈ t.receipts, q.1.grantHash ≠ r.1.grantHash := by
    simpa [receipt, lookupBy_eq_none_iff] using h.grant
  rw [receipt, addReceipt, lookupBy_concat hfresh, apply_ite (Option.map Subtype.val)]
  rfl

theorem receiptByHash_addReceipt {r : Valid EffectReceipt} (h : Receivable r.1 t)
    (hash : Digest32) : (t.addReceipt r).receiptByHash hash =
      if recordHash r.1 = hash then some r.1 else t.receiptByHash hash := by
  rw [receiptByHash, addReceipt, lookupBy_concat h.hash, apply_ite (Option.map Subtype.val)]
  rfl

/-- A record is appended to the history of its receipt and to no other. -/
theorem history_addRecord (r : Valid ReconciliationRecord) (hash : Digest32) :
    (t.addRecord r).history hash =
      if r.1.receiptHash = hash then t.history hash ++ [r.1] else t.history hash := by
  simp only [history, addRecord, List.map_append, List.filter_append, List.map_cons, List.map_nil]
  split_ifs with h <;> simp [h]

end Queries

end Etp.Sqlite.Tables
