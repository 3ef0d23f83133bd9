import Etp.Sqlite.Attempt

/-!
# Reading a lifecycle while others write

`lifecycle` reads the chain, the claim, the receipt and the reconciliations one
after the other, without a transaction.  Its outcome is determined by the chain
at the first read, the claim at the second, the receipt at the third and the
history at the fourth (`lifecycle_run`).

Three of the four tables only grow.  The claim does not: its marker is written
later.  The four values are those of one state exactly when every change of the
claim that falls between the second and the fourth read finds the receipt and
its whole history already there (`lifecycle_atomic_iff`).  A marker and a receipt
that both fall between the second and the third read make `lifecycle` report
`DispatchEvidenceMismatch` on a database that was never in such a state
(`lifecycle_torn`).
-/

namespace Etp.Sqlite

open Etp.Core SqliteEffectStore

section Reading

variable [Sha256] {hash : Digest32}

/-- What `lifecycle` makes of the values it has read. -/
def lifecycleOutcome (hash : Digest32) (chain : Option RegisteredChain)
    (claim : Option DurableClaim) (receipt : Option EffectReceipt)
    (history : Digest32 → List ReconciliationRecord) : Except StoreError Lifecycle := do
  let x ← okOr chain .unknownGrant
  match receipt with
  | none => .ok ⟨hash, claim, none, []⟩
  | some value => do
      let receiptHash ← checkReceipt x.stored claim value
      checkRecords value none (history receiptHash)
      .ok ⟨hash, claim, some value, history receiptHash⟩

section View

variable (view : ℕ → Tables) (hw : ∀ n, WellFormed (view n))

include hw

theorem lifecycle_run :
    (lifecycle hash).run (fun n ↦ (view n).encode) =
      lifecycleOutcome hash ((view 0).chain hash) ((view 1).claim hash) ((view 2).receipt hash)
        (view 3).history := by
  rw [lifecycle, Reads.run_query_ok ((view 0).loadChainByGrantHash_encode hash)]
  cases hx : (view 0).chain hash with
  | none => rfl
  | some x =>
      rw [Option.map_some, okOr_some, Reads.check_ok,
        Reads.run_query_ok ((view 1).loadClaim_encode hash),
        Reads.run_query_ok ((view 2).loadReceiptByGrant_encode hash)]
      cases hr : (view 2).receipt hash with
      | none => rfl
      | some value =>
          simp only [lifecycleOutcome, okOr_some, ok_bind]
          cases hc : checkReceipt x.stored ((view 1).claim hash) value with
          | error e => rfl
          | ok receiptHash =>
              have hload : loadAllReconciliations (view 3).encode receiptHash =
                  .ok ((view 3).history receiptHash) :=
                Tables.loadAllReconciliations_encode ((hw 3).linked receiptHash)
              rw [Reads.check_ok,
                Reads.run_query_ok (f := (loadAllReconciliations · receiptHash)) hload, ok_bind]
              cases checkRecords value none ((view 3).history receiptHash) <;> rfl

/-- The number of reads depends on the first three alone. -/
theorem lifecycle_count :
    (lifecycle hash).count (fun n ↦ (view n).encode) =
      match (view 0).chain hash, (view 2).receipt hash with
      | none, _ => 1
      | some _, none => 3
      | some x, some value =>
          match checkReceipt x.stored ((view 1).claim hash) value with
          | .error _ => 3
          | .ok _ => 4 := by
  rw [lifecycle, Reads.count_query_ok ((view 0).loadChainByGrantHash_encode hash)]
  cases hx : (view 0).chain hash with
  | none => rfl
  | some x =>
      rw [Option.map_some, okOr_some, Reads.check_ok,
        Reads.count_query_ok ((view 1).loadClaim_encode hash),
        Reads.count_query_ok ((view 2).loadReceiptByGrant_encode hash)]
      cases hr : (view 2).receipt hash with
      | none => rfl
      | some value =>
          simp only
          cases hc : checkReceipt x.stored ((view 1).claim hash) value with
          | error e => rfl
          | ok receiptHash =>
              have hload : loadAllReconciliations (view 3).encode receiptHash =
                  .ok ((view 3).history receiptHash) :=
                Tables.loadAllReconciliations_encode ((hw 3).linked receiptHash)
              rw [Reads.check_ok,
                Reads.count_query_ok (f := (loadAllReconciliations · receiptHash)) hload]
              cases checkRecords value none ((view 3).history receiptHash) <;> rfl

end View

/-! ## The checks on a stored receipt -/

theorem checkRecords_of_history {r : EffectReceipt} {l : List ReconciliationRecord}
    (hv : validate r = .ok ()) (h : History r l) : checkRecords r none l = .ok () := by
  have key : ∀ {q : Option ReconciliationRecord} {l : List ReconciliationRecord},
      (∀ y ∈ q, ReconciliationFor r y) → (∀ y ∈ l, ReconciliationFor r y) →
        Chained ParentLink q l → checkRecords r q l = .ok () := by
    intro q l hq hl hlink
    induction l generalizing q with
    | nil => rfl
    | cons y l ih =>
        have hy := hl y (by simp)
        have hverify : verifyReconciliation r q y = .ok (recordHash y) :=
          (verifyReconciliation_eq_ok hq).mpr ⟨⟨hv, hy, hlink.1⟩, rfl⟩
        rw [checkRecords, hverify, fromProtocol_ok, ok_bind]
        exact ih (by simpa using hy) (fun z hz ↦ hl z (by simp [hz])) hlink.2
  exact key (by simp) h.each h.linked

/-- What `lifecycle` answers when it has read a receipt of the store. -/
def receiptOutcome (hash : Digest32) (claim : Option DurableClaim) (r : EffectReceipt)
    (history : List ReconciliationRecord) : Except StoreError Lifecycle :=
  match claim with
  | none => .error .corrupt
  | some c =>
      if r.dispatchedAtMs = c.dispatchStartedAtMs then .ok ⟨hash, claim, some r, history⟩
      else .error .dispatchEvidenceMismatch

variable {x : RegisteredChain} {r : EffectReceipt} {c : DurableClaim}

theorem checkReceipt_none (hfor : ReceiptFor x.proposal x.grant r) :
    checkReceipt x.stored none r = .error .corrupt := by
  have hverify := verifyChain_eq_ok.mpr ⟨⟨x.verified, hfor⟩, rfl⟩
  simp only [checkReceipt, RegisteredChain.stored, hverify, fromProtocol_ok, ok_bind]
  rfl

theorem checkReceipt_some (hfor : ReceiptFor x.proposal x.grant r)
    (hattempt : c.attemptId = r.attemptId) (hclaimed : c.claimedAtMs = r.claimedAtMs) :
    checkReceipt x.stored (some c) r =
      if r.dispatchedAtMs = c.dispatchStartedAtMs then .ok (recordHash r)
      else .error .dispatchEvidenceMismatch := by
  have hverify := verifyChain_eq_ok.mpr ⟨⟨x.verified, hfor⟩, rfl⟩
  have hclaim : rejectIf (c.attemptId ≠ r.attemptId ∨ c.claimedAtMs ≠ r.claimedAtMs)
      StoreError.corrupt = .ok () := rejectIf_eq_ok.mpr (by simp [hattempt, hclaimed])
  simp only [checkReceipt, RegisteredChain.stored, hverify, fromProtocol_ok, ok_bind, okOr_some,
    hclaim]
  split_ifs with h
  · have hevidence : validateDispatchEvidence r c.dispatchStartedAtMs = .ok () :=
      validateDispatchEvidence_eq_ok.mpr ((evidence_iff hfor.receipt_valid).mpr h)
    rw [hevidence, ok_bind, commitment_of_valid hfor.receipt_valid, fromProtocol_ok]
  · rw [validateDispatchEvidence_of_ne h]
    rfl

/-! ## The reads at four moments of a run -/

section Moments

variable {calls : List Call} {t : ℕ → Tables} (times : ℕ → ℕ) (h : Timeline calls t)

include h

/-- A receipt of the store belongs to the chain of its grant. -/
theorem Timeline.receiptFor {n m : ℕ} (hx : (t n).chain hash = some x)
    (hr : (t m).receipt hash = some r) : ReceiptFor x.proposal x.grant r := by
  obtain ⟨y, _, hy, _, hfor⟩ := (h.wellFormed m).received hash r hr
  have hxy : x = y := by
    rcases le_total n m with hle | hle
    · exact Option.some.inj ((h.chain hle hx).symm.trans hy)
    · exact Option.some.inj (hx.symm.trans (h.chain hle hy))
  exact hxy ▸ hfor.receiptFor

/-- A receipt of the store names the attempt that holds the claim. -/
theorem Timeline.attempt {n m : ℕ} (hc : (t n).claim hash = some c)
    (hr : (t m).receipt hash = some r) :
    c.attemptId = r.attemptId ∧ c.claimedAtMs = r.claimedAtMs := by
  obtain ⟨_, q, _, hq, hfor⟩ := (h.wellFormed m).received hash r hr
  rcases le_total n m with hle | hle
  · obtain ⟨q', hq', hkept⟩ := h.claim hle hc
    obtain rfl := Option.some.inj (hq.symm.trans hq')
    exact ⟨hkept.attemptId.symm.trans hfor.attempt, hkept.claimedAtMs.symm.trans hfor.claimed⟩
  · obtain ⟨c', hc', hkept⟩ := h.claim hle hq
    obtain rfl := Option.some.inj (hc.symm.trans hc')
    exact ⟨hkept.attemptId.trans hfor.attempt, hkept.claimedAtMs.trans hfor.claimed⟩

theorem Timeline.checkRecords {n : ℕ} (hr : (t n).receipt hash = some r) :
    checkRecords r none ((t n).history (recordHash r)) = .ok () := by
  obtain ⟨_, _, _, _, hfor⟩ := (h.wellFormed n).received hash r hr
  have hhash := ((h.wellFormed n).receiptByHash_of_receipt hr).2
  exact checkRecords_of_history hfor.receiptFor.receipt_valid
    ((h.wellFormed n).history _ r hhash).1

/-- The answer of a call by the chain of its first read, and the number of its reads. -/
theorem Timeline.run_lifecycle :
    (lifecycle hash).run ((fun n ↦ run (calls.take n)) ∘ times) =
        lifecycleOutcome hash ((t (times 0)).chain hash) ((t (times 1)).claim hash)
          ((t (times 2)).receipt hash) (t (times 3)).history := by
  have hview : (fun n ↦ run (calls.take n)) ∘ times = fun n ↦ (t (times n)).encode :=
    funext fun n ↦ h.encode _
  rw [hview]
  exact lifecycle_run (fun n ↦ t (times n)) fun n ↦ h.wellFormed _

theorem Timeline.count_lifecycle :
    (lifecycle hash).count ((fun n ↦ run (calls.take n)) ∘ times) =
      match (t (times 0)).chain hash, (t (times 2)).receipt hash with
      | none, _ => 1
      | some _, none => 3
      | some x, some value =>
          match checkReceipt x.stored ((t (times 1)).claim hash) value with
          | .error _ => 3
          | .ok _ => 4 := by
  have hview : (fun n ↦ run (calls.take n)) ∘ times = fun n ↦ (t (times n)).encode :=
    funext fun n ↦ h.encode _
  rw [hview]
  exact lifecycle_count (fun n ↦ t (times n)) fun n ↦ h.wellFormed _

/-- A call that reads a receipt answers by the claim of its second read and the history of its
fourth. -/
theorem Timeline.outcome_of_receipt (hmono : Monotone times)
    (hx : (t (times 0)).chain hash = some x) (hr : (t (times 2)).receipt hash = some r) :
    lifecycleOutcome hash ((t (times 0)).chain hash) ((t (times 1)).claim hash)
        ((t (times 2)).receipt hash) (t (times 3)).history =
      receiptOutcome hash ((t (times 1)).claim hash) r ((t (times 3)).history (recordHash r)) := by
  have hfor := h.receiptFor hx hr
  rw [hx, hr]
  simp only [lifecycleOutcome, okOr_some, ok_bind]
  cases hc : (t (times 1)).claim hash with
  | none =>
      rw [checkReceipt_none hfor]
      rfl
  | some c =>
      obtain ⟨hattempt, hclaimed⟩ := h.attempt hc hr
      rw [checkReceipt_some hfor hattempt hclaimed, receiptOutcome]
      split_ifs
      · rw [ok_bind, h.checkRecords (h.receipt (hmono (by omega : 2 ≤ 3)) hr)]
        rfl
      · rfl

end Moments

/-! ## When the reads are atomic -/

/-- Between the second read and the fourth, the grant's claims row changes only when the
receipt and its whole history are already stored. -/
def ClaimSettled (hash : Digest32) (states : ℕ → Db) (times : ℕ → ℕ) : Prop :=
  ((states (times 0)).chainByGrantHash hash.asStr).isSome →
    ∀ row, (states (times 2)).receiptByGrantHash hash.asStr = some row →
      ∀ n, times 1 ≤ n → n < times 3 →
        (states (n + 1)).claimByGrantHash hash.asStr ≠ (states n).claimByGrantHash hash.asStr →
          (states n).receiptByGrantHash hash.asStr = some row ∧
            (states n).reconciliationsOf row.receiptHash =
              (states (times 3)).reconciliationsOf row.receiptHash

theorem claimByGrantHash_encode_eq_iff {t u : Tables} :
    t.encode.claimByGrantHash hash.asStr = u.encode.claimByGrantHash hash.asStr ↔
      t.claim hash = u.claim hash := by
  rw [t.claimByGrantHash_encode, u.claimByGrantHash_encode,
    (Option.map_injective Tables.claimRow_injective).eq_iff, Tables.claim, Tables.claim,
    (Option.map_injective Subtype.val_injective).eq_iff]

theorem receiptByGrantHash_encode_eq_some {t : Tables} {r : EffectReceipt}
    (hv : validate r = .ok ()) :
    t.encode.receiptByGrantHash hash.asStr = some (receiptRow r) ↔ t.receipt hash = some r := by
  rw [t.receiptByGrantHash_eq_some]
  constructor
  · rintro ⟨r', hr', hrow⟩
    obtain ⟨q, -, rfl⟩ := Option.map_eq_some_iff.mp hr'
    obtain rfl : q = ⟨r, hv⟩ := Tables.receiptRow_injective hrow
    exact hr'
  · exact fun hr ↦ ⟨r, hr, rfl⟩

theorem reconciliationsOf_encode_eq_iff {t u : Tables} :
    t.encode.reconciliationsOf hash.asStr = u.encode.reconciliationsOf hash.asStr ↔
      t.history hash = u.history hash := by
  rw [t.reconciliationsOf_encode, u.reconciliationsOf_encode]
  refine ⟨fun he ↦ ?_, congrArg _⟩
  have hd : ∀ {t : Tables}, ((t.history hash).map reconciliationRow).mapM decodeReconciliation =
      .ok (t.history hash) := fun {t} ↦ by
    have := Tables.mapM_map_ok (l := t.history hash) (f := decodeReconciliation)
      (g := id) fun r hr ↦ decodeReconciliation_row (t.valid_of_mem_history hr)
    simpa using this
  exact Except.ok.inj (hd.symm.trans ((congrArg _ he).trans hd))

/-- The condition in terms of the tables. -/
theorem Timeline.claimSettled_iff {calls : List Call} {t : ℕ → Tables} (h : Timeline calls t)
    {times : ℕ → ℕ} :
    ClaimSettled hash (fun n ↦ run (calls.take n)) times ↔
      ∀ x r, (t (times 0)).chain hash = some x → (t (times 2)).receipt hash = some r →
        ∀ n, times 1 ≤ n → n < times 3 → (t (n + 1)).claim hash ≠ (t n).claim hash →
          (t n).receipt hash = some r ∧
            (t n).history (recordHash r) = (t (times 3)).history (recordHash r) := by
  simp only [ClaimSettled, h.encode, ne_eq, claimByGrantHash_encode_eq_iff,
    Tables.chainByGrantHash_encode, Option.isSome_map]
  constructor
  · intro hs x r hx hr
    have hv : validate r = .ok () := by
      obtain ⟨r', -, rfl⟩ := Option.map_eq_some_iff.mp hr
      exact r'.2
    intro n h₁ h₃ hne
    have := hs (by rw [hx]; rfl) (receiptRow r) ((receiptByGrantHash_encode_eq_some hv).mpr hr)
      n h₁ h₃ hne
    rwa [receiptByGrantHash_encode_eq_some hv, receiptRow, reconciliationsOf_encode_eq_iff] at this
  · intro hs hx row hrow n h₁ h₃ hne
    obtain ⟨x, hx⟩ := Option.isSome_iff_exists.mp hx
    obtain ⟨r, hr, rfl⟩ := (Tables.receiptByGrantHash_eq_some _).mp hrow
    obtain ⟨hr', hhist⟩ := hs x r hx hr n h₁ h₃ hne
    exact ⟨(Tables.receiptByGrantHash_eq_some _).mpr ⟨r, hr', rfl⟩,
      reconciliationsOf_encode_eq_iff.mpr hhist⟩

section Atomic

variable {x : RegisteredChain} {r : EffectReceipt} {calls : List Call} {t : ℕ → Tables}
  {times : ℕ → ℕ} (h : Timeline calls t) (hmono : Monotone times)

/-- The claim reports the dispatch time of the receipt. -/
def Fits (claim : Option DurableClaim) (r : EffectReceipt) : Prop :=
  ∃ c ∈ claim, r.dispatchedAtMs = c.dispatchStartedAtMs

omit [Sha256] in
theorem receiptOutcome_of_fits {claim : Option DurableClaim} {l : List ReconciliationRecord}
    (hfits : Fits claim r) : receiptOutcome hash claim r l = .ok ⟨hash, claim, some r, l⟩ := by
  obtain ⟨c, rfl, hc⟩ := hfits
  exact if_pos hc

omit [Sha256] in
theorem receiptOutcome_of_not_fits {claim : Option DurableClaim} {l : List ReconciliationRecord}
    (hfits : ¬Fits claim r) : receiptOutcome hash claim r l = .error
      (if claim.isSome then .dispatchEvidenceMismatch else .corrupt) := by
  cases claim with
  | none => rfl
  | some c => exact if_neg fun hc ↦ hfits ⟨c, rfl, hc⟩

include h

/-- The claim of a state fits the receipt of that state if the receipt reports a dispatch. -/
theorem Timeline.fits {n : ℕ} (hr : (t n).receipt hash = some r) (hd : r.dispatchedAtMs ≠ none) :
    Fits ((t n).claim hash) r := by
  obtain ⟨_, c, _, hc, hfor⟩ := (h.wellFormed n).received hash r hr
  obtain ⟨d, hd⟩ := Option.ne_none_iff_exists'.mp hd
  exact ⟨c, hc, hd.trans (hfor.reported d hd).symm⟩

/-- The outcome of a call that runs alone. -/
theorem Timeline.alone_lifecycle (n : ℕ) :
    (lifecycle hash).alone (run (calls.take n)) = lifecycleOutcome hash ((t n).chain hash)
      ((t n).claim hash) ((t n).receipt hash) (t n).history :=
  h.run_lifecycle (fun _ ↦ n)

theorem Timeline.alone_of_receipt {n : ℕ} (hx : (t n).chain hash = some x)
    (hr : (t n).receipt hash = some r) :
    (lifecycle hash).alone (run (calls.take n)) =
      receiptOutcome hash ((t n).claim hash) r ((t n).history (recordHash r)) := by
  rw [h.alone_lifecycle]
  exact h.outcome_of_receipt (fun _ ↦ n) monotone_const hx hr

/-- The number of reads of a call that found a receipt. -/
theorem Timeline.count_of_receipt (hx : (t (times 0)).chain hash = some x)
    (hr : (t (times 2)).receipt hash = some r) :
    (Fits ((t (times 1)).claim hash) r →
        (lifecycle hash).count ((fun n ↦ run (calls.take n)) ∘ times) = 4) ∧
      (¬Fits ((t (times 1)).claim hash) r →
        (lifecycle hash).count ((fun n ↦ run (calls.take n)) ∘ times) = 3) := by
  have hfor := h.receiptFor hx hr
  rw [h.count_lifecycle, hx, hr]
  simp only
  cases hc : (t (times 1)).claim hash with
  | none =>
      rw [checkReceipt_none hfor]
      exact ⟨fun ⟨_, hc, _⟩ ↦ (nomatch hc), fun _ ↦ rfl⟩
  | some c =>
      obtain ⟨hattempt, hclaimed⟩ := h.attempt hc hr
      rw [checkReceipt_some hfor hattempt hclaimed]
      by_cases hd : r.dispatchedAtMs = c.dispatchStartedAtMs
      · rw [if_pos hd]
        exact ⟨fun _ ↦ rfl, fun hno ↦ absurd ⟨c, rfl, hd⟩ hno⟩
      · rw [if_neg hd]
        exact ⟨fun ⟨_, hc, hd'⟩ ↦ absurd (Option.some.inj hc ▸ hd') hd, fun _ ↦ rfl⟩

include hmono

theorem Timeline.atomic_of_settled
    (hs : ClaimSettled hash (fun n ↦ run (calls.take n)) times) :
    (lifecycle hash).Atomic (fun n ↦ run (calls.take n)) times := by
  have h₀₁ : times 0 ≤ times 1 := hmono (by omega)
  have h₁₂ : times 1 ≤ times 2 := hmono (by omega)
  have h₂₃ : times 2 ≤ times 3 := hmono (by omega)
  rw [h.claimSettled_iff] at hs
  unfold Reads.Atomic
  rw [h.run_lifecycle]
  cases hx : (t (times 0)).chain hash with
  | none =>
      refine ⟨times 0, le_rfl, hmono (Nat.zero_le _), ?_⟩
      rw [h.alone_lifecycle, hx]
      rfl
  | some x =>
      cases hr : (t (times 2)).receipt hash with
      | none =>
          -- Nothing had been received at the second read either.
          have hr₁ : (t (times 1)).receipt hash = none := by
            cases hr₁ : (t (times 1)).receipt hash with
            | none => rfl
            | some r => rw [h.receipt h₁₂ hr₁] at hr; cases hr
          refine ⟨times 1, h₀₁, ?_, ?_⟩
          · rw [h.count_lifecycle, hx, hr]
            exact h₁₂
          · rw [h.alone_lifecycle, h.chain h₀₁ hx, hr₁]
            rfl
      | some r =>
          rw [← hx, ← hr, h.outcome_of_receipt times hmono hx hr]
          obtain ⟨hcount₄, hcount₃⟩ := h.count_of_receipt hx hr
          -- The last moment before the end of the call at which the claim was as it was read.
          have hlast : ∀ m, times 2 ≤ m → m ≤ times 3 → ∃ k, times 0 ≤ k ∧ k ≤ m ∧
              (t k).claim hash = (t (times 1)).claim hash ∧ (t k).chain hash = some x ∧
                (t k).receipt hash = some r ∧ (m = times 3 →
                  (t k).history (recordHash r) = (t (times 3)).history (recordHash r)) := by
            intro m hm hm₃
            obtain ⟨k, h₁, hkm, hk, hend⟩ :=
              Reads.exists_last_eq (fun n ↦ (t n).claim hash) (h₁₂.trans hm)
            refine ⟨k, h₀₁.trans h₁, hkm, hk, h.chain (h₀₁.trans h₁) hx, ?_⟩
            rcases hend with rfl | ⟨hlt, hne⟩
            · exact ⟨h.receipt hm hr, fun he ↦ by rw [he]⟩
            · obtain ⟨hr', hhist⟩ := hs x r hx hr k h₁ (hlt.trans_le hm₃) hne
              exact ⟨hr', fun _ ↦ hhist⟩
          by_cases hfits : Fits ((t (times 1)).claim hash) r
          · obtain ⟨k, h₀, hk₃, hk, hxk, hrk, hhist⟩ := hlast (times 3) h₂₃ le_rfl
            refine ⟨k, h₀, by rw [hcount₄ hfits]; exact hk₃, ?_⟩
            rw [h.alone_of_receipt hxk hrk, hk, hhist rfl]
          · obtain ⟨k, h₀, hk₂, hk, hxk, hrk, -⟩ := hlast (times 2) le_rfl h₂₃
            refine ⟨k, h₀, by rw [hcount₃ hfits]; exact hk₂, ?_⟩
            rw [h.alone_of_receipt hxk hrk, hk, receiptOutcome_of_not_fits hfits,
              receiptOutcome_of_not_fits hfits]

theorem Timeline.settled_of_atomic
    (ha : (lifecycle hash).Atomic (fun n ↦ run (calls.take n)) times) :
    ClaimSettled hash (fun n ↦ run (calls.take n)) times := by
  rw [h.claimSettled_iff]
  intro x r hx hr m h₁ h₃ hne
  obtain ⟨n, h₀, -, hrun⟩ := ha
  rw [h.run_lifecycle, h.outcome_of_receipt times hmono hx hr] at hrun
  have hxn := h.chain h₀ hx
  -- What the call answers is not what it answers before the receipt is stored.
  have hrn : ∃ r', (t n).receipt hash = some r' := by
    rw [← Option.ne_none_iff_exists']
    intro hrn
    rw [h.alone_lifecycle, hxn, hrn] at hrun
    by_cases hfits : Fits ((t (times 1)).claim hash) r
    · rw [receiptOutcome_of_fits hfits] at hrun
      simp [lifecycleOutcome] at hrun
    · rw [receiptOutcome_of_not_fits hfits] at hrun
      simp [lifecycleOutcome] at hrun
  obtain ⟨r', hrn⟩ := hrn
  have hrr : r' = r := by
    rcases le_total n (times 2) with hle | hle
    · exact Option.some.inj ((h.receipt hle hrn).symm.trans hr)
    · exact Option.some.inj (hrn.symm.trans (h.receipt hle hr))
  subst hrr
  rw [h.alone_of_receipt hxn hrn] at hrun
  obtain ⟨_, cₙ, _, hcn, -⟩ := (h.wellFormed n).received hash r' hrn
  cases hc : (t (times 1)).claim hash with
  | none =>
      rw [hc, hcn, receiptOutcome, receiptOutcome] at hrun
      split_ifs at hrun
      cases hrun
  | some c =>
      -- The claim changes after `m`, so it was unmarked until then.
      obtain ⟨c', hc', hkept⟩ := h.claim h₁ hc
      obtain ⟨c'', hc'', hkept'⟩ := h.claim (Nat.le_add_right m 1) hc'
      have hcc : c'' ≠ c' := by
        rintro rfl
        exact hne (hc''.trans hc'.symm)
      have hnone : c'.dispatchStartedAtMs = none := by
        by_contra hsome
        exact hcc (hkept'.eq_of_marked hsome)
      obtain rfl := hkept.eq_of_unmarked hnone
      have hmarked : c''.dispatchStartedAtMs ≠ none := fun hn ↦ hcc (hkept'.eq_of_unmarked hn)
      by_cases hd : r'.dispatchedAtMs = none
      · rw [hc, receiptOutcome_of_fits ⟨c', rfl, hd.trans hnone.symm⟩] at hrun
        have hfits : Fits ((t n).claim hash) r' := by
          by_contra hno
          rw [receiptOutcome_of_not_fits hno] at hrun
          cases hrun
        rw [receiptOutcome_of_fits hfits] at hrun
        simp only [Except.ok.injEq, Lifecycle.mk.injEq, true_and] at hrun
        obtain ⟨hclaim, hhist⟩ := hrun
        have hnm : n ≤ m := by
          by_contra hlt
          obtain ⟨q, hq, hkept''⟩ := h.claim (Nat.succ_le_of_lt (not_le.mp hlt)) hc''
          rw [← hclaim] at hq
          cases hq
          exact hcc (hkept''.eq_of_marked hmarked).symm
        refine ⟨h.receipt hnm hrn, ?_⟩
        exact (h.history h₃.le _).eq_of_length_le (by
          rw [hhist]
          exact (h.history hnm _).length_le)
      · rw [hc, receiptOutcome_of_not_fits, receiptOutcome_of_fits (h.fits hrn hd)] at hrun
        · cases hrun
        · rintro ⟨q, hq, hdq⟩
          cases hq
          exact hd (hdq.trans hnone)

end Atomic

/-- **When lifecycle reads are atomic.**  What a `lifecycle` call returns, with its reads at four
moments of a run, is what it would return alone on a single state between its first and its
last read, exactly when the claims row of the grant changes between the second read and the
fourth only at moments at which the receipt and its whole history were already there. -/
theorem lifecycle_atomic_iff (calls : List Call) (times : ℕ → ℕ) (hmono : Monotone times)
    (hash : Digest32) :
    (lifecycle hash).Atomic (fun n ↦ run (calls.take n)) times ↔
      ClaimSettled hash (fun n ↦ run (calls.take n)) times := by
  obtain ⟨t, h⟩ := exists_timeline calls
  exact ⟨h.settled_of_atomic hmono, h.atomic_of_settled hmono⟩

end Reading

/-! ## The positive vector -/

section Positive

open Vectors

/-- A call that starts after the claim and goes on once the receipt is stored. -/
theorem lifecycle_atomic_received :
    (lifecycle positiveAttempt.chain.grantHash).Atomic (fun n ↦ run (positiveCalls.take n))
      (fun n ↦ if n = 0 then 3 else 5) := by
  have hmono : Monotone fun n : ℕ ↦ if n = 0 then 3 else 5 := by
    intro n m hle
    simp only
    split_ifs <;> omega
  refine (lifecycle_atomic_iff positiveCalls _ hmono _).mpr ?_
  intro _ row _ n h₁ h₃
  simp only [Nat.one_ne_zero, if_false] at h₁
  simp only [OfNat.ofNat_ne_zero, if_false] at h₃
  omega

/-- The first two reads see the claim, the others the marker and the receipt as well. -/
def tornTimes (n : ℕ) : ℕ := if n ≤ 1 then 3 else 5

theorem tornTimes_monotone : Monotone tornTimes := by
  intro n m hle
  simp only [tornTimes]
  split_ifs <;> omega

/-- A marker and a receipt between the second and the third read are reported as a mismatch
that the database never had. -/
theorem lifecycle_torn :
    Monotone tornTimes ∧ ¬(lifecycle positiveAttempt.chain.grantHash).Atomic
      (fun n ↦ run (positiveCalls.take n)) tornTimes := by
  refine ⟨tornTimes_monotone, fun hatomic ↦ ?_⟩
  obtain ⟨t, h⟩ := exists_timeline positiveCalls
  have hs := h.settled_of_atomic tornTimes_monotone hatomic
  have h₃ : t 3 = positive_claimable.claimed :=
    Tables.encode_injective ((h.encode 3).symm.trans positive_claimable.run_claimed)
  have h₄ : t 4 = positiveMarked := Tables.encode_injective
    ((h.encode 4).symm.trans (positive_markable.run_marked positive_claimable))
  have h₅ : t 5 = positiveReceived :=
    Tables.encode_injective ((h.encode 5).symm.trans run_positiveCalls)
  rw [h.claimSettled_iff] at hs
  obtain ⟨hreceipt, -⟩ := hs positiveAttempt.chain positiveReceipt
    (by rw [tornTimes, if_pos (by omega), h₃]; exact positiveAttempt.chain_prepared)
    (by rw [tornTimes, if_neg (by omega), h₅]; exact receipt_positiveReceived)
    3 (by rw [tornTimes, if_pos le_rfl]) (by rw [tornTimes, if_neg (by omega)]; omega)
    (by
      rw [h₃, h₄, positiveMarked, positive_markable.claim_marked positive_claimable,
        positive_claimable.claim_claimed]
      intro he
      cases congrArg DurableClaim.dispatchStartedAtMs (Option.some.inj he))
  rw [h₃] at hreceipt
  cases hreceipt

end Positive

end Etp.Sqlite
