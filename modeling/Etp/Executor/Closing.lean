import Etp.Executor.Dispatch
import Etp.Sqlite.Lifecycle
import Etp.Sqlite.Terminal

/-!
# A consumed grant can be closed

An attempt is open when it holds its grant and no receipt is stored for it.  Wherever a run
of the executors stands, an open attempt can still be closed, and its marker says how.
With a marker it is recovered as `unknown`, without one as `not_dispatched`, and the other
recovery is refused; a process that still holds a token of the attempt can close it with
that.

So nothing that the claim stored can go stale: the chain verifies again, the identifiers
are still ones that a receipt may have, and the window of the grant still holds the time
of the claim.  The caller has to bring a receipt identifier that is not in use and a time
of completion that does not precede the attempt.

`run_closable` follows what a recovery reads, and `attempts_close` says the same of what the
caller brings and of the receipt that is stored then.
-/

namespace Etp.Executor

open Etp.Core Etp.Authority Etp.Sqlite

variable [Sha256]

/-! ## Open attempts -/

/-- The attempt holds its grant, and no receipt is stored for it. -/
structure Open (db : Db) (c : DurableClaim) : Prop where
  claim : loadClaim db c.grantHash = .ok (some c)
  receipt : loadReceiptByGrant db c.grantHash = .ok none

/-- The marker, or the time of the claim if there is none. -/
def startedAtMs (c : DurableClaim) : Nat := c.dispatchStartedAtMs.getD c.claimedAtMs

/-- The hash inputs of the receipts in the database. -/
def storedPreimages (db : Db) : Set (List UInt8) :=
  {p | ∃ q : EffectReceipt, validate q = .ok () ∧ receiptRow q ∈ db.receipts ∧ p = preimage q}

/-- What the caller has to bring: an identifier that is not in use, and a time of completion
that fits the attempt.  SHA-256 must not collide on the receipts. -/
structure Closes (db : Db) (c : DurableClaim) (r : EffectReceipt) : Prop where
  receiptId : TrimmedText r.receiptId 256
  fresh : ∀ row ∈ db.receipts, row.receiptId ≠ r.receiptId
  started_le : startedAtMs c ≤ r.completedAtMs
  completed_le : r.completedAtMs ≤ maxSafeInteger
  apart : CollisionFree (insert (preimage r) (storedPreimages db))

/-- The bindings of a recovery are those of the attempt. -/
structure Recovers (db : Db) (c : DurableClaim) (proposalHash grantHash : Digest32)
    (attemptId : String) : Prop where
  grant : grantHash = c.grantHash
  attempt : attemptId = c.attemptId
  proposal : ∃ chain, loadChainByGrantHash db c.grantHash = .ok (some chain) ∧
    proposalHash = recordHash chain.proposal

/-- The program returns the hash of the receipt and leaves it in the database. -/
def Stores (p : Program Db (Except ExecutorError Digest32)) (db : Db) (r : EffectReceipt) : Prop :=
  ∃ db', p.alone db = (.ok (recordHash r), db') ∧
    loadReceiptByGrant db' r.grantHash = .ok (some r)

/-- Every open attempt of the world can be closed in the way that its marker says, and not
in the other. -/
structure World.Closable (w : World) : Prop where
  registered : ∀ c, Open w.db c →
    ∃ chain, loadChainByGrantHash w.db c.grantHash = .ok (some chain)
  unknown : ∀ c recovery, Open w.db c → c.dispatchStartedAtMs.isSome →
    Recovers w.db c recovery.proposalHash recovery.grantHash recovery.attemptId →
    ∃ r, UnknownRecovery.receipt recovery ⟨c.grantHash, some c, none, []⟩ = .ok r ∧
      (Closes w.db c r → Stores (EffectTransactionExecutor.recordRecoveredUnknown recovery) w.db r)
  notDispatched : ∀ c recovery, Open w.db c → c.dispatchStartedAtMs = none →
    Recovers w.db c recovery.proposalHash recovery.grantHash recovery.attemptId →
    ∃ r, NotDispatchedRecovery.receipt recovery ⟨c.grantHash, some c, none, []⟩ = .ok r ∧
      (Closes w.db c r →
        Stores (EffectTransactionExecutor.recordRecoveredNotDispatched recovery) w.db r)
  missing : ∀ c recovery, Open w.db c → c.dispatchStartedAtMs = none →
    recovery.grantHash = c.grantHash → recovery.attemptId = c.attemptId →
      (EffectTransactionExecutor.recordRecoveredUnknown recovery).alone w.db =
        (.error .missingDispatchMarker, w.db)
  unexpected : ∀ c recovery, Open w.db c → c.dispatchStartedAtMs.isSome →
    recovery.grantHash = c.grantHash → recovery.attemptId = c.attemptId →
      (EffectTransactionExecutor.recordRecoveredNotDispatched recovery).alone w.db =
        (.error .unexpectedDispatchMarker, w.db)
  handle : ∀ c handle evidence, Open w.db c → .handle handle ∈ w.tokens →
    handle.grantHash = c.grantHash → Closes w.db c (handle.receipt evidence) →
      Stores (EffectTransactionExecutor.recordDispatched handle evidence) w.db
        (handle.receipt evidence)
  claimed : ∀ c claimed evidence, Open w.db c → .claimed claimed ∈ w.tokens →
    claimed.claim.grantHash = c.grantHash → Closes w.db c (claimed.receipt evidence) →
      Stores (EffectTransactionExecutor.recordNotDispatched claimed evidence) w.db
        (claimed.receipt evidence)

/-! ## What the tables say of an open attempt -/

/-- An open attempt on the tables, with the chain of its grant. -/
structure OpenOn (t : Tables) (x : RegisteredChain) (c : DurableClaim) : Prop where
  wellFormed : WellFormed t
  chain : t.chain c.grantHash = some x
  claim : t.claim c.grantHash = some c
  receipt : t.receipt c.grantHash = none
  window : ClaimedFor x c
  attempt : TrimmedText c.attemptId 256

theorem Open.exists_tables {db : Db} {c : DurableClaim} (hdb : Reached db) (h : Open db c) :
    ∃ t x, db = t.encode ∧ OpenOn t x c := by
  obtain ⟨calls, rfl⟩ := hdb
  obtain ⟨t, hw, hrun, hplain⟩ := attempts_plain calls
  have hclaim := h.claim
  have hreceipt := h.receipt
  rw [hrun, Tables.loadClaim_encode, Except.ok.injEq] at hclaim
  rw [hrun, Tables.loadReceiptByGrant_encode, Except.ok.injEq] at hreceipt
  obtain ⟨x, hx, hwindow⟩ := hw.claimed _ _ hclaim
  obtain ⟨q, hq, rfl⟩ := Option.map_eq_some_iff.mp hclaim
  obtain ⟨hnonempty, hbounded, htrimmed, hcontrol⟩ := hplain q (mem_of_lookupBy hq)
  refine ⟨t, x, hrun, hw, hx, hclaim, hreceipt, hwindow, hnonempty, hbounded, ?_, htrimmed⟩
  simpa using hcontrol

theorem Open.exists_chain {db : Db} {c : DurableClaim} (hdb : Reached db) (h : Open db c) :
    ∃ chain, loadChainByGrantHash db c.grantHash = .ok (some chain) := by
  obtain ⟨t, x, rfl, hopen⟩ := h.exists_tables hdb
  refine ⟨x.stored, ?_⟩
  rw [Tables.loadChainByGrantHash_encode, hopen.chain, Option.map_some]

/-- A claims row without a receipt is the row of an open attempt. -/
theorem exists_open {db : Db} (hdb : Reached db) {hash : Digest32} {row : ClaimRow}
    (hrow : db.claimByGrantHash hash.asStr = some row)
    (hnone : db.receiptByGrantHash hash.asStr = none) :
    ∃ c, Open db c ∧ c.grantHash = hash ∧ c.row = row := by
  obtain ⟨t, -, rfl⟩ := hdb.exists_tables
  obtain ⟨c, hc, rfl⟩ := (t.claimByGrantHash_eq_some).mp hrow
  obtain rfl := claim_grantHash hc
  refine ⟨c, ⟨?_, ?_⟩, rfl, rfl⟩
  · rw [Tables.loadClaim_encode, hc]
  · rw [Tables.loadReceiptByGrant_encode]
    cases hr : t.receipt c.grantHash with
    | none => rfl
    | some r =>
        have hsome := (t.receiptByGrantHash_eq_some).mpr ⟨r, hr, rfl⟩
        rw [hnone] at hsome
        cases hsome

/-- A receipt that reports what the claims row says. -/
structure Reports (x : RegisteredChain) (c : DurableClaim) (r : EffectReceipt) : Prop where
  version : r.version = profileVersion
  proposal : r.proposalHash = recordHash x.proposal
  grant : r.grantHash = c.grantHash
  attempt : r.attemptId = c.attemptId
  claimed : r.claimedAtMs = c.claimedAtMs
  dispatched : r.dispatchedAtMs = c.dispatchStartedAtMs
  notDispatched : r.outcome = .notDispatched → c.dispatchStartedAtMs = none
  observed : r.outcome = .succeeded ∨ r.outcome = .failed → c.dispatchStartedAtMs ≠ none

namespace OpenOn

variable {t : Tables} {x : RegisteredChain} {c : DurableClaim} {r : EffectReceipt}
  (h : OpenOn t x c)

include h

/-- The attempt does not start before it was claimed. -/
theorem claimed_le_started : c.claimedAtMs ≤ startedAtMs c := by
  rw [startedAtMs]
  cases hd : c.dispatchStartedAtMs with
  | none => exact le_rfl
  | some d => exact (h.window.marked d hd).1

theorem validate (hr : Reports x c r) (hcloses : Closes t.encode c r) :
    Core.validate r = .ok () := by
  have hle := h.claimed_le_started.trans hcloses.started_le
  refine EffectReceipt.validate_eq_ok.mpr ⟨hr.version, hcloses.receiptId, ?_, ?_,
    hcloses.completed_le, ?_, ?_, ?_, ?_⟩
  · rw [hr.attempt]
    exact h.attempt
  · rw [hr.claimed]
    exact hle.trans hcloses.completed_le
  · rw [hr.claimed]
    exact hle
  · intro d hd
    rw [hr.dispatched] at hd
    have hstarted := hcloses.started_le
    rw [startedAtMs, hd, Option.getD_some] at hstarted
    rw [hr.claimed]
    exact ⟨hstarted.trans hcloses.completed_le, (h.window.marked d hd).1, hstarted⟩
  · rw [hr.dispatched]
    exact hr.notDispatched
  · rw [hr.dispatched]
    exact hr.observed

theorem guards (hr : Reports x c r) (hcloses : Closes t.encode c r) : ReceiptGuards t r x c where
  chain := by
    rw [hr.grant]
    exact h.chain
  receiptFor := {
    receipt_valid := h.validate hr hcloses
    receipt_proposal_hash := hr.proposal
    receipt_grant_hash := hr.grant.trans (h.wellFormed.chainById_of_chain h.chain).1.symm
    claimed_ge := hr.claimed ▸ h.window.not_before_le
    claimed_lt := hr.claimed ▸ h.window.lt_expires }
  claim := by
    rw [hr.grant]
    exact h.claim
  attempt := hr.attempt.symm
  claimed := hr.claimed.symm
  evidence := (evidence_iff (h.validate hr hcloses)).mpr hr.dispatched

theorem receivable (hr : Reports x c r) (hcloses : Closes t.encode c r) :
    Tables.Receivable r t where
  claim := by
    rw [hr.grant, h.claim]
    rfl
  grant := by
    rw [hr.grant]
    exact h.receipt
  id q hq := hcloses.fresh _ (List.mem_map_of_mem hq)
  hash q hq heq := by
    -- Receipts with one hash are one receipt, and its identifier is in use.
    have hknown : preimage q.1 ∈ insert (preimage r) (storedPreimages t.encode) :=
      .inr ⟨q.1, q.2, List.mem_map_of_mem hq, rfl⟩
    have := eq_of_recordHash_eq hcloses.apart hknown (.inl rfl) q.2 (h.validate hr hcloses) heq
    exact hcloses.fresh _ (List.mem_map_of_mem hq) (congrArg EffectReceipt.receiptId this)

/-- The store takes the receipt. -/
theorem storeReceipt (hr : Reports x c r) (hcloses : Closes t.encode c r) :
    Stores (EffectTransactionExecutor.storeReceipt r) t.encode r := by
  have hguards := h.guards hr hcloses
  have hfree := h.receivable hr hcloses
  refine ⟨_, Program.alone_transact_ok (recordReceipt_of_guards hguards hfree), ?_⟩
  rw [Tables.loadReceiptByGrant_encode, Tables.receipt_addReceipt hfree, if_pos rfl]

/-- What a recovery reads. -/
theorem alone_lifecycle : (SqliteEffectStore.lifecycle c.grantHash).alone t.encode =
    .ok ⟨c.grantHash, some c, none, []⟩ := by
  have := @lifecycle_run _ c.grantHash (fun _ ↦ t) fun _ ↦ h.wellFormed
  rw [Reads.alone, this, h.chain, h.claim, h.receipt]
  rfl

/-- A recovery that reads the lifecycle of the attempt. -/
theorem alone_recovery (receipt : Lifecycle → Except ExecutorError EffectReceipt) :
    (Program.reading .store (SqliteEffectStore.lifecycle c.grantHash) fun lifecycle ↦
        .check (receipt lifecycle) EffectTransactionExecutor.storeReceipt).alone t.encode =
      (Program.check (receipt ⟨c.grantHash, some c, none, []⟩)
        EffectTransactionExecutor.storeReceipt).alone t.encode := by
  rw [Program.alone_reading, h.alone_lifecycle]
  rfl

/-- A recovery whose receipt reports what the claims row says. -/
theorem recovers {receipt : Lifecycle → Except ExecutorError EffectReceipt}
    (hreceipt : receipt ⟨c.grantHash, some c, none, []⟩ = .ok r) (hr : Reports x c r)
    (hcloses : Closes t.encode c r) :
    Stores (.reading .store (SqliteEffectStore.lifecycle c.grantHash) fun lifecycle ↦
      .check (receipt lifecycle) EffectTransactionExecutor.storeReceipt) t.encode r := by
  rw [Stores, h.alone_recovery, hreceipt]
  exact h.storeReceipt hr hcloses

theorem proposal {proposalHash grantHash : Digest32} {attemptId : String}
    (hrecovers : Recovers t.encode c proposalHash grantHash attemptId) :
    proposalHash = recordHash x.proposal := by
  obtain ⟨-, -, chain, hchain, rfl⟩ := hrecovers
  rw [Tables.loadChainByGrantHash_encode, h.chain, Except.ok.injEq, Option.map_some,
    Option.some.injEq] at hchain
  rw [← hchain]
  rfl

end OpenOn

/-! ## The receipts of the recoveries -/

section Recoveries

variable {t : Tables} {x : RegisteredChain} {c : DurableClaim}

omit [Sha256] in
theorem recoveredClaim_eq {attemptId : String} (hattempt : attemptId = c.attemptId) :
    recoveredClaim ⟨c.grantHash, some c, none, []⟩ attemptId = .ok c := by
  simp [recoveredClaim, hattempt]

/-- The receipt of the attempt that a recovery as `unknown` stores. -/
def UnknownRecovery.closing (recovery : UnknownRecovery) (c : DurableClaim) : EffectReceipt where
  version := 1
  receiptId := recovery.receiptId
  proposalHash := recovery.proposalHash
  grantHash := recovery.grantHash
  attemptId := recovery.attemptId
  claimedAtMs := c.claimedAtMs
  dispatchedAtMs := c.dispatchStartedAtMs
  completedAtMs := recovery.completedAtMs
  outcome := .unknown
  observationDigest := recovery.observationDigest

/-- The receipt of the attempt that a recovery as `not_dispatched` stores. -/
def NotDispatchedRecovery.closing (recovery : NotDispatchedRecovery) (c : DurableClaim) :
    EffectReceipt where
  version := 1
  receiptId := recovery.receiptId
  proposalHash := recovery.proposalHash
  grantHash := recovery.grantHash
  attemptId := recovery.attemptId
  claimedAtMs := c.claimedAtMs
  dispatchedAtMs := none
  completedAtMs := recovery.completedAtMs
  outcome := .notDispatched
  observationDigest := recovery.observationDigest

omit [Sha256] in
/-- A marked attempt is recovered as `unknown`. -/
theorem UnknownRecovery.receipt_marked {recovery : UnknownRecovery}
    (hattempt : recovery.attemptId = c.attemptId) (hmarked : c.dispatchStartedAtMs.isSome) :
    recovery.receipt ⟨c.grantHash, some c, none, []⟩ = .ok (recovery.closing c) := by
  obtain ⟨d, hd⟩ := Option.isSome_iff_exists.mp hmarked
  rw [UnknownRecovery.receipt, recoveredClaim_eq hattempt, ok_bind, hd, UnknownRecovery.closing, hd]
  rfl

omit [Sha256] in
/-- An attempt without a marker is recovered as `not_dispatched`. -/
theorem NotDispatchedRecovery.receipt_unmarked {recovery : NotDispatchedRecovery}
    (hattempt : recovery.attemptId = c.attemptId) (hnone : c.dispatchStartedAtMs = none) :
    recovery.receipt ⟨c.grantHash, some c, none, []⟩ = .ok (recovery.closing c) := by
  rw [NotDispatchedRecovery.receipt, recoveredClaim_eq hattempt, ok_bind, hnone]
  rfl

theorem UnknownRecovery.reports {recovery : UnknownRecovery} (h : OpenOn t x c)
    (hrecovers : Recovers t.encode c recovery.proposalHash recovery.grantHash
      recovery.attemptId) : Reports x c (recovery.closing c) where
  version := rfl
  proposal := h.proposal hrecovers
  grant := hrecovers.grant
  attempt := hrecovers.attempt
  claimed := rfl
  dispatched := rfl
  notDispatched := by rintro ⟨⟩
  observed := by rintro (⟨⟨⟩⟩ | ⟨⟨⟩⟩)

theorem NotDispatchedRecovery.reports {recovery : NotDispatchedRecovery} (h : OpenOn t x c)
    (hnone : c.dispatchStartedAtMs = none) (hrecovers : Recovers t.encode c
      recovery.proposalHash recovery.grantHash recovery.attemptId) :
    Reports x c (recovery.closing c) where
  version := rfl
  proposal := h.proposal hrecovers
  grant := hrecovers.grant
  attempt := hrecovers.attempt
  claimed := rfl
  dispatched := hnone.symm
  notDispatched := fun _ ↦ hnone
  observed := by rintro (⟨⟨⟩⟩ | ⟨⟨⟩⟩)

/-- The recovery as `unknown` closes a marked attempt. -/
theorem OpenOn.unknown_stores (h : OpenOn t x c) (hmarked : c.dispatchStartedAtMs.isSome)
    {recovery : UnknownRecovery} (hrecovers : Recovers t.encode c recovery.proposalHash
      recovery.grantHash recovery.attemptId) (hcloses : Closes t.encode c (recovery.closing c)) :
    Stores (EffectTransactionExecutor.recordRecoveredUnknown recovery) t.encode
      (recovery.closing c) := by
  rw [EffectTransactionExecutor.recordRecoveredUnknown, hrecovers.grant]
  exact h.recovers (recovery.receipt_marked hrecovers.attempt hmarked)
    (recovery.reports h hrecovers) hcloses

/-- The recovery as `not_dispatched` closes an attempt without a marker. -/
theorem OpenOn.notDispatched_stores (h : OpenOn t x c) (hnone : c.dispatchStartedAtMs = none)
    {recovery : NotDispatchedRecovery} (hrecovers : Recovers t.encode c recovery.proposalHash
      recovery.grantHash recovery.attemptId) (hcloses : Closes t.encode c (recovery.closing c)) :
    Stores (EffectTransactionExecutor.recordRecoveredNotDispatched recovery) t.encode
      (recovery.closing c) := by
  rw [EffectTransactionExecutor.recordRecoveredNotDispatched, hrecovers.grant]
  exact h.recovers (recovery.receipt_unmarked hrecovers.attempt hnone)
    (recovery.reports h hnone hrecovers) hcloses

/-- Without a marker nothing is recovered as `unknown`. -/
theorem OpenOn.unknown_missing (h : OpenOn t x c) (hnone : c.dispatchStartedAtMs = none)
    {recovery : UnknownRecovery} (hgrant : recovery.grantHash = c.grantHash)
    (hattempt : recovery.attemptId = c.attemptId) :
    (EffectTransactionExecutor.recordRecoveredUnknown recovery).alone t.encode =
      (.error .missingDispatchMarker, t.encode) := by
  have hreceipt : recovery.receipt ⟨c.grantHash, some c, none, []⟩ =
      .error .missingDispatchMarker := by
    rw [UnknownRecovery.receipt, recoveredClaim_eq hattempt, ok_bind, hnone]
    rfl
  rw [EffectTransactionExecutor.recordRecoveredUnknown, hgrant, h.alone_recovery, hreceipt]
  rfl

/-- With a marker nothing is recovered as `not_dispatched`. -/
theorem OpenOn.notDispatched_unexpected (h : OpenOn t x c) (hmarked : c.dispatchStartedAtMs.isSome)
    {recovery : NotDispatchedRecovery} (hgrant : recovery.grantHash = c.grantHash)
    (hattempt : recovery.attemptId = c.attemptId) :
    (EffectTransactionExecutor.recordRecoveredNotDispatched recovery).alone t.encode =
      (.error .unexpectedDispatchMarker, t.encode) := by
  have hreceipt : recovery.receipt ⟨c.grantHash, some c, none, []⟩ =
      .error .unexpectedDispatchMarker := by
    rw [NotDispatchedRecovery.receipt, recoveredClaim_eq hattempt, ok_bind, hmarked]
    rfl
  rw [EffectTransactionExecutor.recordRecoveredNotDispatched, hgrant, h.alone_recovery, hreceipt]
  rfl

end Recoveries

variable [Ed25519] [Coset]

namespace World

variable {w : World}

/-! ## The tokens of an open attempt -/

/-- A handle that was issued reports the claims row of its grant. -/
theorem Inv.reports_of_handle (hinv : Inv w) (hmarks : Marks w) {handle : ReceiptHandle}
    (hissued : .handle handle ∈ w.issued) {t : Tables} {x : RegisteredChain} {c : DurableClaim}
    (ht : w.db = t.encode) (h : OpenOn t x c) (hgrant : handle.grantHash = c.grantHash)
    (evidence : DispatchedReceipt) : Reports x c (handle.receipt evidence) := by
  obtain ⟨y, hy, htoken⟩ := List.mem_filterMap.mp hissued
  have hanswer : ∃ exact, y.answer = .dispatched exact handle := by
    cases ha : y.answer <;> rw [ha] at htoken <;> cases htoken
    exact ⟨_, rfl⟩
  obtain ⟨exact, hanswer⟩ := hanswer
  cases hinv.kept y hy with
  | contract hcontract =>
      rw [hanswer] at hcontract
      obtain ⟨hnone, -⟩ | ⟨_, hclaimed⟩ | ⟨_, hcapability⟩ := hcontract.ok_cases
      · cases hnone
      · cases hclaimed
      · cases hcapability
  | dispatch capability hop hdispatched _ =>
      rw [hanswer] at hdispatched
      have hsplit : handle = capability.split.2 := by
        cases hdispatched
        rfl
      subst hsplit
      have hspent : .capability capability ∈ w.spent :=
        List.mem_filterMap.mpr ⟨y, hy, by rw [hop]; rfl⟩
      obtain ⟨e, claimed, snapshot, before, after, marker, hlogged, -, hprepared, hclaim, hclaimed,
        hmark⟩ := hinv.dispatching (hinv.issued_of_spent hspent)
      obtain ⟨u, t', s, hm⟩ := exists_marked hinv hmarks hlogged rfl hclaim hclaimed hmark
      obtain ⟨-, -, -, -, -, -, -, -, -, -, hhash, -⟩ := hinv.claiming hclaimed
      obtain ⟨hchain, -⟩ := hinv.stored_of_issued ht hclaimed
      obtain rfl : t = t' := Tables.encode_injective (ht.symm.trans hm.now_eq)
      have hgrant' : claimed.claim.grantHash = c.grantHash := hclaim ▸ hgrant
      have hc := hm.marked
      rw [hgrant', h.claim, Option.some.injEq] at hc
      rw [hgrant', h.chain, Option.some.injEq] at hchain
      subst hchain
      exact {
        version := rfl
        proposal := (congrArg PreparedEffect.proposalHash hprepared).trans
          claimed.prepared.proposalHash_eq
        grant := hgrant
        attempt := by
          rw [hc, ← hclaim]
          rfl
        claimed := by
          rw [hc, ← hclaim]
          rfl
        dispatched := by
          rw [hc]
          rfl
        notDispatched := by
          intro houtcome
          have houtcome : evidence.outcome.receiptOutcome = .notDispatched := houtcome
          cases ho : evidence.outcome <;> rw [ho] at houtcome <;> cases houtcome
        observed := by
          rw [hc]
          simp }

/-- As long as a claim token is held, it reports the claims row of its grant. -/
theorem Inv.reports_of_claimed (hinv : Inv w) (hclaims : Claims w) {claimed : ClaimedEffect}
    (hheld : .claimed claimed ∈ w.tokens) {t : Tables} {x : RegisteredChain} {c : DurableClaim}
    (ht : w.db = t.encode) (h : OpenOn t x c) (hgrant : claimed.claim.grantHash = c.grantHash)
    (evidence : NotDispatchedReceipt) : Reports x c (claimed.receipt evidence) := by
  have hheld' : .claimed claimed ∈ w.held := List.mem_append_left _ hheld
  obtain ⟨hchain, q, hq, hkept⟩ := hinv.stored_of_issued ht (hinv.issued_of_held hheld')
  have hnone := hclaims.unmarked t ht claimed.claim.grantHash c
    (List.countP_pos_iff.mpr ⟨_, hheld', decide_eq_true rfl⟩) (hgrant ▸ h.claim)
  rw [hgrant, h.claim, Option.some.injEq] at hq
  rw [hgrant, h.chain, Option.some.injEq] at hchain
  subst hq
  subst hchain
  exact {
    version := rfl
    proposal := claimed.prepared.proposalHash_eq
    grant := hgrant
    attempt := hkept.attemptId.symm
    claimed := hkept.claimedAtMs.symm
    dispatched := hnone.symm
    notDispatched := fun _ ↦ hnone
    observed := by rintro (⟨⟨⟩⟩ | ⟨⟨⟩⟩) }

/-- A handle closes its attempt, whatever the outcome. -/
theorem Inv.stores_of_handle (hinv : Inv w) (hmarks : Marks w) {c : DurableClaim}
    {handle : ReceiptHandle} {evidence : DispatchedReceipt} (hopen : Open w.db c)
    (htoken : .handle handle ∈ w.tokens) (hgrant : handle.grantHash = c.grantHash)
    (hcloses : Closes w.db c (handle.receipt evidence)) :
    Stores (EffectTransactionExecutor.recordDispatched handle evidence) w.db
      (handle.receipt evidence) := by
  obtain ⟨t, x, ht, h⟩ := hopen.exists_tables hinv.reached
  have hissued := hinv.issued_of_held (List.mem_append_left _ htoken)
  have hreports := hinv.reports_of_handle hmarks hissued ht h hgrant evidence
  rw [ht] at hcloses ⊢
  exact h.storeReceipt hreports hcloses

/-- A claim token closes its attempt as not dispatched. -/
theorem Inv.stores_of_claimed (hinv : Inv w) (hclaims : Claims w) {c : DurableClaim}
    {claimed : ClaimedEffect} {evidence : NotDispatchedReceipt} (hopen : Open w.db c)
    (htoken : .claimed claimed ∈ w.tokens) (hgrant : claimed.claim.grantHash = c.grantHash)
    (hcloses : Closes w.db c (claimed.receipt evidence)) :
    Stores (EffectTransactionExecutor.recordNotDispatched claimed evidence) w.db
      (claimed.receipt evidence) := by
  obtain ⟨t, x, ht, h⟩ := hopen.exists_tables hinv.reached
  have hreports := hinv.reports_of_claimed hclaims htoken ht h hgrant evidence
  rw [ht] at hcloses ⊢
  exact h.storeReceipt hreports hcloses

/-- **A consumed grant can be closed.**  In every world of a run, an open attempt is closed by
the recovery that fits its marker and by the tokens that are left of it, and the other
recovery fails. -/
theorem run_closable (actions : List Action) : (run actions).Closable := by
  obtain ⟨hinv, hclaims, hmarks⟩ := run_claims actions
  constructor
  · intro c hopen
    exact hopen.exists_chain hinv.reached
  · intro c recovery hopen hmarked hrecovers
    obtain ⟨t, x, ht, h⟩ := hopen.exists_tables hinv.reached
    rw [ht] at hrecovers ⊢
    exact ⟨recovery.closing c, recovery.receipt_marked hrecovers.attempt hmarked,
      fun hcloses ↦ h.unknown_stores hmarked hrecovers hcloses⟩
  · intro c recovery hopen hnone hrecovers
    obtain ⟨t, x, ht, h⟩ := hopen.exists_tables hinv.reached
    rw [ht] at hrecovers ⊢
    exact ⟨recovery.closing c, recovery.receipt_unmarked hrecovers.attempt hnone,
      fun hcloses ↦ h.notDispatched_stores hnone hrecovers hcloses⟩
  · intro c recovery hopen hnone hgrant hattempt
    obtain ⟨t, x, ht, h⟩ := hopen.exists_tables hinv.reached
    rw [ht]
    exact h.unknown_missing hnone hgrant hattempt
  · intro c recovery hopen hmarked hgrant hattempt
    obtain ⟨t, x, ht, h⟩ := hopen.exists_tables hinv.reached
    rw [ht]
    exact h.notDispatched_unexpected hmarked hgrant hattempt
  · intro c handle evidence hopen htoken hgrant hcloses
    exact hinv.stores_of_handle hmarks hopen htoken hgrant hcloses
  · intro c claimed evidence hopen htoken hgrant hcloses
    exact hinv.stores_of_claimed hclaims hopen htoken hgrant hcloses

/-! ## The one way to close an attempt -/

/-- Every claims row without a receipt is an open attempt whose chain is stored, and an open
attempt is closed in one way by a recovery, and by its tokens. -/
structure ClosesOneWay (w : World) : Prop where
  opens : ∀ hash row, w.db.claimByGrantHash (Digest32.asStr hash) = some row →
    w.db.receiptByGrantHash hash.asStr = none → ∃ c, Open w.db c ∧ c.grantHash = hash ∧ c.row = row
  chained : ∀ c, Open w.db c →
    ∃ chain, loadChainByGrantHash w.db c.grantHash = .ok (some chain)
  marked : ∀ c, Open w.db c → c.dispatchStartedAtMs.isSome →
    (∀ recovery : UnknownRecovery,
      Recovers w.db c recovery.proposalHash recovery.grantHash recovery.attemptId →
      Closes w.db c (recovery.closing c) →
      Stores (EffectTransactionExecutor.recordRecoveredUnknown recovery) w.db
        (recovery.closing c)) ∧
    ∀ recovery : NotDispatchedRecovery,
      Recovers w.db c recovery.proposalHash recovery.grantHash recovery.attemptId →
      (EffectTransactionExecutor.recordRecoveredNotDispatched recovery).alone w.db =
        (.error .unexpectedDispatchMarker, w.db)
  unmarked : ∀ c, Open w.db c → c.dispatchStartedAtMs = none →
    (∀ recovery : NotDispatchedRecovery,
      Recovers w.db c recovery.proposalHash recovery.grantHash recovery.attemptId →
      Closes w.db c (recovery.closing c) →
      Stores (EffectTransactionExecutor.recordRecoveredNotDispatched recovery) w.db
        (recovery.closing c)) ∧
    ∀ recovery : UnknownRecovery,
      Recovers w.db c recovery.proposalHash recovery.grantHash recovery.attemptId →
      (EffectTransactionExecutor.recordRecoveredUnknown recovery).alone w.db =
        (.error .missingDispatchMarker, w.db)
  handle : ∀ c handle (evidence : DispatchedReceipt), Open w.db c → .handle handle ∈ w.tokens →
    handle.grantHash = c.grantHash → Closes w.db c (handle.receipt evidence) →
    Stores (EffectTransactionExecutor.recordDispatched handle evidence) w.db
      (handle.receipt evidence)
  claimed : ∀ c claimed (evidence : NotDispatchedReceipt), Open w.db c →
    .claimed claimed ∈ w.tokens → claimed.claim.grantHash = c.grantHash →
    Closes w.db c (claimed.receipt evidence) →
    Stores (EffectTransactionExecutor.recordNotDispatched claimed evidence) w.db
      (claimed.receipt evidence)

/-- **Every attempt can be closed, in one way.**  Wherever a run of the executors stands, the
marker of an open attempt decides which recovery stores a receipt for it, and the other one
names the marker in its error. -/
theorem attempts_close (actions : List Action) : (run actions).ClosesOneWay := by
  obtain ⟨hinv, hclaims, hmarks⟩ := run_claims actions
  constructor
  · intro hash row hrow hnone
    exact exists_open hinv.reached hrow hnone
  · intro c hopen
    exact hopen.exists_chain hinv.reached
  · intro c hopen hmarked
    obtain ⟨t, x, ht, h⟩ := hopen.exists_tables hinv.reached
    rw [ht]
    constructor
    · intro recovery hrecovers hcloses
      exact h.unknown_stores hmarked hrecovers hcloses
    · intro recovery hrecovers
      exact h.notDispatched_unexpected hmarked hrecovers.grant hrecovers.attempt
  · intro c hopen hnone
    obtain ⟨t, x, ht, h⟩ := hopen.exists_tables hinv.reached
    rw [ht]
    constructor
    · intro recovery hrecovers hcloses
      exact h.notDispatched_stores hnone hrecovers hcloses
    · intro recovery hrecovers
      exact h.unknown_missing hnone hrecovers.grant hrecovers.attempt
  · intro c handle evidence hopen htoken hgrant hcloses
    exact hinv.stores_of_handle hmarks hopen htoken hgrant hcloses
  · intro c claimed evidence hopen htoken hgrant hcloses
    exact hinv.stores_of_claimed hclaims hopen htoken hgrant hcloses

end World

end Etp.Executor
