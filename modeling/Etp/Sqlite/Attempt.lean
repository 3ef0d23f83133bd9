import Etp.Core.Vectors
import Etp.Sqlite.Invariant

/-!
# One attempt, from registration to receipt

The invariant says what the store never does.  Here is what it does do: a chain
and a snapshot that fit each other can be registered and claimed, the claim can
be marked, and a matching receipt is taken before or after the marker.  `Attempt`
holds data that fit; each stage of its tables is given, with the call that leads
to it.

The last section is the attempt of the positive vector.
-/

namespace Etp.Sqlite

open Etp.Core SqliteEffectStore

section Attempt

variable [Sha256]

theorem registerChain_of_fresh {t : Tables} {x : RegisteredChain} (hfresh : t.Fresh x) :
    registerChain x.commitment x.proposal x.decision x.grant t.encode =
      (.ok x.grantHash, (t.addChain x).encode) :=
  transaction_ok (registerChainTx_encode.mpr ⟨x, ⟨rfl, rfl, rfl, rfl⟩, rfl, .inr ⟨hfresh, rfl⟩⟩)

/-- A chain, a snapshot and a claim request that fit each other. -/
structure Attempt where
  chain : RegisteredChain
  snapshot : CurrentnessSnapshot
  request : ClaimRequest
  snapshot_valid : ValidSnapshot snapshot
  request_valid : ValidRequest request
  key : request.currentnessKey = snapshot.key
  version : snapshot.version = request.expectedSnapshotVersion
  audience : request.expectedAudience = chain.grant.audience
  current : Current snapshot chain

namespace Attempt

variable (a : Attempt) {now dispatched : Nat}

/-! ## Registered -/

/-- The tables with the chain and the snapshot. -/
def prepared : Tables := (Tables.empty.addChain a.chain).putSnapshot ⟨a.snapshot, a.snapshot_valid⟩

def setup : List Call :=
  [.registerChain a.chain.commitment a.chain.proposal a.chain.decision a.chain.grant,
    .putCurrentness a.snapshot]

theorem fresh : Tables.empty.Fresh a.chain := ⟨by simp [Tables.empty], by simp [Tables.empty],
  by simp [Tables.empty], by simp [Tables.empty]⟩

theorem run_setup : run a.setup = a.prepared.encode := by
  have hregister := registerChain_of_fresh a.fresh
  have hput : putCurrentness a.snapshot (Tables.empty.addChain a.chain).encode =
      (.ok (), a.prepared.encode) :=
    transaction_ok (putCurrentnessTx_encode.mpr
      ⟨a.snapshot_valid, .inr ⟨by rintro _ ⟨⟩, rfl⟩⟩)
  simp only [run, setup, Machine.run_cons, Machine.run_nil, step, ← Tables.encode_empty, hregister,
    hput]

theorem prepared_wellFormed : WellFormed a.prepared :=
  (WellFormed.empty.addChain a.fresh).putSnapshot _

theorem chain_prepared : a.prepared.chain a.chain.grantHash = some a.chain := by
  have := Tables.chain_addChain a.fresh a.chain.grantHash
  rwa [if_pos rfl] at this

theorem snapshot_prepared : a.prepared.snapshot a.request.currentnessKey = some a.snapshot := by
  rw [a.key, prepared, Tables.snapshot_putSnapshot, if_pos rfl]

theorem checks (hle : now ≤ maxSafeInteger)
    (hrecent : Recent a.snapshot now a.request.maximumSnapshotAgeMs) :
    ClaimChecks a.prepared a.chain a.request now a.snapshot where
  valid := a.request_valid
  now_le := hle
  chain := (a.prepared_wellFormed.chainById_of_chain a.chain_prepared).2
  time := by rintro _ ⟨⟩
  snapshot := a.snapshot_prepared
  recent := hrecent
  version := a.version
  audience := a.audience
  current := a.current

/-! ## Claimed -/

/-- The moments at which the attempt can claim the grant. -/
structure ClaimableAt (now : Nat) : Prop where
  le : now ≤ maxSafeInteger
  recent : Recent a.snapshot now a.request.maximumSnapshotAgeMs
  not_before_le : a.chain.grant.notBeforeMs ≤ now
  lt_expires : now < a.chain.grant.expiresAtMs

variable {a}

theorem ClaimableAt.guards (h : a.ClaimableAt now) :
    ClaimGuards a.prepared a.chain a.request now a.snapshot :=
  { a.checks h.le h.recent with not_before_le := h.not_before_le, lt_expires := h.lt_expires }

/-- The tables with the claim. -/
def ClaimableAt.claimed (h : a.ClaimableAt now) : Tables :=
  (a.prepared.setTime now).addClaim ⟨_, h.guards.newClaim_valid⟩

theorem free (a : Attempt) (now : Nat) :
    Tables.Claimable (newClaim a.chain a.request now) a.prepared where
  chain := by
    have := a.chain_prepared
    simp only [newClaim, this, Option.isSome_some]
  snapshot := by
    have := a.snapshot_prepared
    simp only [newClaim, this, Option.isSome_some]
  grant := rfl
  attempt := by
    intro q hq
    cases hq

theorem claim_prepared (h : a.ClaimableAt now) :
    SqliteEffectStore.claim a.chain.grant a.request now a.prepared.encode =
      (.ok (newClaim a.chain a.request now), h.claimed.encode) :=
  transaction_ok (claimTx_encode.mpr ⟨a.chain, a.snapshot, rfl, rfl, h.guards, (a.free now), rfl⟩)

def claimCall (a : Attempt) (now : Nat) : Call := .claim a.chain.grant a.request now

theorem ClaimableAt.run_claimed (h : a.ClaimableAt now) :
    run (a.setup ++ [a.claimCall now]) = h.claimed.encode := by
  have hsetup := a.run_setup
  rw [run] at hsetup
  rw [run, Machine.run_concat, hsetup]
  simp only [claimCall, step, claim_prepared h]

theorem ClaimableAt.wellFormed (h : a.ClaimableAt now) : WellFormed h.claimed :=
  a.prepared_wellFormed.change (.claimed h.guards (a.free now))

theorem ClaimableAt.claim_claimed (h : a.ClaimableAt now) :
    h.claimed.claim a.chain.grantHash = some (newClaim a.chain a.request now) := by
  have := Tables.claim_addClaim (t := a.prepared.setTime now)
    (c := ⟨_, h.guards.newClaim_valid⟩) (Tables.claimable_setTime.mpr (a.free now))
    a.chain.grantHash
  exact this.trans (if_pos rfl)

/-! ## Marked -/

/-- The moments at which the claim can be marked. -/
structure MarkableAt (a : Attempt) (now dispatched : Nat) : Prop where
  le : dispatched ≤ maxSafeInteger
  recent : Recent a.snapshot dispatched a.request.maximumSnapshotAgeMs
  claimed_le : now ≤ dispatched
  lt_expires : dispatched < a.chain.grant.expiresAtMs

/-- The marker passes its checks on any tables that hold the chain, the snapshot and the
time of the claim. -/
theorem MarkableAt.guards (hm : a.MarkableAt now dispatched) {t : Tables}
    (htime : t.lastTrustedTimeMs = some now) (hchain : t.chains = a.prepared.chains)
    (hsnapshot : t.currentness = a.prepared.currentness) :
    MarkGuards t (newClaim a.chain a.request now) a.chain dispatched a.snapshot where
  time last hlast := by
    rw [htime] at hlast
    cases hlast
    exact hm.claimed_le
  chain := by
    rw [Tables.chain, hchain]
    exact a.chain_prepared
  lt_expires := hm.lt_expires
  snapshot := by
    rw [Tables.snapshot, hsnapshot]
    exact a.snapshot_prepared
  recent := hm.recent
  version := a.version
  current := a.current

theorem mark_of_claim (hm : a.MarkableAt now dispatched) {t : Tables} (hw : WellFormed t)
    (hc : t.claim a.chain.grantHash = some (newClaim a.chain a.request now))
    (htime : t.lastTrustedTimeMs = some now) (hchain : t.chains = a.prepared.chains)
    (hsnapshot : t.currentness = a.prepared.currentness) :
    markDispatchStarted a.chain.grantHash a.request.attemptId dispatched t.encode =
      (.ok ⟨a.chain.grantHash, a.request.attemptId, dispatched⟩,
        ((t.setTime dispatched).mark a.chain.grantHash a.request.attemptId dispatched).encode) :=
  transaction_ok ((markDispatchStartedTx_encode hw.claim_grants).mpr
    ⟨a.request_valid.attempt, hm.le, _, hc, rfl, hm.claimed_le, rfl,
      .inr ⟨rfl, ⟨_, _, hm.guards htime hchain hsnapshot⟩, rfl⟩⟩)

variable (h : a.ClaimableAt now)

/-- The tables with the claim and its marker. -/
def ClaimableAt.marked (dispatched : Nat) : Tables :=
  (h.claimed.setTime dispatched).mark a.chain.grantHash a.request.attemptId dispatched

theorem mark_claimed (hm : a.MarkableAt now dispatched) :
    markDispatchStarted a.chain.grantHash a.request.attemptId dispatched h.claimed.encode =
      (.ok ⟨a.chain.grantHash, a.request.attemptId, dispatched⟩, (h.marked dispatched).encode) :=
  mark_of_claim hm h.wellFormed h.claim_claimed rfl rfl rfl

def markCall (a : Attempt) (dispatched : Nat) : Call :=
  .markDispatchStarted a.chain.grantHash a.request.attemptId dispatched

theorem MarkableAt.run_marked (hm : a.MarkableAt now dispatched) :
    run (a.setup ++ [a.claimCall now] ++ [a.markCall dispatched]) =
      (h.marked dispatched).encode := by
  have hclaimed := h.run_claimed
  rw [run] at hclaimed
  rw [run, Machine.run_concat, hclaimed]
  simp only [markCall, step, mark_claimed h hm]

theorem MarkableAt.claim_marked (hm : a.MarkableAt now dispatched) :
    (h.marked dispatched).claim a.chain.grantHash =
      some { newClaim a.chain a.request now with dispatchStartedAtMs := some dispatched } := by
  have := Tables.claim_mark (t := h.claimed.setTime dispatched)
    (c := newClaim a.chain a.request now) h.claim_claimed rfl rfl hm.claimed_le hm.le
    a.chain.grantHash
  exact this.trans (if_pos rfl)

end Attempt

/-! ## Received -/

theorem recordReceipt_of_guards {t : Tables} {r : EffectReceipt} {x : RegisteredChain}
    {c : DurableClaim} (g : ReceiptGuards t r x c) (hfree : Tables.Receivable r t) :
    recordReceipt r t.encode =
      (.ok (recordHash r), (t.addReceipt ⟨r, g.receiptFor.receipt_valid⟩).encode) :=
  transaction_ok (recordReceiptTx_encode.mpr ⟨rfl, x, c, g, .inr ⟨hfree, rfl⟩⟩)

theorem run_received {calls : List Call} {t : Tables} {r : EffectReceipt} {x : RegisteredChain}
    {c : DurableClaim} (hrun : run calls = t.encode) (g : ReceiptGuards t r x c)
    (hfree : Tables.Receivable r t) :
    run (calls ++ [.recordReceipt r]) =
      (t.addReceipt ⟨r, g.receiptFor.receipt_valid⟩).encode := by
  rw [run] at hrun
  rw [run, Machine.run_concat, hrun]
  simp only [step, recordReceipt_of_guards g hfree]

end Attempt

/-! ## The attempt of the positive vector -/

section Positive

open Vectors

/-- The currentness row that the vector's executor is given. -/
def positiveSnapshot : CurrentnessSnapshot where
  key := "deployments"
  version := 1
  policyEpoch := 7
  configurationEpoch := 12
  preStateDigest := positiveProposal.preStateDigest
  resourceClaimDigest := positiveProposal.resourceClaimDigest
  revoked := false
  observedAtMs := 1760000003000

def positiveRequest : ClaimRequest where
  attemptId := "attempt-01"
  expectedAudience := "executor:edge-01"
  currentnessKey := "deployments"
  expectedSnapshotVersion := 1
  maximumSnapshotAgeMs := 300000

def positiveAttempt : Attempt where
  chain := ⟨positiveCommitment, positiveProposal, positiveDecision, positiveGrant,
    positiveGrant_chain⟩
  snapshot := positiveSnapshot
  request := positiveRequest
  snapshot_valid := validateSnapshot_eq_ok.mp (by rfl)
  request_valid := validateClaimRequest_eq_ok.mp (by rfl)
  key := rfl
  version := rfl
  audience := rfl
  current := ⟨rfl, rfl, rfl, rfl, rfl⟩

theorem positive_claimable : positiveAttempt.ClaimableAt 1760000004000 :=
  ⟨by decide, ⟨by decide, by decide⟩, by decide, by decide⟩

theorem positive_markable : positiveAttempt.MarkableAt 1760000004000 1760000004100 :=
  ⟨by decide, ⟨by decide, by decide⟩, by decide, by decide⟩

/-- The tables with the marked claim. -/
def positiveMarked : Tables := positive_claimable.marked 1760000004100

theorem positiveReceipt_guards : ReceiptGuards positiveMarked positiveReceipt positiveAttempt.chain
    { newClaim positiveAttempt.chain positiveRequest 1760000004000 with
      dispatchStartedAtMs := some 1760000004100 } where
  chain := by
    rw [positiveReceipt_for.receipt_grant_hash]
    exact positiveAttempt.chain_prepared
  receiptFor := positiveReceipt_for
  claim := by
    rw [positiveReceipt_for.receipt_grant_hash]
    exact positive_markable.claim_marked positive_claimable
  attempt := rfl
  claimed := rfl
  evidence := (evidence_iff positiveReceipt_valid).mpr rfl

theorem positiveReceipt_receivable : Tables.Receivable positiveReceipt positiveMarked where
  claim := by
    rw [positiveReceipt_guards.claim]
    rfl
  grant := rfl
  id := by
    intro q hq
    cases hq
  hash := by
    intro q hq
    cases hq

/-- The tables with the receipt. -/
def positiveReceived : Tables := positiveMarked.addReceipt ⟨positiveReceipt, positiveReceipt_valid⟩

theorem receipt_positiveReceived :
    positiveReceived.receipt positiveAttempt.chain.grantHash = some positiveReceipt := by
  have := Tables.receipt_addReceipt (r := ⟨positiveReceipt, positiveReceipt_valid⟩)
    positiveReceipt_receivable positiveAttempt.chain.grantHash
  exact this.trans (if_pos positiveReceipt_for.receipt_grant_hash)

/-- The calls of the vector's attempt, up to its receipt. -/
def positiveCalls : List Call :=
  positiveAttempt.setup ++ [positiveAttempt.claimCall 1760000004000] ++
    [positiveAttempt.markCall 1760000004100] ++ [.recordReceipt positiveReceipt]

theorem run_positiveCalls : run positiveCalls = positiveReceived.encode :=
  run_received (positive_markable.run_marked positive_claimable) positiveReceipt_guards
    positiveReceipt_receivable

end Positive

end Etp.Sqlite
