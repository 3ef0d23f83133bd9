import Etp.Executor.Claims

/-!
# What stands behind a dispatch

When `dispatch_with` passes an effect to an adapter, the guarantees about it come
from checks that four different calls made at different times: `PreparedEffect::new`,
the two authority checks, the claim and the marker.  `Trail` is the history of one
attempt, as the log of the run has it, and `Sound` what holds of it in the world in
which the adapter is invoked.  `dispatches_backed` adds that the claim of the trail is
the claims row of the grant in every column.

The data do not change in between, because the chain of a grant and the claim up to
its marker stay in the tables, and because the bytes of the assertion decide the
statement.
-/

namespace Etp.Executor

open Etp.Core Etp.Authority Etp.Sqlite

variable [Sha256]

/-- The history of an attempt up to its capability. -/
structure Trail where
  /-- The call of `authorize_and_claim`, and the database before and after its claim. -/
  claiming : EffectTransactionExecutor
  claimSnapshot : AuthoritySnapshot
  currentness : CurrentnessSnapshot
  attemptId : String
  beforeClaim : Db
  afterClaim : Db
  claimed : ClaimedEffect
  /-- The call of `begin_dispatch`, and the database before and after the marker. -/
  dispatching : EffectTransactionExecutor
  dispatchSnapshot : AuthoritySnapshot
  beforeMarker : Db
  afterMarker : Db
  dispatchedAtMs : Nat

namespace Trail

variable (τ : Trail)

def claimedAtMs : Nat := τ.claimed.claim.claimedAtMs

def prepared : PreparedEffect := τ.claimed.prepared

def capability : DispatchCapability := ⟨τ.claimed.prepared, τ.claimed.claim, τ.dispatchedAtMs⟩

/-- The claim with the marker of the attempt. -/
def markedClaim : DurableClaim :=
  { τ.claimed.claim with dispatchStartedAtMs := some τ.dispatchedAtMs }

def claimCompletion : Completion where
  executor := τ.claiming
  operation := .authorizeAndClaim τ.prepared τ.claimed.signedAuthority τ.claimSnapshot
    τ.currentness τ.attemptId τ.claimedAtMs
  before := τ.beforeClaim
  after := τ.afterClaim
  answer := .claimed τ.claimed

def dispatchCompletion : Completion where
  executor := τ.dispatching
  operation := .beginDispatch τ.claimed τ.dispatchSnapshot τ.dispatchedAtMs
  before := τ.beforeMarker
  after := τ.afterMarker
  answer := .capability τ.capability

variable [Ed25519] [Coset]

/-- What holds of an effect that is passed to an adapter in the world `w`. -/
structure Sound (w : World) (exact : ExactEffect) : Prop where
  /-- The two calls are in the past of the run. -/
  claim_logged : τ.claimCompletion ∈ w.log
  dispatch_logged : τ.dispatchCompletion ∈ w.log
  /-- The records verify, and the effect is the one they authorise. -/
  chain : verifyGrant τ.prepared.commitment τ.prepared.proposal τ.prepared.decision
    τ.prepared.grant = .ok τ.prepared.grantHash
  effectProfile : exact.effectProfile = τ.prepared.proposal.effectProfile
  operation : exact.operation = τ.prepared.proposal.operation
  target : exact.target = τ.prepared.proposal.target
  documented : Documented exact.documents τ.prepared.proposal
  claiming_audience : τ.prepared.grant.audience = τ.claiming.policy.audience
  dispatching_audience : τ.prepared.grant.audience = τ.dispatching.policy.audience
  /-- The claim is in the database, marked, and both were in the window of the grant. -/
  claim : ∃ row, w.db.claimByGrantHash τ.prepared.grantHash.asStr = some row ∧
    row.attemptId = τ.claimed.claim.attemptId ∧ row.claimedAtMs = τ.claimedAtMs ∧
      row.dispatchStartedAtMs = some (τ.dispatchedAtMs : Int)
  not_before_le : τ.prepared.grant.notBeforeMs ≤ τ.claimedAtMs
  claimed_le : τ.claimedAtMs ≤ τ.dispatchedAtMs
  lt_expires : τ.dispatchedAtMs < τ.prepared.grant.expiresAtMs
  /-- The same bytes verified for this grant at both times, with the same statement and key. -/
  authority : ∃ v v', verifyAuthority τ.claimed.signedAuthority τ.claimSnapshot
      (τ.claiming.verificationContext τ.prepared τ.claimedAtMs) = .ok v ∧
    verifyAuthority τ.claimed.signedAuthority τ.dispatchSnapshot
      (τ.dispatching.verificationContext τ.prepared τ.dispatchedAtMs) = .ok v' ∧
    v'.statement = v.statement ∧ v'.verifyingKeyDigest = v.verifyingKeyDigest ∧
    v.statement.recordDigest = τ.prepared.grantHash ∧
    v.statement.audience = τ.prepared.grant.audience ∧
    v.statement.role = τ.claiming.policy.authorityRole ∧
    v.statement.role = τ.dispatching.policy.authorityRole
  /-- The call of `begin_dispatch` wrote the marker. -/
  unmarked : ∃ row, τ.beforeMarker.claimByGrantHash τ.prepared.grantHash.asStr = some row ∧
    row.dispatchStartedAtMs = none
  marked : ∃ row, τ.afterMarker.claimByGrantHash τ.prepared.grantHash.asStr = some row ∧
    row.dispatchStartedAtMs = some (τ.dispatchedAtMs : Int)
  /-- What the currentness row that the claim names said when the marker was written. -/
  currentness : ∃ s, loadCurrentness τ.beforeMarker τ.claimed.claim.currentnessKey = .ok (some s) ∧
    s.policyEpoch = τ.prepared.commitment.policyEpoch ∧
    s.configurationEpoch = τ.prepared.commitment.configurationEpoch ∧
    s.preStateDigest = τ.prepared.proposal.preStateDigest ∧
    s.resourceClaimDigest = τ.prepared.proposal.resourceClaimDigest ∧ s.revoked = false ∧
    s.version = τ.claimed.claim.snapshotVersion ∧
    Recent s τ.dispatchedAtMs τ.claimed.claim.maximumSnapshotAgeMs

end Trail

/-- The action passes the effect to an adapter. -/
def World.Invokes (w : World) (a : Action) (exact : ExactEffect) : Prop :=
  ∃ e capability, a = .start e (.dispatchWith capability) ∧ .capability capability ∈ w.tokens ∧
    exact = capability.split.1

/-! ## The two checks of the executor -/

section Checks

variable [Ed25519] [Coset] {e : EffectTransactionExecutor}

theorem of_checkAuthorization {prepared : PreparedEffect} {signed : List UInt8}
    {snapshot : AuthoritySnapshot} {currentness : CurrentnessSnapshot} {now : Nat}
    {verified : VerifiedAuthority}
    (h : e.checkAuthorization prepared signed snapshot currentness now = .ok verified) :
    prepared.grant.audience = e.policy.audience ∧
      verifyAuthority signed snapshot (e.verificationContext prepared now) = .ok verified := by
  simp only [EffectTransactionExecutor.checkAuthorization, bind_eq_ok, rejectIf_eq_ok,
    mapError_eq_ok, exists_const, not_not] at h
  obtain ⟨_, -, haudience, -, -, -, hverify⟩ := h
  exact ⟨haudience, hverify⟩

theorem of_checkDispatch {claimed : ClaimedEffect} {snapshot : AuthoritySnapshot} {now : Nat}
    (h : e.checkDispatch claimed snapshot now = .ok ()) : ∃ verified,
      verifyAuthority claimed.signedAuthority snapshot
        (e.verificationContext claimed.prepared now) = .ok verified ∧
      sameAuthorityIdentity claimed.authority (.ofVerified verified) := by
  simp only [EffectTransactionExecutor.checkDispatch, bind_eq_ok, rejectIf_eq_ok, mapError_eq_ok,
    exists_const, not_not] at h
  obtain ⟨-, verified, hverify, hsame⟩ := h
  exact ⟨verified, hverify, hsame⟩

/-- What an authority check of the executor binds. -/
theorem bindings_of_verified {signed : List UInt8} {snapshot : AuthoritySnapshot}
    {prepared : PreparedEffect} {now : Nat} {v : VerifiedAuthority}
    (h : verifyAuthority signed snapshot (e.verificationContext prepared now) = .ok v) :
    v.statement.recordDigest = prepared.grantHash ∧
      v.statement.role = e.policy.authorityRole ∧ v.statement.audience = e.policy.audience := by
  have hbindings := (accepts_of_verifyAuthority h).bindings
  exact ⟨hbindings.recordDigest, hbindings.role, hbindings.audience⟩

end Checks

omit [Sha256] in
/-- Two claims without a marker from which the same claim came are the same. -/
theorem claimKept_eq {a b c : DurableClaim} (ha : ClaimKept a c) (hb : ClaimKept b c)
    (hna : a.dispatchStartedAtMs = none) (hnb : b.dispatchStartedAtMs = none) : a = b := by
  rcases ha with rfl | ⟨-, d, rfl⟩
  · exact hb.eq_of_unmarked hna
  · rcases hb with hb | ⟨-, d', hb⟩
    · rw [← hb] at hnb
      cases hnb
    · cases a
      cases b
      simp only [DurableClaim.mk.injEq] at hb hna hnb ⊢
      obtain ⟨h₁, h₂, h₃, h₄, h₅, h₆, -⟩ := hb
      exact ⟨h₁, h₂, h₃, h₄, h₅, h₆, hna.trans hnb.symm⟩

/-! ## The trail of a capability -/

namespace World

variable [Ed25519] [Coset] {w : World}

theorem Inv.capability_of_issued (h : Inv w) {capability : DispatchCapability}
    (hc : .capability capability ∈ w.issued) : ∃ x ∈ w.log, x.answer = .capability capability ∧
      Contract x.executor x.operation x.before x.after (some (.ok (.capability capability))) := by
  obtain ⟨x, hx, htoken⟩ := List.mem_filterMap.mp hc
  have hanswer : x.answer = .capability capability := by
    cases ha : x.answer <;> rw [ha] at htoken <;> cases htoken
    rfl
  cases h.kept x hx with
  | contract hcontract => exact ⟨x, hx, hanswer, by rwa [hanswer] at hcontract⟩
  | dispatch _ _ hdispatch _ =>
      rw [hanswer] at hdispatch
      cases hdispatch

/-- The call that returned a claim token, and the claim it returned. -/
theorem Inv.claiming (h : Inv w) {claimed : ClaimedEffect} (hc : .claimed claimed ∈ w.issued) :
    ∃ (e : EffectTransactionExecutor) (snapshot : AuthoritySnapshot)
      (currentness : CurrentnessSnapshot) (attemptId : String) (before after : Db)
      (verified : VerifiedAuthority),
      (⟨e, .authorizeAndClaim claimed.prepared claimed.signedAuthority snapshot currentness
        attemptId claimed.claim.claimedAtMs, before, after, .claimed claimed⟩ : Completion) ∈
          w.log ∧
      e.checkAuthorization claimed.prepared claimed.signedAuthority snapshot currentness
        claimed.claim.claimedAtMs = .ok verified ∧
      claimed.authority = .ofVerified verified ∧
      claimed.claim.grantHash = claimed.prepared.grantHash ∧
      claimed.claim.dispatchStartedAtMs = none := by
  obtain ⟨⟨e, op, before, after, answer⟩, hx, hanswer, hcontract⟩ := h.claimed_of_issued hc
  obtain ⟨snapshot, currentness, attemptId, now, verified, hop, hcheck, hevidence, hregistered,
    hclaim⟩ := hcontract.of_claimed
  obtain ⟨t, -, ht⟩ := (h.before _ hx).exists_tables
  rw [ht] at hregistered hclaim
  obtain ⟨-, -, -, hnew, -, -⟩ := claim_encode hregistered hclaim
  have hnow : claimed.claim.claimedAtMs = now := by
    rw [hnew]
    rfl
  dsimp only at hop hanswer hcheck
  rw [hnow]
  refine ⟨e, snapshot, currentness, attemptId, before, after, verified, ?_, hcheck, hevidence,
    ?_, ?_⟩
  · rw [← hop, ← hanswer]
    exact hx
  · rw [hnew, claimed.prepared.grantHash_eq]
    rfl
  · rw [hnew]
    rfl

/-- The call that returned a capability. -/
theorem Inv.dispatching (h : Inv w) {capability : DispatchCapability}
    (hc : .capability capability ∈ w.issued) :
    ∃ (e : EffectTransactionExecutor) (claimed : ClaimedEffect) (snapshot : AuthoritySnapshot)
      (before after : Db) (marker : DispatchMarker),
      (⟨e, .beginDispatch claimed snapshot capability.dispatchedAtMs, before, after,
        .capability capability⟩ : Completion) ∈ w.log ∧
      e.checkDispatch claimed snapshot capability.dispatchedAtMs = .ok () ∧
      capability.prepared = claimed.prepared ∧ capability.claim = claimed.claim ∧
      .claimed claimed ∈ w.issued ∧
      SqliteEffectStore.markDispatchStarted claimed.claim.grantHash claimed.claim.attemptId
        capability.dispatchedAtMs before = (.ok marker, after) := by
  obtain ⟨⟨e, op, before, after, answer⟩, hy, hanswer, hcontract⟩ := h.capability_of_issued hc
  obtain ⟨claimed, snapshot, d, marker, hop, hcheck, hmark, rfl⟩ := hcontract.of_capability
  have hspent : .claimed claimed ∈ w.spent := List.mem_filterMap.mpr ⟨_, hy, by rw [hop]; rfl⟩
  obtain ⟨t, ht, hbefore⟩ := (h.before _ hy).exists_tables
  have hd : marker.dispatchedAtMs = d := by
    rw [hbefore] at hmark
    exact (mark_encode ht hmark).1
  dsimp only at hop hanswer hcheck hmark
  refine ⟨e, claimed, snapshot, before, after, marker, ?_, ?_, rfl, rfl,
    h.issued_of_spent hspent, ?_⟩
  · rw [hop, hanswer, ← hd] at hy
    exact hy
  · rw [hd]
    exact hcheck
  · rw [hd]
    exact hmark

/-- What the tables say of an attempt that has a capability, when its marker was written
and now. -/
structure Marked (w : World) (before after : Db) (claimed : ClaimedEffect) (d : Nat) (u t : Tables)
    (s : CurrentnessSnapshot) : Prop where
  before_eq : before = u.encode
  after_eq : after = ((u.setTime d).mark claimed.claim.grantHash claimed.claim.attemptId d).encode
  now_eq : w.db = t.encode
  unmarked : u.claim claimed.claim.grantHash = some claimed.claim
  guards : MarkGuards u claimed.claim claimed.prepared.registered d s
  written : ((u.setTime d).mark claimed.claim.grantHash claimed.claim.attemptId d).claim
    claimed.claim.grantHash = some { claimed.claim with dispatchStartedAtMs := some d }
  marked : t.claim claimed.claim.grantHash =
    some { claimed.claim with dispatchStartedAtMs := some d }
  window : ClaimedFor claimed.prepared.registered
    { claimed.claim with dispatchStartedAtMs := some d }

theorem exists_marked (hinv : Inv w) (hmarks : Marks w) {y : Completion}
    {capability : DispatchCapability} (hy : y ∈ w.log) (hanswer : y.answer = .capability capability)
    {claimed : ClaimedEffect} {d : Nat} {marker : DispatchMarker}
    (hclaim : capability.claim = claimed.claim) (hissued : .claimed claimed ∈ w.issued)
    (hmark : SqliteEffectStore.markDispatchStarted claimed.claim.grantHash claimed.claim.attemptId d
      y.before = (.ok marker, y.after)) :
    ∃ u t s, Marked w y.before y.after claimed d u t s := by
  obtain ⟨u, hu, hbefore⟩ := (hinv.before y hy).exists_tables
  obtain ⟨t, ht, hdb⟩ := hinv.reached.exists_tables
  have hlater := hinv.later y hy
  have hsince : Precedes y.before w.db := by
    have hstep := Precedes.step (hinv.before y hy)
      (.markDispatchStarted claimed.claim.grantHash claimed.claim.attemptId d)
    simp only [SqliteEffectStore.step, hmark] at hstep
    exact hstep.trans hlater
  rw [hbefore] at hmark
  rw [hbefore, hdb] at hsince
  obtain ⟨hchain, q, hq, hq'⟩ := hinv.stored_of_issued hdb hissued
  obtain ⟨-, -, -, -, -, -, -, -, -, -, -, hunmarked⟩ := hinv.claiming hissued
  obtain ⟨-, c, hc, -, hle, hmax, hcases⟩ := mark_encode hu hmark
  have hnone : c.dispatchStartedAtMs = none :=
    hmarks y hy _ hanswer u hbefore c (by rw [hclaim]; exact hc)
  rcases hcases with ⟨hsome, -⟩ | ⟨-, ⟨x, s, hguards⟩, hafter⟩
  · rw [hnone] at hsome
    cases hsome
  -- The claim that was marked is the one that the token carries.
  have hcq : c = claimed.claim := by
    obtain ⟨-, -, hkept⟩ := hsince.kept_encode
    obtain ⟨q', hq₁, hq₂⟩ := hkept.claim hc
    rw [hq, Option.some.injEq] at hq₁
    subst hq₁
    exact claimKept_eq hq₂ hq' hnone hunmarked
  subst hcq
  have hx : x = claimed.prepared.registered := by
    obtain ⟨-, -, hkept⟩ := hsince.kept_encode
    have hx' := hkept.chain hguards.chain
    rw [hchain, Option.some.injEq] at hx'
    exact hx'.symm
  subst hx
  -- The marker that was written is the one that is there now.
  have hwritten := Tables.claim_mark (t := u.setTime d) hc rfl hnone hle hmax
    claimed.claim.grantHash
  rw [if_pos rfl] at hwritten
  rw [hafter, hdb] at hlater
  obtain ⟨-, -, hkept⟩ := hlater.kept_encode
  obtain ⟨q', hq₁, hq₂⟩ := hkept.claim hwritten
  have hq₃ : q' = { claimed.claim with dispatchStartedAtMs := some d } :=
    hq₂.eq_of_marked (by simp)
  subst hq₃
  obtain ⟨x, hx, hwindow⟩ := ht.claimed _ _ hq₁
  rw [hchain, Option.some.injEq] at hx
  subst hx
  exact ⟨u, t, s, hbefore, hafter, hdb, hc, hguards, hwritten, hq₁, hwindow⟩

/-- A capability has a trail, and the claims row of its grant is the marked claim. -/
theorem exists_trail (hinv : Inv w) (hmarks : Marks w) {capability : DispatchCapability}
    (hc : .capability capability ∈ w.issued) : ∃ τ : Trail, τ.Sound w capability.split.1 ∧
      w.db.claimByGrantHash τ.prepared.grantHash.asStr = some τ.markedClaim.row := by
  obtain ⟨e', claimed, snapshot', before', after', marker, hy, hdispatch, hprepared, hclaim,
    hissued, hmark⟩ := hinv.dispatching hc
  obtain ⟨e, snapshot, currentness, attemptId, before, after, verified, hx, hcheck, hevidence,
    hhash, hnone⟩ := hinv.claiming hissued
  obtain ⟨u, t, s, hm⟩ := exists_marked hinv hmarks hy rfl hclaim hissued hmark
  obtain ⟨prepared, claim, d⟩ := capability
  dsimp only at hprepared hclaim hy hdispatch hmark hm
  subst hprepared
  subst hclaim
  -- The two checks of the authority.
  obtain ⟨haudience, hverify⟩ := of_checkAuthorization hcheck
  obtain ⟨verified', hverify', hsame⟩ := of_checkDispatch hdispatch
  obtain ⟨hdigest, hrole, hstatement⟩ := bindings_of_verified hverify
  obtain ⟨-, hrole', hstatement'⟩ := bindings_of_verified hverify'
  have hverified : verified'.statement = verified.statement :=
    statement_eq_of_same_bytes hverify hverify'
  rw [hverified] at hrole' hstatement'
  rw [hevidence] at hsame
  -- The claim, when the marker was written and now.
  have hafter : after'.claimByGrantHash claimed.claim.grantHash.asStr =
      some ({ claimed.claim with dispatchStartedAtMs := some d } : DurableClaim).row := by
    rw [hm.after_eq]
    exact (Tables.claimByGrantHash_eq_some _).mpr ⟨_, hm.written, rfl⟩
  have hbefore : before'.claimByGrantHash claimed.claim.grantHash.asStr =
      some claimed.claim.row := by
    rw [hm.before_eq]
    exact (Tables.claimByGrantHash_eq_some _).mpr ⟨_, hm.unmarked, rfl⟩
  have hnow : w.db.claimByGrantHash claimed.claim.grantHash.asStr =
      some ({ claimed.claim with dispatchStartedAtMs := some d } : DurableClaim).row := by
    rw [hm.now_eq]
    exact (Tables.claimByGrantHash_eq_some _).mpr ⟨_, hm.marked, rfl⟩
  rw [hhash] at hafter hbefore hnow
  refine ⟨{
    claiming := e
    claimSnapshot := snapshot
    currentness
    attemptId
    beforeClaim := before
    afterClaim := after
    claimed
    dispatching := e'
    dispatchSnapshot := snapshot'
    beforeMarker := before'
    afterMarker := after'
    dispatchedAtMs := d }, ?_, hnow⟩
  exact {
    claim_logged := hx
    dispatch_logged := hy
    chain := verifyGrant_eq_ok.mpr ⟨claimed.prepared.chain, claimed.prepared.grantHash_eq⟩
    effectProfile := rfl
    operation := rfl
    target := rfl
    documented := claimed.prepared.documented
    claiming_audience := haudience
    dispatching_audience := haudience.trans (hstatement.symm.trans hstatement')
    claim := ⟨_, hnow, rfl, rfl, rfl⟩
    not_before_le := hm.window.not_before_le
    claimed_le := (hm.window.marked d rfl).1
    lt_expires := (hm.window.marked d rfl).2
    authority := ⟨verified, verified', hverify, hverify', hverified, hsame.2.2.2.2.2.symm, hdigest,
      hstatement.trans haudience.symm, hrole, hrole'⟩
    unmarked := ⟨_, hbefore, by rw [DurableClaim.row, hnone]; rfl⟩
    marked := ⟨_, hafter, rfl⟩
    currentness := by
      have hcurrent := hm.guards.current
      refine ⟨s, ?_, hcurrent.policy, hcurrent.configuration, hcurrent.pre_state,
        hcurrent.resource_claim, hcurrent.not_revoked, hm.guards.version, hm.guards.recent⟩
      show loadCurrentness before' _ = _
      rw [hm.before_eq, Tables.loadCurrentness_encode, hm.guards.snapshot] }

end World

variable [Ed25519] [Coset]

/-- Every effect that the next action may pass to an adapter has the trail of an authorized,
claimed and freshly marked attempt behind it. -/
def World.DispatchesSoundly (w : World) : Prop :=
  ∀ a exact, w.Invokes a exact → ∃ τ : Trail, τ.Sound w exact

/-- Behind every effect that the next action may pass to an adapter stands a trail whose claim is
the claims row of the grant, in each of its columns. -/
def World.DispatchesBacked (w : World) : Prop :=
  ∀ a exact, w.Invokes a exact → ∃ τ : Trail, τ.Sound w exact ∧
    w.db.claimByGrantHash τ.prepared.grantHash.asStr = some τ.markedClaim.row

end Etp.Executor
