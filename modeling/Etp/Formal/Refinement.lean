import Etp.Formal.Specification
import Etp.Lib.Simulation
import Etp.Sqlite.View

/-!
# The store follows the design

The specification says of itself that it proves no refinement.  Here the store is shown to
follow it, one grant at a time: the trusted time is the clock up to the end of the grant,
the snapshot under the currentness key of the claim holds the epochs, and the grant is
issued at the first moment at which its chain is registered and the snapshot is the one it
was made for.  Before the receipt the phases are the ones of the claims row.

`simulate` is the simulation of one call.  It needs that no marker is written
after a receipt, and `refines_iff` says that this is all it needs: a store follows the
specification in exactly the runs without a late mark.
-/

namespace Etp.Formal

open Etp.Core Etp.Sqlite SqliteEffectStore Relation

/-! ## Steps of the clock and of the epochs -/

section Steps

variable {k : Constants} {s : State} {n : Nat}

theorem steps_now (hle : s.now ≤ n) (hmax : n ≤ k.maxTime) :
    ReflTransGen (Next k) s { s with now := n } := by
  have hsteps := reflTransGen_of_succ_of_le
    (fun i j ↦ Next k { s with now := i } { s with now := j })
    (fun i hi ↦ .advanceClock (hi.2.trans_le hmax)) hle
  exact hsteps.lift (fun i ↦ { s with now := i }) fun _ _ h ↦ h

theorem steps_policyEpoch (hle : s.policyEpoch ≤ n) (hmax : n ≤ k.maxEpoch) :
    ReflTransGen (Next k) s { s with policyEpoch := n } := by
  have hsteps := reflTransGen_of_succ_of_le
    (fun i j ↦ Next k { s with policyEpoch := i } { s with policyEpoch := j })
    (fun i hi ↦ .rotatePolicy (hi.2.trans_le hmax)) hle
  exact hsteps.lift (fun i ↦ { s with policyEpoch := i }) fun _ _ h ↦ h

theorem steps_configurationEpoch (hle : s.configurationEpoch ≤ n) (hmax : n ≤ k.maxEpoch) :
    ReflTransGen (Next k) s { s with configurationEpoch := n } := by
  have hsteps := reflTransGen_of_succ_of_le
    (fun i j ↦ Next k { s with configurationEpoch := i } { s with configurationEpoch := j })
    (fun i hi ↦ .rotateConfiguration (hi.2.trans_le hmax)) hle
  exact hsteps.lift (fun i ↦ { s with configurationEpoch := i }) fun _ _ h ↦ h

/-- A grant that is terminal stays what it is. -/
theorem Next.terminal {s' : State} (h : Next k s s') (hs : s.grantState = .terminal) :
    s'.grantState = .terminal ∧ s'.dispatchCount = s.dispatchCount := by
  cases h with
  | issue _ hnone _ =>
      rw [hs] at hnone
      cases hnone
  | claim hissued _ _ _ _ =>
      rw [hs] at hissued
      cases hissued
  | startDispatch hclaimed _ =>
      rw [hs] at hclaimed
      cases hclaimed
  | recordBeforeDispatch _ _ _ => exact ⟨rfl, rfl⟩
  | recordAfterDispatch _ _ _ => exact ⟨rfl, rfl⟩
  | _ => exact ⟨hs, rfl⟩

theorem terminal_of_steps {s' : State} (h : ReflTransGen (Next k) s s')
    (hs : s.grantState = .terminal) :
    s'.grantState = .terminal ∧ s'.dispatchCount = s.dispatchCount := by
  induction h with
  | refl => exact ⟨hs, rfl⟩
  | tail _ hn ih =>
      obtain ⟨hphase, hcount⟩ := hn.terminal ih.1
      exact ⟨hphase, hcount.trans ih.2⟩

end Steps

/-! ## Outcomes -/

def ofReceiptOutcome : Core.ReceiptOutcome → ReceiptOutcome
  | .notDispatched => .notDispatched
  | .succeeded => .succeeded
  | .failed => .failed
  | .unknown => .unknown

def ofReconciliationOutcome : Core.ReconciliationOutcome → ReconciliationOutcome
  | .effectConfirmed => .effectConfirmed
  | .noEffectConfirmed => .noEffectConfirmed
  | .partialEffect => .partialEffect
  | .stillUnknown => .stillUnknown
  | .compensated => .compensated

@[simp] theorem isTerminal_ofReconciliationOutcome (o : Core.ReconciliationOutcome) :
    (ofReconciliationOutcome o).isTerminal = o.isTerminal := by
  cases o <;> rfl

theorem ofReconciliationOutcome_ne_none (o : Core.ReconciliationOutcome) :
    ofReconciliationOutcome o ≠ .none := by
  cases o <;> rintro ⟨⟩

/-! ## What a state represents -/

section Represents

variable [Sha256] (x : RegisteredChain)

/-- The clock ends with the grant, and the other bounds are those of the store. -/
def constants : Constants where
  maxTime := x.grant.expiresAtMs
  maxEpoch := maxSafeInteger
  maxReconciliations := maxReconciliationRecords

/-- The snapshot has the epochs that the commitment names. -/
def AtEpochs (p : CurrentnessSnapshot) : Prop :=
  p.policyEpoch = x.commitment.policyEpoch ∧ p.configurationEpoch = x.commitment.configurationEpoch

/-- The grant could be claimed as far as the time, the epochs and the revocation go. -/
def Ready (v : View) : Prop :=
  v.registered = true ∧ v.time < x.grant.expiresAtMs ∧
    ∃ p, v.snapshot = some p ∧ AtEpochs x p ∧ p.revoked = false

/-- What a view and a state share in every phase. -/
structure Shared (v : View) (s : State) : Prop where
  now : s.now = min v.time x.grant.expiresAtMs
  policyEpoch : s.policyEpoch = v.snapshot.elim 0 (·.policyEpoch)
  configurationEpoch : s.configurationEpoch = v.snapshot.elim 0 (·.configurationEpoch)
  decision : s.decision = if v.registered then .allow else .pending
  dispatchCount : s.dispatchCount = if (v.claim.bind (·.dispatchStartedAtMs)).isSome then 1 else 0
  receiptOutcome : s.receiptOutcome = v.receipt.elim .none fun r ↦ ofReceiptOutcome r.outcome
  reconciliationCount : s.reconciliationCount = v.history.length
  reconciliationHead : s.reconciliationHead =
    v.history.getLast?.elim .none fun r ↦ ofReconciliationOutcome r.outcome
  terminalAt : s.terminalAt =
    if v.history.getLast?.any (·.outcome.isTerminal) then v.history.length else 0

structure Unissued (v : View) (s : State) : Prop where
  phase : s.grantState = .none
  revocation : s.revocationEpoch = 0
  not_ready : ¬Ready x v

/-- The revocation epoch has moved if the snapshot of these epochs is revoked. -/
structure Issued (v : View) (s : State) : Prop where
  phase : s.grantState = .issued
  policy : s.grantPolicyEpoch = x.commitment.policyEpoch
  configuration : s.grantConfigurationEpoch = x.commitment.configurationEpoch
  revocation : s.grantRevocationEpoch = 0
  snapshot : ∃ p, v.snapshot = some p ∧ x.commitment.policyEpoch ≤ p.policyEpoch ∧
    x.commitment.configurationEpoch ≤ p.configurationEpoch ∧
    (AtEpochs x p → s.revocationEpoch = if p.revoked then 1 else 0)

def claimPhase (c : DurableClaim) : Option EffectReceipt → GrantState
  | some _ => .terminal
  | none => if c.dispatchStartedAtMs.isSome then .dispatchStarted else .claimed

structure Claimed (c : DurableClaim) (v : View) (s : State) : Prop where
  phase : s.grantState = claimPhase c v.receipt
  owner : s.claimOwner = some .executorA

structure Represents (v : View) (s : State) : Prop extends Shared x v s where
  unclaimed : v.claim = none → Unissued x v s ∨ Issued x v s
  claimed : ∀ c, v.claim = some c → Claimed c v s

/-! ## One call -/

variable {x} {v v' : View} {s : State}

omit [Sha256] in
theorem min_lt_expires {n e : Nat} (h : n < e) : min n e < e := (Nat.min_le_left n e).trans_lt h

/-- A grant that is ready is issued. -/
theorem Shared.issue (h : Shared x v s) (hphase : s.grantState = .none)
    (hrevocation : s.revocationEpoch = 0) : ∃ s', ReflTransGen (Next (constants x)) s s' ∧
      Shared x v s' ∧ (Unissued x v s' ∨ Issued x v s') := by
  by_cases hready : Ready x v
  · obtain ⟨hregistered, htime, p, hp, ⟨hpolicy, hconfiguration⟩, hrevoked⟩ := id hready
    have hallow : s.decision = .allow := by rw [h.decision, hregistered, if_pos rfl]
    have hnow : s.now < x.grant.expiresAtMs := h.now ▸ min_lt_expires htime
    have hpolicy' : s.policyEpoch = x.commitment.policyEpoch := by
      rw [h.policyEpoch, hp, ← hpolicy]
      rfl
    have hconfiguration' : s.configurationEpoch = x.commitment.configurationEpoch := by
      rw [h.configurationEpoch, hp, ← hconfiguration]
      rfl
    refine ⟨_, .single (.issue hallow hphase hnow), { h with }, .inr ?_⟩
    exact {
      phase := rfl
      policy := hpolicy'
      configuration := hconfiguration'
      revocation := hrevocation
      snapshot := ⟨p, hp, hpolicy.ge, hconfiguration.ge,
        fun _ ↦ by rw [hrevoked]; exact hrevocation⟩ }
  · exact ⟨s, .refl, h, .inl ⟨hphase, hrevocation, hready⟩⟩

/-- What is left after a step that the two share: to issue the grant, if it has become ready. -/
theorem Shared.settle (h : Shared x v s) (hclaimed : ∀ c, v.claim = some c → Claimed c v s)
    (hunclaimed : v.claim = none →
      s.grantState = .none ∧ s.revocationEpoch = 0 ∨ Issued x v s) :
    ∃ s', ReflTransGen (Next (constants x)) s s' ∧ Represents x v s' := by
  rcases Option.eq_none_or_eq_some v.claim with hclaim | ⟨c, hclaim⟩
  · have hno : ∀ {s'} c, v.claim = some c → Claimed c v s' := by
      rw [hclaim]
      rintro _ _ ⟨⟩
    rcases hunclaimed hclaim with ⟨hphase, hrevocation⟩ | hi
    · obtain ⟨s', hsteps, hshared, hlife⟩ := h.issue hphase hrevocation
      exact ⟨s', hsteps, { hshared with unclaimed := fun _ ↦ hlife, claimed := hno }⟩
    · exact ⟨s, .refl, { h with unclaimed := fun _ ↦ .inr hi, claimed := hno }⟩
  · refine ⟨s, .refl, { h with unclaimed := fun hnone ↦ ?_, claimed := hclaimed }⟩
    rw [hnone] at hclaim
    cases hclaim

/-- Time passes. -/
theorem Represents.rest (h : Represents x v s) {now : Nat} (hle : v.time ≤ now) :
    ∃ s', ReflTransGen (Next (constants x)) s s' ∧ Represents x { v with time := now } s' := by
  have hnow : s.now ≤ min now x.grant.expiresAtMs := by
    rw [h.now]
    exact min_le_min_right _ hle
  refine ⟨_, steps_now hnow (Nat.min_le_right _ _),
    { h with now := rfl, unclaimed := ?_, claimed := ?_ }⟩
  · intro hnone
    refine (h.unclaimed hnone).imp (fun hu ↦ { hu with not_ready := ?_ }) fun hi ↦ { hi with }
    rintro ⟨hregistered, htime, hsnapshot⟩
    exact hu.not_ready ⟨hregistered, hle.trans_lt htime, hsnapshot⟩
  · intro c hc
    exact { h.claimed c hc with }

theorem Represents.registered (h : Represents x v s) :
    ∃ s', ReflTransGen (Next (constants x)) s s' ∧
      Represents x { v with registered := true } s' := by
  have hdecided : ∃ s₁, ReflTransGen (Next (constants x)) s s₁ ∧
      s₁ = { s with decision := .allow } := by
    cases hregistered : v.registered with
    | true =>
        have hallow : s.decision = .allow := by rw [h.decision, hregistered, if_pos rfl]
        refine ⟨s, .refl, ?_⟩
        rw [← hallow]
    | false =>
        have hpending : s.decision = .pending := by rw [h.decision, hregistered]; rfl
        exact ⟨_, .single (.decide (by rintro ⟨⟩) hpending), rfl⟩
  obtain ⟨_, hsteps, rfl⟩ := hdecided
  have hshared : Shared x { v with registered := true } { s with decision := .allow } :=
    { h.toShared with decision := rfl }
  obtain ⟨s', hsteps', h'⟩ := hshared.settle (fun c hc ↦ { h.claimed c hc with }) fun hnone ↦
    (h.unclaimed hnone).imp (fun hu ↦ ⟨hu.phase, hu.revocation⟩) fun hi ↦ { hi with }
  exact ⟨s', hsteps.trans hsteps', h'⟩

/-- The epochs of an issued grant are behind the snapshot, so a snapshot that is at them
follows one that was. -/
theorem Issued.observe (h : Issued x v s) {p : CurrentnessSnapshot}
    (hadvance : ∀ previous ∈ v.snapshot, Advances previous p) {s₁ : State}
    (hs₁ : s₁ = { s with
      policyEpoch := p.policyEpoch, configurationEpoch := p.configurationEpoch }) :
    ∃ s', ReflTransGen (Next (constants x)) s₁ s' ∧ Issued x { v with snapshot := some p } s' ∧
      ∃ n, s' = { s₁ with revocationEpoch := n } := by
  subst hs₁
  obtain ⟨q, hq, hpolicy, hconfiguration, hrevocation⟩ := h.snapshot
  have hqp := hadvance q hq
  have issued : ∀ n, (AtEpochs x p → n = if p.revoked then 1 else 0) →
      Issued x { v with snapshot := some p } { s with
        policyEpoch := p.policyEpoch
        configurationEpoch := p.configurationEpoch
        revocationEpoch := n } := fun n hn ↦
    { h with
      snapshot := ⟨p, rfl, hpolicy.trans hqp.policy, hconfiguration.trans hqp.configuration, hn⟩ }
  by_cases hat : AtEpochs x p
  · have hatq : AtEpochs x q := by
      obtain ⟨hpp, hpc⟩ := hat
      exact ⟨(hqp.policy.trans hpp.le).antisymm hpolicy,
        (hqp.configuration.trans hpc.le).antisymm hconfiguration⟩
    have hold := hrevocation hatq
    by_cases hsame : q.revoked = p.revoked
    · exact ⟨_, .refl, issued s.revocationEpoch fun _ ↦ hsame ▸ hold, _, rfl⟩
    · -- Only a revocation can change the flag at these epochs.
      have hflags : q.revoked = false ∧ p.revoked = true := by
        cases hqr : q.revoked <;> cases hpr : p.revoked
        · exact absurd (hqr.trans hpr.symm) hsame
        · exact ⟨rfl, rfl⟩
        · exact absurd ⟨hat.1.trans hatq.1.symm, hat.2.trans hatq.2.symm⟩ (hqp.revoked hqr hpr)
        · exact absurd (hqr.trans hpr.symm) hsame
      have hzero : s.revocationEpoch = 0 := by
        rw [hold, hflags.1]
        rfl
      refine ⟨_, .single (.revoke ?_), issued (s.revocationEpoch + 1) fun _ ↦ ?_, _, rfl⟩
      · show s.revocationEpoch < maxSafeInteger
        rw [hzero]
        decide
      · rw [hzero, hflags.2]
        rfl
  · exact ⟨_, .refl, issued s.revocationEpoch fun h ↦ absurd h hat, _, rfl⟩

theorem Represents.observed (h : Represents x v s) {p : CurrentnessSnapshot} (hv : ValidSnapshot p)
    (hadvance : ∀ previous ∈ v.snapshot, Advances previous p) :
    ∃ s', ReflTransGen (Next (constants x)) s s' ∧
      Represents x { v with snapshot := some p } s' := by
  have hpolicy : s.policyEpoch ≤ p.policyEpoch := by
    rw [h.policyEpoch]
    cases hs : v.snapshot with
    | none => exact Nat.zero_le _
    | some q => exact (hadvance q hs).policy
  have hconfiguration : s.configurationEpoch ≤ p.configurationEpoch := by
    rw [h.configurationEpoch]
    cases hs : v.snapshot with
    | none => exact Nat.zero_le _
    | some q => exact (hadvance q hs).configuration
  have hsteps : ReflTransGen (Next (constants x)) s
      { s with policyEpoch := p.policyEpoch, configurationEpoch := p.configurationEpoch } :=
    (steps_policyEpoch hpolicy hv.policy_le).trans
      (steps_configurationEpoch (s := { s with policyEpoch := p.policyEpoch }) hconfiguration
        hv.configuration_le)
  have hshared : Shared x { v with snapshot := some p }
      { s with policyEpoch := p.policyEpoch, configurationEpoch := p.configurationEpoch } :=
    { h.toShared with policyEpoch := rfl, configurationEpoch := rfl }
  -- An issued grant follows a revocation before anything else.
  have hrevoked : ∃ s₁, ReflTransGen (Next (constants x))
      { s with policyEpoch := p.policyEpoch, configurationEpoch := p.configurationEpoch } s₁ ∧
      Shared x { v with snapshot := some p } s₁ ∧
      (∀ c, v.claim = some c → Claimed c { v with snapshot := some p } s₁) ∧
      (v.claim = none → s₁.grantState = .none ∧ s₁.revocationEpoch = 0 ∨
        Issued x { v with snapshot := some p } s₁) := by
    rcases Option.eq_none_or_eq_some v.claim with hclaim | ⟨c, hclaim⟩
    · rcases h.unclaimed hclaim with hu | hi
      · exact ⟨_, .refl, hshared, fun c hc ↦ (Option.some_ne_none c (hc.symm.trans hclaim)).elim,
          fun _ ↦ .inl ⟨hu.phase, hu.revocation⟩⟩
      · obtain ⟨_, hsteps', hi', n, rfl⟩ := hi.observe hadvance rfl
        exact ⟨_, hsteps', { hshared with },
          fun c hc ↦ (Option.some_ne_none c (hc.symm.trans hclaim)).elim, fun _ ↦ .inr hi'⟩
    · exact ⟨_, .refl, hshared, fun c hc ↦ { h.claimed c hc with },
        fun hnone ↦ (Option.some_ne_none c (hclaim.symm.trans hnone)).elim⟩
  obtain ⟨s₁, hsteps₁, hshared₁, hclaimed, hunclaimed⟩ := hrevoked
  obtain ⟨s', hsteps', h'⟩ := hshared₁.settle hclaimed hunclaimed
  exact ⟨s', hsteps.trans (hsteps₁.trans hsteps'), h'⟩

theorem Represents.claim (h : Represents x v s) {c : DurableClaim} {p : CurrentnessSnapshot}
    (hregistered : v.registered = true) (hnone : v.claim = none) (hreceipt : v.receipt = none)
    (hp : v.snapshot = some p) (hcurrent : Current p x) (hlt : v.time < x.grant.expiresAtMs)
    (hunmarked : c.dispatchStartedAtMs = none) :
    ∃ s', ReflTransGen (Next (constants x)) s s' ∧ Represents x { v with claim := some c } s' := by
  have hat : AtEpochs x p := ⟨hcurrent.policy, hcurrent.configuration⟩
  have hready : Ready x v := ⟨hregistered, hlt, p, hp, hat, hcurrent.not_revoked⟩
  obtain hi : Issued x v s := (h.unclaimed hnone).resolve_left fun hu ↦ hu.not_ready hready
  obtain ⟨q, hq, -, -, hrevocation⟩ := hi.snapshot
  obtain rfl : p = q := Option.some.inj (hp.symm.trans hq)
  have hpolicy : s.policyEpoch = s.grantPolicyEpoch := by
    rw [h.policyEpoch, hp, hi.policy, ← hat.1]
    rfl
  have hconfiguration : s.configurationEpoch = s.grantConfigurationEpoch := by
    rw [h.configurationEpoch, hp, hi.configuration, ← hat.2]
    rfl
  have hrevoked : s.revocationEpoch = s.grantRevocationEpoch := by
    rw [hrevocation hat, hcurrent.not_revoked, hi.revocation]
    rfl
  have hnow : s.now < x.grant.expiresAtMs := h.now ▸ min_lt_expires hlt
  refine ⟨_, .single (@Next.claim _ _ .executorA hi.phase hnow hpolicy hconfiguration hrevoked),
    { h.toShared with dispatchCount := ?_, unclaimed := ?_, claimed := ?_ }⟩
  · have hcount := h.dispatchCount
    rw [hnone] at hcount
    show s.dispatchCount = if c.dispatchStartedAtMs.isSome then 1 else 0
    rw [hunmarked]
    exact hcount
  · rintro ⟨⟩
  · rintro _ ⟨⟩
    refine ⟨?_, rfl⟩
    show GrantState.claimed = claimPhase c v.receipt
    rw [hreceipt, claimPhase, hunmarked]
    rfl

theorem Represents.mark (h : Represents x v s) {c : DurableClaim} {d : Nat}
    (hc : v.claim = some c) (hunmarked : c.dispatchStartedAtMs = none)
    (hreceipt : v.receipt = none) :
    ∃ s', ReflTransGen (Next (constants x)) s s' ∧
      Represents x { v with claim := some { c with dispatchStartedAtMs := some d } } s' := by
  obtain ⟨hphase, howner⟩ := h.claimed c hc
  rw [hreceipt, claimPhase, hunmarked] at hphase
  refine ⟨_, .single (.startDispatch hphase howner),
    { h.toShared with dispatchCount := ?_, unclaimed := ?_, claimed := ?_ }⟩
  · have hcount := h.dispatchCount
    rw [hc, Option.bind_some, hunmarked] at hcount
    exact congrArg (· + 1) hcount
  · rintro ⟨⟩
  · rintro _ ⟨⟩
    refine ⟨?_, howner⟩
    show GrantState.dispatchStarted = claimPhase _ v.receipt
    rw [hreceipt]
    rfl

theorem Represents.receive (h : Represents x v s) {c : DurableClaim} {r : EffectReceipt}
    (hc : v.claim = some c) (hnone : v.receipt = none)
    (hevidence : Evidence r c.dispatchStartedAtMs) :
    ∃ s', ReflTransGen (Next (constants x)) s s' ∧
      Represents x { v with receipt := some r } s' := by
  obtain ⟨hphase, howner⟩ := h.claimed c hc
  have houtcome : s.receiptOutcome = .none := by
    rw [h.receiptOutcome, hnone]
    rfl
  rw [hnone, claimPhase] at hphase
  have represents : ∀ {s'}, s' = { s with
      grantState := .terminal
      receiptOutcome := ofReceiptOutcome r.outcome
      receiptCount := s.receiptCount + 1 } → Represents x { v with receipt := some r } s' := by
    rintro _ rfl
    refine { h.toShared with receiptOutcome := rfl, unclaimed := ?_, claimed := ?_ }
    · intro hclaim
      rw [show v.claim = none from hclaim] at hc
      cases hc
    · intro c' hc'
      exact ⟨rfl, howner⟩
  cases hmarker : c.dispatchStartedAtMs with
  | none =>
      rw [hmarker] at hphase
      refine ⟨_, .single (.recordBeforeDispatch ?_ hphase houtcome), represents rfl⟩
      have hsome := hevidence.dispatched
      rw [hmarker] at hsome
      cases ho : r.outcome with
      | notDispatched => exact .inl rfl
      | unknown => exact .inr rfl
      | succeeded => exact absurd rfl (hsome (.inl ho))
      | failed => exact absurd rfl (hsome (.inr ho))
  | some d =>
      rw [hmarker] at hphase
      refine ⟨_, .single (.recordAfterDispatch ?_ hphase houtcome), represents rfl⟩
      have hnot := hevidence.not_dispatched
      rw [hmarker] at hnot
      cases ho : r.outcome with
      | notDispatched => cases hnot ho
      | succeeded => exact .inl rfl
      | failed => exact .inr (.inl rfl)
      | unknown => exact .inr (.inr rfl)

theorem Represents.append (h : Represents x v s) {q : EffectReceipt} {r : ReconciliationRecord}
    (hq : v.receipt = some q) (hunknown : q.outcome = .unknown)
    (hlt : v.history.length < maxReconciliationRecords)
    (hparent : ParentLink v.history.getLast? r) :
    ∃ s', ReflTransGen (Next (constants x)) s s' ∧
      Represents x { v with history := v.history ++ [r] } s' := by
  have houtcome : s.receiptOutcome = .unknown := by
    rw [h.receiptOutcome, hq, Option.elim, hunknown]
    rfl
  have hcount : s.reconciliationCount < maxReconciliationRecords := h.reconciliationCount ▸ hlt
  have hopen : s.terminalAt = 0 := by
    rw [h.terminalAt]
    cases hlast : v.history.getLast? with
    | none => rfl
    | some last =>
        rw [hlast] at hparent
        rw [Option.any_some, hparent.1]
        rfl
  refine ⟨_, .single (.appendReconciliation (ofReconciliationOutcome_ne_none r.outcome) houtcome
    hcount hopen), { h.toShared with
      reconciliationCount := ?_
      reconciliationHead := ?_
      terminalAt := ?_
      unclaimed := fun hclaim ↦ ?_
      claimed := fun c hc ↦ { h.claimed c hc with } }⟩
  · show s.reconciliationCount + 1 = (v.history ++ [r]).length
    rw [h.reconciliationCount, List.length_append, List.length_singleton]
  · show ofReconciliationOutcome r.outcome = _
    rw [List.getLast?_concat]
    rfl
  · show (if (ofReconciliationOutcome r.outcome).isTerminal then s.reconciliationCount + 1
        else 0) = _
    rw [isTerminal_ofReconciliationOutcome, List.getLast?_concat, Option.any_some,
      h.reconciliationCount, List.length_append, List.length_singleton]
  · exact (h.unclaimed hclaim).imp (fun hu ↦ { hu with }) fun hi ↦ { hi with }

/-- **The simulation.**  Whatever a call does to the view of the grant, the specification can
follow. -/
theorem simulate (hc : ViewChange x v v') (h : Represents x v s) :
    ∃ s', ReflTransGen (Next (constants x)) s s' ∧ Represents x v' s' := by
  cases hc with
  | rest hle => exact h.rest hle
  | registered => exact h.registered
  | observed hv hadvance => exact h.observed hv hadvance
  | claimed hregistered hnone hreceipt hp hcurrent hle hlt hunmarked =>
      obtain ⟨s₁, hsteps, h₁⟩ := h.rest hle
      obtain ⟨s₂, hsteps', h₂⟩ := h₁.claim hregistered hnone hreceipt hp hcurrent hlt hunmarked
      exact ⟨s₂, hsteps.trans hsteps', h₂⟩
  | marked hc hunmarked hreceipt hle =>
      obtain ⟨s₁, hsteps, h₁⟩ := h.rest hle
      obtain ⟨s₂, hsteps', h₂⟩ := h₁.mark hc hunmarked hreceipt
      exact ⟨s₂, hsteps.trans hsteps', h₂⟩
  | received hc hnone hevidence => exact h.receive hc hnone hevidence
  | appended hq hunknown hlt hparent => exact h.append hq hunknown hlt hparent

end Represents

/-! ## Runs -/

section Runs

variable [Sha256] {x : RegisteredChain} {key : String}

/-- The state represents the database, seen from the grant. -/
def Represented (x : RegisteredChain) (key : String) (db : Db) (s : State) : Prop :=
  ∃ t, WellFormed t ∧ db = t.encode ∧ Represents x (t.view x.grantHash key) s

/-- Seen from every grant, and with the currentness key that its claim names if there is one
in the end, the run of the store is followed by a behaviour of the specification. -/
def Refines (calls : List Call) : Prop :=
  ∀ x key, (∀ t, run calls = t.encode → Fitting x key t) →
    Machine.Follows step (Next (constants x)) (Represented x key) .empty calls (init (constants x))

theorem represented_init (x : RegisteredChain) (key : String) :
    Represented x key .empty (init (constants x)) := by
  refine ⟨.empty, .empty, rfl, ?_⟩
  exact {
    now := (Nat.zero_min _).symm
    policyEpoch := rfl
    configurationEpoch := rfl
    decision := rfl
    dispatchCount := rfl
    receiptOutcome := rfl
    reconciliationCount := rfl
    reconciliationHead := rfl
    terminalAt := rfl
    unclaimed := fun _ ↦ .inl ⟨rfl, rfl, fun hready ↦ absurd hready.1 (by rintro ⟨⟩)⟩
    claimed := by rintro _ ⟨⟩ }

/-- What fits at the end of a run fits all along. -/
theorem fitting_of_end {before after : List Call}
    (h : ∀ t, run (before ++ after) = t.encode → Fitting x key t) {t : Tables}
    (ht : run before = t.encode) : Fitting x key t := by
  have hlater : Precedes (run before) (run (before ++ after)) :=
    ⟨⟨before, rfl⟩, after, by rw [run, run, Machine.run_append]⟩
  obtain ⟨u, u', -, -, hu, hu', hkept⟩ := hlater.kept
  cases Tables.encode_injective (ht.symm.trans hu)
  exact (h u' hu').of_kept hkept

theorem refines_of_noLateMark {calls : List Call} (h : NoLateMark calls) : Refines calls := by
  intro x key hfits
  have hcond : Machine.Along step (fun db call ↦ ¬LateMark db call ∧
      ∀ t, step db call = t.encode → Fitting x key t) .empty calls := by
    rw [Machine.along_iff]
    rintro before call after rfl
    refine ⟨noLateMark_iff.mp h before call after rfl, fun t ht ↦ ?_⟩
    rw [List.append_cons] at hfits
    refine @fitting_of_end _ x key (before ++ [call]) after hfits t ?_
    rwa [run, Machine.run_concat]
  refine Machine.follows_of_along (fun db call s hstep hs ↦ ?_) hcond (represented_init x key)
  obtain ⟨hlate, hfit⟩ := hstep
  obtain ⟨t, hw, rfl, hrepresents⟩ := hs
  obtain ⟨t', hchange, hstep⟩ := exists_change hw call
  obtain ⟨s', hsteps, hrepresents'⟩ :=
    simulate (hchange.view hw hlate (hfit t' hstep)) hrepresents
  exact ⟨s', hsteps, t', hw.change hchange, hstep, hrepresents'⟩

/-- After a late mark the specification would have to leave its terminal phase. -/
theorem noLateMark_of_refines {calls : List Call} (h : Refines calls) : NoLateMark calls := by
  rw [noLateMark_iff]
  rintro before call after rfl ⟨t, c, x, d, snapshot, ht, rfl, hmark⟩
  have hw : WellFormed t := by
    obtain ⟨u, hu, hrun⟩ := exists_tables before
    cases Tables.encode_injective (ht.symm.trans hrun)
    exact hu
  obtain ⟨hhash, -⟩ := hw.chainById_of_chain hmark.guards.chain
  have hfits : ∀ u, run (before ++ .markDispatchStarted c.grantHash c.attemptId d :: after) =
      u.encode → Fitting x c.currentnessKey u := by
    intro u hu
    have hlater : Precedes (run before)
        (run (before ++ .markDispatchStarted c.grantHash c.attemptId d :: after)) :=
      ⟨⟨before, rfl⟩, _, by rw [run, run, Machine.run_append]⟩
    rw [ht, hu] at hlater
    obtain ⟨-, -, hkept⟩ := hlater.kept_encode
    have hchain := hkept.chain hmark.guards.chain
    obtain ⟨c', hc', hclaim⟩ := hkept.claim hmark.claim
    rw [← hhash] at hchain hc'
    refine ⟨fun y hy ↦ Option.some.inj (hy.symm.trans hchain), fun q hq ↦ ?_⟩
    obtain rfl := Option.some.inj (hq.symm.trans hc')
    rcases hclaim with rfl | ⟨-, d, rfl⟩ <;> rfl
  obtain ⟨s, s', -, ⟨u, -, hu, hs⟩, hsteps, ⟨u', -, hu', hs'⟩⟩ := (h x c.currentnessKey hfits).split
  cases Tables.encode_injective (ht.symm.trans hu)
  obtain ⟨v, hv, hwritten⟩ := run_lateMark ht hmark
  obtain rfl : v = u' := Tables.encode_injective (hv.symm.trans hu')
  have hclaim : (t.view x.grantHash c.currentnessKey).claim = some c := hhash ▸ hmark.claim
  obtain ⟨r, hr⟩ := Option.isSome_iff_exists.mp hmark.receipt
  have hreceipt : (t.view x.grantHash c.currentnessKey).receipt = some r := hhash ▸ hr
  have hterminal : s.grantState = .terminal := by
    rw [(hs.claimed c hclaim).phase, hreceipt]
    rfl
  have hcount := (terminal_of_steps hsteps hterminal).2
  have hwritten' : (v.view x.grantHash c.currentnessKey).claim =
      some { c with dispatchStartedAtMs := some d } := hhash ▸ hwritten
  rw [hs.dispatchCount, hs'.dispatchCount, hclaim, hwritten', Option.bind_some, Option.bind_some,
    hmark.unmarked] at hcount
  cases hcount

/-- **The store refines its design.**  The runs of the store that the specification follows,
grant by grant, are the runs without a late mark. -/
theorem refines_iff (calls : List Call) : Refines calls ↔ NoLateMark calls :=
  ⟨noLateMark_of_refines, refines_of_noLateMark⟩

end Runs

end Etp.Formal
