import Mathlib

/-!
# The design of one grant

The specification in `EffectTransaction.tla`: the decision, the grant, its claim by one of
two workers, the dispatch, the receipt and its reconciliations, next to a clock and three
epochs that move on their own.  The variables, the actions and the invariants have the
names of that module, and every action is a constructor of `Next` with its guards.

There the invariants are checked for small constants.  `specification_safe` proves them for
all constants: the phase of the grant decides almost everything else (`Phase`), and
`Inv.next` is the step lemma.
-/

namespace Etp.Formal

open Relation

inductive Worker where
  | executorA | executorB
deriving DecidableEq, Repr

/-- `DecisionOutcomes` -/
inductive Decision where
  | pending | allow | deny | review
deriving DecidableEq, Repr

/-- `GrantStates` -/
inductive GrantState where
  | none | issued | claimed | dispatchStarted | terminal
deriving DecidableEq, Repr

/-- `ReceiptOutcomes` -/
inductive ReceiptOutcome where
  | none | notDispatched | succeeded | failed | unknown
deriving DecidableEq, Repr

/-- `ReconciliationOutcomes` -/
inductive ReconciliationOutcome where
  | none | effectConfirmed | noEffectConfirmed | partialEffect | stillUnknown | compensated
deriving DecidableEq, Repr

/-- Membership in `TerminalReconciliationOutcomes`. -/
def ReconciliationOutcome.isTerminal : ReconciliationOutcome → Bool
  | effectConfirmed | noEffectConfirmed | compensated => true
  | none | partialEffect | stillUnknown => false

structure Constants where
  maxTime : Nat
  maxEpoch : Nat
  maxReconciliations : Nat

/-- The variables. -/
structure State where
  now : Nat
  policyEpoch : Nat
  configurationEpoch : Nat
  revocationEpoch : Nat
  decision : Decision
  grantState : GrantState
  grantPolicyEpoch : Nat
  grantConfigurationEpoch : Nat
  grantRevocationEpoch : Nat
  grantCount : Nat
  claimOwner : Option Worker
  claimCount : Nat
  policyEpochAtClaim : Nat
  configurationEpochAtClaim : Nat
  revocationEpochAtClaim : Nat
  dispatchCount : Nat
  receiptOutcome : ReceiptOutcome
  receiptCount : Nat
  reconciliationCount : Nat
  reconciliationHead : ReconciliationOutcome
  terminalAt : Nat
deriving DecidableEq, Repr

/-- `Init` -/
def init (k : Constants) : State where
  now := 0
  policyEpoch := 0
  configurationEpoch := 0
  revocationEpoch := 0
  decision := .pending
  grantState := .none
  grantPolicyEpoch := k.maxEpoch + 1
  grantConfigurationEpoch := k.maxEpoch + 1
  grantRevocationEpoch := k.maxEpoch + 1
  grantCount := 0
  claimOwner := none
  claimCount := 0
  policyEpochAtClaim := k.maxEpoch + 1
  configurationEpochAtClaim := k.maxEpoch + 1
  revocationEpochAtClaim := k.maxEpoch + 1
  dispatchCount := 0
  receiptOutcome := .none
  receiptCount := 0
  reconciliationCount := 0
  reconciliationHead := .none
  terminalAt := 0

/-- `Next`: each action with its guards, and what it leaves. -/
inductive Next (k : Constants) (s : State) : State → Prop
  | decide {outcome : Decision} (houtcome : outcome ≠ .pending) (hpending : s.decision = .pending) :
      Next k s { s with decision := outcome }
  | issue (hallow : s.decision = .allow) (hnone : s.grantState = .none) (hnow : s.now < k.maxTime) :
      Next k s { s with
        grantState := .issued
        grantPolicyEpoch := s.policyEpoch
        grantConfigurationEpoch := s.configurationEpoch
        grantRevocationEpoch := s.revocationEpoch
        grantCount := s.grantCount + 1 }
  | claim {worker : Worker} (hissued : s.grantState = .issued) (hnow : s.now < k.maxTime)
      (hpolicy : s.policyEpoch = s.grantPolicyEpoch)
      (hconfiguration : s.configurationEpoch = s.grantConfigurationEpoch)
      (hrevocation : s.revocationEpoch = s.grantRevocationEpoch) :
      Next k s { s with
        grantState := .claimed
        claimOwner := some worker
        claimCount := s.claimCount + 1
        policyEpochAtClaim := s.policyEpoch
        configurationEpochAtClaim := s.configurationEpoch
        revocationEpochAtClaim := s.revocationEpoch }
  | startDispatch {worker : Worker} (hclaimed : s.grantState = .claimed)
      (howner : s.claimOwner = some worker) :
      Next k s { s with
        grantState := .dispatchStarted
        dispatchCount := s.dispatchCount + 1 }
  | recordBeforeDispatch {outcome : ReceiptOutcome}
      (houtcome : outcome = .notDispatched ∨ outcome = .unknown)
      (hclaimed : s.grantState = .claimed) (hnone : s.receiptOutcome = .none) :
      Next k s { s with
        grantState := .terminal
        receiptOutcome := outcome
        receiptCount := s.receiptCount + 1 }
  | recordAfterDispatch {outcome : ReceiptOutcome}
      (houtcome : outcome = .succeeded ∨ outcome = .failed ∨ outcome = .unknown)
      (hdispatched : s.grantState = .dispatchStarted) (hnone : s.receiptOutcome = .none) :
      Next k s { s with
        grantState := .terminal
        receiptOutcome := outcome
        receiptCount := s.receiptCount + 1 }
  | appendReconciliation {outcome : ReconciliationOutcome} (houtcome : outcome ≠ .none)
      (hunknown : s.receiptOutcome = .unknown)
      (hcount : s.reconciliationCount < k.maxReconciliations) (hopen : s.terminalAt = 0) :
      Next k s { s with
        reconciliationCount := s.reconciliationCount + 1
        reconciliationHead := outcome
        terminalAt := if outcome.isTerminal then s.reconciliationCount + 1 else 0 }
  | advanceClock (hnow : s.now < k.maxTime) : Next k s { s with now := s.now + 1 }
  | rotatePolicy (hepoch : s.policyEpoch < k.maxEpoch) :
      Next k s { s with policyEpoch := s.policyEpoch + 1 }
  | rotateConfiguration (hepoch : s.configurationEpoch < k.maxEpoch) :
      Next k s { s with configurationEpoch := s.configurationEpoch + 1 }
  | revoke (hepoch : s.revocationEpoch < k.maxEpoch) :
      Next k s { s with revocationEpoch := s.revocationEpoch + 1 }
  | stutter : Next k s s

/-- The states of the behaviours of `Spec`. -/
def Reachable (k : Constants) (s : State) : Prop := ReflTransGen (Next k) (init k) s

/-! ## The invariants of the specification -/

/-- The ranges of `TypeOK` that the constants bound. -/
structure Bounded (k : Constants) (s : State) : Prop where
  now : s.now ≤ k.maxTime
  policyEpoch : s.policyEpoch ≤ k.maxEpoch
  configurationEpoch : s.configurationEpoch ≤ k.maxEpoch
  revocationEpoch : s.revocationEpoch ≤ k.maxEpoch
  grantPolicyEpoch : s.grantPolicyEpoch ≤ k.maxEpoch + 1
  grantConfigurationEpoch : s.grantConfigurationEpoch ≤ k.maxEpoch + 1
  grantRevocationEpoch : s.grantRevocationEpoch ≤ k.maxEpoch + 1
  policyEpochAtClaim : s.policyEpochAtClaim ≤ k.maxEpoch + 1
  configurationEpochAtClaim : s.configurationEpochAtClaim ≤ k.maxEpoch + 1
  revocationEpochAtClaim : s.revocationEpochAtClaim ≤ k.maxEpoch + 1
  reconciliationCount : s.reconciliationCount ≤ k.maxReconciliations
  terminalAt : s.terminalAt ≤ k.maxReconciliations

/-- `TypeOK`, as far as the types do not say it. -/
structure TypeOK (k : Constants) (s : State) : Prop extends Bounded k s where
  grantCount : s.grantCount ≤ 1
  claimCount : s.claimCount ≤ 1
  dispatchCount : s.dispatchCount ≤ 1
  receiptCount : s.receiptCount ≤ 1

/-- The safety properties, under the names of the specification. -/
structure Safe (s : State) : Prop where
  onlyAllowIssues : s.grantCount = 1 → s.decision = .allow
  atMostOneGrant : s.grantCount ≤ 1
  atMostOneClaim : s.claimCount ≤ 1
  atMostOneDispatch : s.dispatchCount ≤ 1
  atMostOneReceipt : s.receiptCount ≤ 1
  claimRequiresIssuedGrant : s.claimCount = 1 → s.grantCount = 1
  claimUsedCurrentEpochs : s.claimCount = 1 →
    s.policyEpochAtClaim = s.grantPolicyEpoch ∧
      s.configurationEpochAtClaim = s.grantConfigurationEpoch ∧
      s.revocationEpochAtClaim = s.grantRevocationEpoch
  dispatchRequiresClaim : s.dispatchCount = 1 → s.claimCount = 1
  receiptRequiresClaim : s.receiptCount = 1 → s.claimCount = 1
  notDispatchedRequiresNoDispatch : s.receiptOutcome = .notDispatched → s.dispatchCount = 0
  successfulOrFailedRequiresDispatch :
    s.receiptOutcome = .succeeded ∨ s.receiptOutcome = .failed → s.dispatchCount = 1
  reconciliationRequiresUnknown : 0 < s.reconciliationCount → s.receiptOutcome = .unknown
  terminalReconciliationIsAbsorbing : 0 < s.terminalAt → s.reconciliationCount = s.terminalAt
  consumedGrantNeverReturnsToIssued : s.claimCount = 1 →
    s.grantState = .claimed ∨ s.grantState = .dispatchStarted ∨ s.grantState = .terminal

/-! ## The phase of the grant -/

/-- What the phase says about the counters and the receipt. -/
def Phase (s : State) : Prop :=
  match s.grantState with
  | .none => s.grantCount = 0 ∧ s.claimCount = 0 ∧ s.dispatchCount = 0 ∧ s.receiptCount = 0 ∧
      s.receiptOutcome = .none
  | .issued => s.grantCount = 1 ∧ s.claimCount = 0 ∧ s.dispatchCount = 0 ∧ s.receiptCount = 0 ∧
      s.receiptOutcome = .none
  | .claimed => s.grantCount = 1 ∧ s.claimCount = 1 ∧ s.dispatchCount = 0 ∧ s.receiptCount = 0 ∧
      s.receiptOutcome = .none
  | .dispatchStarted => s.grantCount = 1 ∧ s.claimCount = 1 ∧ s.dispatchCount = 1 ∧
      s.receiptCount = 0 ∧ s.receiptOutcome = .none
  | .terminal => s.grantCount = 1 ∧ s.claimCount = 1 ∧ s.receiptCount = 1 ∧
      (s.dispatchCount = 0 ∧ (s.receiptOutcome = .notDispatched ∨ s.receiptOutcome = .unknown) ∨
        s.dispatchCount = 1 ∧ (s.receiptOutcome = .succeeded ∨ s.receiptOutcome = .failed ∨
          s.receiptOutcome = .unknown))

/-- The epochs at the claim are those of the grant. -/
def EpochsKept (s : State) : Prop :=
  s.policyEpochAtClaim = s.grantPolicyEpoch ∧
    s.configurationEpochAtClaim = s.grantConfigurationEpoch ∧
    s.revocationEpochAtClaim = s.grantRevocationEpoch

structure Inv (k : Constants) (s : State) : Prop where
  bounded : Bounded k s
  phase : Phase s
  allowed : s.grantState ≠ .none → s.decision = .allow
  current : s.claimCount = 1 → EpochsKept s
  reconciled : 0 < s.reconciliationCount → s.receiptOutcome = .unknown
  ended : 0 < s.terminalAt → s.reconciliationCount = s.terminalAt

variable {k : Constants} {s s' : State}

theorem Inv.init : Inv k (init k) where
  bounded := by constructor <;> simp [Formal.init]
  phase := ⟨rfl, rfl, rfl, rfl, rfl⟩
  allowed h := absurd rfl h
  current h := by cases h
  reconciled h := by cases h
  ended h := by cases h

theorem Bounded.next (h : Bounded k s) (hn : Next k s s') : Bounded k s' := by
  cases hn with
  | issue _ _ _ =>
      exact { h with
        grantPolicyEpoch := h.policyEpoch.trans (Nat.le_succ _)
        grantConfigurationEpoch := h.configurationEpoch.trans (Nat.le_succ _)
        grantRevocationEpoch := h.revocationEpoch.trans (Nat.le_succ _) }
  | claim _ _ _ _ _ =>
      exact { h with
        policyEpochAtClaim := h.policyEpoch.trans (Nat.le_succ _)
        configurationEpochAtClaim := h.configurationEpoch.trans (Nat.le_succ _)
        revocationEpochAtClaim := h.revocationEpoch.trans (Nat.le_succ _) }
  | appendReconciliation _ _ hcount _ =>
      refine { h with reconciliationCount := hcount, terminalAt := ?_ }
      show (if _ then s.reconciliationCount + 1 else 0) ≤ k.maxReconciliations
      split_ifs
      · exact hcount
      · exact Nat.zero_le _
  | advanceClock hnow => exact { h with now := hnow }
  | rotatePolicy hepoch => exact { h with policyEpoch := hepoch }
  | rotateConfiguration hepoch => exact { h with configurationEpoch := hepoch }
  | revoke hepoch => exact { h with revocationEpoch := hepoch }
  | _ => exact { h with }

theorem Phase.next (h : Phase s) (hn : Next k s s') : Phase s' := by
  cases hn with
  | issue _ hnone _ =>
      rw [Phase, hnone] at h
      obtain ⟨hgrant, hclaim, hdispatch, hreceipt, houtcome⟩ := h
      exact ⟨congrArg (· + 1) hgrant, hclaim, hdispatch, hreceipt, houtcome⟩
  | claim hissued _ _ _ _ =>
      rw [Phase, hissued] at h
      obtain ⟨hgrant, hclaim, hdispatch, hreceipt, houtcome⟩ := h
      exact ⟨hgrant, congrArg (· + 1) hclaim, hdispatch, hreceipt, houtcome⟩
  | startDispatch hclaimed _ =>
      rw [Phase, hclaimed] at h
      obtain ⟨hgrant, hclaim, hdispatch, hreceipt, houtcome⟩ := h
      exact ⟨hgrant, hclaim, congrArg (· + 1) hdispatch, hreceipt, houtcome⟩
  | recordBeforeDispatch houtcome hclaimed _ =>
      rw [Phase, hclaimed] at h
      obtain ⟨hgrant, hclaim, hdispatch, hreceipt, -⟩ := h
      exact ⟨hgrant, hclaim, congrArg (· + 1) hreceipt, .inl ⟨hdispatch, houtcome⟩⟩
  | recordAfterDispatch houtcome hdispatched _ =>
      rw [Phase, hdispatched] at h
      obtain ⟨hgrant, hclaim, hdispatch, hreceipt, -⟩ := h
      exact ⟨hgrant, hclaim, congrArg (· + 1) hreceipt, .inr ⟨hdispatch, houtcome⟩⟩
  | _ => exact h

theorem Inv.next (h : Inv k s) (hn : Next k s s') : Inv k s' := by
  have hbounded := h.bounded.next hn
  have hphase := h.phase.next hn
  cases hn with
  | decide _ hpending =>
      refine { h with bounded := hbounded, phase := hphase, allowed := fun hg ↦ ?_ }
      rw [h.allowed hg] at hpending
      cases hpending
  | issue hallow hnone _ =>
      refine { h with
        bounded := hbounded, phase := hphase, allowed := fun _ ↦ hallow, current := fun hc ↦ ?_ }
      obtain ⟨-, hclaim, -⟩ := hphase
      rw [show s.claimCount = 1 from hc] at hclaim
      cases hclaim
  | claim hissued _ hpolicy hconfiguration hrevocation =>
      exact { h with
        bounded := hbounded
        phase := hphase
        allowed := fun _ ↦ h.allowed (by rw [hissued]; rintro ⟨⟩)
        current := fun _ ↦ ⟨hpolicy, hconfiguration, hrevocation⟩ }
  | startDispatch hclaimed _ =>
      exact { h with
        bounded := hbounded
        phase := hphase
        allowed := fun _ ↦ h.allowed (by rw [hclaimed]; rintro ⟨⟩) }
  | recordBeforeDispatch houtcome hclaimed hnone =>
      refine { h with
        bounded := hbounded
        phase := hphase
        allowed := fun _ ↦ h.allowed (by rw [hclaimed]; rintro ⟨⟩)
        reconciled := fun hcount ↦ ?_ }
      rw [h.reconciled hcount] at hnone
      cases hnone
  | recordAfterDispatch houtcome hdispatched hnone =>
      refine { h with
        bounded := hbounded
        phase := hphase
        allowed := fun _ ↦ h.allowed (by rw [hdispatched]; rintro ⟨⟩)
        reconciled := fun hcount ↦ ?_ }
      rw [h.reconciled hcount] at hnone
      cases hnone
  | @appendReconciliation outcome _ hunknown _ hopen =>
      refine { h with
        bounded := hbounded
        phase := hphase
        reconciled := fun _ ↦ hunknown
        ended := ?_ }
      show 0 < (if outcome.isTerminal then s.reconciliationCount + 1 else 0) →
        s.reconciliationCount + 1 = if outcome.isTerminal then s.reconciliationCount + 1 else 0
      split_ifs
      · exact fun _ ↦ rfl
      · rintro ⟨⟩
  | _ => exact { h with bounded := hbounded, phase := hphase }

theorem Reachable.inv (h : Reachable k s) : Inv k s := by
  induction h with
  | refl => exact .init
  | tail _ hn ih => exact ih.next hn

/-! ## All of them, for all constants -/

theorem Inv.typeOK (h : Inv k s) : TypeOK k s := by
  have hphase := h.phase
  refine { h.bounded with
    grantCount := ?_, claimCount := ?_, dispatchCount := ?_, receiptCount := ?_ }
  all_goals
    cases hstate : s.grantState <;> simp only [Phase, hstate] at hphase <;> omega

theorem Inv.safe (h : Inv k s) : Safe s := by
  have hphase := h.phase
  have hallowed := h.allowed
  have htype := h.typeOK
  constructor
  case claimUsedCurrentEpochs => exact h.current
  case reconciliationRequiresUnknown => exact h.reconciled
  case terminalReconciliationIsAbsorbing => exact h.ended
  case atMostOneGrant => exact htype.grantCount
  case atMostOneClaim => exact htype.claimCount
  case atMostOneDispatch => exact htype.dispatchCount
  case atMostOneReceipt => exact htype.receiptCount
  all_goals
    cases hstate : s.grantState <;> simp only [Phase, hstate] at hphase <;> grind

/-- **The invariants of the specification.**  Every state of every behaviour satisfies
`TypeOK` and the fourteen safety properties, whatever the constants are. -/
theorem specification_safe (h : Reachable k s) : TypeOK k s ∧ Safe s := ⟨h.inv.typeOK, h.inv.safe⟩

/-- The end of a behaviour that runs through all the phases. -/
def finished : State :=
  { init ⟨1, 0, 1⟩ with
    decision := .allow
    grantState := .terminal
    grantPolicyEpoch := 0
    grantConfigurationEpoch := 0
    grantRevocationEpoch := 0
    grantCount := 1
    claimOwner := some .executorB
    claimCount := 1
    policyEpochAtClaim := 0
    configurationEpochAtClaim := 0
    revocationEpochAtClaim := 0
    dispatchCount := 1
    receiptOutcome := .unknown
    receiptCount := 1
    reconciliationCount := 1
    reconciliationHead := .effectConfirmed
    terminalAt := 1 }

theorem finished_reachable : Reachable ⟨1, 0, 1⟩ finished := by
  have h₁ : Reachable ⟨1, 0, 1⟩ _ := .single (@Next.decide _ _ .allow (by decide) rfl)
  have h₂ := h₁.tail (.issue rfl rfl (by decide))
  have h₃ := h₂.tail (@Next.claim _ _ .executorB rfl (by decide) rfl rfl rfl)
  have h₄ := h₃.tail (.startDispatch rfl rfl)
  have h₅ := h₄.tail (@Next.recordAfterDispatch _ _ .unknown (.inr (.inr rfl)) rfl rfl)
  exact h₅.tail (@Next.appendReconciliation _ _ .effectConfirmed (by decide) rfl (by decide) rfl)

theorem finished_safe : TypeOK ⟨1, 0, 1⟩ finished ∧ Safe finished :=
  specification_safe finished_reachable

end Etp.Formal
