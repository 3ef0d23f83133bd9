import Etp.Core.MemoryStore
import Etp.Core.Vectors

/-!
# What the in-memory store uses once

The five maps of `MemoryGrantState` and the history of a run.  `Represented` says that
each index finds exactly what is stored, and what is stored is a verified chain with the
claim, the receipt and the reconciliations in their order.  `SingleUse` speaks of the
answers: a proposal and a decision get one grant, a grant gets one claim and one receipt.

The bridge between the two is that a run only adds to what is stored (`Grown`), so that
whatever a call has reported is still there (`Recorded`).
-/

namespace Etp.Core.MemoryGrantStore

section Store

variable [Sha256]

/-! ## What a call reports -/

/-- What `claim` asks of a registered grant. -/
structure Claimable (stored : StoredGrant) (request : GrantClaimRequest) (nowMs : Nat) : Prop where
  audience : request.expectedAudience = stored.grant.audience
  policyEpoch : request.observedPolicyEpoch = stored.commitment.policyEpoch
  configurationEpoch : request.observedConfigurationEpoch = stored.commitment.configurationEpoch
  preState : request.observedPreStateDigest = stored.proposal.preStateDigest
  resourceClaim : request.observedResourceClaimDigest = stored.proposal.resourceClaimDigest
  not_revoked : request.revoked = false
  started : stored.grant.notBeforeMs ≤ nowMs
  not_expired : nowMs < stored.grant.expiresAtMs
  unclaimed : stored.claim = none

/-- A claim that succeeds, with what it found and what it leaves. -/
structure Wins (g : ExecutionGrant) (request : GrantClaimRequest) (now : Option Nat)
    (s : MemoryGrantState) (stored : StoredGrant) (nowMs : Nat) (c : GrantClaim) : Prop where
  clock : now = some nowMs
  in_order : ∀ last ∈ s.lastTrustedTimeMs, last ≤ nowMs
  grant_valid : validate g = .ok ()
  found : s.grants g.grantId = some stored
  hash_eq : stored.hash = recordHash g
  chain : GrantChain stored.commitment stored.proposal stored.decision stored.grant
  claimable : Claimable stored request nowMs
  answer : c = ⟨g.grantId, stored.hash, request.attemptId, nowMs⟩
  after : (claim g request now s).2 = { s with
    grants := s.grants.insert g.grantId { stored with claim := some c }
    lastTrustedTimeMs := some nowMs }

/-- A receipt that is taken, with what it found. -/
structure Taken (r : EffectReceipt) (s : MemoryGrantState) (id : String) (stored : StoredGrant) :
    Prop where
  indexed : s.grantByHash r.grantHash = some id
  found : s.grants id = some stored
  receipt_for : ReceiptFor stored.proposal stored.grant r
  course :
    (stored.receipt = none ∧
      (recordReceipt r s).2.grants = s.grants.insert id { stored with receipt := some r }) ∨
    ∃ existing, stored.receipt = some existing ∧ recordHash existing = recordHash r ∧
      (recordReceipt r s).2 = s

section Answers

variable {s : MemoryGrantState}

omit [Sha256] in
theorem atomically_fst_ok {α : Type} {op : Except ProtocolError (α × MemoryGrantState)} {a : α}
    (h : (atomically s op).1 = .ok a) : op = .ok (a, (atomically s op).2) := by
  cases op with
  | error e => cases h
  | ok p =>
      cases h
      rfl

theorem claimPreamble_eq_ok {g : ExecutionGrant} {request : GrantClaimRequest} {now : Option Nat}
    {nowMs : Nat} {hash : Digest32} : claimPreamble g request now s = .ok (nowMs, hash) ↔
      request.validate = .ok () ∧ now = some nowMs ∧ nowMs ≤ maxSafeInteger ∧
        validate g = .ok () ∧ hash = recordHash g ∧
          ∀ last ∈ s.lastTrustedTimeMs, last ≤ nowMs := by
  simp only [claimPreamble, bind_eq_ok, okOr_eq_ok, validateSafeInteger_eq_ok, commitment_eq_ok,
    rejectIf_eq_ok, Except.ok.injEq, Prod.mk.injEq, not_exists, not_and, not_lt, exists_const]
  constructor
  · rintro ⟨⟨⟩, hrequest, _, hnow, hsafe, _, ⟨hg, rfl⟩, horder, rfl, rfl⟩
    exact ⟨hrequest, hnow, hsafe, hg, rfl, horder⟩
  · rintro ⟨hrequest, hnow, hsafe, hg, rfl, horder⟩
    exact ⟨(), hrequest, _, hnow, hsafe, _, ⟨hg, rfl⟩, horder, rfl, rfl⟩

theorem claimLocked_eq_ok {g : ExecutionGrant} {request : GrantClaimRequest} {nowMs : Nat}
    {hash : Digest32} {c : GrantClaim} {s' : MemoryGrantState} :
    claimLocked g request nowMs hash s = .ok (c, s') ↔
      ∃ stored, s.grants g.grantId = some stored ∧ stored.hash = hash ∧
        GrantChain stored.commitment stored.proposal stored.decision stored.grant ∧
        recordHash stored.grant = stored.hash ∧ Claimable stored request nowMs ∧
        c = ⟨g.grantId, stored.hash, request.attemptId, nowMs⟩ ∧
        s' = { s with grants := s.grants.insert g.grantId { stored with claim := some c } } := by
  simp only [claimLocked, bind_eq_ok, okOr_eq_ok, verifyAuthorization_eq_ok, rejectIf_eq_ok,
    Except.ok.injEq, Prod.mk.injEq, exists_const, not_or, not_not, not_lt, ge_iff_le, not_le,
    Bool.not_eq_true, Option.isSome_eq_false_iff, Option.isNone_iff_eq_none]
  constructor
  · rintro ⟨stored, hst, hhash, _, ⟨hchain, rfl⟩, hown, h₁, ⟨h₂, h₃⟩, h₄, h₅, h₆, h₇, h₈, h₉, rfl,
      rfl⟩
    exact ⟨stored, hst, hhash, hchain, hown, ⟨h₁, h₂, h₃, h₄, h₅, h₆, h₇, h₈, h₉⟩, rfl, rfl⟩
  · rintro ⟨stored, hst, hhash, hchain, hown, ⟨h₁, h₂, h₃, h₄, h₅, h₆, h₇, h₈, h₉⟩, rfl, rfl⟩
    exact ⟨stored, hst, hhash, _, ⟨hchain, rfl⟩, hown, h₁, ⟨h₂, h₃⟩, h₄, h₅, h₆, h₇, h₈, h₉, rfl,
      rfl⟩

theorem exists_wins {g : ExecutionGrant} {request : GrantClaimRequest} {now : Option Nat}
    {c : GrantClaim} (h : (claim g request now s).1 = .ok c) :
    ∃ stored nowMs, Wins g request now s stored nowMs c := by
  cases hpre : claimPreamble g request now s with
  | error e =>
      rw [claim, hpre] at h
      cases h
  | ok p =>
      obtain ⟨nowMs, hash⟩ := p
      have hclaim : claim g request now s =
          atomically { s with lastTrustedTimeMs := some nowMs }
            (claimLocked g request nowMs hash { s with lastTrustedTimeMs := some nowMs }) := by
        rw [claim, hpre]
      rw [hclaim] at h
      have hlocked := atomically_fst_ok h
      obtain ⟨-, hnow, -, hg, rfl, horder⟩ := claimPreamble_eq_ok.mp hpre
      obtain ⟨stored, hst, hhash, hchain, -, hable, hc, hafter⟩ := claimLocked_eq_ok.mp hlocked
      refine ⟨stored, nowMs, hnow, horder, hg, hst, hhash, hchain, hable, hc, ?_⟩
      rw [hclaim, hafter]

/-- A claim of the grant that was just registered. -/
theorem claim_registered {c p d g} {request : GrantClaimRequest} {nowMs : Nat}
    (hchain : GrantChain c p d g) (hrequest : request.validate = .ok ())
    (hsafe : nowMs ≤ maxSafeInteger) (horder : ∀ last ∈ s.lastTrustedTimeMs, last ≤ nowMs)
    (hable : Claimable (newGrant c p d g) request nowMs) :
    (claim g request (some nowMs) (registered c p d g s)).2.grants g.grantId =
      some { newGrant c p d g with
        claim := some ⟨g.grantId, recordHash g, request.attemptId, nowMs⟩ } := by
  have hpre : claimPreamble g request (some nowMs) (registered c p d g s) =
      .ok (nowMs, recordHash g) :=
    claimPreamble_eq_ok.mpr ⟨hrequest, rfl, hsafe, hchain.grant_valid, rfl, horder⟩
  have hfound : (registered c p d g s).grants g.grantId = some (newGrant c p d g) :=
    insert_eq_some.mpr (.inl ⟨rfl, rfl⟩)
  have hlocked : claimLocked g request nowMs (recordHash g)
      { registered c p d g s with lastTrustedTimeMs := some nowMs } = .ok (_, _) :=
    claimLocked_eq_ok.mpr ⟨_, hfound, rfl, hchain, rfl, hable, rfl, rfl⟩
  rw [claim, hpre]
  dsimp only
  rw [hlocked]
  exact insert_eq_some.mpr (.inl ⟨rfl, rfl⟩)

theorem registerLocked_of_fst_ok {c p d g} {h : Digest32} (hok : (register c p d g s).1 = .ok h) :
    GrantChain c p d g ∧ s.grants g.grantId = none ∧ s.grantByDecision (recordHash d) = none ∧
      s.grantByProposal (recordHash p) = none ∧ h = recordHash g ∧
        (register c p d g s).2 = registered c p d g s :=
  registerLocked_eq_ok.mp (atomically_fst_ok hok)

theorem exists_taken {r : EffectReceipt} {hash : Digest32}
    (h : (recordReceipt r s).1 = .ok hash) : ∃ id stored, Taken r s id stored := by
  have hlocked := atomically_fst_ok h
  simp only [recordReceiptLocked, bind_eq_ok, okOr_eq_ok, verifyChain_eq_ok] at hlocked
  obtain ⟨_, -, id, hid, stored, hst, _, -, _, -, _, ⟨⟨-, hfor⟩, rfl⟩, hcourse⟩ := hlocked
  refine ⟨id, stored, hid, hst, hfor, ?_⟩
  cases hrc : stored.receipt with
  | none =>
      simp only [hrc, Except.ok.injEq, Prod.mk.injEq] at hcourse
      exact .inl ⟨rfl, (congrArg MemoryGrantState.grants hcourse.2).symm⟩
  | some existing =>
      simp only [hrc, bind_eq_ok, commitment_eq_ok, rejectIf_eq_ok, not_not, exists_const,
        Except.ok.injEq, Prod.mk.injEq] at hcourse
      obtain ⟨_, ⟨-, rfl⟩, heq, -, hsame⟩ := hcourse
      exact .inr ⟨existing, rfl, heq, hsame.symm⟩

end Answers

/-! ## What a run adds -/

/-- The entry of a grant at a later time. -/
structure Grown (st st' : StoredGrant) : Prop where
  hash : st'.hash = st.hash
  commitment : st'.commitment = st.commitment
  proposal : st'.proposal = st.proposal
  decision : st'.decision = st.decision
  grant : st'.grant = st.grant
  claim : ∀ c ∈ st.claim, c ∈ st'.claim
  receipt : ∀ r ∈ st.receipt, r ∈ st'.receipt
  reconciliations : st.reconciliations <+: st'.reconciliations

omit [Sha256] in
theorem Grown.refl (st : StoredGrant) : Grown st st :=
  ⟨rfl, rfl, rfl, rfl, rfl, fun _ h ↦ h, fun _ h ↦ h, List.prefix_rfl⟩

omit [Sha256] in
theorem Grown.trans {st st' st'' : StoredGrant} (h : Grown st st') (h' : Grown st' st'') :
    Grown st st'' where
  hash := h'.hash.trans h.hash
  commitment := h'.commitment.trans h.commitment
  proposal := h'.proposal.trans h.proposal
  decision := h'.decision.trans h.decision
  grant := h'.grant.trans h.grant
  claim := fun c hc ↦ h'.claim c (h.claim c hc)
  receipt := fun r hr ↦ h'.receipt r (h.receipt r hr)
  reconciliations := h.reconciliations.trans h'.reconciliations

/-- Every entry of a state is in a later one. -/
def Keeps (s s' : MemoryGrantState) : Prop :=
  ∀ id st, s.grants id = some st → ∃ st', s'.grants id = some st' ∧ Grown st st'

section Growth

variable {s s' s'' : MemoryGrantState} {call : Call}

omit [Sha256] in
theorem Keeps.refl (s : MemoryGrantState) : Keeps s s := fun _ st hst ↦ ⟨st, hst, .refl st⟩

omit [Sha256] in
theorem Keeps.trans (h : Keeps s s') (h' : Keeps s' s'') : Keeps s s'' := by
  intro id st hst
  obtain ⟨st', hst', hgrown⟩ := h id st hst
  obtain ⟨st'', hst'', hgrown'⟩ := h' id st' hst'
  exact ⟨st'', hst'', hgrown.trans hgrown'⟩

omit [Sha256] in
theorem keeps_of_replace {id : String} {old new : StoredGrant} (hold : s.grants id = some old)
    (hgrants : s'.grants = s.grants.insert id new) (hgrown : Grown old new) : Keeps s s' := by
  intro j st hst
  rw [hgrants]
  by_cases hj : j = id
  · subst hj
    rw [hold] at hst
    cases hst
    exact ⟨new, insert_eq_some.mpr (.inl ⟨rfl, rfl⟩), hgrown⟩
  · exact ⟨st, insert_eq_some.mpr (.inr ⟨hj, hst⟩), .refl st⟩

theorem Change.keeps (h : Change s call s') : Keeps s s' := by
  cases h with
  | time t => exact fun _ st hst ↦ ⟨st, hst, .refl st⟩
  | registered hchain hnew hdecision hproposal =>
      intro id st hst
      refine ⟨st, insert_eq_some.mpr (.inr ⟨?_, hst⟩), .refl st⟩
      rintro rfl
      rw [hnew] at hst
      cases hst
  | claimed claim t hst hfree =>
      refine keeps_of_replace hst rfl ⟨rfl, rfl, rfl, rfl, rfl, ?_, fun _ h ↦ h, List.prefix_rfl⟩
      intro c hc
      rw [hfree] at hc
      cases hc
  | received hid hst hclaim hnone hfor =>
      refine keeps_of_replace hst rfl ⟨rfl, rfl, rfl, rfl, rfl, fun _ h ↦ h, ?_, List.prefix_rfl⟩
      intro r hr
      rw [hnone] at hr
      cases hr
  | appended hst hreceipt hlen hdup hverify =>
      exact keeps_of_replace hst rfl
        ⟨rfl, rfl, rfl, rfl, rfl, fun _ h ↦ h, fun _ h ↦ h, List.prefix_append _ _⟩

theorem keeps_step (s : MemoryGrantState) (call : Call) : Keeps s (step s call) :=
  (change_of_step s call).keeps

theorem keeps_run (s : MemoryGrantState) (calls : List Call) :
    Keeps s (Machine.run step s calls) :=
  Machine.run_mono .refl .trans (fun _ _ _ ↦ trivial) (fun s call (_ : True) ↦ keeps_step s call)
    trivial calls

end Growth

/-! ## The indices -/

/-- The index finds exactly the entries with a key. -/
def Indexes (index : HashMap Digest32 String) (key : StoredGrant → Digest32)
    (grants : HashMap String StoredGrant) : Prop :=
  ∀ k id, index k = some id ↔ ∃ st, grants id = some st ∧ key st = k

section Indexes

variable {index : HashMap Digest32 String} {key : StoredGrant → Digest32}
  {grants : HashMap String StoredGrant} {id : String} {old new : StoredGrant}

omit [Sha256] in
/-- At most one entry has a given key. -/
theorem Indexes.unique (h : Indexes index key grants) {id' : String} {st st' : StoredGrant}
    (hst : grants id = some st) (hst' : grants id' = some st') (hkey : key st = key st') :
    id = id' := by
  have hid := (h (key st) id).mpr ⟨st, hst, rfl⟩
  have hid' := (h (key st) id').mpr ⟨st', hst', hkey.symm⟩
  rw [hid] at hid'
  exact Option.some.inj hid'

omit [Sha256] in
theorem Indexes.insert (h : Indexes index key grants) {k : Digest32} (hkey : key new = k)
    (hnew : grants id = none) (hfresh : index k = none) :
    Indexes (index.insert k id) key (grants.insert id new) := by
  subst hkey
  intro k j
  simp only [insert_eq_some]
  constructor
  · rintro (⟨rfl, rfl⟩ | ⟨-, hk⟩)
    · exact ⟨new, .inl ⟨rfl, rfl⟩, rfl⟩
    · obtain ⟨st, hst, heq⟩ := (h k j).mp hk
      refine ⟨st, .inr ⟨?_, hst⟩, heq⟩
      rintro rfl
      rw [hnew] at hst
      cases hst
  · rintro ⟨st, ⟨rfl, rfl⟩ | ⟨-, hst⟩, rfl⟩
    · exact .inl ⟨rfl, rfl⟩
    · have hk := (h (key st) j).mpr ⟨st, hst, rfl⟩
      refine .inr ⟨fun heq ↦ ?_, hk⟩
      rw [heq, hfresh] at hk
      cases hk

omit [Sha256] in
theorem Indexes.replace (h : Indexes index key grants) (hold : grants id = some old)
    (hkey : key new = key old) : Indexes index key (grants.insert id new) := by
  intro k j
  rw [h k j]
  simp only [insert_eq_some]
  constructor
  · rintro ⟨st, hst, rfl⟩
    by_cases hj : j = id
    · subst hj
      rw [hold] at hst
      cases hst
      exact ⟨new, .inl ⟨rfl, rfl⟩, hkey⟩
    · exact ⟨st, .inr ⟨hj, hst⟩, rfl⟩
  · rintro ⟨st, ⟨rfl, rfl⟩ | ⟨-, hst⟩, rfl⟩
    · exact ⟨old, hold, hkey.symm⟩
    · exact ⟨st, hst, rfl⟩

end Indexes

/-- The part of the representation that no collision can break. -/
structure Filed (s : MemoryGrantState) : Prop where
  by_proposal : Indexes s.grantByProposal (fun st ↦ recordHash st.proposal) s.grants
  by_decision : Indexes s.grantByDecision (fun st ↦ recordHash st.decision) s.grants
  receipt_claim : ∀ id st, s.grants id = some st → ∀ r ∈ st.receipt, ∃ c ∈ st.claim,
    r.attemptId = c.attemptId ∧ r.claimedAtMs = c.claimedAtMs

theorem filed_empty : Filed empty := by
  refine ⟨fun k id ↦ ?_, fun k id ↦ ?_, ?_⟩
  · simp [MemoryGrantStore.empty]
  · simp [MemoryGrantStore.empty]
  · rintro _ _ ⟨⟩

theorem Filed.change {s s' : MemoryGrantState} {call : Call} (h : Filed s)
    (hc : Change s call s') : Filed s' := by
  have hreplace : ∀ {id old new}, s.grants id = some old → s'.grants = s.grants.insert id new →
      new.proposal = old.proposal → new.decision = old.decision →
      s'.grantByProposal = s.grantByProposal → s'.grantByDecision = s.grantByDecision →
      (∀ r ∈ new.receipt, ∃ c ∈ new.claim, r.attemptId = c.attemptId ∧
        r.claimedAtMs = c.claimedAtMs) → Filed s' := by
    intro id old new hold hgrants hproposal hdecision hp hd hreceipt
    refine ⟨?_, ?_, ?_⟩
    · rw [hgrants, hp]
      exact h.by_proposal.replace hold (by rw [hproposal])
    · rw [hgrants, hd]
      exact h.by_decision.replace hold (by rw [hdecision])
    · intro j st hst
      rw [hgrants, insert_eq_some] at hst
      rcases hst with ⟨rfl, rfl⟩ | ⟨-, hst⟩
      · exact hreceipt
      · exact h.receipt_claim j st hst
  cases hc with
  | time t => exact ⟨h.by_proposal, h.by_decision, h.receipt_claim⟩
  | registered hchain hnew hdecision hproposal =>
      refine ⟨h.by_proposal.insert rfl hnew hproposal, h.by_decision.insert rfl hnew hdecision, ?_⟩
      intro j st hst
      simp only [MemoryGrantStore.registered, insert_eq_some] at hst
      rcases hst with ⟨rfl, rfl⟩ | ⟨-, hst⟩
      · rintro _ ⟨⟩
      · exact h.receipt_claim j st hst
  | claimed claim t hst hfree =>
      refine hreplace hst rfl rfl rfl rfl rfl ?_
      intro r hr
      obtain ⟨c, hc, -⟩ := h.receipt_claim _ _ hst r hr
      rw [hfree] at hc
      cases hc
  | received hid hst hclaim hnone hfor =>
      refine hreplace hst rfl rfl rfl rfl rfl ?_
      rintro _ ⟨⟩
      exact hclaim
  | appended hst hreceipt hlen hdup hverify =>
      have hclaims := h.receipt_claim _ _ hst
      exact hreplace hst rfl rfl rfl rfl rfl hclaims

theorem filed_run (calls : List Call) : Filed (run calls) :=
  Machine.run_invariant (fun s call h ↦ h.change (change_of_step s call)) filed_empty calls

/-- The representation invariant of the store. -/
structure Represented (s : MemoryGrantState) : Prop where
  own_id : ∀ id st, s.grants id = some st → st.grant.grantId = id ∧ st.hash = recordHash st.grant
  by_hash : Indexes s.grantByHash (fun st ↦ recordHash st.grant) s.grants
  by_proposal : Indexes s.grantByProposal (fun st ↦ recordHash st.proposal) s.grants
  by_decision : Indexes s.grantByDecision (fun st ↦ recordHash st.decision) s.grants
  by_receipt : ∀ k id, s.grantByReceipt k = some id ↔
    ∃ st, s.grants id = some st ∧ ∃ r ∈ st.receipt, recordHash r = k
  verifies : ∀ id st, s.grants id = some st → Verifies (bundle st)
  receipt_claim : ∀ id st, s.grants id = some st → ∀ r ∈ st.receipt, ∃ c ∈ st.claim,
    r.attemptId = c.attemptId ∧ r.claimedAtMs = c.claimedAtMs
  reconciled : ∀ id st, s.grants id = some st → st.reconciliations ≠ [] →
    ∃ r ∈ st.receipt, r.outcome = .unknown

theorem Invariant.represented {S : Set (List UInt8)} {s : MemoryGrantState} (h : Invariant S s)
    (hfiled : Filed s) : Represented s where
  own_id := fun id st hst ↦ ⟨(h.stored id st hst).id_eq, (h.stored id st hst).hash_eq⟩
  by_hash := by
    intro k id
    refine ⟨h.hash_index k id, ?_⟩
    rintro ⟨st, hst, rfl⟩
    exact (h.stored id st hst).by_hash
  by_proposal := hfiled.by_proposal
  by_decision := hfiled.by_decision
  by_receipt := by
    intro k id
    refine ⟨h.receipt_index k id, ?_⟩
    rintro ⟨st, hst, r, hr, rfl⟩
    exact (h.stored id st hst).by_receipt r hr
  verifies := fun id st hst ↦ verifies_iff.mpr (h.stored id st hst).accepted
  receipt_claim := hfiled.receipt_claim
  reconciled := by
    intro id st hst hne
    obtain ⟨r, hr, hhistory⟩ := (h.stored id st hst).accepted.history hne
    obtain ⟨x, hx⟩ := List.exists_mem_of_ne_nil _ hne
    exact ⟨r, hr, (hhistory.each x hx).unknown⟩

/-! ## The history of a run -/

/-- The grant that a call registered. -/
def registrationOf (s : MemoryGrantState) : Call → Option StoredGrant
  | .register c p d g => (register c p d g s).1.toOption.map fun _ ↦ newGrant c p d g
  | _ => none

/-- The claim that a call won. -/
def claimOf (s : MemoryGrantState) : Call → Option GrantClaim
  | .claim g request now => (claim g request now s).1.toOption
  | _ => none

/-- The receipt that a call handed in and that was taken. -/
def receiptOf (s : MemoryGrantState) : Call → Option EffectReceipt
  | .recordReceipt r => (recordReceipt r s).1.toOption.map fun _ ↦ r
  | _ => none

/-- What the calls of a run reported, in their order. -/
def reported {α : Type} (report : MemoryGrantState → Call → Option α) (calls : List Call) :
    List α :=
  (Machine.events step empty calls).filterMap fun event ↦ report event.1 event.2

theorem reported_concat {α : Type} (report : MemoryGrantState → Call → Option α)
    (calls : List Call) (call : Call) :
    reported report (calls ++ [call]) =
      reported report calls ++ (report (run calls) call).toList := by
  have hlast : [(run calls, call)].filterMap (fun event ↦ report event.1 event.2) =
      (report (run calls) call).toList := by
    cases h : report (run calls) call <;> simp [h]
  rw [reported, Machine.events_concat, List.filterMap_append]
  exact congrArg _ hlast

theorem mem_reported_append {α : Type} {report : MemoryGrantState → Call → Option α}
    {calls : List Call} {a : α} (h : a ∈ reported report calls) (more : List Call) :
    a ∈ reported report (calls ++ more) := by
  rw [reported, Machine.events_append, List.filterMap_append]
  exact List.mem_append_left _ h

/-- One grant, one claim, one receipt. -/
structure SingleUse (calls : List Call) : Prop where
  /-- No two registrations have one proposal. -/
  proposals : ((reported registrationOf calls).map fun st ↦ recordHash st.proposal).Nodup
  /-- No two registrations have one decision. -/
  decisions : ((reported registrationOf calls).map fun st ↦ recordHash st.decision).Nodup
  /-- No two claims are of one grant, by its identifier or by its hash. -/
  claims : ((reported claimOf calls).map GrantClaim.grantId).Nodup
  claimed_hashes : ((reported claimOf calls).map GrantClaim.grantHash).Nodup
  /-- All receipts of one grant are the same. -/
  receipts : ∀ r ∈ reported receiptOf calls, ∀ r' ∈ reported receiptOf calls,
    r.grantHash = r'.grantHash → r = r'
  /-- A grant that was claimed cannot be claimed. -/
  consumed : ∀ c ∈ reported claimOf calls, ∀ g request now,
    g.grantId = c.grantId ∨ recordHash g = c.grantHash →
      ∃ e, (claim g request now (run calls)).1 = .error e

section History

variable {s : MemoryGrantState} {call : Call}

theorem registrationOf_eq_some {st : StoredGrant} (h : registrationOf s call = some st) :
    s.grantByDecision (recordHash st.decision) = none ∧
      s.grantByProposal (recordHash st.proposal) = none ∧
        (step s call).grants st.grant.grantId = some st := by
  cases call with
  | register c p d g =>
      obtain ⟨hash, hok, rfl⟩ := Option.map_eq_some_iff.mp h
      cases hreg : (register c p d g s).1 with
      | error e =>
          rw [hreg] at hok
          cases hok
      | ok hash' =>
          obtain ⟨-, -, hdecision, hproposal, -, hafter⟩ := registerLocked_of_fst_ok hreg
          refine ⟨hdecision, hproposal, ?_⟩
          show (register c p d g s).2.grants _ = _
          rw [hafter]
          exact insert_eq_some.mpr (.inl ⟨rfl, rfl⟩)
  | _ => cases h

theorem claimOf_eq_some {c : GrantClaim} (h : claimOf s call = some c) :
    ∃ g request now stored nowMs, call = .claim g request now ∧
      Wins g request now s stored nowMs c := by
  cases call with
  | claim g request now =>
      cases hclaim : (claim g request now s).1 with
      | error e =>
          rw [claimOf, hclaim] at h
          cases h
      | ok c' =>
          rw [claimOf, hclaim] at h
          cases h
          obtain ⟨stored, nowMs, hwins⟩ := exists_wins hclaim
          exact ⟨g, request, now, stored, nowMs, rfl, hwins⟩
  | _ => cases h

theorem receiptOf_eq_some {r : EffectReceipt} (h : receiptOf s call = some r) :
    call = .recordReceipt r ∧ ∃ id stored, Taken r s id stored := by
  cases call with
  | recordReceipt r' =>
      obtain ⟨hash, hok, rfl⟩ := Option.map_eq_some_iff.mp h
      cases hrec : (recordReceipt r' s).1 with
      | error e =>
          rw [hrec] at hok
          cases hok
      | ok hash' => exact ⟨rfl, exists_taken hrec⟩
  | _ => cases h

/-- Whatever a call of the run reported is still there. -/
structure Recorded (calls : List Call) : Prop where
  registrations : ∀ st ∈ reported registrationOf calls, ∃ st',
    (run calls).grants st.grant.grantId = some st' ∧ Grown st st'
  claims : ∀ c ∈ reported claimOf calls, ∃ st,
    (run calls).grants c.grantId = some st ∧ st.claim = some c ∧ st.hash = c.grantHash
  receipts : ∀ r ∈ reported receiptOf calls, ∃ id st,
    (run calls).grants id = some st ∧ st.receipt = some r

theorem recorded_nil : Recorded [] := by
  refine ⟨?_, ?_, ?_⟩ <;> rintro _ ⟨⟩

theorem mem_reported_concat {α : Type} {report : MemoryGrantState → Call → Option α}
    {calls : List Call} {a : α} (h : a ∈ reported report (calls ++ [call])) :
    a ∈ reported report calls ∨ report (run calls) call = some a := by
  rw [reported_concat, List.mem_append, Option.mem_toList] at h
  exact h

theorem run_concat (calls : List Call) (call : Call) :
    run (calls ++ [call]) = step (run calls) call := Machine.run_concat _ _ _

/-- A receipt that is taken is the one that is stored. -/
theorem Taken.stored {S : Set (List UInt8)} {r : EffectReceipt} {id : String}
    {stored : StoredGrant} (h : Taken r s id stored) (hS : CollisionFree S) (hinv : Invariant S s)
    (hr : preimage r ∈ S) :
    ∃ st', (recordReceipt r s).2.grants id = some st' ∧ st'.receipt = some r := by
  rcases h.course with ⟨-, hafter⟩ | ⟨existing, hexisting, heq, hsame⟩
  · rw [hafter]
    exact ⟨_, insert_eq_some.mpr (.inl ⟨rfl, rfl⟩), rfl⟩
  · have hw := hinv.stored id stored h.found
    have hknown : preimage existing ∈ S := hw.known (.inl (.inr ⟨existing, hexisting, rfl⟩))
    have hfor := hw.accepted.receiptFor (g := stored.grant) rfl hexisting
    have hsame' : existing = r := eq_of_recordHash_eq hS hknown hr hfor.receipt_valid
      h.receipt_for.receipt_valid heq
    rw [hsame]
    exact ⟨stored, h.found, by rw [hexisting, hsame']⟩

theorem Recorded.concat {S : Set (List UInt8)} {calls : List Call} (hS : CollisionFree S)
    (hsub : call.preimages ⊆ S) (hinv : Invariant S (run calls)) (h : Recorded calls) :
    Recorded (calls ++ [call]) := by
  have hkeeps : Keeps (run calls) (run (calls ++ [call])) := by
    rw [run_concat]
    exact keeps_step _ call
  refine ⟨fun st hst ↦ ?_, fun c hc ↦ ?_, fun r hr ↦ ?_⟩
  · rcases mem_reported_concat hst with hst | hst
    · obtain ⟨st', hst', hgrown⟩ := h.registrations st hst
      obtain ⟨st'', hst'', hgrown'⟩ := hkeeps _ _ hst'
      exact ⟨st'', hst'', hgrown.trans hgrown'⟩
    · rw [run_concat]
      exact ⟨st, (registrationOf_eq_some hst).2.2, .refl st⟩
  · rcases mem_reported_concat hc with hc | hc
    · obtain ⟨st, hst, hclaim, hhash⟩ := h.claims c hc
      obtain ⟨st', hst', hgrown⟩ := hkeeps _ _ hst
      exact ⟨st', hst', hgrown.claim c hclaim, hgrown.hash.trans hhash⟩
    · obtain ⟨g, request, now, stored, nowMs, rfl, hwins⟩ := claimOf_eq_some hc
      have hid : c.grantId = g.grantId := by rw [hwins.answer]
      rw [run_concat, hid]
      show ∃ st, (claim g request now (run calls)).2.grants g.grantId = some st ∧ _
      rw [hwins.after]
      refine ⟨_, insert_eq_some.mpr (.inl ⟨rfl, rfl⟩), rfl, ?_⟩
      rw [hwins.answer]
  · rcases mem_reported_concat hr with hr | hr
    · obtain ⟨id, st, hst, hreceipt⟩ := h.receipts r hr
      obtain ⟨st', hst', hgrown⟩ := hkeeps _ _ hst
      exact ⟨id, st', hst', hgrown.receipt r hreceipt⟩
    · obtain ⟨rfl, id, stored, htaken⟩ := receiptOf_eq_some hr
      obtain ⟨st', hst', hreceipt⟩ := htaken.stored hS hinv (hsub rfl)
      rw [run_concat]
      exact ⟨id, st', hst', hreceipt⟩

theorem recorded_run {S : Set (List UInt8)} (hS : CollisionFree S) (calls : List Call)
    (hsub : presented calls ⊆ S) : Recorded calls := by
  induction calls using List.reverseRecOn with
  | nil => exact recorded_nil
  | append_singleton calls call ih =>
      have hcalls : presented calls ⊆ S := fun x ⟨c, hc, hx⟩ ↦ hsub ⟨c, by simp [hc], hx⟩
      have hcall : call.preimages ⊆ S := fun x hx ↦ hsub ⟨call, by simp, hx⟩
      exact (ih hcalls).concat hS hcall (invariant_run hS calls hcalls)

end History

/-! ## Single use -/

section SingleUse

variable {S : Set (List UInt8)} {s : MemoryGrantState} {calls : List Call} {call : Call}

omit [Sha256] in
/-- A list that grows by what occurs in it nowhere. -/
theorem nodup_append_toList {α β : Type} {f : α → β} {l : List α} {o : Option α}
    (h : (l.map f).Nodup) (hnew : ∀ a, o = some a → ∀ b ∈ l, f b ≠ f a) :
    ((l ++ o.toList).map f).Nodup := by
  cases o with
  | none => rwa [Option.toList_none, List.append_nil]
  | some a =>
      rw [List.map_append, List.nodup_append]
      refine ⟨h, List.nodup_singleton _, ?_⟩
      intro x hx y hy
      obtain ⟨b, hb, rfl⟩ := List.mem_map.mp hx
      rw [Option.toList_some, List.map_singleton, List.mem_singleton] at hy
      rw [hy]
      exact hnew a rfl b hb

/-- A claim is of another grant than all claims before it. -/
theorem Wins.other {g : ExecutionGrant} {request : GrantClaimRequest} {now : Option Nat}
    {stored : StoredGrant} {nowMs : Nat} {c c' : GrantClaim}
    (hwins : Wins g request now s stored nowMs c) (hrep : Represented s) {st : StoredGrant}
    (hst : s.grants c'.grantId = some st) (hclaim : st.claim = some c')
    (hhash : st.hash = c'.grantHash) : c'.grantId ≠ c.grantId ∧ c'.grantHash ≠ c.grantHash := by
  have hid : c.grantId = g.grantId := by rw [hwins.answer]
  have hne : c'.grantId ≠ c.grantId := by
    intro heq
    rw [heq, hid, hwins.found] at hst
    cases hst
    rw [hwins.claimable.unclaimed] at hclaim
    cases hclaim
  refine ⟨hne, fun heq ↦ hne ?_⟩
  have hsame : recordHash st.grant = recordHash stored.grant := by
    rw [← (hrep.own_id _ _ hst).2, hhash, heq, ← (hrep.own_id _ _ hwins.found).2, hwins.answer]
  rw [hid]
  exact hrep.by_hash.unique hst hwins.found hsame

theorem consumed_of_recorded (hrep : Represented (run calls)) (hrec : Recorded calls)
    {c : GrantClaim} (hc : c ∈ reported claimOf calls) {g : ExecutionGrant}
    {request : GrantClaimRequest} {now : Option Nat}
    (hg : g.grantId = c.grantId ∨ recordHash g = c.grantHash) :
    ∃ e, (claim g request now (run calls)).1 = .error e := by
  cases hclaim : (claim g request now (run calls)).1 with
  | error e => exact ⟨e, rfl⟩
  | ok c' =>
      obtain ⟨st, hst, hstored, hhash⟩ := hrec.claims c hc
      obtain ⟨stored, nowMs, hwins⟩ := exists_wins hclaim
      obtain ⟨hid, hother⟩ := hwins.other hrep hst hstored hhash
      rcases hg with hg | hg
      · exact absurd (by rw [hwins.answer, hg]) hid
      · exact absurd (by rw [hwins.answer, hwins.hash_eq, hg]) hother

/-- Two receipts of one grant that were both taken are the same. -/
theorem Taken.eq (hS : CollisionFree S) (hinv : Invariant S s) {r r' : EffectReceipt}
    {id id' : String} {stored st : StoredGrant} (h : Taken r s id stored) (hr : preimage r ∈ S)
    (hst : s.grants id' = some st) (hreceipt : st.receipt = some r')
    (hgrant : r.grantHash = r'.grantHash) : r = r' := by
  have hw := hinv.stored id' st hst
  have hfor := hw.accepted.receiptFor (g := st.grant) rfl hreceipt
  have hid : s.grantByHash r.grantHash = some id' := by
    rw [hgrant, hfor.receipt_grant_hash]
    exact hw.by_hash
  rw [h.indexed] at hid
  cases hid
  obtain ⟨st', hst', hreceipt'⟩ := h.stored hS hinv hr
  rcases h.course with ⟨hnone, -⟩ | ⟨existing, hexisting, -, hsame⟩
  · rw [h.found] at hst
    cases hst
    rw [hnone] at hreceipt
    cases hreceipt
  · rw [hsame, hst] at hst'
    cases hst'
    rw [hreceipt] at hreceipt'
    exact (Option.some.inj hreceipt').symm

theorem singleUse_nil : SingleUse [] := by
  refine ⟨List.nodup_nil, List.nodup_nil, List.nodup_nil, List.nodup_nil, ?_, ?_⟩ <;>
    rintro _ ⟨⟩

theorem SingleUse.concat (hS : CollisionFree S) (hsub : call.preimages ⊆ S)
    (hinv : Invariant S (run calls)) (hrec : Recorded calls) (h : SingleUse calls) :
    SingleUse (calls ++ [call]) := by
  have hrep := hinv.represented (filed_run calls)
  have hnew : ∀ st, registrationOf (run calls) call = some st →
      ∀ x ∈ reported registrationOf calls, recordHash x.proposal ≠ recordHash st.proposal ∧
        recordHash x.decision ≠ recordHash st.decision := by
    intro st hst x hx
    obtain ⟨st', hst', hgrown⟩ := hrec.registrations x hx
    obtain ⟨hdecision, hproposal, -⟩ := registrationOf_eq_some hst
    constructor
    · intro heq
      have hfound := (hrep.by_proposal (recordHash x.proposal) _).mpr
        ⟨st', hst', congrArg recordHash hgrown.proposal⟩
      rw [heq, hproposal] at hfound
      cases hfound
    · intro heq
      have hfound := (hrep.by_decision (recordHash x.decision) _).mpr
        ⟨st', hst', congrArg recordHash hgrown.decision⟩
      rw [heq, hdecision] at hfound
      cases hfound
  have hclaims : ∀ c, claimOf (run calls) call = some c → ∀ x ∈ reported claimOf calls,
      x.grantId ≠ c.grantId ∧ x.grantHash ≠ c.grantHash := by
    intro c hc x hx
    obtain ⟨st, hst, hclaim, hhash⟩ := hrec.claims x hx
    obtain ⟨g, request, now, stored, nowMs, rfl, hwins⟩ := claimOf_eq_some hc
    exact hwins.other hrep hst hclaim hhash
  have hreceipts : ∀ r, receiptOf (run calls) call = some r → ∀ x ∈ reported receiptOf calls,
      r.grantHash = x.grantHash → r = x := by
    intro r hr x hx hgrant
    obtain ⟨id, st, hst, hreceipt⟩ := hrec.receipts x hx
    obtain ⟨rfl, id', stored, htaken⟩ := receiptOf_eq_some hr
    exact htaken.eq hS hinv (hsub rfl) hst hreceipt hgrant
  refine ⟨?_, ?_, ?_, ?_, ?_, ?_⟩
  · rw [reported_concat]
    exact nodup_append_toList h.proposals fun st hst x hx ↦ (hnew st hst x hx).1
  · rw [reported_concat]
    exact nodup_append_toList h.decisions fun st hst x hx ↦ (hnew st hst x hx).2
  · rw [reported_concat]
    exact nodup_append_toList h.claims fun c hc x hx ↦ (hclaims c hc x hx).1
  · rw [reported_concat]
    exact nodup_append_toList h.claimed_hashes fun c hc x hx ↦ (hclaims c hc x hx).2
  · intro r hr r' hr' hgrant
    rcases mem_reported_concat hr with hr | hr <;> rcases mem_reported_concat hr' with hr' | hr'
    · exact h.receipts r hr r' hr' hgrant
    · exact (hreceipts r' hr' r hr hgrant.symm).symm
    · exact hreceipts r hr r' hr' hgrant
    · rw [hr] at hr'
      exact Option.some.inj hr'
  · intro c hc g request now hg
    have hrep' := (hinv.change hS hsub (change_of_step _ call)).represented
      ((filed_run calls).change (change_of_step _ call))
    rw [← run_concat] at hrep'
    exact consumed_of_recorded hrep' (hrec.concat hS hsub hinv) hc hg

/-- The store keeps its representation, and what it hands out it hands out once: in every
run, whoever makes the calls and in whatever order their locked parts come. -/
theorem represented_singleUse (calls : List Call) (hfree : CollisionFree (presented calls)) :
    Represented (run calls) ∧ SingleUse calls := by
  refine ⟨(invariant_run hfree calls subset_rfl).represented (filed_run calls), ?_⟩
  have hruns : ∀ before after, calls = before ++ after → SingleUse before := by
    intro before
    induction before using List.reverseRecOn with
    | nil => exact fun _ _ ↦ singleUse_nil
    | append_singleton before call ih =>
        intro after heq
        have hbefore : presented before ⊆ presented calls := fun x ⟨c, hc, hx⟩ ↦
          ⟨c, by rw [heq]; simp [hc], hx⟩
        have hcall : call.preimages ⊆ presented calls := fun x hx ↦
          ⟨call, by rw [heq]; simp, hx⟩
        exact (ih ([call] ++ after) (by rw [heq, List.append_assoc])).concat hfree hcall
          (invariant_run hfree before hbefore) (recorded_run hfree before hbefore)
  exact hruns calls [] (List.append_nil calls).symm

end SingleUse

end Store

/-! ## The positive vector -/

section Positive

open Vectors

/-- The request of an attempt for the positive grant. -/
def positiveRequest (attemptId : String) : GrantClaimRequest where
  attemptId
  expectedAudience := "executor:edge-01"
  observedPolicyEpoch := 7
  observedConfigurationEpoch := 12
  observedPreStateDigest := positiveProposal.preStateDigest
  observedResourceClaimDigest := positiveProposal.resourceClaimDigest
  revoked := false

/-- Two attempts for the positive grant, and the receipt of the first, twice. -/
def contestedCalls : List Call := [
  .register positiveCommitment positiveProposal positiveDecision positiveGrant,
  .claim positiveGrant (positiveRequest "attempt-01") (some 1760000004000),
  .claim positiveGrant (positiveRequest "attempt-02") (some 1760000004001),
  .recordReceipt positiveReceipt,
  .recordReceipt positiveReceipt]

theorem presented_contestedCalls :
    presented contestedCalls ⊆ {p | p ∈ table.entries.map Prod.fst} := by
  rintro p ⟨call, hcall, hp⟩
  simp only [contestedCalls, List.mem_cons, List.not_mem_nil, or_false] at hcall
  rcases hcall with rfl | rfl | rfl | rfl | rfl
  · rcases hp with rfl | rfl | rfl | rfl <;> simp [table]
  all_goals
    rcases hp with rfl
    simp [table]

theorem represented_singleUse_contested :
    Represented (run contestedCalls) ∧ SingleUse contestedCalls :=
  represented_singleUse contestedCalls (table.collisionFree.mono presented_contestedCalls)

end Positive

end Etp.Core.MemoryGrantStore
