import Etp.Core.SingleUse

/-!
# The trusted time of the in-memory store

`claim` records its reading of the clock before it looks at the grant, so an attempt that
fails leaves a trace, and it is the only one that a failing call leaves.  The reading
stands for all later claims: none succeeds at an earlier time, and a grant that a claim
has found expired stays expired.

The call is taken apart into what comes before the lock (`claimRead`) and what runs under
it (`claimUnderLock`).  In the states that a run reaches, every stored chain verifies, so
the errors of the second part are the ones it names itself.
-/

namespace Etp.Core.MemoryGrantStore

section Store

variable [Sha256]

/-! ## The two parts of a claim -/

/-- The part of `claim` before the lock, with the reading of the clock. -/
def claimRead (g : ExecutionGrant) (request : GrantClaimRequest) (now : Option Nat) :
    Except ProtocolError (Nat × Digest32) := do
  request.validate
  let nowMs ← okOr now .clockUnavailable
  validateSafeInteger "trusted now_ms" nowMs
  let suppliedHash ← commitment g
  .ok (nowMs, suppliedHash)

/-- The state with the time of a claim recorded. -/
def timed (s : MemoryGrantState) (nowMs : Nat) : MemoryGrantState :=
  { s with lastTrustedTimeMs := some nowMs }

/-- The part of `claim` under the lock. -/
def claimUnderLock (g : ExecutionGrant) (request : GrantClaimRequest) (nowMs : Nat)
    (suppliedHash : Digest32) (s : MemoryGrantState) :
    Except ProtocolError GrantClaim × MemoryGrantState :=
  if ∃ last ∈ s.lastTrustedTimeMs, nowMs < last then (.error .clockRollback, s)
  else atomically (timed s nowMs) (claimLocked g request nowMs suppliedHash (timed s nowMs))

section Parts

variable {g : ExecutionGrant} {request : GrantClaimRequest} {now : Option Nat} {nowMs : Nat}
  {hash : Digest32} {s : MemoryGrantState} {e : ProtocolError}

theorem claimPreamble_eq (g : ExecutionGrant) (request : GrantClaimRequest) (now : Option Nat)
    (s : MemoryGrantState) :
    claimPreamble g request now s = (do
      let p ← claimRead g request now
      rejectIf (∃ last ∈ s.lastTrustedTimeMs, p.1 < last) .clockRollback
      .ok p) := by
  simp only [claimPreamble, claimRead, bind_assoc, ok_bind]

theorem claim_of_read_error (h : claimRead g request now = .error e) :
    claim g request now s = (.error e, s) := by
  rw [claim, claimPreamble_eq, h]
  rfl

theorem claim_of_read (h : claimRead g request now = .ok (nowMs, hash)) :
    claim g request now s = claimUnderLock g request nowMs hash s := by
  rw [claim, claimPreamble_eq, h, ok_bind, claimUnderLock]
  by_cases hlast : ∃ last ∈ s.lastTrustedTimeMs, nowMs < last
  · rw [rejectIf_true hlast, if_pos hlast]
    rfl
  · rw [rejectIf_false hlast, if_neg hlast]
    rfl

end Parts

/-! ## The errors of a claim -/

/-- Every stored chain verifies, under the hash it is stored with. -/
def Checked (s : MemoryGrantState) : Prop :=
  ∀ id st, s.grants id = some st →
    GrantChain st.commitment st.proposal st.decision st.grant ∧ st.hash = recordHash st.grant

theorem checked_empty : Checked empty := by
  rintro _ _ ⟨⟩

theorem Checked.change {s s' : MemoryGrantState} {call : Call} (h : Checked s)
    (hc : Change s call s') : Checked s' := by
  have hreplace : ∀ {id old new}, s.grants id = some old → s'.grants = s.grants.insert id new →
      new.hash = old.hash → new.commitment = old.commitment → new.proposal = old.proposal →
      new.decision = old.decision → new.grant = old.grant → Checked s' := by
    intro id old new hold hgrants hhash hcommitment hproposal hdecision hgrant j st hst
    rw [hgrants, insert_eq_some] at hst
    rcases hst with ⟨rfl, rfl⟩ | ⟨-, hst⟩
    · rw [hhash, hcommitment, hproposal, hdecision, hgrant]
      exact h j old hold
    · exact h j st hst
  cases hc with
  | time t => exact h
  | registered hchain hnew hdecision hproposal =>
      intro j st hst
      simp only [MemoryGrantStore.registered, insert_eq_some] at hst
      rcases hst with ⟨rfl, rfl⟩ | ⟨-, hst⟩
      · exact ⟨hchain, rfl⟩
      · exact h j st hst
  | claimed claim t hst hfree => exact hreplace hst rfl rfl rfl rfl rfl rfl
  | received hid hst hclaim hnone hfor => exact hreplace hst rfl rfl rfl rfl rfl rfl
  | appended hst hreceipt hlen hdup hverify => exact hreplace hst rfl rfl rfl rfl rfl rfl

theorem checked_run (calls : List Call) : Checked (run calls) :=
  Machine.run_invariant (fun s call h ↦ h.change (change_of_step s call)) checked_empty calls

/-- The errors of the locked part, after the time is recorded. -/
inductive ClaimError (s : MemoryGrantState) (g : ExecutionGrant) (nowMs : Nat) :
    ProtocolError → Prop
  | unknown (h : s.grants g.grantId = none) : ClaimError s g nowMs .unknownGrant
  | chain (field : String) : ClaimError s g nowMs (.chainMismatch field)
  | audience : ClaimError s g nowMs .audienceMismatch
  | authority : ClaimError s g nowMs .staleAuthority
  | preState : ClaimError s g nowMs .stalePreState
  | resourceClaim : ClaimError s g nowMs .staleResourceClaim
  | revoked : ClaimError s g nowMs .grantRevoked
  | early : ClaimError s g nowMs .grantNotYetValid
  | expired {stored : StoredGrant} (hst : s.grants g.grantId = some stored)
      (h : stored.grant.expiresAtMs ≤ nowMs) : ClaimError s g nowMs .grantExpired
  | claimed : ClaimError s g nowMs .grantAlreadyClaimed

section Errors

variable {g : ExecutionGrant} {request : GrantClaimRequest} {now : Option Nat} {nowMs : Nat}
  {hash : Digest32} {s : MemoryGrantState} {e : ProtocolError}

theorem claimLocked_eq_error (hs : Checked s)
    (h : claimLocked g request nowMs hash s = .error e) : ClaimError s g nowMs e := by
  rw [claimLocked, bind_eq_error, okOr_eq_error] at h
  rcases h with ⟨hnone, rfl⟩ | ⟨stored, hst, h⟩
  · exact .unknown hnone
  rw [okOr_eq_ok] at hst
  have hverified := verifyAuthorization_eq_ok.mpr ⟨(hs _ _ hst).1, rfl⟩
  rw [hverified] at h
  simp only [bind_eq_error, ok_bind, rejectIf_eq_error, rejectIf_eq_ok, reduceCtorEq, or_false,
    exists_const, and_false] at h
  rcases h with ⟨-, rfl⟩ | ⟨-, h⟩
  · exact .chain _
  rcases h with ⟨-, rfl⟩ | ⟨-, h⟩
  · exact .chain _
  rcases h with ⟨-, rfl⟩ | ⟨-, h⟩
  · exact .audience
  rcases h with ⟨-, rfl⟩ | ⟨-, h⟩
  · exact .authority
  rcases h with ⟨-, rfl⟩ | ⟨-, h⟩
  · exact .preState
  rcases h with ⟨-, rfl⟩ | ⟨-, h⟩
  · exact .resourceClaim
  rcases h with ⟨-, rfl⟩ | ⟨-, h⟩
  · exact .revoked
  rcases h with ⟨-, rfl⟩ | ⟨-, h⟩
  · exact .early
  rcases h with ⟨hexpired, rfl⟩ | ⟨-, h⟩
  · exact .expired hst hexpired
  rcases h with ⟨-, rfl⟩
  exact .claimed

omit [Sha256] in
theorem validateGrant_error_ne (h : validate g = .error e) :
    e ≠ .grantExpired ∧ e ≠ .clockRollback := by
  replace h : ((do
    validateVersion g.version
    validateIdentifier "grant_id" g.grantId
    validateTrimmedText "audience" g.audience 512
    validateNonce g.nonce
    rejectIf (g.uses ≠ 1) .grantMustBeSingleUse
    validateWindow g.notBeforeMs g.expiresAtMs
    rejectIf (g.expiresAtMs - g.notBeforeMs > maxGrantLifetimeMs) .grantLifetimeExceeded) :
      Except ProtocolError Unit) = .error e := h
  simp only [bind_eq_error, rejectIf_eq_error] at h
  rcases h with h | ⟨_, -, h | ⟨_, -, h | ⟨_, -, h |
    ⟨_, -, ⟨-, rfl⟩ | ⟨_, -, h | ⟨_, -, -, rfl⟩⟩⟩⟩⟩⟩
  · rw [validateVersion_error h]
    exact ⟨by rintro ⟨⟩, by rintro ⟨⟩⟩
  · rw [validateTrimmedText_error h]
    exact ⟨by rintro ⟨⟩, by rintro ⟨⟩⟩
  · rw [validateTrimmedText_error h]
    exact ⟨by rintro ⟨⟩, by rintro ⟨⟩⟩
  · rw [validateNonce_error h]
    exact ⟨by rintro ⟨⟩, by rintro ⟨⟩⟩
  · exact ⟨by rintro ⟨⟩, by rintro ⟨⟩⟩
  · rcases validateWindow_error h with ⟨_, rfl⟩ | rfl <;> exact ⟨by rintro ⟨⟩, by rintro ⟨⟩⟩
  · exact ⟨by rintro ⟨⟩, by rintro ⟨⟩⟩

/-- The checks before the lock know neither the grant that is stored nor the trusted time. -/
theorem claimRead_error_ne (h : claimRead g request now = .error e) :
    e ≠ .grantExpired ∧ e ≠ .clockRollback := by
  simp only [claimRead, bind_eq_error, okOr_eq_error, reduceCtorEq, and_false, exists_false,
    or_false] at h
  rcases h with h | ⟨_, -, ⟨-, rfl⟩ | ⟨t, -, h | ⟨_, -, h⟩⟩⟩
  · simp only [GrantClaimRequest.validate, bind_eq_error] at h
    rcases h with h | ⟨_, -, h | ⟨_, -, h | ⟨_, -, h⟩⟩⟩
    · rw [validateTrimmedText_error h]
      exact ⟨by rintro ⟨⟩, by rintro ⟨⟩⟩
    · rw [validateTrimmedText_error h]
      exact ⟨by rintro ⟨⟩, by rintro ⟨⟩⟩
    · rw [validateSafeInteger_error h]
      exact ⟨by rintro ⟨⟩, by rintro ⟨⟩⟩
    · rw [validateSafeInteger_error h]
      exact ⟨by rintro ⟨⟩, by rintro ⟨⟩⟩
  · exact ⟨by rintro ⟨⟩, by rintro ⟨⟩⟩
  · rw [validateSafeInteger_error h]
    exact ⟨by rintro ⟨⟩, by rintro ⟨⟩⟩
  · cases hv : validate g with
    | ok _ =>
        rw [commitment_of_valid hv] at h
        cases h
    | error e' =>
        rw [commitment_of_invalid hv] at h
        cases h
        exact validateGrant_error_ne hv

theorem claimUnderLock_rollback_iff (hs : Checked s) :
    (claimUnderLock g request nowMs hash s).1 = .error .clockRollback ↔
      ∃ last ∈ s.lastTrustedTimeMs, nowMs < last := by
  rw [claimUnderLock]
  by_cases hlast : ∃ last ∈ s.lastTrustedTimeMs, nowMs < last
  · rw [if_pos hlast]
    exact iff_of_true rfl hlast
  · rw [if_neg hlast]
    refine iff_of_false (fun h ↦ ?_) hlast
    cases hlocked : claimLocked g request nowMs hash (timed s nowMs) with
    | ok p =>
        rw [hlocked] at h
        cases h
    | error e =>
        rw [hlocked] at h
        cases h
        have hs' : Checked (timed s nowMs) := hs
        cases claimLocked_eq_error hs' hlocked

/-- A claim that is not turned down for its time records it, whatever comes of it. -/
theorem claimUnderLock_time (hlast : ¬∃ last ∈ s.lastTrustedTimeMs, nowMs < last) :
    (claimUnderLock g request nowMs hash s).2.lastTrustedTimeMs = some nowMs := by
  rw [claimUnderLock, if_neg hlast]
  cases hlocked : claimLocked g request nowMs hash (timed s nowMs) with
  | error e => rfl
  | ok p =>
      obtain ⟨c, s'⟩ := p
      obtain ⟨stored, -, -, -, -, -, -, rfl⟩ := claimLocked_eq_ok.mp hlocked
      rfl

end Errors

/-! ## What a failure leaves -/

/-- Two states that differ in the trusted time at most. -/
structure SameMaps (s s' : MemoryGrantState) : Prop where
  grants : s'.grants = s.grants
  grantByHash : s'.grantByHash = s.grantByHash
  grantByProposal : s'.grantByProposal = s.grantByProposal
  grantByDecision : s'.grantByDecision = s.grantByDecision
  grantByReceipt : s'.grantByReceipt = s.grantByReceipt

omit [Sha256] in
theorem SameMaps.refl (s : MemoryGrantState) : SameMaps s s := ⟨rfl, rfl, rfl, rfl, rfl⟩

/-- Whether a call returns an error. -/
def Fails (s : MemoryGrantState) : Call → Prop
  | .register c p d g => ∃ e, (register c p d g s).1 = .error e
  | .claim g request now => ∃ e, (claim g request now s).1 = .error e
  | .recordReceipt r => ∃ e, (recordReceipt r s).1 = .error e
  | .appendReconciliation r => ∃ e, (appendReconciliation r s).1 = .error e

def IsClaim : Call → Prop
  | .claim _ _ _ => True
  | _ => False

section Frame

variable {s : MemoryGrantState} {call : Call}

omit [Sha256] in
theorem atomically_snd_of_error {α : Type} {op : Except ProtocolError (α × MemoryGrantState)}
    (h : ∃ e, (atomically s op).1 = .error e) : (atomically s op).2 = s := by
  obtain ⟨e, h⟩ := h
  cases op with
  | error e' => rfl
  | ok p => cases h

theorem sameMaps_of_fails (h : Fails s call) : SameMaps s (step s call) := by
  have hsame : ∀ {s'}, s' = s → SameMaps s s' := by
    rintro _ rfl
    exact .refl _
  cases call with
  | register c p d g => exact hsame (atomically_snd_of_error h)
  | recordReceipt r => exact hsame (atomically_snd_of_error h)
  | appendReconciliation r => exact hsame (atomically_snd_of_error h)
  | claim g request now =>
      show SameMaps s (claim g request now s).2
      have h : ∃ e, (claim g request now s).1 = .error e := h
      cases hread : claimRead g request now with
      | error e => exact hsame (by rw [claim_of_read_error hread])
      | ok p =>
          rw [claim_of_read hread, claimUnderLock] at h ⊢
          by_cases hlast : ∃ last ∈ s.lastTrustedTimeMs, p.1 < last
          · rw [if_pos hlast]
            exact .refl s
          · rw [if_neg hlast] at h ⊢
            rw [atomically_snd_of_error h]
            exact ⟨rfl, rfl, rfl, rfl, rfl⟩

/-- Only a claim touches the trusted time. -/
theorem lastTrustedTime_step (h : ¬IsClaim call) :
    (step s call).lastTrustedTimeMs = s.lastTrustedTimeMs := by
  cases call with
  | claim g request now => exact absurd trivial h
  | register c p d g =>
      show (register c p d g s).2.lastTrustedTimeMs = _
      rcases atomically_snd (registerLocked c p d g s) with h | ⟨_, s', hop, h⟩
      · rw [register, h]
      · obtain ⟨-, -, -, -, -, rfl⟩ := registerLocked_eq_ok.mp hop
        rw [register, h]
        rfl
  | recordReceipt r =>
      show (recordReceipt r s).2.lastTrustedTimeMs = _
      rcases atomically_snd (recordReceiptLocked r s) with h | ⟨_, s', hop, h⟩
      · rw [recordReceipt, h]
      · rw [recordReceipt, h]
        simp only [recordReceiptLocked, bind_eq_ok, okOr_eq_ok] at hop
        obtain ⟨_, -, id, -, stored, -, _, -, _, -, _, -, hop⟩ := hop
        split at hop
        · simp only [bind_eq_ok, Except.ok.injEq, Prod.mk.injEq] at hop
          obtain ⟨_, -, _, -, -, rfl⟩ := hop
          rfl
        · cases hop
          rfl
  | appendReconciliation r =>
      show (appendReconciliation r s).2.lastTrustedTimeMs = _
      rcases atomically_snd (appendReconciliationLocked r s) with h | ⟨_, s', hop, h⟩
      · rw [appendReconciliation, h]
      · rw [appendReconciliation, h]
        simp only [appendReconciliationLocked, bind_eq_ok, okOr_eq_ok] at hop
        obtain ⟨_, -, id, -, stored, -, receipt, -, hop⟩ := hop
        split_ifs at hop
        · simp only [bind_eq_ok, Except.ok.injEq, Prod.mk.injEq] at hop
          obtain ⟨_, -, -, rfl⟩ := hop
          rfl
        · simp only [bind_eq_ok, Except.ok.injEq, Prod.mk.injEq] at hop
          obtain ⟨_, -, -, rfl⟩ := hop
          rfl

end Frame

/-! ## The high-water mark -/

/-- The reading of a claim that passed the checks before the lock and was not turned down
for its time. -/
def seenOf (s : MemoryGrantState) : Call → Option Nat
  | .claim g request now =>
      match claimRead g request now, (claim g request now s).1 with
      | .error _, _ => none
      | .ok _, .error .clockRollback => none
      | .ok (nowMs, _), _ => some nowMs
  | _ => none

/-- What the trusted time of the store says. -/
structure HighWater (calls : List Call) : Prop where
  /-- A call that fails leaves all maps as they were. -/
  frame : ∀ call, Fails (run calls) call → SameMaps (run calls) (step (run calls) call)
  /-- Only a claim touches the trusted time. -/
  clock : ∀ call, ¬IsClaim call →
    (step (run calls) call).lastTrustedTimeMs = (run calls).lastTrustedTimeMs
  /-- The trusted time is the greatest reading of the claims. -/
  mark : (run calls).lastTrustedTimeMs = (reported seenOf calls).max?
  /-- No claim succeeds at a time before one that was seen. -/
  monotone : ∀ g request now c, (claim g request now (run calls)).1 = .ok c →
    ∀ t ∈ reported seenOf calls, t ≤ c.claimedAtMs
  /-- A grant that was found expired is never claimed later. -/
  expired : ∀ g request now, (claim g request now (run calls)).1 = .error .grantExpired →
    ∀ after g' request' now', g'.grantId = g.grantId →
      ∃ e, (claim g' request' now' (run (calls ++ .claim g request now :: after))).1 = .error e

section Mark

variable {s : MemoryGrantState} {calls : List Call} {call : Call}

/-- What a call does to the trusted time. -/
theorem seenOf_step (hs : Checked s) (call : Call) :
    (seenOf s call = none ∧ (step s call).lastTrustedTimeMs = s.lastTrustedTimeMs) ∨
      ∃ t, seenOf s call = some t ∧ (∀ last ∈ s.lastTrustedTimeMs, last ≤ t) ∧
        (step s call).lastTrustedTimeMs = some t := by
  cases call with
  | claim g request now =>
      show (seenOf s (.claim g request now) = none ∧
        (claim g request now s).2.lastTrustedTimeMs = _) ∨ ∃ t, _ ∧ _ ∧
          (claim g request now s).2.lastTrustedTimeMs = _
      cases hread : claimRead g request now with
      | error e => exact .inl ⟨by simp only [seenOf, hread], by rw [claim_of_read_error hread]⟩
      | ok p =>
          obtain ⟨nowMs, hash⟩ := p
          have hclaim := claim_of_read (s := s) hread
          by_cases hlast : ∃ last ∈ s.lastTrustedTimeMs, nowMs < last
          · have hrolled : (claim g request now s).1 = .error .clockRollback := by
              rw [hclaim, claimUnderLock_rollback_iff hs]
              exact hlast
            refine .inl ⟨by simp only [seenOf, hread, hrolled], ?_⟩
            rw [hclaim, claimUnderLock, if_pos hlast]
          · refine .inr ⟨nowMs, ?_, fun last h ↦ not_lt.mp fun hlt ↦ hlast ⟨last, h, hlt⟩, ?_⟩
            · have hkept : (claim g request now s).1 ≠ .error .clockRollback := by
                rw [hclaim, Ne, claimUnderLock_rollback_iff hs]
                exact hlast
              rw [seenOf, hread]
              split
              · cases ‹Except.ok _ = Except.error _›
              · exact absurd ‹_› hkept
              · cases ‹Except.ok _ = Except.ok _›
                rfl
            · rw [hclaim]
              exact claimUnderLock_time hlast
  | _ => exact .inl ⟨rfl, lastTrustedTime_step (by rintro ⟨⟩)⟩

omit [Sha256] in
theorem max?_append_of_le {l : List Nat} {t : Nat} (h : ∀ m ∈ l.max?, m ≤ t) :
    (l ++ [t]).max? = some t := by
  rw [List.max?_eq_some_iff]
  refine ⟨by simp, fun x hx ↦ ?_⟩
  rcases List.mem_append.mp hx with hx | hx
  · cases hm : l.max? with
    | none =>
        rw [List.max?_eq_none_iff.mp hm] at hx
        cases hx
    | some m => exact ((List.max?_eq_some_iff.mp hm).2 x hx).trans (h m hm)
  · rw [List.mem_singleton.mp hx]

theorem mark_run (calls : List Call) :
    (run calls).lastTrustedTimeMs = (reported seenOf calls).max? := by
  induction calls using List.reverseRecOn with
  | nil => rfl
  | append_singleton calls call ih =>
      rw [run_concat, reported_concat]
      rcases seenOf_step (checked_run calls) call with ⟨hnone, htime⟩ | ⟨t, hsome, horder, htime⟩
      · rw [htime, hnone, ih, Option.toList_none, List.append_nil]
      · rw [ih] at horder
        rw [htime, hsome, Option.toList_some, max?_append_of_le horder]

theorem le_of_claim {g : ExecutionGrant} {request : GrantClaimRequest} {now : Option Nat}
    {c : GrantClaim} (h : (claim g request now (run calls)).1 = .ok c) {t : Nat}
    (ht : t ∈ reported seenOf calls) : t ≤ c.claimedAtMs := by
  obtain ⟨stored, nowMs, hwins⟩ := exists_wins h
  have hseen : ∃ m, (reported seenOf calls).max? = some m := by
    rw [← Option.isSome_iff_exists, List.isSome_max?_iff]
    exact List.ne_nil_of_mem ht
  obtain ⟨m, hm⟩ := hseen
  have hle : t ≤ m := (List.max?_eq_some_iff.mp hm).2 t ht
  rw [← mark_run] at hm
  rw [hwins.answer]
  exact hle.trans (hwins.in_order m hm)

/-- What a claim knows that found its grant expired. -/
theorem expired_of_claim {g : ExecutionGrant} {request : GrantClaimRequest} {now : Option Nat}
    (hs : Checked s) (h : (claim g request now s).1 = .error .grantExpired) :
    ∃ stored nowMs, s.grants g.grantId = some stored ∧ stored.grant.expiresAtMs ≤ nowMs ∧
      seenOf s (.claim g request now) = some nowMs := by
  cases hread : claimRead g request now with
  | error e =>
      rw [claim_of_read_error hread] at h
      cases h
      exact absurd rfl (claimRead_error_ne hread).1
  | ok p =>
      obtain ⟨nowMs, hash⟩ := p
      have hseen : seenOf s (.claim g request now) = some nowMs := by
        simp only [seenOf, hread, h]
      rw [claim_of_read hread, claimUnderLock] at h
      split_ifs at h with hlast
      · cases h
      · cases hlocked : claimLocked g request nowMs hash (timed s nowMs) with
        | ok p =>
            rw [hlocked] at h
            cases h
        | error e =>
            rw [hlocked] at h
            cases h
            have hs' : Checked (timed s nowMs) := hs
            cases claimLocked_eq_error hs' hlocked with
            | expired hst hexpired => exact ⟨_, nowMs, hst, hexpired, hseen⟩

theorem never_claimed_of_expired {g : ExecutionGrant} {request : GrantClaimRequest}
    {now : Option Nat} (h : (claim g request now (run calls)).1 = .error .grantExpired)
    (after : List Call) {g' : ExecutionGrant} (request' : GrantClaimRequest) (now' : Option Nat)
    (hid : g'.grantId = g.grantId) :
    ∃ e, (claim g' request' now' (run (calls ++ .claim g request now :: after))).1 = .error e := by
  cases hclaim : (claim g' request' now' (run (calls ++ .claim g request now :: after))).1 with
  | error e => exact ⟨e, rfl⟩
  | ok c =>
      obtain ⟨stored, nowMs, hst, hexpired, hseen⟩ := expired_of_claim (checked_run calls) h
      have hmem : nowMs ∈ reported seenOf (calls ++ .claim g request now :: after) := by
        rw [List.append_cons]
        apply mem_reported_append
        rw [reported_concat, hseen]
        exact List.mem_append_right _ (List.mem_singleton.mpr rfl)
      have hle := le_of_claim hclaim hmem
      obtain ⟨stored', nowMs', hwins⟩ := exists_wins hclaim
      have hkept : Keeps (run calls) (run (calls ++ .claim g request now :: after)) := by
        rw [run, run, Machine.run_append]
        exact keeps_run _ _
      obtain ⟨st', hst', hgrown⟩ := hkept _ _ hst
      rw [← hid, hwins.found] at hst'
      cases hst'
      have hlt := hwins.claimable.not_expired
      rw [hgrown.grant] at hlt
      rw [hwins.answer] at hle
      exact absurd (hexpired.trans hle) (not_le.mpr hlt)

/-- A failing call changes the trusted time at most, and only if it is a claim.  In every
run that time is the greatest reading of the claims that were not turned down for theirs,
so that no claim goes back behind one and no expired grant comes back. -/
theorem highWater (calls : List Call) : HighWater calls where
  frame := fun _ ↦ sameMaps_of_fails
  clock := fun _ ↦ lastTrustedTime_step
  mark := mark_run calls
  monotone := fun _ _ _ _ h _ ↦ le_of_claim h
  expired := fun _ _ _ h after _ request' now' hid ↦
    never_claimed_of_expired h after request' now' hid

end Mark

end Store

end Etp.Core.MemoryGrantStore
