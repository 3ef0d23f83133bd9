import Etp.Sqlite.Statements

/-!
# What each operation does

One lemma per operation: run on an encoded database, it returns `Ok` exactly
under the stated conditions on the typed tables, with the stated answer, and
leaves the stated tables.  `Change` collects what a call can do to the tables,
together with the checks that let it, and `exists_change` says that every call
on a well-formed database makes such a change.
-/

namespace Etp.Sqlite

open Etp.Core SqliteEffectStore

/-! ## Transactions -/

section Transaction

variable {α : Type} {db db' : Db} {op : Except StoreError (α × Db)} {a : α}

theorem transaction_ok (h : op = .ok (a, db')) : transaction db op = (.ok a, db') := by
  rw [h]
  rfl

theorem transaction_fst_ok (h : (transaction db op).1 = .ok a) :
    op = .ok (a, (transaction db op).2) := by
  cases op with
  | error e => cases h
  | ok p => cases h; rfl

theorem transaction_eq_ok : transaction db op = (.ok a, db') ↔ op = .ok (a, db') := by
  refine ⟨fun h ↦ ?_, transaction_ok⟩
  have := transaction_fst_ok (congrArg Prod.fst h)
  rwa [h] at this

/-- An error rolls back. -/
theorem transaction_snd_of_error {e : StoreError} (h : (transaction db op).1 = .error e) :
    (transaction db op).2 = db := by
  cases op with
  | error e => rfl
  | ok p => cases h

theorem transaction_snd (db : Db) (op : Except StoreError (α × Db)) :
    (transaction db op).2 = db ∨ ∃ a, op = .ok (a, (transaction db op).2) := by
  cases op with
  | error e => exact .inl rfl
  | ok p => exact .inr ⟨p.1, rfl⟩

end Transaction

variable [Sha256] {t : Tables} {db' : Db}

/-! ## Registering a chain -/

/-- What `register_chain` has checked when it inserts. -/
structure Registrable (t : Tables) (x : RegisteredChain) : Prop where
  id : t.chainById x.grant.grantId = none
  proposal : ∀ y ∈ t.chains, recordHash y.proposal ≠ recordHash x.proposal
  decision : ∀ y ∈ t.chains, recordHash y.decision ≠ recordHash x.decision

theorem Tables.Fresh.registrable {x : RegisteredChain} (h : t.Fresh x) : Registrable t x where
  id := lookupBy_eq_none_iff.mpr h.id
  proposal := h.proposal
  decision := h.decision

theorem storeChainPlan_encode {x : RegisteredChain} {row : Option ChainRow} :
    storeChainPlan x.row t.encode = .ok row ↔
      t.chainById x.grant.grantId = some x ∧ row = none ∨ Registrable t x ∧ row = some x.row := by
  have hid : t.encode.chainByGrantId x.row.grantId =
      (t.chainById x.grant.grantId).map RegisteredChain.row := t.chainByGrantId_encode _
  rw [storeChainPlan, hid]
  cases hfound : t.chainById x.grant.grantId with
  | some y =>
      have hstale : ¬Registrable t x := fun h ↦ by cases hfound.symm.trans h.id
      simp only [Option.map_some, bind_eq_ok, rejectIf_eq_ok, not_not, Except.ok.injEq,
        exists_const, hstale, false_and, or_false, Option.some.injEq]
      constructor
      · rintro ⟨⟨-, -, -, hc, hp, hd, hg⟩, rfl⟩
        exact ⟨RegisteredChain.eq_of_json hc hp hd hg, rfl⟩
      · rintro ⟨rfl, rfl⟩
        exact ⟨⟨rfl, rfl, rfl, rfl, rfl, rfl, rfl⟩, rfl⟩
  | none =>
      simp only [Option.map_none, bind_eq_ok, rejectIf_eq_ok, Except.ok.injEq, exists_const,
        reduceCtorEq, false_and, false_or]
      constructor
      · rintro ⟨hproposal, hdecision, rfl⟩
        refine ⟨⟨hfound, fun y hy heq ↦ hproposal ?_, fun y hy heq ↦ hdecision ?_⟩, rfl⟩
        · exact List.mem_map.mpr ⟨y.row, List.mem_map_of_mem hy, congrArg Digest32.asStr heq⟩
        · exact List.mem_map.mpr ⟨y.row, List.mem_map_of_mem hy, congrArg Digest32.asStr heq⟩
      · rintro ⟨h, rfl⟩
        refine ⟨fun hmem ↦ ?_, fun hmem ↦ ?_, rfl⟩
        · obtain ⟨_, hr, heq⟩ := List.mem_map.mp hmem
          obtain ⟨y, hy, rfl⟩ := List.mem_map.mp hr
          exact h.proposal y hy (Digest32.ext heq)
        · obtain ⟨_, hr, heq⟩ := List.mem_map.mp hmem
          obtain ⟨y, hy, rfl⟩ := List.mem_map.mp hr
          exact h.decision y hy (Digest32.ext heq)

theorem registerChainPlan_eq (x : RegisteredChain) (db : Db) :
    registerChainPlan x.commitment x.proposal x.decision x.grant db = (do
      let row ← storeChainPlan x.row db
      .ok (x.grantHash, row)) := by
  have hv : verifyGrant x.commitment x.proposal x.decision x.grant = .ok x.grantHash :=
    verifyGrant_eq_ok.mpr ⟨x.verified, rfl⟩
  simp only [registerChainPlan, hv, commitment_of_valid x.verified.proposal_valid,
    commitment_of_valid x.verified.decision_valid,
    canonicalJson_of_valid x.verified.commitment_valid,
    canonicalJson_of_valid x.verified.proposal_valid,
    canonicalJson_of_valid x.verified.decision_valid,
    canonicalJson_of_valid x.verified.grant_valid, fromProtocol_ok, ok_bind, RegisteredChain.row]

/-- A registration finds the chain stored, or may insert it. -/
theorem registerChainPlan_encode {c : TaskCommitment} {p : EffectProposal}
    {d : AuthorizationDecision} {g : ExecutionGrant} {h : Digest32} {row : Option ChainRow} :
    registerChainPlan c p d g t.encode = .ok (h, row) ↔ ∃ x : RegisteredChain,
      (x.commitment = c ∧ x.proposal = p ∧ x.decision = d ∧ x.grant = g) ∧ h = x.grantHash ∧
        (t.chainById g.grantId = some x ∧ row = none ∨ Registrable t x ∧ row = some x.row) := by
  have hplan : ∀ x : RegisteredChain,
      registerChainPlan x.commitment x.proposal x.decision x.grant t.encode = .ok (h, row) ↔
        h = x.grantHash ∧ (t.chainById x.grant.grantId = some x ∧ row = none ∨
          Registrable t x ∧ row = some x.row) := by
    intro x
    rw [registerChainPlan_eq, bind_eq_ok]
    simp only [Except.ok.injEq, Prod.mk.injEq]
    constructor
    · rintro ⟨_, hrow, rfl, rfl⟩
      exact ⟨rfl, storeChainPlan_encode.mp hrow⟩
    · rintro ⟨rfl, hrow⟩
      exact ⟨row, storeChainPlan_encode.mpr hrow, rfl, rfl⟩
  constructor
  · intro hok
    have hchain : GrantChain c p d g := by
      simp only [registerChainPlan, bind_eq_ok, fromProtocol_eq_ok, verifyGrant_eq_ok] at hok
      exact hok.choose_spec.1.1
    exact ⟨⟨c, p, d, g, hchain⟩, ⟨rfl, rfl, rfl, rfl⟩, (hplan ⟨c, p, d, g, hchain⟩).mp hok⟩
  · rintro ⟨x, ⟨rfl, rfl, rfl, rfl⟩, hrest⟩
    exact (hplan x).mpr hrest

/-- A registration replays the stored chain or adds a fresh one. -/
theorem registerChainTx_encode {c : TaskCommitment} {p : EffectProposal}
    {d : AuthorizationDecision} {g : ExecutionGrant} {h : Digest32} :
    registerChainTx c p d g t.encode = .ok (h, db') ↔ ∃ x : RegisteredChain,
      (x.commitment = c ∧ x.proposal = p ∧ x.decision = d ∧ x.grant = g) ∧ h = x.grantHash ∧
        (t.chainById g.grantId = some x ∧ db' = t.encode ∨
          t.Fresh x ∧ db' = (t.addChain x).encode) := by
  simp only [registerChainTx, bind_eq_ok, Prod.exists, registerChainPlan_encode, Except.ok.injEq,
    Prod.mk.injEq]
  constructor
  · rintro ⟨_, row, ⟨x, hx, rfl, hrow⟩, db, hdb, rfl, rfl⟩
    refine ⟨x, hx, rfl, ?_⟩
    rcases hrow with ⟨hfound, rfl⟩ | ⟨-, rfl⟩
    · exact .inl ⟨hfound, (Except.ok.inj hdb).symm⟩
    · exact .inr (Tables.insertChain_encode.mp (mapSqlite_eq_ok.mp hdb))
  · rintro ⟨x, hx, rfl, ⟨hfound, rfl⟩ | ⟨hfresh, rfl⟩⟩
    · exact ⟨_, none, ⟨x, hx, rfl, .inl ⟨hfound, rfl⟩⟩, _, rfl, rfl, rfl⟩
    · have hinsert := mapSqlite_eq_ok.mpr (Tables.insertChain_encode.mpr ⟨hfresh, rfl⟩)
      exact ⟨_, some x.row, ⟨x, hx, rfl, .inr ⟨hfresh.registrable, rfl⟩⟩, _, hinsert, rfl, rfl⟩

/-! ## Currentness -/

/-- How a snapshot may follow the stored one. -/
structure Advances (previous s : CurrentnessSnapshot) : Prop where
  version : previous.version < s.version
  policy : previous.policyEpoch ≤ s.policyEpoch
  configuration : previous.configurationEpoch ≤ s.configurationEpoch
  observed : previous.observedAtMs ≤ s.observedAtMs
  revoked : previous.revoked = true → s.revoked = false →
    ¬(s.policyEpoch = previous.policyEpoch ∧ s.configurationEpoch = previous.configurationEpoch)

omit [Sha256] in
theorem checkAdvance_eq_ok {previous s : CurrentnessSnapshot} {u : Unit} :
    checkAdvance previous s = .ok u ↔ Advances previous s := by
  simp only [checkAdvance, bind_eq_ok, rejectIf_eq_ok, exists_const, not_le, not_lt, not_or,
    not_and, Bool.not_eq_true]
  constructor
  · rintro ⟨h₁, ⟨h₂, h₃⟩, h₄, h₅⟩
    exact ⟨h₁, h₂, h₃, h₄, fun hp hs he ↦ h₅ hp hs he.1 he.2⟩
  · rintro ⟨h₁, h₂, h₃, h₄, h₅⟩
    exact ⟨h₁, ⟨h₂, h₃⟩, h₄, fun hp hs he he' ↦ h₅ hp hs ⟨he, he'⟩⟩

theorem putCurrentnessTx_encode {s : CurrentnessSnapshot} {u : Unit} :
    putCurrentnessTx s t.encode = .ok (u, db') ↔ ∃ h : ValidSnapshot s,
      (t.snapshot s.key = some s ∧ db' = t.encode ∨
        (∀ previous ∈ t.snapshot s.key, Advances previous s) ∧
          db' = (t.putSnapshot ⟨s, h⟩).encode) := by
  simp only [putCurrentnessTx, bind_eq_ok, validateSnapshot_eq_ok, exists_const,
    Tables.loadCurrentness_encode, Except.ok.injEq, exists_prop_eq', ← exists_prop]
  refine exists_congr fun hs ↦ ?_
  cases hold : t.snapshot s.key with
  | none =>
      have hins : t.encode.insertCurrentness s.row = .ok (t.putSnapshot ⟨s, hs⟩).encode :=
        Tables.insertCurrentness_encode (s := ⟨s, hs⟩) hold
      simp [snapshotParams_of_valid hs, hins, eq_comm]
  | some previous =>
      have hupd : t.encode.updateCurrentness s.row = .ok (t.putSnapshot ⟨s, hs⟩).encode :=
        Tables.updateCurrentness_encode (s := ⟨s, hs⟩) (by rw [hold]; rfl)
      by_cases heq : previous = s
      · subst heq
        have hno : ¬Advances previous previous := fun h ↦ lt_irrefl _ h.version
        simp [hno, eq_comm]
      · simp only [heq, if_false, bind_eq_ok, checkAdvance_eq_ok, snapshotParams_of_valid hs, hupd,
          mapSqlite_eq_ok, exists_const, Except.ok.injEq, exists_eq_left', Prod.mk.injEq, true_and,
          Option.some.injEq, exists_prop, false_and, false_or, Option.mem_def,
          forall_eq']
        exact and_congr_right fun _ ↦ eq_comm

/-! ## Claiming -/

/-- The snapshot is the authority and target state that the chain was made for. -/
structure Current (s : CurrentnessSnapshot) (x : RegisteredChain) : Prop where
  policy : s.policyEpoch = x.commitment.policyEpoch
  configuration : s.configurationEpoch = x.commitment.configurationEpoch
  pre_state : s.preStateDigest = x.proposal.preStateDigest
  resource_claim : s.resourceClaimDigest = x.proposal.resourceClaimDigest
  not_revoked : s.revoked = false

/-- The snapshot was observed within the allowed age before `now`. -/
structure Recent (s : CurrentnessSnapshot) (now age : Nat) : Prop where
  observed_le : s.observedAtMs ≤ now
  age_le : now - s.observedAtMs ≤ age

theorem checkAuthority_eq_ok {s : CurrentnessSnapshot} {x : RegisteredChain} {u : Unit} :
    checkAuthority s x.stored = .ok u ↔ Current s x := by
  simp only [checkAuthority, bind_eq_ok, rejectIf_eq_ok, exists_const,
    not_or, not_not, Bool.not_eq_true]
  constructor
  · rintro ⟨⟨h₁, h₂⟩, h₃, h₄, h₅⟩
    exact ⟨h₁, h₂, h₃, h₄, h₅⟩
  · rintro ⟨h₁, h₂, h₃, h₄, h₅⟩
    exact ⟨⟨h₁, h₂⟩, h₃, h₄, h₅⟩

omit [Sha256] in
theorem validateCurrentnessAge_eq_ok {s : CurrentnessSnapshot} {now age : Nat} {u : Unit} :
    validateCurrentnessAge s now age = .ok u ↔ Recent s now age := by
  simp only [validateCurrentnessAge, bind_eq_ok, rejectIf_eq_ok, exists_const, not_lt]
  constructor
  · rintro ⟨h₁, h₂⟩
    exact ⟨h₁, h₂⟩
  · rintro ⟨h₁, h₂⟩
    exact ⟨h₁, h₂⟩

/-- The checks of `claim` before it looks at the window of the grant. -/
structure ClaimChecks (t : Tables) (x : RegisteredChain) (request : ClaimRequest) (now : Nat)
    (s : CurrentnessSnapshot) : Prop where
  valid : ValidRequest request
  now_le : now ≤ maxSafeInteger
  chain : t.chainById x.grant.grantId = some x
  time : ∀ last ∈ t.lastTrustedTimeMs, last ≤ now
  snapshot : t.snapshot request.currentnessKey = some s
  recent : Recent s now request.maximumSnapshotAgeMs
  version : s.version = request.expectedSnapshotVersion
  audience : request.expectedAudience = x.grant.audience
  current : Current s x

/-- The checks of `claim` before it writes. -/
structure ClaimGuards (t : Tables) (x : RegisteredChain) (request : ClaimRequest) (now : Nat)
    (s : CurrentnessSnapshot) : Prop extends ClaimChecks t x request now s where
  not_before_le : x.grant.notBeforeMs ≤ now
  lt_expires : now < x.grant.expiresAtMs

/-- The claim that `claim` writes and returns. -/
def newClaim (x : RegisteredChain) (request : ClaimRequest) (now : Nat) : DurableClaim where
  grantHash := x.grantHash
  attemptId := request.attemptId
  currentnessKey := request.currentnessKey
  snapshotVersion := request.expectedSnapshotVersion
  maximumSnapshotAgeMs := request.maximumSnapshotAgeMs
  claimedAtMs := now
  dispatchStartedAtMs := none

theorem ClaimGuards.newClaim_valid {x : RegisteredChain} {request : ClaimRequest} {now : Nat}
    {s : CurrentnessSnapshot} (h : ClaimGuards t x request now s) :
    ValidClaim (newClaim x request now) where
  version_le := h.valid.version_le
  age_pos := h.valid.age_pos
  age_le := h.valid.age_le.trans (by decide)
  claimed_le := h.now_le
  dispatched := fun _ hd ↦ by cases hd

omit [Sha256] in
theorem lastTrustedTime_iff {now : Nat} {last : Option Nat} :
    (¬∃ l ∈ last.map (Nat.cast : Nat → Int), (now : Int) < l) ↔ ∀ l ∈ last, l ≤ now := by
  cases last <;> simp

theorem claimPlan_encode {g : ExecutionGrant} {request : ClaimRequest} {now : Nat}
    {c : DurableClaim} {row : ClaimRow} :
    claimPlan g request now t.encode = .ok (c, row) ↔ ∃ x s, x.grant = g ∧
      c = newClaim x request now ∧ row = c.row ∧ ClaimGuards t x request now s := by
  simp only [claimPlan, bind_eq_ok, validateClaimRequest_eq_ok, safeI64_eq_ok, fromProtocol_eq_ok,
    commitment_eq_ok, Tables.loadChainByGrantId_encode, Tables.loadCurrentness_encode, okOr_eq_ok,
    rejectIf_eq_ok, validateCurrentnessAge_eq_ok, Except.ok.injEq, exists_const,
    exists_eq_left', Prod.mk.injEq, Option.map_eq_some_iff, not_or, not_not, not_lt, not_le,
    ge_iff_le]
  constructor
  · rintro ⟨hreq, _, ⟨hnow, rfl⟩, _, ⟨hg, rfl⟩, _, ⟨x, hx, rfl⟩, ⟨-, rfl⟩, _, -, _, ⟨-, rfl⟩,
      htime, s, hs, hrecent, hversion, haud, _, hauth, hnb, hexp, _, ⟨-, rfl⟩, _, ⟨-, rfl⟩, rfl,
      rfl⟩
    exact ⟨x, s, rfl, rfl, rfl, ⟨hreq, hnow, hx, lastTrustedTime_iff.mp htime, hs, hrecent,
      hversion, haud, checkAuthority_eq_ok.mp hauth⟩, hnb, hexp⟩
  · rintro ⟨x, s, rfl, rfl, rfl, h⟩
    have hage : request.maximumSnapshotAgeMs ≤ maxSafeInteger := h.valid.age_le.trans (by decide)
    have hverify : verifyGrant x.commitment x.proposal x.decision x.grant = .ok x.grantHash :=
      verifyGrant_eq_ok.mpr ⟨x.verified, rfl⟩
    exact ⟨h.valid, _, ⟨h.now_le, rfl⟩, _, ⟨x.verified.grant_valid, rfl⟩, _, ⟨x, h.chain, rfl⟩,
      ⟨rfl, rfl⟩, _, hverify, _, ⟨h.now_le, rfl⟩, lastTrustedTime_iff.mpr h.time, s, h.snapshot,
      h.recent, h.version, h.audience, (), checkAuthority_eq_ok.mpr h.current, h.not_before_le,
      h.lt_expires, _, ⟨h.valid.version_le, rfl⟩, _, ⟨hage, rfl⟩, rfl, rfl⟩

theorem claimTx_encode {g : ExecutionGrant} {request : ClaimRequest} {now : Nat}
    {c : DurableClaim} :
    claimTx g request now t.encode = .ok (c, db') ↔
      ∃ x s, x.grant = g ∧ c = newClaim x request now ∧
      ∃ h : ClaimGuards t x request now s, Tables.Claimable c t ∧
        db' = ((t.setTime now).addClaim ⟨_, h.newClaim_valid⟩).encode := by
  have hinsert : ∀ {x s db} (h : ClaimGuards t x request now s),
      (t.encode.setLastTrustedTime (newClaim x request now).row.claimedAtMs).insertClaim
          (newClaim x request now).row = .ok db ↔
        Tables.Claimable (newClaim x request now) t ∧
          db = ((t.setTime now).addClaim ⟨_, h.newClaim_valid⟩).encode := fun {x s db} h ↦
    (Tables.insertClaim_encode (t := t.setTime now) (c := ⟨_, h.newClaim_valid⟩) rfl).trans
      (and_congr_left fun _ ↦ Tables.claimable_setTime)
  simp only [claimTx, bind_eq_ok, Prod.exists, claimPlan_encode, mapError_eq_ok, Except.ok.injEq,
    Prod.mk.injEq]
  constructor
  · rintro ⟨_, _, ⟨x, s, rfl, rfl, rfl, h⟩, db, hdb, rfl, rfl⟩
    exact ⟨x, s, rfl, rfl, h, (hinsert h).mp hdb⟩
  · rintro ⟨x, s, rfl, rfl, h, hclaimable, rfl⟩
    exact ⟨_, _, ⟨x, s, rfl, rfl, rfl, h⟩, _, (hinsert h).mpr ⟨hclaimable, rfl⟩, rfl, rfl⟩

/-- Past the end of the window `claim` answers `GrantExpired`. -/
theorem claimTx_expired {x : RegisteredChain} {request : ClaimRequest} {now : Nat}
    {s : CurrentnessSnapshot} (h : ClaimChecks t x request now s)
    (hnb : x.grant.notBeforeMs ≤ now) (hexp : x.grant.expiresAtMs ≤ now) :
    claimTx x.grant request now t.encode = .error .grantExpired := by
  have hrequest := validateClaimRequest_eq_ok (u := ()).mpr h.valid
  have hnow := fun f ↦ safeI64_eq_ok (f := f).mpr ⟨h.now_le, rfl⟩
  have htime : ¬∃ last ∈ t.encode.lastTrustedTimeMs, (now : Int) < last :=
    lastTrustedTime_iff.mpr h.time
  have hage := validateCurrentnessAge_eq_ok (u := ()).mpr h.recent
  have hauth := checkAuthority_eq_ok (u := ()).mpr h.current
  have hstored : ¬(x.stored.grantHash ≠ recordHash x.grant ∨ x.stored.grant ≠ x.grant) := by
    simp [RegisteredChain.stored, RegisteredChain.grantHash]
  have hverify : verifyGrant x.stored.commitment x.stored.proposal x.stored.decision
      x.stored.grant = .ok x.grantHash := verifyGrant_eq_ok.mpr ⟨x.verified, rfl⟩
  have haud : ¬request.expectedAudience ≠ x.stored.grant.audience := not_not.mpr h.audience
  have hnb' : ¬now < x.stored.grant.notBeforeMs := not_lt.mpr hnb
  have hexp' : now ≥ x.stored.grant.expiresAtMs := hexp
  simp only [claimTx, claimPlan, hrequest, hnow, commitment_of_valid x.verified.grant_valid,
    fromProtocol_ok, ok_bind, Tables.loadChainByGrantId_encode, h.chain, Option.map_some, okOr_some,
    rejectIf_false hstored, hverify, rejectIf_false htime,
    Tables.loadCurrentness_encode, h.snapshot, hage, rejectIf_false (not_not.mpr h.version),
    rejectIf_false haud, hauth, rejectIf_false hnb', rejectIf_true hexp', error_bind]

/-! ## Marking the start of a dispatch -/

/-- The checks of `mark_dispatch_started` before it writes a first marker. -/
structure MarkGuards (t : Tables) (c : DurableClaim) (x : RegisteredChain) (dispatched : Nat)
    (s : CurrentnessSnapshot) : Prop where
  time : ∀ last ∈ t.lastTrustedTimeMs, last ≤ dispatched
  chain : t.chain c.grantHash = some x
  lt_expires : dispatched < x.grant.expiresAtMs
  snapshot : t.snapshot c.currentnessKey = some s
  recent : Recent s dispatched c.maximumSnapshotAgeMs
  version : s.version = c.snapshotVersion
  current : Current s x

theorem claim_grantHash {hash : Digest32} {c : DurableClaim} (h : t.claim hash = some c) :
    c.grantHash = hash := by
  obtain ⟨c', hc, rfl⟩ := Option.map_eq_some_iff.mp h
  exact (key_of_lookupBy hc :)

/-- With unique grant hashes, the rows that the `UPDATE` selects are the claim it looked up. -/
theorem setDispatchStarted_of_claim (hu : UniqueBy (fun c ↦ c.1.grantHash) t.claims)
    {hash : Digest32} (attemptId : String) {dispatched : Nat} {c : DurableClaim}
    (hc : t.claim hash = some c) (hle : c.claimedAtMs ≤ dispatched)
    (hmax : dispatched ≤ maxSafeInteger) :
    (t.encode.setLastTrustedTime dispatched).setDispatchStarted dispatched hash.asStr attemptId =
      .ok ((t.setTime dispatched).mark hash attemptId dispatched).encode := by
  obtain ⟨c', hlookup, rfl⟩ := Option.map_eq_some_iff.mp hc
  refine Tables.setDispatchStarted_encode (t := t.setTime dispatched) hmax fun q hq hsel ↦ ?_
  have hkey : q.1.grantHash = c'.1.grantHash := by
    simp only [Tables.unmarked, decide_eq_true_eq] at hsel
    exact hsel.1.trans (claim_grantHash hc).symm
  rwa [hu.eq hq (mem_of_lookupBy hlookup) hkey]

theorem firstMarkPlan_encode {hash : Digest32} {dispatched : Nat} {c : DurableClaim}
    {o : Option Int} (hc : t.claim hash = some c) :
    firstMarkPlan c hash dispatched dispatched t.encode = .ok o ↔
      (∃ x s, MarkGuards t c x dispatched s) ∧ o = some (dispatched : Int) := by
  simp only [firstMarkPlan, bind_eq_ok, rejectIf_eq_ok, Tables.loadChainByGrantHash_encode,
    Tables.loadCurrentness_encode, okOr_eq_ok, validateCurrentnessAge_eq_ok, Except.ok.injEq,
    exists_const, exists_eq_left', Option.map_eq_some_iff, not_le, not_not, ge_iff_le]
  constructor
  · rintro ⟨htime, _, ⟨x, hx, rfl⟩, hexp, s, hs, hrecent, hversion, _, hauth, rfl⟩
    rw [← claim_grantHash hc] at hx
    exact ⟨⟨x, s, lastTrustedTime_iff.mp htime, hx, hexp, hs, hrecent, hversion,
      checkAuthority_eq_ok.mp hauth⟩, rfl⟩
  · rintro ⟨⟨x, s, h⟩, rfl⟩
    have hx := h.chain
    rw [claim_grantHash hc] at hx
    exact ⟨lastTrustedTime_iff.mpr h.time, _, ⟨x, hx, rfl⟩, h.lt_expires, s, h.snapshot, h.recent,
      h.version, (), checkAuthority_eq_ok.mpr h.current, rfl⟩

theorem markPlan_encode {hash : Digest32} {attemptId : String} {dispatched : Nat}
    {o : Option Int} :
    markPlan hash attemptId dispatched t.encode = .ok o ↔
      PlainText attemptId 256 ∧ dispatched ≤ maxSafeInteger ∧ ∃ c, t.claim hash = some c ∧
        c.attemptId = attemptId ∧ c.claimedAtMs ≤ dispatched ∧
          (c.dispatchStartedAtMs = some dispatched ∧ o = none ∨ c.dispatchStartedAtMs = none ∧
            (∃ x s, MarkGuards t c x dispatched s) ∧ o = some (dispatched : Int)) := by
  simp only [markPlan, bind_eq_ok, validateText_eq_ok, safeI64_eq_ok, Tables.loadClaim_encode,
    okOr_eq_ok, rejectIf_eq_ok, Except.ok.injEq, exists_const, exists_eq_left', not_not, not_lt]
  constructor
  · rintro ⟨htext, _, ⟨hmax, rfl⟩, c, hc, hattempt, hle, hrest⟩
    refine ⟨htext, hmax, c, hc, hattempt, hle, ?_⟩
    cases hd : c.dispatchStartedAtMs with
    | some existing =>
        simp only [hd, bind_eq_ok, rejectIf_eq_ok, not_not, Except.ok.injEq,
          exists_const] at hrest
        obtain ⟨rfl, rfl⟩ := hrest
        exact .inl ⟨rfl, rfl⟩
    | none =>
        simp only [hd] at hrest
        exact .inr ⟨rfl, (firstMarkPlan_encode hc).mp hrest⟩
  · rintro ⟨htext, hmax, c, hc, hattempt, hle, hcases⟩
    refine ⟨htext, _, ⟨hmax, rfl⟩, c, hc, hattempt, hle, ?_⟩
    rcases hcases with ⟨hd, rfl⟩ | ⟨hd, hguards⟩
    · simp [hd]
    · simp only [hd]
      exact (firstMarkPlan_encode hc).mpr hguards

theorem markDispatchStartedTx_encode (hu : UniqueBy (fun c ↦ c.1.grantHash) t.claims)
    {hash : Digest32} {attemptId : String} {dispatched : Nat} {m : DispatchMarker} :
    markDispatchStartedTx hash attemptId dispatched t.encode = .ok (m, db') ↔
      PlainText attemptId 256 ∧ dispatched ≤ maxSafeInteger ∧ ∃ c, t.claim hash = some c ∧
        c.attemptId = attemptId ∧ c.claimedAtMs ≤ dispatched ∧ m = ⟨hash, attemptId, dispatched⟩ ∧
          (c.dispatchStartedAtMs = some dispatched ∧ db' = t.encode ∨
            c.dispatchStartedAtMs = none ∧ (∃ x s, MarkGuards t c x dispatched s) ∧
              db' = ((t.setTime dispatched).mark hash attemptId dispatched).encode) := by
  simp only [markDispatchStartedTx, bind_eq_ok, markPlan_encode, Except.ok.injEq, Prod.mk.injEq]
  constructor
  · rintro ⟨o, ⟨htext, hmax, c, hc, hattempt, hle, hcases⟩, db, hdb, rfl, rfl⟩
    refine ⟨htext, hmax, c, hc, hattempt, hle, rfl, ?_⟩
    rcases hcases with ⟨hd, rfl⟩ | ⟨hd, hguards, rfl⟩
    · exact .inl ⟨hd, (Except.ok.inj hdb).symm⟩
    · rw [execute, setDispatchStarted_of_claim hu attemptId hc hle hmax] at hdb
      exact .inr ⟨hd, hguards, (Except.ok.inj hdb).symm⟩
  · rintro ⟨htext, hmax, c, hc, hattempt, hle, rfl, ⟨hd, rfl⟩ | ⟨hd, hguards, rfl⟩⟩
    · exact ⟨none, ⟨htext, hmax, c, hc, hattempt, hle, .inl ⟨hd, rfl⟩⟩, _, rfl, rfl, rfl⟩
    · refine ⟨_, ⟨htext, hmax, c, hc, hattempt, hle, .inr ⟨hd, hguards, rfl⟩⟩, _, ?_, rfl, rfl⟩
      rw [execute, setDispatchStarted_of_claim hu attemptId hc hle hmax]
      rfl

/-! ## Receipts -/

/-- The dispatch marker that a receipt reports, and the one its outcome allows. -/
structure Evidence (r : EffectReceipt) (marker : Option Nat) : Prop where
  reported : r.dispatchedAtMs = marker
  not_dispatched : r.outcome = .notDispatched → marker = none
  dispatched : r.outcome = .succeeded ∨ r.outcome = .failed → marker ≠ none

omit [Sha256] in
theorem validateDispatchEvidence_eq_ok {r : EffectReceipt} {marker : Option Nat} {u : Unit} :
    validateDispatchEvidence r marker = .ok u ↔ Evidence r marker := by
  have key : validateDispatchEvidence r marker = .ok u ↔ r.dispatchedAtMs = marker ∧
      (r.outcome = .notDispatched → marker = none) ∧
      (r.outcome = .succeeded ∨ r.outcome = .failed → marker ≠ none) := by
    unfold validateDispatchEvidence
    generalize r.outcome = outcome, r.dispatchedAtMs = reported
    cases outcome <;> cases marker <;> cases reported <;> simp [eq_comm]
  exact key.trans ⟨fun ⟨h₁, h₂, h₃⟩ ↦ ⟨h₁, h₂, h₃⟩, fun ⟨h₁, h₂, h₃⟩ ↦ ⟨h₁, h₂, h₃⟩⟩

omit [Sha256] in
/-- For a receipt that passes its own checks, the evidence is that it reports the marker. -/
theorem evidence_iff {r : EffectReceipt} (hv : validate r = .ok ()) {marker : Option Nat} :
    Evidence r marker ↔ r.dispatchedAtMs = marker := by
  obtain ⟨-, -, -, -, -, -, -, hnot, hsome⟩ := EffectReceipt.validate_eq_ok.mp hv
  refine ⟨fun h ↦ h.reported, ?_⟩
  rintro rfl
  exact ⟨rfl, hnot, hsome⟩

omit [Sha256] in
theorem validateDispatchEvidence_of_ne {r : EffectReceipt} {marker : Option Nat}
    (h : r.dispatchedAtMs ≠ marker) :
    validateDispatchEvidence r marker = .error .dispatchEvidenceMismatch := by
  revert h
  unfold validateDispatchEvidence
  generalize r.outcome = outcome, r.dispatchedAtMs = reported
  intro h
  cases outcome <;> cases marker <;> cases reported <;> first | rfl | exact absurd rfl h | skip
  all_goals exact if_neg fun he ↦ h (congrArg some he.symm)

/-- The checks of `record_receipt` before it looks for a stored receipt. -/
structure ReceiptGuards (t : Tables) (r : EffectReceipt) (x : RegisteredChain) (c : DurableClaim) :
    Prop where
  chain : t.chain r.grantHash = some x
  receiptFor : ReceiptFor x.proposal x.grant r
  claim : t.claim r.grantHash = some c
  attempt : c.attemptId = r.attemptId
  claimed : c.claimedAtMs = r.claimedAtMs
  evidence : Evidence r c.dispatchStartedAtMs

theorem receiptPlan_encode {r : EffectReceipt} {h : Digest32} {row : Option ReceiptRow} :
    receiptPlan r t.encode = .ok (h, row) ↔ h = recordHash r ∧ ∃ x c, ReceiptGuards t r x c ∧
      ((∃ q ∈ t.receipt r.grantHash, recordHash q = recordHash r) ∧ row = none ∨
        t.receipt r.grantHash = none ∧ row = some (receiptRow r)) := by
  simp only [receiptPlan, bind_eq_ok, fromProtocol_eq_ok, commitment_eq_ok,
    Tables.loadChainByGrantHash_encode, Tables.loadClaim_encode, Tables.loadReceiptByGrant_encode,
    okOr_eq_ok, verifyChain_eq_ok, rejectIf_eq_ok, validateDispatchEvidence_eq_ok, Except.ok.injEq,
    exists_const, exists_eq_left', Option.map_eq_some_iff, not_or, not_not]
  constructor
  · rintro ⟨_, hv, _, ⟨-, rfl⟩, _, ⟨x, hx, rfl⟩, _, ⟨⟨-, hfor⟩, rfl⟩, c, hc, ⟨hattempt, hclaimed⟩,
      hevidence, hrest⟩
    have guards : ReceiptGuards t r x c := ⟨hx, hfor, hc, hattempt, hclaimed, hevidence⟩
    cases hold : t.receipt r.grantHash with
    | some q =>
        simp only [hold, bind_eq_ok, fromProtocol_eq_ok, commitment_eq_ok, rejectIf_eq_ok, not_not,
          Except.ok.injEq, Prod.mk.injEq, exists_const] at hrest
        obtain ⟨_, ⟨-, rfl⟩, hq, rfl, rfl⟩ := hrest
        exact ⟨rfl, x, c, guards, .inl ⟨⟨q, rfl, hq⟩, rfl⟩⟩
    | none =>
        simp only [hold, bind_eq_ok, fromProtocol_eq_ok, canonicalJson_of_valid hv,
          Except.ok.injEq, Prod.mk.injEq, exists_eq_left'] at hrest
        obtain ⟨rfl, rfl⟩ := hrest
        refine ⟨rfl, x, c, guards, .inr ⟨rfl, ?_⟩⟩
        rw [receiptRow, hfor.receipt_grant_hash]
  · rintro ⟨rfl, x, c, g, hcases⟩
    have hv := g.receiptFor.receipt_valid
    refine ⟨(), hv, _, ⟨hv, rfl⟩, _, ⟨x, g.chain, rfl⟩, _, ⟨⟨x.verified, g.receiptFor⟩, rfl⟩, c,
      g.claim, ⟨g.attempt, g.claimed⟩, g.evidence, ?_⟩
    rcases hcases with ⟨⟨q, hq, hhash⟩, rfl⟩ | ⟨hnone, rfl⟩
    · have hqv : validate q = .ok () := by
        obtain ⟨q', -, rfl⟩ := Option.map_eq_some_iff.mp hq
        exact q'.2
      simp only [Option.mem_def.mp hq, bind_eq_ok, fromProtocol_eq_ok, commitment_eq_ok,
        rejectIf_eq_ok, not_not, exists_const]
      exact ⟨_, ⟨hqv, rfl⟩, hhash, trivial⟩
    · simp only [hnone, bind_eq_ok, fromProtocol_eq_ok, canonicalJson_of_valid hv,
        Except.ok.injEq, exists_eq_left', Prod.mk.injEq, true_and, Option.some.injEq]
      rw [receiptRow, g.receiptFor.receipt_grant_hash]
      rfl

theorem recordReceiptTx_encode {r : EffectReceipt} {h : Digest32} :
    recordReceiptTx r t.encode = .ok (h, db') ↔ h = recordHash r ∧
      ∃ x c, ∃ g : ReceiptGuards t r x c,
        ((∃ q ∈ t.receipt r.grantHash, recordHash q = recordHash r) ∧ db' = t.encode ∨
          Tables.Receivable r t ∧ db' = (t.addReceipt ⟨r, g.receiptFor.receipt_valid⟩).encode) := by
  simp only [recordReceiptTx, bind_eq_ok, Prod.exists, receiptPlan_encode, Except.ok.injEq,
    Prod.mk.injEq]
  constructor
  · rintro ⟨_, row, ⟨rfl, x, c, g, hcases⟩, db, hdb, rfl, rfl⟩
    refine ⟨rfl, x, c, g, ?_⟩
    rcases hcases with ⟨hsame, rfl⟩ | ⟨-, rfl⟩
    · exact .inl ⟨hsame, (Except.ok.inj hdb).symm⟩
    · exact .inr ((Tables.insertReceipt_encode (r := ⟨r, g.receiptFor.receipt_valid⟩)).mp
        (mapError_eq_ok.mp hdb))
  · rintro ⟨rfl, x, c, g, ⟨hsame, rfl⟩ | ⟨hr, rfl⟩⟩
    · exact ⟨_, none, ⟨rfl, x, c, g, .inl ⟨hsame, rfl⟩⟩, _, rfl, rfl, rfl⟩
    · have hinsert := mapError_eq_ok (f := fun _ ↦ StoreError.receiptConflict).mpr
        ((Tables.insertReceipt_encode (r := ⟨r, g.receiptFor.receipt_valid⟩)).mpr ⟨hr, rfl⟩)
      exact ⟨_, _, ⟨rfl, x, c, g, .inr ⟨hr.grant, rfl⟩⟩, _, hinsert, rfl, rfl⟩

end Etp.Sqlite
