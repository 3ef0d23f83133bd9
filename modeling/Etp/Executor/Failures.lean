import Etp.Executor.Operations
import Etp.Sqlite.Operations

/-!
# What a failing operation leaves behind

`authorize_and_claim` commits three transactions, and it may fail after each of
them.  What its first two have committed then stays: the registered chain and the
currentness snapshot.  No other operation that returns an error leaves anything,
and none at all touches a claim, a receipt, a reconciliation or the trusted time.

`Failed` says this of the trace of a call, with anybody else at work in between, and
`Residue` of a call that has the database for itself.
-/

namespace Etp.Executor

open Etp.Core Etp.Authority Etp.Sqlite Program SqliteEffectStore

/-! ## Databases before and after -/

/-- What an attempt to execute has left in a database. -/
structure SameAttempts (db db' : Db) : Prop where
  claims : db'.claims = db.claims
  receipts : db'.receipts = db.receipts
  reconciliations : db'.reconciliations = db.reconciliations
  lastTrustedTimeMs : db'.lastTrustedTimeMs = db.lastTrustedTimeMs

/-- At most the chain of one grant was added. -/
structure Registers (grantId : String) (db db' : Db) : Prop where
  attempts : SameAttempts db db'
  currentness : db'.currentness = db.currentness
  chains : db'.authorizationChains = db.authorizationChains ∨
    ∃ row : ChainRow, row.grantId = grantId ∧
      db'.authorizationChains = db.authorizationChains ++ [row]

/-- At most the snapshot of one key was written. -/
structure Observes (key : String) (db db' : Db) : Prop where
  attempts : SameAttempts db db'
  chains : db'.authorizationChains = db.authorizationChains
  currentness : ∀ other, other ≠ key → db'.currentnessByKey other = db.currentnessByKey other

theorem SameAttempts.refl (db : Db) : SameAttempts db db := ⟨rfl, rfl, rfl, rfl⟩

theorem SameAttempts.of_eq {db db' : Db} (h : db' = db) : SameAttempts db db' := by
  rw [h]
  exact .refl db

theorem SameAttempts.trans {db db' db'' : Db} (h : SameAttempts db db')
    (h' : SameAttempts db' db'') : SameAttempts db db'' where
  claims := h'.claims.trans h.claims
  receipts := h'.receipts.trans h.receipts
  reconciliations := h'.reconciliations.trans h.reconciliations
  lastTrustedTimeMs := h'.lastTrustedTimeMs.trans h.lastTrustedTimeMs

theorem Registers.refl (grantId : String) (db : Db) : Registers grantId db db :=
  ⟨.refl db, rfl, .inl rfl⟩

theorem Observes.refl (key : String) (db : Db) : Observes key db db :=
  ⟨.refl db, rfl, fun _ _ ↦ rfl⟩

/-! ## The two writes -/

section Writes

variable {db db' : Db}

theorem observes_updateCurrentness {row : CurrentnessRow}
    (hrow : (db.currentnessByKey row.currentnessKey).isSome)
    (h : db.updateCurrentness row = .ok db') : Observes row.currentnessKey db db' := by
  rw [Db.updateCurrentness, bind_eq_ok] at h
  obtain ⟨_, -, h⟩ := h
  cases h
  refine ⟨⟨rfl, rfl, rfl, rfl⟩, rfl, fun other hother ↦ ?_⟩
  show lookupBy _ other (updateWhere _ _ db.currentness) = _
  rw [lookupBy_replace hrow, if_neg hother.symm]
  rfl

theorem observes_insertCurrentness {row : CurrentnessRow}
    (h : db.insertCurrentness row = .ok db') : Observes row.currentnessKey db db' := by
  rw [Db.insertCurrentness, bind_eq_ok] at h
  obtain ⟨_, -, h⟩ := h
  cases h
  refine ⟨⟨rfl, rfl, rfl, rfl⟩, rfl, fun other hother ↦ ?_⟩
  show lookupBy _ other (db.currentness ++ [row]) = _
  rw [lookupBy_append, lookupBy_singleton, if_neg hother.symm, Option.or_none]
  rfl

theorem snapshotParams_key {snapshot : CurrentnessSnapshot} {row : CurrentnessRow}
    (h : snapshotParams snapshot = .ok row) : row.currentnessKey = snapshot.key := by
  simp only [snapshotParams, bind_eq_ok] at h
  obtain ⟨_, -, _, -, _, -, _, -, h⟩ := h
  cases h
  rfl

theorem putCurrentnessTx_observes {snapshot : CurrentnessSnapshot} {u : Unit}
    (h : putCurrentnessTx snapshot db = .ok (u, db')) : Observes snapshot.key db db' := by
  simp only [putCurrentnessTx, bind_eq_ok] at h
  obtain ⟨_, -, existing, hexisting, h⟩ := h
  cases existing with
  | none =>
      simp only [bind_eq_ok, mapSqlite_eq_ok] at h
      obtain ⟨row, hrow, db'', hinsert, h⟩ := h
      cases h
      rw [← snapshotParams_key hrow]
      exact observes_insertCurrentness hinsert
  | some previous =>
      by_cases heq : previous = snapshot
      · replace h := (if_pos heq).symm.trans h
        cases h
        exact .refl _ _
      · replace h := (if_neg heq).symm.trans h
        simp only [bind_eq_ok, mapSqlite_eq_ok] at h
        obtain ⟨_, -, row, hrow, db'', hupdate, h⟩ := h
        cases h
        rw [← snapshotParams_key hrow]
        obtain ⟨stored, hstored, -⟩ := transposeMap_eq_ok_some.mp hexisting
        refine observes_updateCurrentness ?_ hupdate
        rw [snapshotParams_key hrow, hstored]
        rfl

theorem Observes.of_putCurrentness {snapshot : CurrentnessSnapshot}
    (h : SqliteEffectStore.putCurrentness snapshot db = (.ok (), db')) :
    Observes snapshot.key db db' :=
  putCurrentnessTx_observes (transaction_eq_ok.mp h)

variable [Sha256]

/-- The row is inserted under the identifier of the grant. -/
theorem registerChainPlan_grantId {c : TaskCommitment} {p : EffectProposal}
    {d : AuthorizationDecision} {g : ExecutionGrant} {hash : Digest32} {row : ChainRow}
    (h : registerChainPlan c p d g db = .ok (hash, some row)) : row.grantId = g.grantId := by
  simp only [registerChainPlan, bind_eq_ok, Except.ok.injEq, Prod.mk.injEq] at h
  obtain ⟨_, -, _, -, _, -, _, -, _, -, _, -, _, -, plan, hplan, -, rfl⟩ := h
  unfold storeChainPlan at hplan
  split at hplan
  · simp at hplan
  · simp only [bind_eq_ok, Except.ok.injEq, Option.some.injEq] at hplan
    obtain ⟨_, -, _, -, rfl⟩ := hplan
    rfl

theorem registerChainTx_registers {c : TaskCommitment} {p : EffectProposal}
    {d : AuthorizationDecision} {g : ExecutionGrant} {hash : Digest32}
    (h : registerChainTx c p d g db = .ok (hash, db')) : Registers g.grantId db db' := by
  simp only [registerChainTx, bind_eq_ok, Prod.exists, Except.ok.injEq, Prod.mk.injEq] at h
  obtain ⟨_, row, hplan, db'', hinsert, -, rfl⟩ := h
  cases row with
  | none =>
      cases hinsert
      exact .refl _ _
  | some row =>
      rw [execute, mapSqlite_eq_ok, Db.insertChain, bind_eq_ok] at hinsert
      obtain ⟨_, -, hinsert⟩ := hinsert
      cases hinsert
      exact ⟨⟨rfl, rfl, rfl, rfl⟩, rfl, .inr ⟨_, registerChainPlan_grantId hplan, rfl⟩⟩

theorem Registers.of_registerChain {c : TaskCommitment} {p : EffectProposal}
    {d : AuthorizationDecision} {g : ExecutionGrant} {hash : Digest32}
    (h : SqliteEffectStore.registerChain c p d g db = (.ok hash, db')) :
    Registers g.grantId db db' :=
  registerChainTx_registers (transaction_eq_ok.mp h)

end Writes

/-! ## Failures -/

variable [Sha256] [Ed25519] [Coset]

/-- The checks of `authorize_and_claim` before its first transaction. -/
structure Authorized (e : EffectTransactionExecutor) (prepared : PreparedEffect)
    (signedAuthority : List UInt8) (snapshot : AuthoritySnapshot)
    (currentness : CurrentnessSnapshot) (now : Nat) : Prop where
  fresh : currentness.observedAtMs ≤ now ∧
    now - currentness.observedAtMs ≤ e.policy.maximumCurrentnessAgeMs
  audience : prepared.grant.audience = e.policy.audience
  authorityEpoch : snapshot.configurationEpoch = prepared.commitment.configurationEpoch
  policyEpoch : currentness.policyEpoch = prepared.commitment.policyEpoch
  configurationEpoch : currentness.configurationEpoch = prepared.commitment.configurationEpoch
  verified : ∃ verified, verifyAuthority signedAuthority snapshot
    (e.verificationContext prepared now) = .ok verified

/-- The calls on the store of an operation that returned an error: none of them left
anything but the first of `authorize_and_claim`, or the first two. -/
inductive Failed (e : EffectTransactionExecutor) : Operation → List (Db × Db) → Prop
  | quiet {op : Operation} {calls : List (Db × Db)} (hquiet : Quiet calls) : Failed e op calls
  | registered {prepared : PreparedEffect} {signedAuthority : List UInt8}
      {snapshot : AuthoritySnapshot} {currentness : CurrentnessSnapshot} {attemptId : String}
      {now : Nat} {hash : Digest32} {db db' : Db} {rest : List (Db × Db)}
      (hauthorized : Authorized e prepared signedAuthority snapshot currentness now)
      (hregister : SqliteEffectStore.registerChain prepared.commitment prepared.proposal
        prepared.decision prepared.grant db = (.ok hash, db'))
      (hrest : Quiet rest) :
      Failed e (.authorizeAndClaim prepared signedAuthority snapshot currentness attemptId now)
        ((db, db') :: rest)
  | observed {prepared : PreparedEffect} {signedAuthority : List UInt8}
      {snapshot : AuthoritySnapshot} {currentness : CurrentnessSnapshot} {attemptId : String}
      {now : Nat} {hash : Digest32} {db db' later later' : Db} {rest : List (Db × Db)}
      (hauthorized : Authorized e prepared signedAuthority snapshot currentness now)
      (hregister : SqliteEffectStore.registerChain prepared.commitment prepared.proposal
        prepared.decision prepared.grant db = (.ok hash, db'))
      (hobserve : SqliteEffectStore.putCurrentness currentness later = (.ok (), later'))
      (hrest : Quiet rest) :
      Failed e (.authorizeAndClaim prepared signedAuthority snapshot currentness attemptId now)
        ((db, db') :: (later, later') :: rest)

/-- What the operation left, when nobody else was at work. -/
inductive Residue (e : EffectTransactionExecutor) : Operation → Db → Db → Prop
  | nothing {op : Operation} {db : Db} : Residue e op db db
  | registered {prepared : PreparedEffect} {signedAuthority : List UInt8}
      {snapshot : AuthoritySnapshot} {currentness : CurrentnessSnapshot} {attemptId : String}
      {now : Nat} {hash : Digest32} {db db' : Db}
      (hauthorized : Authorized e prepared signedAuthority snapshot currentness now)
      (hregister : SqliteEffectStore.registerChain prepared.commitment prepared.proposal
        prepared.decision prepared.grant db = (.ok hash, db'))
      (honly : Registers prepared.grant.grantId db db') :
      Residue e (.authorizeAndClaim prepared signedAuthority snapshot currentness attemptId now)
        db db'
  | observed {prepared : PreparedEffect} {signedAuthority : List UInt8}
      {snapshot : AuthoritySnapshot} {currentness : CurrentnessSnapshot} {attemptId : String}
      {now : Nat} {hash : Digest32} {db registered db' : Db}
      (hauthorized : Authorized e prepared signedAuthority snapshot currentness now)
      (hregister : SqliteEffectStore.registerChain prepared.commitment prepared.proposal
        prepared.decision prepared.grant db = (.ok hash, registered))
      (hobserve : SqliteEffectStore.putCurrentness currentness registered = (.ok (), db'))
      (honly : Registers prepared.grant.grantId db registered)
      (honlyKey : Observes currentness.key registered db') :
      Residue e (.authorizeAndClaim prepared signedAuthority snapshot currentness attemptId now)
        db db'

section Failures

variable {e : EffectTransactionExecutor} {op : Operation} {calls : List (Db × Db)}
  {err : ExecutorError}

theorem authorized_of_checkAuthorization {prepared : PreparedEffect}
    {signedAuthority : List UInt8} {snapshot : AuthoritySnapshot}
    {currentness : CurrentnessSnapshot} {now : Nat} {verified : VerifiedAuthority}
    (h : e.checkAuthorization prepared signedAuthority snapshot currentness now = .ok verified) :
    Authorized e prepared signedAuthority snapshot currentness now := by
  simp only [EffectTransactionExecutor.checkAuthorization,
    EffectTransactionExecutor.checkCurrentnessFreshness, bind_eq_ok, rejectIf_eq_ok,
    mapError_eq_ok] at h
  obtain ⟨_, ⟨_, hpast, hage⟩, _, haudience, _, hauthority, _, hpolicy, _, hconfiguration, h⟩ := h
  exact ⟨⟨not_lt.mp hpast, not_lt.mp hage⟩, not_not.mp haudience, not_not.mp hauthority,
    not_not.mp hpolicy, not_not.mp hconfiguration, verified, h⟩

omit [Sha256] [Ed25519] [Coset] in
/-- A transaction that failed left the database as it found it. -/
theorem quiet_of_error {α : Type} {f : Db → Except StoreError (α × Db)} {db : Db}
    (h : ∃ e', (transaction db (f db)).1 = .error e') :
    Quiet [(db, (transaction db (f db)).2)] := by
  obtain ⟨e', h⟩ := h
  intro call hcall
  rw [List.mem_singleton.mp hcall]
  exact transaction_snd_of_error h

omit [Sha256] [Ed25519] [Coset] in
/-- A program of one transaction. -/
theorem quiet_of_transact {α β : Type} {f : Db → Except StoreError (α × Db)} {g : α → β}
    (h : (Program.transact ExecutorError.store (fun db ↦ transaction db (f db))
      fun a ↦ .done (.ok (g a))).Trace calls (.error err)) : Quiet calls := by
  obtain ⟨db, rest, rfl, ⟨herror, rfl⟩ | ⟨a, -, hrest⟩⟩ := Trace.of_transact h
  · exact quiet_of_error herror
  · cases (Trace.of_done hrest).2

omit [Ed25519] [Coset] in
/-- A recovery reads a lifecycle and then stores a receipt. -/
theorem quiet_of_recovery {p : Reads Db (Except StoreError Lifecycle)}
    {receipt : Lifecycle → Except ExecutorError EffectReceipt}
    (h : (Program.reading .store p fun lifecycle ↦
      .check (receipt lifecycle) EffectTransactionExecutor.storeReceipt).Trace calls
        (.error err)) : Quiet calls := by
  rcases Trace.of_reading h with hquiet | ⟨reads, rest, lifecycle, rfl, hreads, hrest⟩
  · exact hquiet
  · apply hreads.append
    rcases Trace.of_check hrest with rfl | ⟨_, -, hstore⟩
    · exact quiet_nil
    · exact quiet_of_transact hstore

theorem failed_authorizeAndClaim {prepared : PreparedEffect} {signedAuthority : List UInt8}
    {snapshot : AuthoritySnapshot} {currentness : CurrentnessSnapshot} {attemptId : String}
    {now : Nat}
    (h : (e.authorizeAndClaim prepared signedAuthority snapshot currentness attemptId now).Trace
      calls (.error err)) :
    Failed e (.authorizeAndClaim prepared signedAuthority snapshot currentness attemptId now)
      calls := by
  rcases Trace.of_check h with rfl | ⟨verified, hcheck, h⟩
  · exact .quiet quiet_nil
  have hauthorized := authorized_of_checkAuthorization hcheck
  obtain ⟨db, rest, rfl, ⟨herror, rfl⟩ | ⟨hash, hregister, h⟩⟩ := Trace.of_transact h
  · exact .quiet (quiet_of_error herror)
  obtain ⟨later, rest, rfl, ⟨herror, rfl⟩ | ⟨_, hobserve, h⟩⟩ := Trace.of_transact h
  · exact .registered hauthorized (Prod.ext hregister rfl) (quiet_of_error herror)
  · exact .observed hauthorized (Prod.ext hregister rfl) (Prod.ext hobserve rfl)
      (quiet_of_transact h)

omit [Ed25519] [Coset] in
theorem trace_of_map {α : Type} {g : α → Answer} {p : Program Db (Except ExecutorError α)}
    (h : (p.map (·.map g)).Trace calls (.error err)) : p.Trace calls (.error err) := by
  obtain ⟨x, hx, herror⟩ := Trace.of_map h
  cases x with
  | error e' =>
      cases herror
      exact hx
  | ok a => cases herror

theorem failed_of_trace (h : (op.program e).Trace calls (.error err)) : Failed e op calls := by
  cases op with
  | observeCurrentness currentness now =>
      have h : (e.observeCurrentness currentness now).Trace calls _ := trace_of_map h
      rcases Trace.of_check h with rfl | ⟨_, -, h⟩
      · exact .quiet quiet_nil
      · exact .quiet (quiet_of_transact h)
  | authorizeAndClaim => exact failed_authorizeAndClaim (trace_of_map h)
  | beginDispatch claimed snapshot now =>
      have h : (e.beginDispatch claimed snapshot now).Trace calls _ := trace_of_map h
      rcases Trace.of_check h with rfl | ⟨_, -, h⟩
      · exact .quiet quiet_nil
      · exact .quiet (quiet_of_transact h)
  | dispatchWith => cases (Trace.of_done h).2
  | recordNotDispatched => exact .quiet (quiet_of_transact (trace_of_map h))
  | recordDispatched => exact .quiet (quiet_of_transact (trace_of_map h))
  | recordRecoveredUnknown => exact .quiet (quiet_of_recovery (trace_of_map h))
  | recordRecoveredNotDispatched => exact .quiet (quiet_of_recovery (trace_of_map h))
  | appendReconciliation => exact .quiet (quiet_of_transact (trace_of_map h))
  | lifecycle grantHash =>
      have h : (EffectTransactionExecutor.lifecycle grantHash).Trace calls _ := trace_of_map h
      rcases Trace.of_reading h with hquiet | ⟨_, rest, _, -, -, hrest⟩
      · exact .quiet hquiet
      · cases (Trace.of_done hrest).2

theorem Failed.sameAttempts (h : Failed e op calls) :
    ∀ call ∈ calls, SameAttempts call.1 call.2 := by
  have hquiet : ∀ {rest : List (Db × Db)}, Quiet rest →
      ∀ call ∈ rest, SameAttempts call.1 call.2 :=
    fun h call hcall ↦ .of_eq (h call hcall)
  cases h with
  | quiet h => exact hquiet h
  | registered _ hregister hrest =>
      have hattempts := (Registers.of_registerChain hregister).attempts
      exact List.forall_mem_cons.mpr ⟨hattempts, hquiet hrest⟩
  | observed _ hregister hobserve hrest =>
      have hattempts := (Registers.of_registerChain hregister).attempts
      have hlater := (Observes.of_putCurrentness hobserve).attempts
      exact List.forall_mem_cons.mpr
        ⟨hattempts, List.forall_mem_cons.mpr ⟨hlater, hquiet hrest⟩⟩

omit [Sha256] [Ed25519] [Coset] in
theorem sameAttempts_of_linked {db db' : Db}
    (h : ∀ call ∈ calls, SameAttempts call.1 call.2) (hlinked : Linked db calls db') :
    SameAttempts db db' := by
  induction calls generalizing db with
  | nil => exact .of_eq hlinked.symm
  | cons call calls ih =>
      obtain ⟨rfl, hlinked⟩ := hlinked
      have ⟨hcall, hcalls⟩ := List.forall_mem_cons.mp h
      exact hcall.trans (ih hcalls hlinked)

/-- With nobody in between, the calls that failed left a residue. -/
theorem Failed.residue {db db' : Db} (h : Failed e op calls) (hlinked : Linked db calls db') :
    Residue e op db db' := by
  cases h with
  | quiet h =>
      cases h.linked_eq hlinked
      exact .nothing
  | registered hauthorized hregister hrest =>
      obtain ⟨rfl, hlinked⟩ := hlinked
      cases hrest.linked_eq hlinked
      exact .registered hauthorized hregister (.of_registerChain hregister)
  | observed hauthorized hregister hobserve hrest =>
      obtain ⟨rfl, rfl, hlinked⟩ := hlinked
      cases hrest.linked_eq hlinked
      exact .observed hauthorized hregister hobserve (.of_registerChain hregister)
        (.of_putCurrentness hobserve)

end Failures

/-! ## Every operation -/

/-- What the errors of an operation leave, whoever else is at work and with nobody. -/
structure FailsQuietly (e : EffectTransactionExecutor) (op : Operation) : Prop where
  calls : ∀ calls err, (op.program e).Trace calls (.error err) →
    Failed e op calls ∧ ∀ call ∈ calls, SameAttempts call.1 call.2
  alone : ∀ db err db', (op.program e).alone db = (.error err, db') →
    Residue e op db db' ∧ SameAttempts db db'

/-- Errors consume no authority.  The calls on the store of an operation that fails leave
the claims, the receipts, the reconciliations and the trusted time as they found them,
and only `authorize_and_claim` leaves anything: after all of its own checks, the chain if
the store took it, and then the snapshot if the store took that. -/
theorem failsQuietly (e : EffectTransactionExecutor) (op : Operation) : FailsQuietly e op where
  calls := fun _ _ htrace ↦
    have hfailed := failed_of_trace htrace
    ⟨hfailed, hfailed.sameAttempts⟩
  alone := by
    intro db err db' h
    obtain ⟨calls, htrace, hlinked⟩ := exists_trace_alone (op.program e) db
    rw [h] at htrace hlinked
    have hfailed := failed_of_trace htrace
    exact ⟨hfailed.residue hlinked, sameAttempts_of_linked hfailed.sameAttempts hlinked⟩

end Etp.Executor
