import Etp.Executor.Operations
import Etp.Lib.Machine
import Etp.Sqlite.Later

/-!
# Executors on one database

Any number of executors, in any number of processes, on one database.  A world
holds the operations that are under way, each with the rest of its program, and
the tokens that some process holds.  An action starts an operation, which moves
the token it takes out of the world, makes the next call of an operation that is
under way, or drops a token or an operation, as a process that dies does with all
of its own.  Opening the database again changes nothing.

`log` is a ghost: the operations that returned `Ok`, with the databases before and
after their last call.

What one call of an operation may do is its `Contract`.  It is derived once from
the programs, and the results about runs of worlds only look at it.
-/

namespace Etp.Executor

open Etp.Core Etp.Authority Etp.Sqlite

variable [Sha256]

/-! ## Worlds -/

/-- An operation that is under way. -/
structure Task where
  executor : EffectTransactionExecutor
  operation : Operation
  rest : Program Db (Except ExecutorError Answer)

/-- An operation that returned `Ok`. -/
structure Completion where
  executor : EffectTransactionExecutor
  operation : Operation
  before : Db
  after : Db
  answer : Answer

structure World where
  db : Db
  tasks : List Task
  tokens : List Token
  log : List Completion

inductive Action where
  | start (e : EffectTransactionExecutor) (op : Operation)
  | advance (i : Nat)
  | dropTask (i : Nat)
  | dropToken (t : Token)

namespace World

def empty : World where
  db := .empty
  tasks := []
  tokens := []
  log := []

/-- Hand out the answer of an operation. -/
def finish (w : World) (e : EffectTransactionExecutor) (op : Operation) (before : Db) :
    Except ExecutorError Answer → World
  | .error _ => w
  | .ok answer => { w with
      tokens := w.tokens ++ answer.token.toList
      log := w.log ++ [⟨e, op, before, w.db, answer⟩] }

/-- Keep what is left of an operation, or finish it. -/
def settle (w : World) (e : EffectTransactionExecutor) (op : Operation) (before : Db) :
    Program Db (Except ExecutorError Answer) → World
  | .done result => w.finish e op before result
  | rest@(.call _ _) => { w with tasks := w.tasks ++ [⟨e, op, rest⟩] }

variable [Ed25519] [Coset]

def step (w : World) : Action → World
  | .start e op =>
      match op.consumes with
      | none => w.settle e op w.db (op.program e)
      | some t =>
          if t ∈ w.tokens then
            ({ w with tokens := w.tokens.erase t } : World).settle e op w.db (op.program e)
          else w
  | .advance i =>
      match w.tasks[i]? with
      | some ⟨e, op, .call next k⟩ =>
          ({ w with db := next w.db, tasks := w.tasks.eraseIdx i } : World).settle e op w.db
            (k w.db)
      | _ => w
  | .dropTask i => { w with tasks := w.tasks.eraseIdx i }
  | .dropToken t => { w with tokens := w.tokens.erase t }

/-- The world after a run from the empty database. -/
def run (actions : List Action) : World := Machine.run step empty actions

end World

/-! ## Contracts -/

/-- The calls that touch no claim. -/
def IsPlain : SqliteEffectStore.Call → Prop
  | .claim _ _ _ => False
  | .markDispatchStarted _ _ _ => False
  | _ => True

/-- The last call, if it is one, hands out no token. -/
def NoToken (result : Option (Except ExecutorError Answer)) : Prop :=
  ∀ answer, result = some (.ok answer) → answer.token = none

theorem noToken_none : NoToken none := by
  rintro _ ⟨⟩

theorem noToken_error (err : ExecutorError) : NoToken (some (.error err)) := by
  rintro _ ⟨⟩

variable [Ed25519] [Coset]

/-- What one call of an operation may do, with its answer if it is the last. -/
inductive Contract (e : EffectTransactionExecutor) :
    Operation → Db → Db → Option (Except ExecutorError Answer) → Prop
  | quiet {op : Operation} {db : Db} {result : Option (Except ExecutorError Answer)}
      (hresult : NoToken result) : Contract e op db db result
  | plain {op : Operation} {db : Db} {result : Option (Except ExecutorError Answer)}
      {call : SqliteEffectStore.Call} (hcall : IsPlain call) (hresult : NoToken result) :
      Contract e op db (SqliteEffectStore.step db call) result
  | claimed {prepared : PreparedEffect} {signedAuthority : List UInt8}
      {snapshot : AuthoritySnapshot} {currentness : CurrentnessSnapshot} {attemptId : String}
      {now : Nat} {verified : VerifiedAuthority} {claim : DurableClaim} {db db' : Db}
      (hcheck : e.checkAuthorization prepared signedAuthority snapshot currentness now =
        .ok verified)
      (hregistered : db.chainByGrantId prepared.grant.grantId = some prepared.registered.row)
      (hclaim : SqliteEffectStore.claim prepared.grant (e.claimRequest currentness attemptId) now
        db = (.ok claim, db')) :
      Contract e (.authorizeAndClaim prepared signedAuthority snapshot currentness attemptId now)
        db db' (some (.ok (.claimed ⟨prepared, claim, .ofVerified verified, signedAuthority⟩)))
  | marked {claimed : ClaimedEffect} {snapshot : AuthoritySnapshot} {now : Nat}
      {marker : DispatchMarker} {db db' : Db}
      (hcheck : e.checkDispatch claimed snapshot now = .ok ())
      (hmark : SqliteEffectStore.markDispatchStarted claimed.claim.grantHash
        claimed.claim.attemptId now db = (.ok marker, db')) :
      Contract e (.beginDispatch claimed snapshot now) db db'
        (some (.ok (.capability ⟨claimed.prepared, claimed.claim, marker.dispatchedAtMs⟩)))

/-! ### A chain that was registered -/

omit [Ed25519] [Coset] in
theorem registerChain_registered {prepared : PreparedEffect} {db : Db} {hash : Digest32}
    (hdb : Reached db) (h : (SqliteEffectStore.registerChain prepared.commitment prepared.proposal
      prepared.decision prepared.grant db).1 = .ok hash) :
    (SqliteEffectStore.registerChain prepared.commitment prepared.proposal prepared.decision
      prepared.grant db).2.chainByGrantId prepared.grant.grantId =
        some prepared.registered.row := by
  obtain ⟨t, hw, rfl⟩ := hdb.exists_tables
  have htx := transaction_fst_ok h
  obtain ⟨x, ⟨hc, hp, hd, hg⟩, -, hcases⟩ := registerChainTx_encode.mp htx
  have hx : x = prepared.registered := RegisteredChain.ext hc hp hd hg
  subst hx
  rcases hcases with ⟨hfound, hdb'⟩ | ⟨hfresh, hdb'⟩
  · show (SqliteEffectStore.transaction _ _).2.chainByGrantId _ = _
    rw [hdb', Tables.chainByGrantId_encode, hfound, Option.map_some]
  · have hid : prepared.registered.grant.grantId = prepared.grant.grantId := rfl
    show (SqliteEffectStore.transaction _ _).2.chainByGrantId _ = _
    rw [hdb', Tables.chainByGrantId_encode, Tables.chainById_addChain hfresh, if_pos hid,
      Option.map_some]

omit [Ed25519] [Coset] in
theorem chainByGrantId_later {db db' : Db} (h : Precedes db db') {x : RegisteredChain}
    (hx : db.chainByGrantId x.grant.grantId = some x.row) :
    db'.chainByGrantId x.grant.grantId = some x.row := by
  obtain ⟨t, t', hw, hw', rfl, rfl, hkept⟩ := h.kept
  rw [Tables.chainByGrantId_encode, Option.map_eq_some_iff] at hx
  obtain ⟨y, hy, hrow⟩ := hx
  cases Tables.chainRow_injective hrow
  rw [Tables.chainByGrantId_encode, hkept.chainById hw hw' hy, Option.map_some]

/-! ### The programs -/

section Programs

variable {e : EffectTransactionExecutor} {op : Operation} {α β : Type} {g : α → Answer} {db : Db}

/-- The contract of a program whose answer is still to be wrapped. -/
def Keeps (e : EffectTransactionExecutor) (op : Operation) (g : α → Answer)
    (p : Program Db (Except ExecutorError α)) (db : Db) : Prop :=
  p.Obeys Precedes (fun s s' (result : Option (Except ExecutorError α)) ↦
    Contract e op s s' (result.map (·.map g))) db

theorem keeps_done (x : Except ExecutorError α) : Keeps e op g (.done x) db :=
  Program.obeys_done x

theorem keeps_check {x : Except ExecutorError β} {k : β → Program Db (Except ExecutorError α)}
    (h : ∀ b, x = .ok b → Keeps e op g (k b) db) : Keeps e op g (.check x k) db :=
  Program.obeys_check h

/-- A transaction of the store that touches no claim. -/
theorem keeps_plain {f : Db → Except StoreError β × Db} {c : SqliteEffectStore.Call}
    {k : β → Program Db (Except ExecutorError α)} (hcall : IsPlain c)
    (hf : ∀ s, SqliteEffectStore.step s c = (f s).2)
    (hanswer : ∀ b, NoToken ((k b).answer.map (·.map g)))
    (hrest : ∀ s b, Precedes db s → (f s).1 = .ok b → Keeps e op g (k b) (f s).2) :
    Keeps e op g (.transact .store f k) db := by
  refine Program.obeys_transact (fun s err _ _ ↦ ?_) (fun s b _ _ ↦ ?_) hrest
  · rw [← hf]
    exact .plain hcall (noToken_error _)
  · rw [← hf]
    exact .plain hcall (hanswer b)

/-- Reads of the store. -/
theorem keeps_reading {p : Reads Db (Except StoreError β)}
    {k : β → Program Db (Except ExecutorError α)}
    (hanswer : ∀ b, NoToken ((k b).answer.map (·.map g)))
    (hrest : ∀ s b, Keeps e op g (k b) s) : Keeps e op g (.reading .store p k) db :=
  Program.obeys_reading (fun _ ↦ .quiet noToken_none) (fun _ _ ↦ .quiet (noToken_error _))
    (fun _ b ↦ .quiet (hanswer b)) hrest

/-- The last transaction of an operation that hands out a token: an error rolls back. -/
theorem keeps_last {f : Db → Except StoreError β × Db} {a : β → α}
    (herror : ∀ s err, (f s).1 = .error err → (f s).2 = s)
    (hok : ∀ s b, Precedes db s → (f s).1 = .ok b →
      Contract e op s (f s).2 (some (.ok (g (a b))))) :
    Keeps e op g (.transact .store f fun b ↦ .done (.ok (a b))) db := by
  refine Program.obeys_transact (fun s err _ h ↦ ?_) hok fun _ _ _ _ ↦ Program.obeys_done _
  rw [herror s err h]
  exact .quiet (noToken_error _)

theorem keeps_storeReceipt (receipt : EffectReceipt) :
    Keeps e op Answer.recorded (EffectTransactionExecutor.storeReceipt receipt) db := by
  refine keeps_plain (c := .recordReceipt receipt) trivial (fun _ ↦ rfl) ?_
    fun _ _ _ _ ↦ keeps_done _
  rintro hash _ ⟨⟩
  rfl

/-- A recovery reads, checks what it read, and stores a receipt. -/
theorem keeps_recovery (hash : Digest32)
    (receipt : Lifecycle → Except ExecutorError EffectReceipt) :
    Keeps e op Answer.recorded (.reading .store (SqliteEffectStore.lifecycle hash) fun lifecycle ↦
      .check (receipt lifecycle) EffectTransactionExecutor.storeReceipt) db := by
  refine keeps_reading (fun lifecycle ↦ ?_) fun _ lifecycle ↦
    keeps_check fun receipt _ ↦ keeps_storeReceipt receipt
  cases receipt lifecycle with
  | error err => exact noToken_error err
  | ok receipt => exact noToken_none

/-- Every operation keeps its contract. -/
theorem program_obeys (e : EffectTransactionExecutor) (op : Operation) :
    (op.program e).Obeys Precedes (Contract e op) db := by
  cases op with
  | observeCurrentness currentness now =>
      refine Program.Obeys.map (keeps_check fun _ _ ↦ keeps_plain
        (c := .putCurrentness currentness) trivial (fun _ ↦ rfl) ?_ fun _ _ _ _ ↦ keeps_done _)
      rintro _ _ ⟨⟩
      rfl
  | authorizeAndClaim prepared signedAuthority snapshot currentness attemptId now =>
      refine Program.Obeys.map (keeps_check fun verified hcheck ↦ ?_)
      refine keeps_plain (c := .registerChain prepared.commitment prepared.proposal
        prepared.decision prepared.grant) trivial (fun _ ↦ rfl) (fun _ ↦ noToken_none)
        fun s₁ _ h₁ hregister ↦ ?_
      refine keeps_plain (c := .putCurrentness currentness) trivial (fun _ ↦ rfl)
        (fun _ ↦ noToken_none) fun s₂ _ h₂ _ ↦ ?_
      refine keeps_last (fun _ _ h ↦ transaction_snd_of_error h) fun s₃ claim h₃ hclaim ↦ ?_
      -- The chain that the first transaction left is still there when the third one runs.
      have hlater := (h₂.trans (.step h₂.reached' (.putCurrentness currentness))).trans h₃
      exact .claimed hcheck
        (chainByGrantId_later (x := prepared.registered) hlater
          (registerChain_registered h₁.reached' hregister))
        (Prod.ext hclaim rfl)
  | beginDispatch claimed snapshot now =>
      refine Program.Obeys.map (keeps_check fun _ hcheck ↦ ?_)
      refine keeps_last (fun _ _ h ↦ transaction_snd_of_error h) fun s marker _ h ↦ ?_
      exact .marked hcheck (Prod.ext h rfl)
  | dispatchWith capability => exact Program.obeys_done _
  | recordNotDispatched claimed evidence => exact Program.Obeys.map (keeps_storeReceipt _)
  | recordDispatched handle evidence => exact Program.Obeys.map (keeps_storeReceipt _)
  | recordRecoveredUnknown recovery => exact Program.Obeys.map (keeps_recovery _ _)
  | recordRecoveredNotDispatched recovery => exact Program.Obeys.map (keeps_recovery _ _)
  | appendReconciliation record =>
      refine Program.Obeys.map (keeps_plain (c := .appendReconciliation record) trivial
        (fun _ ↦ rfl) ?_ fun _ _ _ _ ↦ keeps_done _)
      rintro hash _ ⟨⟩
      rfl
  | lifecycle grantHash =>
      refine Program.Obeys.map (keeps_reading ?_ fun _ _ ↦ keeps_done _)
      rintro lifecycle _ ⟨⟩
      rfl

/-- The only operation that returns `Ok` without a call is `dispatch_with`. -/
theorem answer_program_ok {answer : Answer} (h : (op.program e).answer = some (.ok answer)) :
    ∃ capability : DispatchCapability, op = .dispatchWith capability ∧
      answer = .dispatched capability.split.1 capability.split.2 := by
  cases op with
  | dispatchWith capability =>
      cases h
      exact ⟨capability, rfl, rfl⟩
  | observeCurrentness currentness now =>
      simp only [Operation.program, EffectTransactionExecutor.observeCurrentness] at h
      cases hc : e.checkCurrentnessFreshness currentness now <;>
        simp [hc, Program.map, Program.transact, Program.answer, Except.map] at h
  | authorizeAndClaim prepared signedAuthority snapshot currentness attemptId now =>
      simp only [Operation.program, EffectTransactionExecutor.authorizeAndClaim] at h
      cases hc : e.checkAuthorization prepared signedAuthority snapshot currentness now <;>
        simp [hc, Program.map, Program.transact, Program.answer, Except.map] at h
  | beginDispatch claimed snapshot now =>
      simp only [Operation.program, EffectTransactionExecutor.beginDispatch] at h
      cases hc : e.checkDispatch claimed snapshot now <;>
        simp [hc, Program.map, Program.transact, Program.answer, Except.map] at h
  | recordNotDispatched claimed evidence => cases h
  | recordDispatched handle evidence => cases h
  | recordRecoveredUnknown recovery => cases h
  | recordRecoveredNotDispatched recovery => cases h
  | appendReconciliation record => cases h
  | lifecycle grantHash => cases h

end Programs

end Etp.Executor
