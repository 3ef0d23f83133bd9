import Etp.Executor.World

/-!
# Where the tokens are

A token that an operation returned is held by a process, or an operation that is
under way has taken it, or an operation that returned `Ok` has used it up, or it is
lost; never two of these.  `Change` says what an action does in these terms
(`step_change`), and `Inv` collects what holds in every world of a run.

Of the claims it says more: at most one claim token is ever issued for a grant,
and as long as it is held the claim in the database has no marker.
-/

namespace Etp.Executor

open Etp.Core Etp.Authority Etp.Sqlite

variable [Sha256]

namespace World

/-- The tokens that a process or an operation under way holds. -/
def held (w : World) : List Token := w.tokens ++ w.tasks.filterMap fun x ↦ x.operation.consumes

/-- The tokens that were ever returned. -/
def issued (w : World) : List Token := w.log.filterMap fun x ↦ x.answer.token

/-- The tokens that an operation which returned `Ok` has taken. -/
def spent (w : World) : List Token := w.log.filterMap fun x ↦ x.operation.consumes

end World

variable [Ed25519] [Coset]

namespace Completion

/-- Why an operation returned `Ok`. -/
inductive Kept (x : Completion) : Prop
  | contract (h : Contract x.executor x.operation x.before x.after (some (.ok x.answer)))
  | dispatch (capability : DispatchCapability) (hop : x.operation = .dispatchWith capability)
      (hanswer : x.answer = .dispatched capability.split.1 capability.split.2)
      (hafter : x.after = x.before)

end Completion

/-! ## What an action does -/

namespace Contract

variable {e : EffectTransactionExecutor} {op : Operation} {db db' : Db}
  {result : Option (Except ExecutorError Answer)}

/-- A call that hands out no token touches no claim. -/
theorem quiet_or_plain (h : Contract e op db db' result) (hresult : NoToken result) :
    db' = db ∨ ∃ call, IsPlain call ∧ db' = SqliteEffectStore.step db call := by
  cases h with
  | quiet _ => exact .inl rfl
  | plain hcall _ => exact .inr ⟨_, hcall, rfl⟩
  | claimed _ _ _ => cases hresult _ rfl
  | marked _ _ => cases hresult _ rfl

theorem precedes (hdb : Reached db) (h : Contract e op db db' result) : Precedes db db' := by
  cases h with
  | quiet _ => exact .refl hdb
  | plain _ _ => exact .step hdb _
  | @claimed prepared _ _ currentness attemptId now _ _ _ _ _ _ hclaim =>
      have := Precedes.step hdb (.claim prepared.grant (e.claimRequest currentness attemptId) now)
      simp only [SqliteEffectStore.step, hclaim] at this
      exact this
  | @marked claimed _ now _ _ _ _ hmark =>
      have := Precedes.step hdb
        (.markDispatchStarted claimed.claim.grantHash claimed.claim.attemptId now)
      simp only [SqliteEffectStore.step, hmark] at this
      exact this

/-- A call that returns `Ok` touches no claim, or returns a claim or a capability. -/
theorem ok_cases {answer : Answer} (h : Contract e op db db' (some (.ok answer))) :
    answer.token = none ∧
        (db' = db ∨ ∃ call, IsPlain call ∧ db' = SqliteEffectStore.step db call) ∨
      (∃ claimed, answer = .claimed claimed) ∨ ∃ capability, answer = .capability capability := by
  cases h with
  | quiet hresult => exact .inl ⟨hresult _ rfl, .inl rfl⟩
  | plain hcall hresult => exact .inl ⟨hresult _ rfl, .inr ⟨_, hcall, rfl⟩⟩
  | claimed _ _ _ => exact .inr (.inl ⟨_, rfl⟩)
  | marked _ _ => exact .inr (.inr ⟨_, rfl⟩)

/-- Only `authorize_and_claim` returns a claim. -/
theorem of_claimed {claimed : ClaimedEffect}
    (h : Contract e op db db' (some (.ok (.claimed claimed)))) :
    ∃ snapshot currentness attemptId now verified,
      op = .authorizeAndClaim claimed.prepared claimed.signedAuthority snapshot currentness
        attemptId now ∧
      e.checkAuthorization claimed.prepared claimed.signedAuthority snapshot currentness now =
        .ok verified ∧
      claimed.authority = .ofVerified verified ∧
      db.chainByGrantId claimed.prepared.grant.grantId = some claimed.prepared.registered.row ∧
      SqliteEffectStore.claim claimed.prepared.grant (e.claimRequest currentness attemptId) now db =
        (.ok claimed.claim, db') := by
  cases h with
  | quiet hresult => cases hresult _ rfl
  | plain _ hresult => cases hresult _ rfl
  | claimed hcheck hregistered hclaim =>
      exact ⟨_, _, _, _, _, rfl, hcheck, rfl, hregistered, hclaim⟩

/-- Only `begin_dispatch` returns a capability. -/
theorem of_capability {capability : DispatchCapability}
    (h : Contract e op db db' (some (.ok (.capability capability)))) :
    ∃ claimed snapshot now marker, op = .beginDispatch claimed snapshot now ∧
      e.checkDispatch claimed snapshot now = .ok () ∧
      SqliteEffectStore.markDispatchStarted claimed.claim.grantHash claimed.claim.attemptId now db =
        (.ok marker, db') ∧
      capability = ⟨claimed.prepared, claimed.claim, marker.dispatchedAtMs⟩ := by
  cases h with
  | quiet hresult => cases hresult _ rfl
  | plain _ hresult => cases hresult _ rfl
  | marked hcheck hmark => exact ⟨_, _, _, _, rfl, hcheck, hmark, rfl⟩

end Contract

namespace World

/-- Every operation that is under way keeps its contract. -/
def Obeys (w : World) : Prop :=
  ∀ x ∈ w.tasks, x.rest.Obeys Precedes (Contract x.executor x.operation) w.db

inductive Change (w : World) : World → Prop
  | quiet {w' : World}
      (hdb : w'.db = w.db ∨ ∃ call, IsPlain call ∧ w'.db = SqliteEffectStore.step w.db call)
      (hlog : w'.log = w.log) (hheld : ∀ p, w'.held.countP p ≤ w.held.countP p) : Change w w'
  | completed {w' : World} {x : Completion} (hlog : w'.log = w.log ++ [x])
      (hbefore : x.before = w.db) (hafter : x.after = w'.db) (hx : x.Kept)
      (hheld : ∀ p, w'.held.countP p + x.operation.consumes.toList.countP p ≤
        w.held.countP p + x.answer.token.toList.countP p) : Change w w'

theorem Change.precedes {w w' : World} (hdb : Reached w.db) (h : Change w w') :
    Precedes w.db w'.db := by
  cases h with
  | quiet hdb' _ _ =>
      rcases hdb' with heq | ⟨call, -, heq⟩
      · rw [heq]
        exact .refl hdb
      · rw [heq]
        exact .step hdb call
  | completed _ hbefore hafter hx _ =>
      rw [← hbefore] at hdb ⊢
      rw [← hafter]
      cases hx with
      | contract h => exact h.precedes hdb
      | dispatch _ _ _ h =>
          rw [h]
          exact .refl hdb

section Step

variable {w w₀ : World} {e : EffectTransactionExecutor} {op : Operation}
  {rest : Program Db (Except ExecutorError Answer)}

omit [Ed25519] [Coset] in
theorem held_addTask (x : Task) (p : Token → Bool) :
    ({ w with tasks := w.tasks ++ [x] } : World).held.countP p =
      w.held.countP p + x.operation.consumes.toList.countP p := by
  have : [x].filterMap (fun x ↦ x.operation.consumes) = x.operation.consumes.toList := by
    cases h : x.operation.consumes <;> simp [h]
  simp only [held, List.filterMap_append, List.countP_append, this, Nat.add_assoc]

omit [Ed25519] [Coset] in
theorem held_addTokens (tokens : List Token) (p : Token → Bool) :
    ({ w with tokens := w.tokens ++ tokens } : World).held.countP p =
      w.held.countP p + tokens.countP p := by
  simp only [held, List.countP_append]
  omega

omit [Ed25519] [Coset] in
/-- A token that is taken out of the world. -/
theorem held_erase {t : Token} (ht : t ∈ w.tokens) (p : Token → Bool) :
    ({ w with tokens := w.tokens.erase t } : World).held.countP p + [t].countP p =
      w.held.countP p := by
  have hperm := (List.perm_cons_erase ht).countP_eq p
  rw [← List.singleton_append, List.countP_append] at hperm
  simp only [held, List.countP_append, hperm]
  omega

omit [Ed25519] [Coset] in
theorem held_eraseIdx {i : Nat} {x : Task} (hx : w.tasks[i]? = some x) (p : Token → Bool) :
    ({ w with tasks := w.tasks.eraseIdx i } : World).held.countP p +
      x.operation.consumes.toList.countP p = w.held.countP p := by
  obtain ⟨hi, rfl⟩ := List.getElem?_eq_some_iff.mp hx
  have hperm := ((List.getElem_cons_eraseIdx_perm hi).filterMap
    fun x ↦ x.operation.consumes).countP_eq p
  have hsingle : [w.tasks[i]].filterMap (fun x ↦ x.operation.consumes) =
      w.tasks[i].operation.consumes.toList := by
    cases h : w.tasks[i].operation.consumes <;> simp [h]
  rw [← List.singleton_append, List.filterMap_append, List.countP_append, hsingle] at hperm
  simp only [held, List.countP_append, ← hperm]
  omega

/-- An operation whose token was taken, or that made a call, is kept or finished. -/
theorem change_settle (hlog : w₀.log = w.log)
    (hcall : Contract e op w.db w₀.db rest.answer ∨ w₀.db = w.db ∧ rest = op.program e)
    (hheld : ∀ p, w₀.held.countP p + op.consumes.toList.countP p ≤ w.held.countP p) :
    Change w (w₀.settle e op w.db rest) := by
  have hdb : NoToken rest.answer → w₀.db = w.db ∨
      ∃ call, IsPlain call ∧ w₀.db = SqliteEffectStore.step w.db call := by
    intro hresult
    rcases hcall with hcall | ⟨heq, -⟩
    · exact hcall.quiet_or_plain hresult
    · exact .inl heq
  cases rest with
  | call next k =>
      refine .quiet (hdb noToken_none) hlog fun p ↦ ?_
      have := held_addTask (w := w₀) ⟨e, op, .call next k⟩ p
      exact this.trans_le (hheld p)
  | done result =>
      cases result with
      | error err =>
          exact .quiet (hdb (noToken_error err)) hlog fun p ↦ (Nat.le_add_right _ _).trans (hheld p)
      | ok answer =>
          refine .completed (x := ⟨e, op, w.db, w₀.db, answer⟩) ?_ rfl rfl ?_ fun p ↦ ?_
          · show w₀.log ++ _ = _
            rw [hlog]
          · rcases hcall with hcall | ⟨heq, hprogram⟩
            · exact .contract hcall
            · obtain ⟨capability, rfl, rfl⟩ := answer_program_ok
                (show (op.program e).answer = _ by rw [← hprogram]; rfl)
              exact .dispatch capability rfl rfl heq
          · have := held_addTokens (w := w₀) answer.token.toList p
            have hle := hheld p
            show ({ w₀ with tokens := w₀.tokens ++ answer.token.toList } : World).held.countP p +
              op.consumes.toList.countP p ≤ w.held.countP p + answer.token.toList.countP p
            omega

theorem obeys_settle (hrest : rest.Obeys Precedes (Contract e op) w₀.db) (h : w₀.Obeys)
    (before : Db) : (w₀.settle e op before rest).Obeys := by
  cases rest with
  | call next k =>
      intro x hx
      rcases List.mem_append.mp hx with hx | hx
      · exact h x hx
      · rw [List.mem_singleton.mp hx]
        exact hrest
  | done result =>
      cases result with
      | error err => exact h
      | ok answer => exact h

omit [Ed25519] [Coset] in
theorem countP_held_mono {tokens : List Token} {tasks : List Task}
    (htokens : tokens.Sublist w.tokens) (htasks : tasks.Sublist w.tasks) (p : Token → Bool) :
    ({ w with tokens, tasks } : World).held.countP p ≤ w.held.countP p :=
  (htokens.append (htasks.filterMap _)).countP_le

theorem step_change (hdb : Reached w.db) (hobeys : w.Obeys) (a : Action) :
    Change w (w.step a) ∧ (w.step a).Obeys := by
  cases a with
  | start e op =>
      have hprogram : (op.program e).Obeys Precedes (Contract e op) w.db := program_obeys e op
      simp only [step]
      cases hop : op.consumes with
      | none =>
          refine ⟨change_settle rfl (.inr ⟨rfl, rfl⟩) fun p ↦ ?_, obeys_settle hprogram hobeys _⟩
          simp [hop]
      | some t =>
          dsimp only
          split_ifs with ht
          · have hspent : World.Obeys { w with tokens := w.tokens.erase t } := hobeys
            refine ⟨change_settle rfl (.inr ⟨rfl, rfl⟩) fun p ↦ ?_, ?_⟩
            · rw [hop]
              exact (held_erase ht p).le
            · apply obeys_settle _ hspent
              exact hprogram
          · exact ⟨.quiet (.inl rfl) rfl fun p ↦ le_rfl, hobeys⟩
  | advance i =>
      have hsame : Change w w ∧ w.Obeys := ⟨.quiet (.inl rfl) rfl fun p ↦ le_rfl, hobeys⟩
      simp only [step]
      cases hi : w.tasks[i]? with
      | none => exact hsame
      | some x =>
          obtain ⟨e, op, rest⟩ := x
          cases rest with
          | done result => exact hsame
          | call next k =>
              obtain ⟨hcontract, hrest⟩ :=
                hobeys _ (List.mem_of_getElem? hi) w.db (.refl hdb)
              have hlater := hcontract.precedes hdb
              refine ⟨change_settle rfl (.inl hcontract) fun p ↦ (held_eraseIdx hi p).le,
                obeys_settle hrest (fun y hy ↦ ?_) _⟩
              have hy' := hobeys y (List.mem_of_mem_eraseIdx hy)
              exact hy'.later hlater
  | dropTask i =>
      refine ⟨.quiet (.inl rfl) rfl fun p ↦ ?_, fun x hx ↦ hobeys x (List.mem_of_mem_eraseIdx hx)⟩
      exact countP_held_mono (List.Sublist.refl _) (List.eraseIdx_sublist _ i) p
  | dropToken t =>
      refine ⟨.quiet (.inl rfl) rfl fun p ↦ ?_, hobeys⟩
      exact countP_held_mono List.erase_sublist (List.Sublist.refl _) p

end Step

/-! ## Every world of a run -/

structure Inv (w : World) : Prop where
  reached : Reached w.db
  obeys : w.Obeys
  linear : ∀ p, w.held.countP p + w.spent.countP p ≤ w.issued.countP p
  kept : ∀ x ∈ w.log, x.Kept
  before : ∀ x ∈ w.log, Reached x.before
  later : ∀ x ∈ w.log, Precedes x.after w.db

omit [Ed25519] [Coset] in
theorem issued_concat {w w' : World} {x : Completion} (h : w'.log = w.log ++ [x]) :
    w'.issued = w.issued ++ x.answer.token.toList := by
  rw [issued, h, List.filterMap_append, ← issued]
  cases hx : x.answer.token <;> simp [hx]

omit [Ed25519] [Coset] in
theorem spent_concat {w w' : World} {x : Completion} (h : w'.log = w.log ++ [x]) :
    w'.spent = w.spent ++ x.operation.consumes.toList := by
  rw [spent, h, List.filterMap_append, ← spent]
  cases hx : x.operation.consumes <;> simp [hx]

theorem Inv.empty : Inv empty where
  reached := .empty
  obeys x hx := by cases hx
  linear p := le_rfl
  kept x hx := by cases hx
  before x hx := by cases hx
  later x hx := by cases hx

theorem Inv.change {w w' : World} (h : Inv w) (hc : Change w w') (hobeys : w'.Obeys) : Inv w' := by
  have hprecedes := hc.precedes h.reached
  have hold : ∀ x ∈ w.log, x.Kept ∧ Reached x.before ∧ Precedes x.after w'.db := fun x hx ↦
    ⟨h.kept x hx, h.before x hx, (h.later x hx).trans hprecedes⟩
  have hmem : (∀ p, w'.held.countP p + w'.spent.countP p ≤ w'.issued.countP p) ∧
      ∀ x ∈ w'.log, x.Kept ∧ Reached x.before ∧ Precedes x.after w'.db := by
    cases hc with
    | quiet _ hlog hheld =>
        refine ⟨fun p ↦ ?_, by rwa [hlog]⟩
        rw [spent, issued, hlog, ← spent, ← issued]
        exact (Nat.add_le_add_right (hheld p) _).trans (h.linear p)
    | @completed x hlog hbefore hafter hx hheld =>
        refine ⟨fun p ↦ ?_, fun y hy ↦ ?_⟩
        · rw [spent_concat hlog, issued_concat hlog, List.countP_append, List.countP_append]
          have := h.linear p
          have := hheld p
          omega
        · rw [hlog] at hy
          rcases List.mem_append.mp hy with hy | hy
          · exact hold y hy
          · rw [List.mem_singleton.mp hy]
            refine ⟨hx, ?_, ?_⟩
            · rw [hbefore]
              exact h.reached
            · rw [hafter]
              exact .refl hprecedes.reached'
  exact {
    reached := hprecedes.reached'
    obeys := hobeys
    linear := hmem.1
    kept := fun x hx ↦ (hmem.2 x hx).1
    before := fun x hx ↦ (hmem.2 x hx).2.1
    later := fun x hx ↦ (hmem.2 x hx).2.2 }

theorem Inv.step {w : World} (h : Inv w) (a : Action) : Inv (w.step a) := by
  obtain ⟨hchange, hobeys⟩ := step_change h.reached h.obeys a
  exact h.change hchange hobeys

theorem run_inv (actions : List Action) : Inv (run actions) :=
  Machine.run_invariant (fun _ a h ↦ h.step a) .empty actions

namespace Inv

variable {w : World} (h : Inv w)

include h

/-- What is held or was spent had been issued. -/
theorem issued_of_held {t : Token} (ht : t ∈ w.held) : t ∈ w.issued := by
  have hle := h.linear (· = t)
  have hpos : 0 < w.held.countP (· = t) := List.countP_pos_iff.mpr ⟨t, ht, by simp⟩
  obtain ⟨t', ht', heq⟩ := List.countP_pos_iff.mp (hpos.trans_le ((Nat.le_add_right _ _).trans hle))
  rwa [← of_decide_eq_true heq]

theorem issued_of_spent {t : Token} (ht : t ∈ w.spent) : t ∈ w.issued := by
  have hle := h.linear (· = t)
  have hpos : 0 < w.spent.countP (· = t) := List.countP_pos_iff.mpr ⟨t, ht, by simp⟩
  obtain ⟨t', ht', heq⟩ := List.countP_pos_iff.mp (hpos.trans_le ((Nat.le_add_left _ _).trans hle))
  rwa [← of_decide_eq_true heq]

end Inv

end World

end Etp.Executor
