import Etp.Executor.Accounts

/-!
# One claim for a grant

Behind a claim token stands the row that the store inserted for it, so there is at
most one for a grant (`Claims.once`).  Only `begin_dispatch` marks a claim, and it
takes the token, so as long as the token is held its row has no marker
(`Claims.unmarked`), whatever the other executors and the recoveries do.
-/

namespace Etp.Executor

open Etp.Core Etp.Authority Etp.Sqlite

variable [Sha256]

/-! ## Claims and markers on the tables -/

section Tables

variable {t t' : Tables} {db' : Db} {hash : Digest32}

theorem claim_plain {call : SqliteEffectStore.Call} (hcall : IsPlain call) (h : Change t call t') :
    t'.claim hash = t.claim hash := by
  cases h with
  | claimed _ _ => exact hcall.elim
  | marked _ _ _ _ _ => exact hcall.elim
  | _ => rfl

/-- What `claim` does for a prepared effect whose chain is registered. -/
theorem claim_encode {prepared : PreparedEffect} {request : ClaimRequest} {now : Nat}
    {c : DurableClaim}
    (hregistered : t.encode.chainByGrantId prepared.grant.grantId = some prepared.registered.row)
    (hclaim : SqliteEffectStore.claim prepared.grant request now t.encode = (.ok c, db')) :
    ∃ s, ∃ hv : ValidClaim c, ClaimGuards t prepared.registered request now s ∧
      c = newClaim prepared.registered request now ∧ Tables.Claimable c t ∧
        db' = ((t.setTime now).addClaim ⟨c, hv⟩).encode := by
  obtain ⟨x, s, hgrant, hc, hguards, hfree, hdb'⟩ :=
    claimTx_encode.mp (transaction_eq_ok.mp hclaim)
  have hx : x = prepared.registered := by
    have hchain := hguards.chain
    rw [Tables.chainByGrantId_encode, ← hgrant, hchain, Option.map_some, Option.some.injEq]
      at hregistered
    exact Tables.chainRow_injective hregistered
  subst hx
  subst hc
  exact ⟨s, hguards.newClaim_valid, hguards, rfl, hfree, hdb'⟩

/-- What a successful `mark_dispatch_started` found, and what it left. -/
theorem mark_encode (hw : WellFormed t) {attemptId : String} {now : Nat} {marker : DispatchMarker}
    (hmark : SqliteEffectStore.markDispatchStarted hash attemptId now t.encode =
      (.ok marker, db')) :
    marker.dispatchedAtMs = now ∧ ∃ c, t.claim hash = some c ∧ c.attemptId = attemptId ∧
      c.claimedAtMs ≤ now ∧ now ≤ maxSafeInteger ∧
        (c.dispatchStartedAtMs = some now ∧ db' = t.encode ∨
          c.dispatchStartedAtMs = none ∧ (∃ x s, MarkGuards t c x now s) ∧
            db' = ((t.setTime now).mark hash attemptId now).encode) := by
  obtain ⟨-, hmax, c, hc, hattempt, hle, rfl, hcases⟩ :=
    (markDispatchStartedTx_encode hw.claim_grants).mp (transaction_eq_ok.mp hmark)
  exact ⟨rfl, c, hc, hattempt, hle, hmax, hcases⟩

/-- Marking a claim leaves the others alone. -/
theorem claim_of_mark (hw : WellFormed t) {attemptId : String} {now : Nat}
    {marker : DispatchMarker} (hmark : SqliteEffectStore.markDispatchStarted hash attemptId now
      t.encode = (.ok marker, t'.encode)) {hash' : Digest32} (hne : hash ≠ hash') :
    t'.claim hash' = t.claim hash' := by
  obtain ⟨-, c, hc, hattempt, hle, hmax, ⟨-, hdb'⟩ | ⟨hnone, -, hdb'⟩⟩ := mark_encode hw hmark
  · rw [Tables.encode_injective hdb']
  · rw [Tables.encode_injective hdb']
    have := Tables.claim_mark (t := t.setTime now) hc hattempt hnone hle hmax hash'
    rwa [if_neg hne] at this

/-- Where a chain is registered, the hash of the prepared effect finds it. -/
theorem chain_of_registered (hw : WellFormed t) {prepared : PreparedEffect}
    (hregistered : t.encode.chainByGrantId prepared.grant.grantId = some prepared.registered.row) :
    t.chain prepared.registered.grantHash = some prepared.registered := by
  rw [Tables.chainByGrantId_encode, Option.map_eq_some_iff] at hregistered
  obtain ⟨y, hy, hrow⟩ := hregistered
  cases Tables.chainRow_injective hrow
  exact (hw.chain_of_chainById hy).2

end Tables

/-! ## Tokens of claims -/

/-- A claim token for the grant. -/
def Token.isClaimOf (hash : Digest32) : Token → Bool
  | .claimed c => c.claim.grantHash = hash
  | _ => false

@[simp] theorem Token.isClaimOf_capability (hash : Digest32) (c : DispatchCapability) :
    (Token.capability c).isClaimOf hash = false := rfl

variable [Ed25519] [Coset]

namespace World

variable {w w' : World}

/-- Who returned a claim token, and what the database was. -/
theorem Inv.claimed_of_issued (h : Inv w) {claimed : ClaimedEffect}
    (hc : .claimed claimed ∈ w.issued) : ∃ x ∈ w.log, x.answer = .claimed claimed ∧
      Contract x.executor x.operation x.before x.after (some (.ok (.claimed claimed))) := by
  obtain ⟨x, hx, htoken⟩ := List.mem_filterMap.mp hc
  have hanswer : x.answer = .claimed claimed := by
    cases ha : x.answer <;> rw [ha] at htoken <;> cases htoken
    rfl
  cases h.kept x hx with
  | contract hcontract => exact ⟨x, hx, hanswer, by rwa [hanswer] at hcontract⟩
  | dispatch _ _ hdispatch _ =>
      rw [hanswer] at hdispatch
      cases hdispatch

/-- Behind a claim token stands a registered chain and a claim. -/
theorem Inv.stored_of_issued (h : Inv w) {t : Tables} (ht : w.db = t.encode)
    {claimed : ClaimedEffect} (hc : .claimed claimed ∈ w.issued) :
    t.chain claimed.claim.grantHash = some claimed.prepared.registered ∧
      ∃ c, t.claim claimed.claim.grantHash = some c ∧ ClaimKept claimed.claim c := by
  obtain ⟨x, hx, -, hcontract⟩ := h.claimed_of_issued hc
  obtain ⟨_, _, _, now, _, -, -, -, hregistered, hclaim⟩ := hcontract.of_claimed
  obtain ⟨u, hu, hbefore⟩ := (h.before x hx).exists_tables
  rw [hbefore] at hregistered hclaim
  obtain ⟨s, hv, -, hnew, hfree, hdb'⟩ := claim_encode hregistered hclaim
  have hlater := h.later x hx
  rw [hdb', ht] at hlater
  obtain ⟨-, -, hkept⟩ := hlater.kept_encode
  have hstored := Tables.claim_addClaim (t := u.setTime now) (c := ⟨claimed.claim, hv⟩)
    (Tables.claimable_setTime.mpr hfree) claimed.claim.grantHash
  have hhash : claimed.claim.grantHash = claimed.prepared.registered.grantHash := by
    rw [hnew]
    rfl
  have hchain := chain_of_registered hu hregistered
  rw [← hhash] at hchain
  exact ⟨hkept.chain hchain, hkept.claim (hstored.trans (if_pos rfl))⟩

/-- What is known of the claim tokens of a run. -/
structure Claims (w : World) : Prop where
  once : ∀ hash, w.issued.countP (·.isClaimOf hash) ≤ 1
  unmarked : ∀ t : Tables, w.db = t.encode → ∀ hash c, 0 < w.held.countP (·.isClaimOf hash) →
    t.claim hash = some c → c.dispatchStartedAtMs = none

omit [Ed25519] [Coset] in
theorem Claims.empty : Claims empty where
  once hash := Nat.zero_le _
  unmarked t ht hash c hpos hc := by cases hpos

omit [Ed25519] [Coset] in
/-- If the claims stay as they are, so does what is known of their tokens. -/
theorem Claims.of_eq (h : Claims w) {t t' : Tables} (ht : w.db = t.encode) (ht' : w'.db = t'.encode)
    (hclaim : ∀ hash, t'.claim hash = t.claim hash)
    (hissued : ∀ hash, w'.issued.countP (·.isClaimOf hash) = w.issued.countP (·.isClaimOf hash))
    (hheld : ∀ hash, w'.held.countP (·.isClaimOf hash) ≤ w.held.countP (·.isClaimOf hash)) :
    Claims w' where
  once hash := (hissued hash).trans_le (h.once hash)
  unmarked u hu hash c hpos hc := by
    cases Tables.encode_injective (ht'.symm.trans hu)
    rw [hclaim hash] at hc
    exact h.unmarked t ht hash c (hpos.trans_le (hheld hash)) hc

/-- The step of `authorize_and_claim` that returns a claim. -/
theorem Claims.claimed (h : Claims w) (hinv : Inv w) {t : Tables} (ht : w.db = t.encode)
    {prepared : PreparedEffect} {request : ClaimRequest} {now : Nat} {claimed : ClaimedEffect}
    (hregistered : t.encode.chainByGrantId prepared.grant.grantId = some prepared.registered.row)
    (hclaim : SqliteEffectStore.claim prepared.grant request now t.encode =
      (.ok claimed.claim, w'.db))
    (hissued : w'.issued = w.issued ++ [.claimed claimed])
    (hheld : ∀ p, w'.held.countP p ≤ w.held.countP p + [Token.claimed claimed].countP p) :
    Claims w' := by
  obtain ⟨s, hv, -, hnew, hfree, hdb'⟩ := claim_encode hregistered hclaim
  have hstored := Tables.claim_addClaim (t := t.setTime now) (c := ⟨claimed.claim, hv⟩)
    (Tables.claimable_setTime.mpr hfree)
  have hunmarked : claimed.claim.dispatchStartedAtMs = none := by
    rw [hnew]
    rfl
  -- A token that was issued for this grant would stand for a row that is not there.
  have hnone : w.issued.countP (·.isClaimOf claimed.claim.grantHash) = 0 := by
    rw [List.countP_eq_zero]
    intro token htoken hclaimOf
    cases token with
    | claimed c =>
        obtain ⟨-, q, hq, -⟩ := hinv.stored_of_issued ht htoken
        rw [of_decide_eq_true hclaimOf, hfree.grant] at hq
        cases hq
    | capability _ => cases hclaimOf
    | handle _ => cases hclaimOf
  constructor
  · intro hash
    rw [hissued, List.countP_append, List.countP_singleton]
    by_cases hh : claimed.claim.grantHash = hash
    · subst hh
      rw [hnone]
      split_ifs <;> omega
    · have := h.once hash
      simpa [Token.isClaimOf, hh] using this
  · intro u hu hash c hpos hc
    cases Tables.encode_injective (hdb'.symm.trans hu)
    rw [hstored hash] at hc
    split_ifs at hc with hh
    · cases hc
      exact hunmarked
    · refine h.unmarked t ht hash c ?_ hc
      have hother : (Token.claimed claimed).isClaimOf hash = false := decide_eq_false hh
      have := hheld (·.isClaimOf hash)
      simp only [List.countP_singleton, hother, Bool.false_eq_true, if_false, Nat.add_zero] at this
      exact hpos.trans_le this

/-- The step of `begin_dispatch` that returns a capability. -/
theorem Claims.marked (h : Claims w) (hinv : Inv w) {t : Tables} (hw : WellFormed t)
    (ht : w.db = t.encode) {claimed : ClaimedEffect} {now : Nat} {marker : DispatchMarker}
    (hmark : SqliteEffectStore.markDispatchStarted claimed.claim.grantHash claimed.claim.attemptId
      now t.encode = (.ok marker, w'.db)) (hissued : ∀ hash,
      w'.issued.countP (·.isClaimOf hash) = w.issued.countP (·.isClaimOf hash))
    (hheld : ∀ hash, w'.held.countP (·.isClaimOf hash) +
      [Token.claimed claimed].countP (·.isClaimOf hash) ≤ w.held.countP (·.isClaimOf hash)) :
    Claims w' where
  once hash := (hissued hash).trans_le (h.once hash)
  unmarked u hu hash c hpos hc := by
    have hle := hheld hash
    by_cases hh : claimed.claim.grantHash = hash
    · -- The token that was taken was the only one.
      have hone := h.once hash
      have hlinear := hinv.linear (·.isClaimOf hash)
      have hself : (Token.claimed claimed).isClaimOf hash = true := decide_eq_true hh
      simp only [List.countP_singleton, hself, if_true] at hle
      omega
    · rw [hu] at hmark
      rw [claim_of_mark hw hmark hh] at hc
      exact h.unmarked t ht hash c (hpos.trans_le ((Nat.le_add_right _ _).trans hle)) hc

omit [Ed25519] [Coset] in
/-- A step that touches no claim, and issues no token of one. -/
theorem Claims.quiet (h : Claims w) {t : Tables} (hw : WellFormed t) (ht : w.db = t.encode)
    (hdb : w'.db = w.db ∨ ∃ call, IsPlain call ∧ w'.db = SqliteEffectStore.step w.db call)
    (hissued : ∀ hash, w'.issued.countP (·.isClaimOf hash) = w.issued.countP (·.isClaimOf hash))
    (hheld : ∀ hash, w'.held.countP (·.isClaimOf hash) ≤ w.held.countP (·.isClaimOf hash)) :
    Claims w' := by
  rcases hdb with heq | ⟨call, hplain, heq⟩
  · exact h.of_eq ht (heq.trans ht) (fun _ ↦ rfl) hissued hheld
  · obtain ⟨t', hchange, hstep⟩ := exists_change hw call
    rw [ht, hstep] at heq
    exact h.of_eq ht heq (fun _ ↦ claim_plain hplain hchange) hissued hheld

theorem Claims.change (h : Claims w) (hinv : Inv w) (hc : Change w w') : Claims w' := by
  obtain ⟨t, hw, ht⟩ := hinv.reached.exists_tables
  cases hc with
  | quiet hdb hlog hheld =>
      have hissued : w'.issued = w.issued := by rw [issued, hlog, ← issued]
      exact h.quiet hw ht hdb (fun _ ↦ by rw [hissued]) fun _ ↦ hheld _
  | @completed x hlog hbefore hafter hx hheld =>
      have hissued := issued_concat hlog
      -- An answer that is no claim is no claim of any grant.
      have hother : (∀ hash, x.answer.token.toList.countP (·.isClaimOf hash) = 0) →
          (∀ hash, w'.issued.countP (·.isClaimOf hash) = w.issued.countP (·.isClaimOf hash)) ∧
            ∀ hash, w'.held.countP (·.isClaimOf hash) +
              x.operation.consumes.toList.countP (·.isClaimOf hash) ≤
                w.held.countP (·.isClaimOf hash) := by
        intro hzero
        refine ⟨fun hash ↦ ?_, fun hash ↦ ?_⟩
        · rw [hissued, List.countP_append, hzero hash, Nat.add_zero]
        · have := hheld (·.isClaimOf hash)
          rwa [hzero hash] at this
      cases hx with
      | dispatch capability hop hanswer heq =>
          obtain ⟨hissued, hheld⟩ := hother fun hash ↦ by rw [hanswer]; rfl
          refine h.quiet hw ht (.inl ?_) hissued fun hash ↦
            (Nat.le_add_right _ _).trans (hheld hash)
          rw [← hafter, heq, hbefore]
      | contract hcontract =>
          rcases hcontract.ok_cases with ⟨htoken, hdb⟩ | ⟨claimed, hanswer⟩ | ⟨capability, hanswer⟩
          · rw [hbefore, hafter] at hdb
            obtain ⟨hissued, hheld⟩ := hother fun hash ↦ by rw [htoken]; rfl
            exact h.quiet hw ht hdb hissued fun hash ↦ (Nat.le_add_right _ _).trans (hheld hash)
          · rw [hanswer] at hcontract hissued hheld
            obtain ⟨_, _, _, now, _, -, -, -, hregistered, hclaim⟩ := hcontract.of_claimed
            rw [hbefore, ht] at hregistered hclaim
            rw [hafter] at hclaim
            exact h.claimed hinv ht hregistered hclaim hissued fun p ↦
              (Nat.le_add_right _ _).trans (hheld p)
          · obtain ⟨hissued, hheld⟩ := hother fun hash ↦ by rw [hanswer]; rfl
            rw [hanswer] at hcontract
            obtain ⟨claimed, snapshot, now, marker, hop, -, hmark, -⟩ := hcontract.of_capability
            rw [hbefore, ht, hafter] at hmark
            rw [hop] at hheld
            exact h.marked hinv hw ht hmark hissued hheld

/-- Every capability was issued by the call that wrote the marker: a replay would need a
token whose claim is marked. -/
def Marks (w : World) : Prop :=
  ∀ x ∈ w.log, ∀ capability, x.answer = .capability capability → ∀ t : Tables,
    x.before = t.encode → ∀ c, t.claim capability.claim.grantHash = some c →
      c.dispatchStartedAtMs = none

theorem Marks.change (h : Marks w) (hclaims : Claims w) (hc : Change w w') : Marks w' := by
  cases hc with
  | quiet _ hlog _ =>
      intro x hx
      rw [hlog] at hx
      exact h x hx
  | @completed x hlog hbefore hafter hx hheld =>
      intro y hy capability hanswer t ht c hc
      rw [hlog] at hy
      rcases List.mem_append.mp hy with hy | hy
      · exact h y hy capability hanswer t ht c hc
      obtain rfl := List.mem_singleton.mp hy
      cases hx with
      | dispatch _ _ hdispatch _ =>
          rw [hanswer] at hdispatch
          cases hdispatch
      | contract hcontract =>
          rw [hanswer] at hcontract
          obtain ⟨claimed, _, _, _, hop, -, -, rfl⟩ := hcontract.of_capability
          refine hclaims.unmarked t (hbefore.symm.trans ht) _ c ?_ hc
          -- The operation had taken the claim token, so the world held it.
          have hle := hheld (·.isClaimOf claimed.claim.grantHash)
          have hself : (Token.claimed claimed).isClaimOf claimed.claim.grantHash = true :=
            decide_eq_true rfl
          rw [hop, hanswer] at hle
          simp only [Operation.consumes, Answer.token, Option.toList_some, List.countP_singleton,
            hself, if_true, Token.isClaimOf_capability, Bool.false_eq_true, if_false,
            Nat.add_zero] at hle
          exact Nat.lt_of_lt_of_le (Nat.succ_pos _) hle

theorem run_claims (actions : List Action) : Inv (run actions) ∧ Claims (run actions) ∧
    Marks (run actions) := by
  refine Machine.run_invariant (P := fun w ↦ Inv w ∧ Claims w ∧ Marks w) (fun w a h ↦ ?_)
    ⟨.empty, .empty, fun x hx ↦ by cases hx⟩ actions
  obtain ⟨hinv, hclaims, hmarks⟩ := h
  have hchange := (step_change hinv.reached hinv.obeys a).1
  exact ⟨hinv.step a, hclaims.change hinv hchange, hmarks.change hclaims hchange⟩

end World

end Etp.Executor
