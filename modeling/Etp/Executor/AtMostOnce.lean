import Etp.Executor.Claims

/-!
# At most one authorized attempt

A run of a world, whatever the executors do and whoever dies, creates at most one
claimed effect, issues at most one capability and invokes at most one adapter for a
proposal and for a decision, and the database ends up with at most one grant and one
receipt for them.

The uniqueness is that of the rows of `claims`, carried along the linear values: a
capability has used up a claim token, and an invocation has used up a capability.
-/

namespace Etp.Executor

open Etp.Core Etp.Authority Etp.Sqlite

variable [Sha256]

/-! ## What a run has handed out -/

def Answer.claimedEffect : Answer → Option ClaimedEffect
  | .claimed c => some c
  | _ => none

def Answer.dispatchCapability : Answer → Option DispatchCapability
  | .capability c => some c
  | _ => none

/-- The capability with which an operation invokes an adapter. -/
def Operation.invokedWith : Operation → Option DispatchCapability
  | .dispatchWith c => some c
  | _ => none

namespace World

/-- The claimed effects that were ever created. -/
def claimedEffects (w : World) : List ClaimedEffect :=
  w.log.filterMap fun x ↦ x.answer.claimedEffect

/-- The capabilities that were ever issued. -/
def capabilities (w : World) : List DispatchCapability :=
  w.log.filterMap fun x ↦ x.answer.dispatchCapability

/-- The capabilities with which an adapter was invoked, once for every invocation. -/
def invocations (w : World) : List DispatchCapability :=
  w.log.filterMap fun x ↦ x.operation.invokedWith

end World

/-! ## Counting along the linear values -/

section Counting

variable {p : PreparedEffect → DurableClaim → Bool}

/-- A claim token of an attempt with the property. -/
def Token.claimedWhere (p : PreparedEffect → DurableClaim → Bool) : Token → Bool
  | .claimed c => p c.prepared c.claim
  | _ => false

/-- A capability of an attempt with the property. -/
def Token.capabilityWhere (p : PreparedEffect → DurableClaim → Bool) : Token → Bool
  | .capability c => p c.prepared c.claim
  | _ => false

namespace World

variable {w : World}

theorem countP_claimedEffects : w.claimedEffects.countP (fun c ↦ p c.prepared c.claim) =
    w.issued.countP (Token.claimedWhere p) := by
  rw [claimedEffects, issued, List.countP_filterMap, List.countP_filterMap]
  refine List.countP_congr fun x _ ↦ ?_
  cases x.answer <;> simp [Answer.claimedEffect, Answer.token, Token.claimedWhere]

theorem countP_capabilities : w.capabilities.countP (fun c ↦ p c.prepared c.claim) =
    w.issued.countP (Token.capabilityWhere p) := by
  rw [capabilities, issued, List.countP_filterMap, List.countP_filterMap]
  refine List.countP_congr fun x _ ↦ ?_
  cases x.answer <;> simp [Answer.dispatchCapability, Answer.token, Token.capabilityWhere]

theorem countP_invocations : w.invocations.countP (fun c ↦ p c.prepared c.claim) =
    w.spent.countP (Token.capabilityWhere p) := by
  rw [invocations, spent, List.countP_filterMap, List.countP_filterMap]
  refine List.countP_congr fun x _ ↦ ?_
  cases x.operation <;> simp [Operation.invokedWith, Operation.consumes, Token.capabilityWhere]

variable [Ed25519] [Coset]

/-- Every capability has used up a claim of the same attempt. -/
theorem Inv.capabilities_le (h : Inv w) : w.capabilities.countP (fun c ↦ p c.prepared c.claim) ≤
    w.claimedEffects.countP fun c ↦ p c.prepared c.claim := by
  have hspent : w.capabilities.countP (fun c ↦ p c.prepared c.claim) ≤
      w.spent.countP (Token.claimedWhere p) := by
    rw [capabilities, spent, List.countP_filterMap, List.countP_filterMap]
    refine List.countP_mono_left fun x hx hp ↦ ?_
    cases hanswer : x.answer with
    | capability c =>
        cases h.kept x hx with
        | contract hcontract =>
            rw [hanswer] at hcontract hp
            obtain ⟨claimed, _, _, _, hop, -, -, rfl⟩ := hcontract.of_capability
            rw [hop]
            exact hp
        | dispatch _ _ hdispatch _ =>
            rw [hanswer] at hdispatch
            cases hdispatch
    | _ =>
        rw [hanswer] at hp
        cases hp
  rw [countP_claimedEffects]
  exact hspent.trans ((Nat.le_add_left _ _).trans (h.linear _))

/-- Every invocation has used up a capability. -/
theorem Inv.invocations_le (h : Inv w) : w.invocations.countP (fun c ↦ p c.prepared c.claim) ≤
    w.capabilities.countP fun c ↦ p c.prepared c.claim := by
  rw [countP_invocations, countP_capabilities]
  exact (Nat.le_add_left _ _).trans (h.linear _)

end World

end Counting

/-! ## What determines an attempt -/

namespace World

variable [Ed25519] [Coset] {w : World}

omit [Ed25519] [Coset] in
/-- A grant is claimed once. -/
theorem Claims.grants_unique (h : Claims w) :
    UniqueBy (fun c ↦ c.claim.grantHash) w.claimedEffects := by
  refine uniqueBy_iff_countP.mpr fun hash ↦ ?_
  have := countP_claimedEffects (w := w) (p := fun _ c ↦ decide (c.grantHash = hash))
  refine this.trans_le (le_of_eq_of_le ?_ (h.once hash))
  refine List.countP_congr fun t _ ↦ ?_
  cases t <;> rfl

omit [Ed25519] [Coset] in
theorem issued_of_claimedEffects {c : ClaimedEffect} (hc : c ∈ w.claimedEffects) :
    .claimed c ∈ w.issued := by
  obtain ⟨x, hx, hanswer⟩ := List.mem_filterMap.mp hc
  refine List.mem_filterMap.mpr ⟨x, hx, ?_⟩
  cases ha : x.answer <;> rw [ha] at hanswer <;> cases hanswer
  rfl

variable (hinv : Inv w) (h : Claims w)

include hinv in
/-- The chain and the claim of a claimed effect, in the tables. -/
theorem stored_of_claimedEffects {t : Tables} (ht : w.db = t.encode) {c : ClaimedEffect}
    (hc : c ∈ w.claimedEffects) : t.chain c.claim.grantHash = some c.prepared.registered ∧
      ∃ q, t.claim c.claim.grantHash = some q ∧ ClaimKept c.claim q :=
  hinv.stored_of_issued ht (issued_of_claimedEffects hc)

include hinv h

theorem proposals_unique : UniqueBy (fun c ↦ c.prepared.proposalHash) w.claimedEffects := by
  obtain ⟨t, hw, ht⟩ := hinv.reached.exists_tables
  refine h.grants_unique.of_determines fun a ha b hb heq ↦ ?_
  obtain ⟨hca, -⟩ := stored_of_claimedEffects hinv ht ha
  obtain ⟨hcb, -⟩ := stored_of_claimedEffects hinv ht hb
  have hchain : a.prepared.registered = b.prepared.registered := by
    refine hw.proposal_hashes.eq (mem_of_lookupBy hca) (mem_of_lookupBy hcb) ?_
    exact a.prepared.proposalHash_eq.symm.trans (heq.trans b.prepared.proposalHash_eq)
  rw [← (key_of_lookupBy hca :), ← (key_of_lookupBy hcb :), hchain]

theorem decisions_unique :
    UniqueBy (fun c ↦ c.prepared.grant.decisionHash) w.claimedEffects := by
  obtain ⟨t, hw, ht⟩ := hinv.reached.exists_tables
  refine h.grants_unique.of_determines fun a ha b hb heq ↦ ?_
  obtain ⟨hca, -⟩ := stored_of_claimedEffects hinv ht ha
  obtain ⟨hcb, -⟩ := stored_of_claimedEffects hinv ht hb
  have hchain : a.prepared.registered = b.prepared.registered := by
    refine hw.decision_hashes.eq (mem_of_lookupBy hca) (mem_of_lookupBy hcb) ?_
    exact a.prepared.chain.grant_decision_hash.symm.trans
      (heq.trans b.prepared.chain.grant_decision_hash)
  rw [← (key_of_lookupBy hca :), ← (key_of_lookupBy hcb :), hchain]

theorem attempts_unique : UniqueBy (fun c ↦ c.claim.attemptId) w.claimedEffects := by
  obtain ⟨t, hw, ht⟩ := hinv.reached.exists_tables
  refine h.grants_unique.of_determines fun a ha b hb heq ↦ ?_
  obtain ⟨-, qa, hqa, hka⟩ := stored_of_claimedEffects hinv ht ha
  obtain ⟨-, qb, hqb, hkb⟩ := stored_of_claimedEffects hinv ht hb
  obtain ⟨ra, hra, rfl⟩ := Option.map_eq_some_iff.mp hqa
  obtain ⟨rb, hrb, rfl⟩ := Option.map_eq_some_iff.mp hqb
  have hclaim : ra = rb := by
    refine hw.attempts.eq (mem_of_lookupBy hra) (mem_of_lookupBy hrb) ?_
    exact hka.attemptId.trans (heq.trans hkb.attemptId.symm)
  rw [← (key_of_lookupBy hra :), ← (key_of_lookupBy hrb :), hclaim]

omit h in
/-- What is unique among the claimed effects is unique among the capabilities. -/
theorem capabilities_unique {κ : Type} [DecidableEq κ] {f : PreparedEffect → κ}
    (hu : UniqueBy (fun c ↦ f c.prepared) w.claimedEffects) :
    UniqueBy (fun c ↦ f c.prepared) w.capabilities :=
  uniqueBy_iff_countP.mpr fun k ↦
    (hinv.capabilities_le (p := fun c _ ↦ decide (f c = k))).trans (uniqueBy_iff_countP.mp hu k)

omit h in
theorem invocations_unique {κ : Type} [DecidableEq κ] {f : PreparedEffect → κ}
    (hu : UniqueBy (fun c ↦ f c.prepared) w.claimedEffects) :
    UniqueBy (fun c ↦ f c.prepared) w.invocations :=
  uniqueBy_iff_countP.mpr fun k ↦
    (hinv.invocations_le (p := fun c _ ↦ decide (f c = k))).trans
      (uniqueBy_iff_countP.mp (capabilities_unique hinv hu) k)

end World

/-! ## The tables -/

/-- The chains of the grants that have a receipt, one for every receipt row. -/
def receiptChains (db : Db) : List (Option ChainRow) :=
  db.receipts.map fun r ↦ db.chainByGrantHash r.grantHash

/-- What determines a chain among the registered ones is unique among those with a receipt. -/
theorem receiptChains_unique {t : Tables} (hw : WellFormed t) {κ : Type} {column : ChainRow → κ}
    (hu : UniqueBy (fun x ↦ column x.row) t.chains) :
    (∀ o ∈ receiptChains t.encode, o.isSome) ∧
      ((receiptChains t.encode).map (Option.map column)).Nodup := by
  have hchain : ∀ r ∈ t.receipts, ∃ x, t.chain r.1.grantHash = some x ∧
      t.encode.chainByGrantHash (receiptRow r.1).grantHash = some x.row := fun r hr ↦ by
    have hlookup : t.receipt r.1.grantHash = some r.1 := Option.map_eq_some_iff.mpr
      ⟨r, hw.receipt_grants.lookupBy_eq_some_iff.mpr ⟨hr, rfl⟩, rfl⟩
    obtain ⟨x, -, hx, -⟩ := hw.received _ _ hlookup
    refine ⟨x, hx, ?_⟩
    show t.encode.chainByGrantHash r.1.grantHash.asStr = _
    rw [Tables.chainByGrantHash_encode, hx, Option.map_some]
  have hlist : receiptChains t.encode = t.receipts.map fun r ↦
      t.encode.chainByGrantHash (receiptRow r.1).grantHash := by
    rw [receiptChains]
    exact List.map_map
  rw [hlist, List.map_map]
  constructor
  · intro o ho
    obtain ⟨r, hr, rfl⟩ := List.mem_map.mp ho
    obtain ⟨x, -, hrow⟩ := hchain r hr
    rw [hrow]
    rfl
  · refine hw.receipt_grants.of_determines fun q hq r hr heq ↦ ?_
    obtain ⟨x, hx, hxrow⟩ := hchain q hq
    obtain ⟨y, hy, hyrow⟩ := hchain r hr
    have hcolumn : column x.row = column y.row := by
      simp only [Function.comp_apply, hxrow, hyrow] at heq
      exact Option.some.inj heq
    have hxy : x = y := hu.eq (mem_of_lookupBy hx) (mem_of_lookupBy hy) hcolumn
    rw [← (key_of_lookupBy hx :), ← (key_of_lookupBy hy :), hxy]

/-! ## The result -/

/-- What a world owes to one proposal and one decision. -/
structure AtMostOnce (w : World) : Prop where
  grants_proposal : (w.db.authorizationChains.map ChainRow.proposalHash).Nodup
  grants_decision : (w.db.authorizationChains.map ChainRow.decisionHash).Nodup
  claims_proposal : (w.claimedEffects.map fun c ↦ c.prepared.proposalHash).Nodup
  claims_decision : (w.claimedEffects.map fun c ↦ c.prepared.grant.decisionHash).Nodup
  capabilities_proposal : (w.capabilities.map fun c ↦ c.prepared.proposalHash).Nodup
  capabilities_decision : (w.capabilities.map fun c ↦ c.prepared.grant.decisionHash).Nodup
  invocations_proposal : (w.invocations.map fun c ↦ c.prepared.proposalHash).Nodup
  invocations_decision : (w.invocations.map fun c ↦ c.prepared.grant.decisionHash).Nodup
  receipts_granted : ∀ o ∈ receiptChains w.db, o.isSome
  receipts_proposal : ((receiptChains w.db).map (Option.map ChainRow.proposalHash)).Nodup
  receipts_decision : ((receiptChains w.db).map (Option.map ChainRow.decisionHash)).Nodup
  claims_attempt : (w.claimedEffects.map fun c ↦ c.claim.attemptId).Nodup
  rows_attempt : (w.db.claims.map ClaimRow.attemptId).Nodup

variable [Ed25519] [Coset]

namespace World

theorem run_precedes (actions more : List Action) :
    Precedes (run actions).db (run (actions ++ more)).db := by
  rw [run, run, Machine.run_append]
  have hinv := run_inv actions
  rw [run] at hinv
  generalize Machine.run step empty actions = w at hinv
  induction more generalizing w with
  | nil => exact .refl hinv.reached
  | cons a more ih =>
      have hchange := (step_change hinv.reached hinv.obeys a).1
      exact (hchange.precedes hinv.reached).trans (ih _ (hinv.step a))

end World

/-- **At most one authorized attempt.**  In every run there are at most one grant,
claimed effect, capability, adapter invocation and receipt for a proposal, and for a
decision, and no two claims have the same attempt; and what is in the tables stays
there, so the grants and the receipts are all that there ever were. -/
theorem at_most_one_attempt (actions more : List Action) :
    AtMostOnce (World.run actions) ∧
      RowsKept (World.run actions).db (World.run (actions ++ more)).db := by
  obtain ⟨hinv, hclaims, -⟩ := World.run_claims actions
  refine ⟨?_, (World.run_precedes actions more).rows⟩
  obtain ⟨t, hw, ht⟩ := hinv.reached.exists_tables
  have hproposals : UniqueBy (fun x : RegisteredChain ↦ x.row.proposalHash) t.chains :=
    hw.proposal_hashes.of_determines fun _ _ _ _ heq ↦ asStr_injective heq
  have hdecisions : UniqueBy (fun x : RegisteredChain ↦ x.row.decisionHash) t.chains :=
    hw.decision_hashes.of_determines fun _ _ _ _ heq ↦ asStr_injective heq
  have hp := World.proposals_unique hinv hclaims
  have hd := World.decisions_unique hinv hclaims
  obtain ⟨hgranted, hrp⟩ := receiptChains_unique hw hproposals
  obtain ⟨-, hrd⟩ := receiptChains_unique hw hdecisions
  exact {
    grants_proposal := by
      rw [ht, Tables.encode, List.map_map]
      exact hproposals
    grants_decision := by
      rw [ht, Tables.encode, List.map_map]
      exact hdecisions
    claims_proposal := hp
    claims_decision := hd
    capabilities_proposal := World.capabilities_unique hinv hp
    capabilities_decision :=
      World.capabilities_unique (f := fun c ↦ c.grant.decisionHash) hinv hd
    invocations_proposal := World.invocations_unique hinv hp
    invocations_decision :=
      World.invocations_unique (f := fun c ↦ c.grant.decisionHash) hinv hd
    receipts_granted := by rwa [ht]
    receipts_proposal := by rwa [ht]
    receipts_decision := by rwa [ht]
    claims_attempt := World.attempts_unique hinv hclaims
    rows_attempt := by
      rw [ht, Tables.encode, List.map_map]
      exact hw.attempts }

end Etp.Executor
