import Etp.Conformance.Target
import Etp.Lib.Corresponds
import Etp.TypeScript.Agreement

/-!
# The operations of the oracle and of the store

`ReferenceLifecycleTarget` works on documents and `MemoryGrantStore` on the records that they
write.  `Simulates` relates their states: what is stored under an identifier on one side is
stored under it on the other, with the chain as a document that `Presents` it, and the claims,
the receipts and the trusted time are the same.

Each operation keeps the relation and is answered alike on both sides, also where it is refused
(`SameKind`): the `ConformanceError` names the error of the store, and where the TypeScript
verifier throws, the store reports one of the verifier's own errors.
-/

namespace Etp.Conformance

open Etp.Core Etp.TypeScript JsString

/-! ## Records, requests and errors on both sides -/

/-- A chain up to its grant, with the receipt if there is one. -/
def chainBundle (c : TaskCommitment) (p : EffectProposal) (d : AuthorizationDecision)
    (g : ExecutionGrant) (receipt : Option EffectReceipt) : TransactionBundle :=
  ⟨c, p, d, some g, receipt, []⟩

/-- The request with its values in JavaScript. -/
def ofRequest (request : GrantClaimRequest) : ClaimRequest where
  attemptId := units request.attemptId
  expectedAudience := .string (units request.expectedAudience)
  observedPolicyEpoch := .number (.ofInt request.observedPolicyEpoch)
  observedConfigurationEpoch := .number (.ofInt request.observedConfigurationEpoch)
  observedPreStateDigest := .string (units request.observedPreStateDigest.asStr)
  observedResourceClaimDigest := .string (units request.observedResourceClaimDigest.asStr)
  revoked := request.revoked

/-- The code for an error of the store that the target reports itself. -/
def lifecycleCode : ProtocolError → Option String
  | .duplicateGrant => some "duplicate_grant"
  | .decisionAlreadyGranted => some "decision_already_granted"
  | .proposalAlreadyGranted => some "proposal_already_granted"
  | .clockUnavailable => some "clock_unavailable"
  | .clockRollback => some "clock_rollback"
  | .unknownGrant => some "unknown_grant"
  | .audienceMismatch => some "audience_mismatch"
  | .staleAuthority => some "stale_authority"
  | .stalePreState => some "stale_pre_state"
  | .staleResourceClaim => some "stale_resource_claim"
  | .grantRevoked => some "grant_revoked"
  | .grantNotYetValid => some "grant_not_yet_valid"
  | .grantExpired => some "grant_expired"
  | .grantAlreadyClaimed => some "grant_already_claimed"
  | .receiptWithoutClaim => some "receipt_without_claim"
  | .receiptClaimMismatch => some "receipt_claim_mismatch"
  | .receiptAlreadyRecorded => some "receipt_already_recorded"
  | _ => none

/-- The failure is the error under its code, or both are the verifier's. -/
def SameKind (e : ProtocolError) : Failure → Prop
  | .conformance code _ => lifecycleCode e = some code
  | .thrown _ => lifecycleCode e = none

variable [Sha256] {c : TaskCommitment} {p : EffectProposal} {d : AuthorizationDecision}
  {g : ExecutionGrant} {receipt : Option EffectReceipt} {ms : List (String × Json)}

/-! ## The verifier on valid records -/

/-- The members write a chain of valid records. -/
structure WritesChain (c : TaskCommitment) (p : EffectProposal) (d : AuthorizationDecision)
    (g : ExecutionGrant) (receipt : Option EffectReceipt) (ms : List (String × Json)) : Prop where
  distinct : (Json.obj ms).Distinct
  writes : BundleWrites (chainBundle c p d g receipt) ms
  commitment_valid : validate c = .ok ()
  proposal_valid : validate p = .ok ()
  decision_valid : validate d = .ok ()
  grant_valid : validate g = .ok ()
  receipt_valid : ∀ r ∈ receipt, validate r = .ok ()

/-- The members write a chain of valid records without a mark. -/
structure Presents (c : TaskCommitment) (p : EffectProposal) (d : AuthorizationDecision)
    (g : ExecutionGrant) (receipt : Option EffectReceipt) (ms : List (String × Json)) : Prop
    extends WritesChain c p d g receipt ms where
  unmarked : NoMark (chainBundle c p d g receipt)

/-- The members write a valid receipt. -/
structure WritesReceipt (r : EffectReceipt) (ms : List (String × Json)) : Prop where
  distinct : (Json.obj ms).Distinct
  writes : Writes r (.obj ms)
  receipt_valid : validate r = .ok ()

/-- The members write a valid receipt without a mark. -/
structure PresentsReceipt (r : EffectReceipt) (ms : List (String × Json)) : Prop
    extends WritesReceipt r ms where
  unmarked : NoMark r

theorem accepted_none : AcceptedBundle (chainBundle c p d g none) ↔ GrantChain c p d g := by
  constructor
  · intro h
    exact h.grant g rfl
  · intro h
    refine ⟨Nat.zero_le _, h.toDecisionChain, ?_, ?_, fun hne ↦ absurd rfl hne⟩
    · rintro _ ⟨⟩
      exact h
    · rintro _ ⟨⟩

theorem accepted_some {r : EffectReceipt} :
    AcceptedBundle (chainBundle c p d g (some r)) ↔ GrantChain c p d g ∧ ReceiptFor p g r := by
  constructor
  · intro h
    exact ⟨h.grant g rfl, h.receiptFor rfl rfl⟩
  · rintro ⟨h, hfor⟩
    refine ⟨Nat.zero_le _, h.toDecisionChain, ?_, ?_, fun hne ↦ absurd rfl hne⟩
    · rintro _ ⟨⟩
      exact h
    · rintro _ ⟨⟩
      exact ⟨g, rfl, hfor⟩

section Unique

variable {α : Type} [ProtocolRecord α] [Deserialize α] [Schema α] [LawfulSchema α]

omit [Sha256] in
/-- A document writes no more than one valid record of a type. -/
theorem writes_unique {r r' : α} {v : Json} (h : Writes r v) (h' : Writes r' v)
    (hr : validate r = .ok ()) (hr' : validate r' = .ok ()) : r = r' := by
  have hread := (fromValue_eq_some hr).mpr h.spells
  rw [(fromValue_eq_some hr').mpr h'.spells] at hread
  exact (Option.some.inj hread).symm

omit [Sha256] in
theorem optionWrites_unique {o o' : Option α} {v : Json} (h : OptionWrites o v)
    (h' : OptionWrites o' v) (ho : ∀ r ∈ o, validate r = .ok ())
    (ho' : ∀ r ∈ o', validate r = .ok ()) : o = o' := by
  cases o with
  | none =>
      cases o' with
      | none => rfl
      | some r' => exact absurd h (Writes.ne_null (r := r') h')
  | some r =>
      cases o' with
      | none => exact absurd h' (Writes.ne_null (r := r) h)
      | some r' => exact congrArg some (writes_unique h h' (ho r rfl) (ho' r' rfl))

end Unique

/-- The accepted bundle that the members write is the chain itself. -/
theorem WritesChain.eq_of_accepted (h : WritesChain c p d g receipt ms) {b : TransactionBundle}
    (hwrites : BundleWrites b ms) (hacc : AcceptedBundle b) : b = chainBundle c p d g receipt := by
  obtain ⟨c', p', d', g', receipt', history⟩ := b
  have hc : c' = c := writes_unique hwrites.commitment h.writes.commitment
    hacc.decision.commitment_valid h.commitment_valid
  have hp : p' = p := writes_unique hwrites.proposal h.writes.proposal
    hacc.decision.proposal_valid h.proposal_valid
  have hd : d' = d := writes_unique hwrites.decision h.writes.decision
    hacc.decision.decision_valid h.decision_valid
  have hg : g' = some g := by
    refine optionWrites_unique hwrites.grant h.writes.grant (fun g' hg' ↦ ?_) ?_
    · exact (hacc.grant g' hg').grant_valid
    · rintro _ ⟨⟩
      exact h.grant_valid
  have hr : receipt' = receipt := by
    refine optionWrites_unique hwrites.receipt h.writes.receipt (fun r hr ↦ ?_) h.receipt_valid
    obtain ⟨_, -, hfor⟩ := hacc.receipt r hr
    exact hfor.receipt_valid
  have hhistory : history = [] := by
    obtain ⟨vs, hvs, hrecords⟩ := h.writes.reconciliations
    obtain ⟨vs', hvs', hrecords'⟩ := hwrites.reconciliations
    rw [hvs] at hvs'
    obtain rfl : vs = vs' := Json.arr.inj hvs'
    obtain rfl : vs = [] := List.forall₂_nil_left_iff.mp hrecords
    exact List.forall₂_nil_right_iff.mp hrecords'
  rw [hc, hp, hd, hg, hr, hhistory]
  rfl

theorem WritesChain.verify_eq_ok (h : WritesChain c p d g receipt ms)
    {result : TypeScript.VerifiedTransaction} :
    TypeScript.verifyTransaction (.object (ofJsonMembers ms)) = .ok result ↔
      AcceptedBundle (chainBundle c p d g receipt) ∧ NoMark (chainBundle c p d g receipt) ∧
        result = ofReport (report (chainBundle c p d g receipt)) := by
  refine (verifyTransaction_eq_ok h.distinct).trans ⟨?_, ?_⟩
  · rintro ⟨_, b, ⟨⟩, hwrites, hacc, hmark, hresult⟩
    obtain rfl := h.eq_of_accepted hwrites hacc
    exact ⟨hacc, hmark, hresult⟩
  · rintro ⟨hacc, hmark, hresult⟩
    exact ⟨ms, _, rfl, h.writes, hacc, hmark, hresult⟩

/-- The computation fails with errors of the verifier only. -/
def FailsVerifying {α : Type} (x : Except ProtocolError α) : Prop :=
  ∀ e, x = .error e → lifecycleCode e = none

section FailsVerifying

variable {α β : Type}

omit [Sha256] in
theorem failsVerifying_ok (a : α) : FailsVerifying (.ok a : Except ProtocolError α) := by
  rintro _ ⟨⟩

omit [Sha256] in
theorem failsVerifying_reject {q : Prop} [Decidable q] {e : ProtocolError}
    {f : PUnit → Except ProtocolError α} (he : lifecycleCode e = none)
    (hf : FailsVerifying (f ⟨⟩)) : FailsVerifying (rejectIf q e >>= f) := by
  by_cases hq : q
  · rw [rejectIf_true hq]
    rintro _ ⟨⟩
    exact he
  · rw [rejectIf_false hq]
    exact hf

omit [Sha256] in
theorem FailsVerifying.bind {x : Except ProtocolError α} {f : α → Except ProtocolError β}
    (hx : FailsVerifying x) (hf : ∀ a, FailsVerifying (f a)) : FailsVerifying (x >>= f) := by
  cases x with
  | ok a => exact hf a
  | error e =>
      rintro _ ⟨⟩
      exact hx e rfl

theorem failsVerifying_commitment [ProtocolRecord α] [Deserialize α] [LawfulRecord α] {r : α}
    (hr : validate r = .ok ()) {f : Digest32 → Except ProtocolError β}
    (hf : FailsVerifying (f (recordHash r))) :
    FailsVerifying (commitment r >>= f) := by
  rw [commitment_of_valid hr]
  exact hf

end FailsVerifying

theorem WritesChain.failsVerifying (h : WritesChain c p d g receipt ms) :
    FailsVerifying (verifyAuthorization c p d g) := by
  refine FailsVerifying.bind ?_ fun _ ↦ ?_
  · refine failsVerifying_commitment h.commitment_valid ?_
    refine failsVerifying_reject rfl (failsVerifying_reject rfl ?_)
    refine failsVerifying_commitment h.proposal_valid ?_
    refine failsVerifying_reject rfl (failsVerifying_reject rfl ?_)
    exact failsVerifying_commitment h.decision_valid (failsVerifying_ok _)
  · refine failsVerifying_reject rfl (failsVerifying_reject rfl ?_)
    refine failsVerifying_reject rfl (failsVerifying_reject rfl ?_)
    exact failsVerifying_commitment h.grant_valid (failsVerifying_ok _)

/-- A check that accepts what the Rust verifier accepts corresponds to the TypeScript verifier,
unless what it accepts has a mark. -/
theorem WritesChain.follows (h : WritesChain c p d g receipt ms)
    (hmark : AcceptedBundle (chainBundle c p d g receipt) → NoMark (chainBundle c p d g receipt))
    {α : Type} {a : α} {x : Except ProtocolError α} (hx : FailsVerifying x)
    (hok : ∀ b, x = .ok b ↔ AcceptedBundle (chainBundle c p d g receipt) ∧ b = a) :
    Corresponds SameKind
      (fun b result ↦ AcceptedBundle (chainBundle c p d g receipt) ∧ b = a ∧
        result = ofReport (report (chainBundle c p d g receipt)))
      x ((TypeScript.verifyTransaction (.object (ofJsonMembers ms))).mapError Failure.thrown) := by
  have hverify := @WritesChain.verify_eq_ok _ _ _ _ _ _ _ h
  cases x with
  | ok b =>
      obtain ⟨hacc, hb⟩ := (hok b).mp rfl
      rw [hverify.mpr ⟨hacc, hmark hacc, rfl⟩]
      exact .ok ⟨hacc, hb, rfl⟩
  | error e =>
      cases hscript : TypeScript.verifyTransaction (.object (ofJsonMembers ms)) with
      | ok result =>
          have haccepted := (hok a).mpr ⟨(hverify.mp hscript).1, rfl⟩
          cases haccepted
      | error _ => exact .error (hx e rfl)

/-! ## States on both sides -/

/-- What the target keeps of a stored grant. -/
structure Mirrors (stored : Core.StoredGrant) (st : StoredGrant) : Prop where
  bundle : ∃ ms, st.bundle = ofJsonMembers ms ∧
    Presents stored.commitment stored.proposal stored.decision stored.grant none ms
  chain : GrantChain stored.commitment stored.proposal stored.decision stored.grant
  hash : stored.hash = recordHash stored.grant
  grantHash : st.grantHash = hashUnits stored.grant
  claim : st.claim = stored.claim.map fun c ↦ ⟨units c.attemptId, c.claimedAtMs⟩
  claimed_le : ∀ c ∈ stored.claim, c.claimedAtMs ≤ maxSafeInteger
  receipt_valid : ∀ r ∈ stored.receipt, validate r = .ok ()
  receiptHash : st.receiptHash = stored.receipt.map hashUnits
  receiptWrites : st.receiptWrites = stored.receipt.toList.length

structure Simulates (s : MemoryGrantState) (t : ReferenceLifecycleTarget) : Prop where
  grants : ∀ id, Option.Rel Mirrors (s.grants id) (t.grants (units id))
  decisions : ∀ d, (s.grantByDecision d).isSome ↔ units d.asStr ∈ t.decisions
  proposals : ∀ d, (s.grantByProposal d).isSome ↔ units d.asStr ∈ t.proposals
  time : t.lastTrustedTime = s.lastTrustedTimeMs.map Nat.cast

theorem Simulates.empty : Simulates MemoryGrantStore.empty .empty where
  grants _ := .none
  decisions _ := by simp [MemoryGrantStore.empty, ReferenceLifecycleTarget.empty]
  proposals _ := by simp [MemoryGrantStore.empty, ReferenceLifecycleTarget.empty]
  time := rfl

section States

variable {s : MemoryGrantState} {t : ReferenceLifecycleTarget}

omit [Sha256] in
theorem isSome_iff_of_rel {α β : Type} {R : α → β → Prop} {o : Option α} {o' : Option β}
    (h : Option.Rel R o o') : o.isSome ↔ o'.isSome := by
  cases h with
  | some _ => exact iff_of_true rfl rfl
  | none => exact Iff.rfl

theorem rel_insert {id : String} {stored : Core.StoredGrant} {st : StoredGrant}
    (h : ∀ id, Option.Rel Mirrors (s.grants id) (t.grants (units id))) (hnew : Mirrors stored st)
    (j : String) : Option.Rel Mirrors (s.grants.insert id stored j)
      (t.grants.insert (units id) st (units j)) := by
  by_cases hj : j = id
  · subst hj
    simp only [HashMap.insert, Function.update_self]
    exact .some hnew
  · have hunits : units j ≠ units id := fun he ↦ hj (units_injective he)
    simp only [HashMap.insert, Function.update_of_ne hj, Function.update_of_ne hunits]
    exact h j

omit [Sha256] in
theorem mem_insert_hash {hashes : List JsString} {index : HashMap Digest32 String} {id : String}
    {e : Digest32} (h : ∀ d, (index d).isSome ↔ units d.asStr ∈ hashes) (d : Digest32) :
    (index.insert e id d).isSome ↔ units d.asStr ∈ hashes.insert (units e.asStr) := by
  rw [List.mem_insert_iff, ← h d]
  by_cases hd : d = e
  · subst hd
    simp [HashMap.insert]
  · have hunits : units d.asStr ≠ units e.asStr := fun he ↦
      hd (Digest32.ext_iff.mpr (units_injective he))
    simp [HashMap.insert, hd, hunits]

theorem Simulates.time_iff (h : Simulates s t) {now : Nat} :
    (∃ last ∈ s.lastTrustedTimeMs, now < last) ↔
      ∃ last ∈ t.lastTrustedTime, (now : Int) < last := by
  rw [h.time]
  simp

end States

/-! ## Reading a stored bundle -/

section Reading

variable {α : Type} [ProtocolRecord α] [Deserialize α] [LawfulRecord α] {r : α}
  {ms ns : List (String × Json)} {name : String}

omit [Sha256] in
theorem recordAt_of_writes (h : Writes r (look ms name)) :
    ∃ ns, recordAt (ofJsonMembers ms) name = ofJsonMembers ns ∧ Holds ns (Serialize.fields r) := by
  obtain ⟨ns, hns, -, hholds⟩ := h.holds
  refine ⟨ns, ?_, hholds⟩
  rw [recordAt, field_ofJsonMembers, hns]
  rfl

omit [Sha256] in
theorem field_of_holds {fields : List (String × Json)} {v : Json} (h : Holds ns fields)
    (hmem : (name, v) ∈ fields) : field (ofJsonMembers ns) name = ofJson v := by
  have hlook : look ns name = v := h _ hmem
  rw [field_ofJsonMembers, hlook]

omit [Sha256] in
theorem strictlyEqual_units {s u : String} :
    strictlyEqual (.string (units s)) (.string (units u)) = true ↔ s = u := by
  rw [strictlyEqual, decide_eq_true_iff, units_injective.eq_iff]

omit [Sha256] in
theorem strictlyEqual_nat {n m : Nat} (hn : n ≤ maxSafeInteger) (hm : m ≤ maxSafeInteger) :
    strictlyEqual (.number (.ofInt n)) (.number (.ofInt m)) = true ↔ n = m := by
  have hof : ∀ {k : Nat}, k ≤ maxSafeInteger → JsNumber.ofInt k = .finite k := fun hk ↦
    JsNumber.ofInt_of_le (by simpa [maxSafeInteger, JsNumber.maxSafe] using hk)
  rw [hof hn, hof hm, strictlyEqual, JsNumber.same, decide_eq_true_iff, Nat.cast_inj]

/-- What `claim` reads of a stored bundle. -/
structure ReadsAs (bundle : Record) (c : TaskCommitment) (p : EffectProposal)
    (g : ExecutionGrant) : Prop where
  policyEpoch : field (recordAt bundle "commitment") "policy_epoch" = .number (.ofInt c.policyEpoch)
  configurationEpoch : field (recordAt bundle "commitment") "configuration_epoch" =
    .number (.ofInt c.configurationEpoch)
  preStateDigest : field (recordAt bundle "proposal") "pre_state_digest" =
    .string (units p.preStateDigest.asStr)
  resourceClaimDigest : field (recordAt bundle "proposal") "resource_claim_digest" =
    .string (units p.resourceClaimDigest.asStr)
  grantId : stringAt (recordAt bundle "grant") "grant_id" = units g.grantId
  audience : field (recordAt bundle "grant") "audience" = .string (units g.audience)
  notBefore : numberAt (recordAt bundle "grant") "not_before_ms" = g.notBeforeMs
  expires : numberAt (recordAt bundle "grant") "expires_at_ms" = g.expiresAtMs

omit [Sha256] in
theorem readsAs_of_writes {c : TaskCommitment} {p : EffectProposal} {d : AuthorizationDecision}
    {g : ExecutionGrant} (h : BundleWrites (chainBundle c p d g none) ms)
    (hg : validate g = .ok ()) :
    ReadsAs (ofJsonMembers ms) c p g := by
  have hc : Writes c (look ms "commitment") := h.commitment
  have hp : Writes p (look ms "proposal") := h.proposal
  have hg' : Writes g (look ms "grant") := h.grant
  obtain ⟨cs, hcs, hcommitment⟩ := recordAt_of_writes hc
  obtain ⟨ps, hps, hproposal⟩ := recordAt_of_writes hp
  obtain ⟨gs, hgs, hgrant⟩ := recordAt_of_writes hg'
  obtain ⟨-, -, -, -, -, ⟨hlt, hle⟩, -⟩ := ExecutionGrant.validate_eq_ok.mp hg
  constructor
  · rw [hcs]
    exact field_of_holds (v := writeNat c.policyEpoch) hcommitment (by simp [Serialize.fields])
  · rw [hcs]
    exact field_of_holds (v := writeNat c.configurationEpoch) hcommitment
      (by simp [Serialize.fields])
  · rw [hps]
    exact field_of_holds (v := writeDigest p.preStateDigest) hproposal (by simp [Serialize.fields])
  · rw [hps]
    exact field_of_holds (v := writeDigest p.resourceClaimDigest) hproposal
      (by simp [Serialize.fields])
  · rw [hgs]
    exact stringAt_eq (hgrant ("grant_id", .str g.grantId) (by simp [Serialize.fields]))
  · rw [hgs]
    exact field_of_holds (v := .str g.audience) hgrant (by simp [Serialize.fields])
  · rw [hgs]
    exact numberAt_eq (hgrant ("not_before_ms", writeNat g.notBeforeMs)
      (by simp [Serialize.fields])) (hlt.le.trans hle)
  · rw [hgs]
    exact numberAt_eq (hgrant ("expires_at_ms", writeNat g.expiresAtMs)
      (by simp [Serialize.fields])) hle

end Reading

/-! ## Each operation -/

section Operations

variable {s : MemoryGrantState} {t : ReferenceLifecycleTarget} {α β : Type} {A : α → β → Prop}

/-- Both sides keep their state where they fail. -/
theorem follows_atomically {x : Except ProtocolError (α × MemoryGrantState)}
    {y : Except Failure (β × ReferenceLifecycleTarget)}
    (hop : Corresponds SameKind (fun a b ↦ A a.1 b.1 ∧ Simulates a.2 b.2) x y)
    (h : Simulates s t) :
    Corresponds SameKind A (MemoryGrantStore.atomically s x).1
        (ReferenceLifecycleTarget.atomically t y).1 ∧
      Simulates (MemoryGrantStore.atomically s x).2
        (ReferenceLifecycleTarget.atomically t y).2 := by
  cases hop with
  | ok hop => exact ⟨.ok hop.1, hop.2⟩
  | error herror => exact ⟨.error herror, h⟩

theorem register_follows (h : Simulates s t) (hpresents : Presents c p d g none ms) :
    Corresponds SameKind (fun h s ↦ s = units h.asStr) (MemoryGrantStore.register c p d g s).1
        (ReferenceLifecycleTarget.register (ofJsonMembers ms) t).1 ∧
      Simulates (MemoryGrantStore.register c p d g s).2
        (ReferenceLifecycleTarget.register (ofJsonMembers ms) t).2 := by
  refine follows_atomically ?_ h
  have hgrant : Writes g (look ms "grant") := hpresents.writes.grant
  have hid := (readsAs_of_writes hpresents.writes hpresents.grant_valid).grantId
  have hown : hasOwn (ofJsonMembers ms) "grant" = true :=
    hasOwn_ofJsonMembers.mpr (KeyMap.mem_keys_of_lookup (look_eq_of_ne_null hgrant.ne_null))
  rw [MemoryGrantStore.registerLocked, ReferenceLifecycleTarget.registerChecked]
  have hverify := hpresents.follows (fun _ ↦ hpresents.unmarked) hpresents.failsVerifying
    fun _ ↦ verifyAuthorization_eq_ok.trans (and_congr_left' accepted_none.symm)
  refine hverify.bind fun a b hab ↦ ?_
  obtain ⟨hacc, rfl, rfl⟩ := hab
  have hnew : Mirrors (MemoryGrantStore.newGrant c p d g)
      ⟨ofJsonMembers ms, hashUnits g, none, none, 0⟩ := {
    bundle := ⟨ms, rfl, hpresents⟩
    chain := accepted_none.mp hacc
    hash := rfl
    grantHash := rfl
    claim := rfl
    claimed_le := by rintro _ ⟨⟩
    receipt_valid := by rintro _ ⟨⟩
    receiptHash := rfl
    receiptWrites := rfl }
  simp only [ofReport, report, chainBundle, Option.map_some, okOr_some, ok_bind, hown,
    Bool.not_true, Bool.false_eq_true, not_false_eq_true, rejectIf_false, hid]
  refine corresponds_reject (isSome_iff_of_rel (h.grants g.grantId)) rfl fun _ ↦ ?_
  refine corresponds_reject (h.decisions _) rfl fun _ ↦ ?_
  refine corresponds_reject (h.proposals _) rfl fun _ ↦ ?_
  refine .ok ⟨rfl, ?_⟩
  exact {
    grants := rel_insert h.grants hnew
    decisions := mem_insert_hash h.decisions
    proposals := mem_insert_hash h.proposals
    time := h.time }

omit [Sha256] in
/-- The epochs of a valid request are safe integers. -/
theorem epochs_le {request : GrantClaimRequest} (h : request.validate = .ok ()) :
    request.observedPolicyEpoch ≤ maxSafeInteger ∧
      request.observedConfigurationEpoch ≤ maxSafeInteger := by
  have hall : TrimmedText request.attemptId 256 ∧ TrimmedText request.expectedAudience 512 ∧
      request.observedPolicyEpoch ≤ maxSafeInteger ∧
        request.observedConfigurationEpoch ≤ maxSafeInteger := by
    simpa [GrantClaimRequest.validate] using h
  exact hall.2.2

omit [Sha256] in
/-- Two values are not the same on one side if they are not on the other. -/
theorem not_eq_iff {a b : α} {x y : JsValue} (h : strictlyEqual x y = true ↔ a = b) :
    a ≠ b ↔ (!strictlyEqual x y) = true := by
  rw [Bool.not_eq_true', ← Bool.not_eq_true, h]

theorem claim_follows (h : Simulates s t) {g : ExecutionGrant} {request : GrantClaimRequest}
    {now : Option Nat} (hrequest : request.validate = .ok ()) (hg : validate g = .ok ())
    (hnow : ∀ n ∈ now, n ≤ maxSafeInteger)
    (hsame : ∀ stored, s.grants g.grantId = some stored → stored.grant = g) :
    Corresponds SameKind (fun _ _ ↦ True) (MemoryGrantStore.claim g request now s).1
        (ReferenceLifecycleTarget.claim (units g.grantId) (ofRequest request)
          (now.map Nat.cast) t).1 ∧
      Simulates (MemoryGrantStore.claim g request now s).2
        (ReferenceLifecycleTarget.claim (units g.grantId) (ofRequest request)
          (now.map Nat.cast) t).2 := by
  rw [MemoryGrantStore.claim, ReferenceLifecycleTarget.claim]
  have hpreamble : Corresponds SameKind
      (fun a n ↦ a.2 = recordHash g ∧ n = a.1 ∧ a.1 ≤ maxSafeInteger)
      (MemoryGrantStore.claimPreamble g request now s)
      (ReferenceLifecycleTarget.claimPreamble (now.map Nat.cast) t) := by
    rw [MemoryGrantStore.claimPreamble, hrequest, ok_bind, ReferenceLifecycleTarget.claimPreamble]
    cases now with
    | none => exact .error rfl
    | some n =>
        have hsafe : validateSafeInteger "trusted now_ms" n = .ok () :=
          if_neg (not_lt.mpr (hnow n rfl))
        rw [okOr_some, ok_bind, hsafe, ok_bind, commitment_of_valid hg, ok_bind, Option.map_some,
          okOr_some, ok_bind]
        exact corresponds_reject h.time_iff rfl fun _ ↦ .ok ⟨rfl, rfl, hnow n rfl⟩
  generalize MemoryGrantStore.claimPreamble g request now s = x at hpreamble
  generalize ReferenceLifecycleTarget.claimPreamble (now.map Nat.cast) t = y at hpreamble
  cases hpreamble with
  | error herror => exact ⟨.error herror, h⟩
  | @ok a n hok =>
      obtain ⟨nowMs, suppliedHash⟩ := a
      obtain ⟨rfl, rfl, hle⟩ := hok
      dsimp only
      have htime : Simulates { s with lastTrustedTimeMs := some nowMs }
          { t with lastTrustedTime := some (nowMs : Int) } := { h with time := rfl }
      refine follows_atomically ?_ htime
      rw [MemoryGrantStore.claimLocked, ReferenceLifecycleTarget.claimChecked]
      refine corresponds_okOr (h.grants g.grantId) rfl fun stored st hstored hst hmirrors ↦ ?_
      obtain rfl := hsame stored hstored
      obtain ⟨ms, hbundle, hpresents⟩ := hmirrors.bundle
      have hreads := readsAs_of_writes hpresents.writes hg
      rw [← hbundle] at hreads
      obtain ⟨hpolicy, hconfiguration⟩ := epochs_le hrequest
      obtain ⟨-, -, -, hpolicy', hconfiguration', -⟩ :=
        TaskCommitment.validate_eq_ok.mp hmirrors.chain.commitment_valid
      rw [rejectIf_false (not_not_intro hmirrors.hash), ok_bind,
        verifyAuthorization_eq_ok.mpr ⟨hmirrors.chain, rfl⟩, ok_bind,
        rejectIf_false (not_not_intro hmirrors.hash.symm), ok_bind]
      dsimp only
      rw [hreads.audience, hreads.policyEpoch, hreads.configurationEpoch, hreads.preStateDigest,
        hreads.resourceClaimDigest, hreads.notBefore, hreads.expires]
      refine corresponds_reject (not_eq_iff strictlyEqual_units) rfl fun _ ↦ ?_
      refine corresponds_reject (or_congr (not_eq_iff (strictlyEqual_nat hpolicy hpolicy'))
        (not_eq_iff (strictlyEqual_nat hconfiguration hconfiguration'))) rfl fun _ ↦ ?_
      refine corresponds_reject (not_eq_iff equal_digest) rfl fun _ ↦ ?_
      refine corresponds_reject (not_eq_iff equal_digest) rfl fun _ ↦ ?_
      refine corresponds_reject Iff.rfl rfl fun _ ↦ ?_
      refine corresponds_reject Nat.cast_lt.symm rfl fun _ ↦ ?_
      refine corresponds_reject Nat.cast_le.symm rfl fun _ ↦ ?_
      refine corresponds_reject ?_ rfl fun _ ↦ ?_
      · rw [hmirrors.claim, Option.isSome_map]
      have hnew : Mirrors { stored with
            claim := some ⟨stored.grant.grantId, stored.hash, request.attemptId, nowMs⟩ }
          { st with claim := some ⟨units request.attemptId, nowMs⟩ } :=
        { hmirrors with
          claim := rfl
          claimed_le := by
            rintro _ ⟨⟩
            exact hle }
      exact .ok ⟨trivial, { htime with grants := rel_insert h.grants hnew }⟩

/-! ### Receipts -/

section Receipts

/-- The members with one of them set. -/
def setMember (ms : List (String × Json)) (name : String) (v : Json) : List (String × Json) :=
  if name ∈ ms.map Prod.fst then ms.map fun e ↦ if e.1 = name then (e.1, v) else e
  else ms ++ [(name, v)]

variable {ms : List (String × Json)} {name : String} {v : Json}

omit [Sha256] in
theorem ofJsonMembers_map : ofJsonMembers ms = ms.map fun e ↦ (units e.1, ofJson e.2) := by
  rw [ofJsonMembers_eq_map, KeyMap.mapVal, List.map_map]
  rfl

omit [Sha256] in
theorem setField_ofJsonMembers :
    setField (ofJsonMembers ms) name (ofJson v) = ofJsonMembers (setMember ms name v) := by
  rw [setField, setMember, apply_ite ofJsonMembers]
  refine if_congr hasOwn_ofJsonMembers ?_ ?_
  · rw [ofJsonMembers_map, ofJsonMembers_map, List.map_map, List.map_map]
    refine List.map_congr_left fun e _ ↦ ?_
    have hname : units e.1 = js name ↔ e.1 = name := units_injective.eq_iff
    by_cases he : e.1 = name
    · simp only [Function.comp_apply, if_pos he, if_pos (hname.mpr he)]
    · simp only [Function.comp_apply, if_neg he, if_neg (mt hname.mp he)]
  · rw [ofJsonMembers_map, ofJsonMembers_map, List.map_append]
    rfl

omit [Sha256] in
theorem keys_setMember : (setMember ms name v).map Prod.fst =
    if name ∈ ms.map Prod.fst then ms.map Prod.fst else ms.map Prod.fst ++ [name] := by
  rw [setMember, apply_ite (List.map Prod.fst)]
  refine if_congr Iff.rfl ?_ ?_
  · rw [List.map_map]
    refine List.map_congr_left fun e _ ↦ ?_
    simp only [Function.comp_apply]
    split_ifs <;> rfl
  · rw [List.map_append]
    rfl

omit [Sha256] in
theorem lookup_replace (k : String) :
    (ms.map fun e ↦ if e.1 = name then (e.1, v) else e).lookup k =
      if k = name then (ms.lookup k).map fun _ ↦ v else ms.lookup k := by
  induction ms with
  | nil => split_ifs <;> rfl
  | cons e ms ih =>
      obtain ⟨a, w⟩ := e
      rw [List.map_cons]
      by_cases ha : a = name
      · rw [if_pos ha, KeyMap.lookup_cons, KeyMap.lookup_cons, ih]
        split_ifs with hk hk'
        · rfl
        · exact absurd (hk.trans ha) hk'
        · rfl
        · rfl
      · rw [if_neg ha, KeyMap.lookup_cons, KeyMap.lookup_cons, ih]
        split_ifs with hk hk'
        · exact absurd (hk.symm.trans hk') ha
        · rfl
        · rfl
        · rfl

omit [Sha256] in
theorem lookup_setMember (k : String) :
    (setMember ms name v).lookup k = if k = name then some v else ms.lookup k := by
  rw [setMember]
  by_cases hmem : name ∈ ms.map Prod.fst
  · rw [if_pos hmem, lookup_replace]
    split_ifs with hk
    · obtain ⟨w, hw⟩ := Option.isSome_iff_exists.mp (isSome_lookup.mpr hmem)
      rw [hk, hw]
      rfl
    · rfl
  · have hnone : ms.lookup name = none := by
      rwa [← isSome_lookup, Option.not_isSome_iff_eq_none] at hmem
    rw [if_neg hmem, List.lookup_append, KeyMap.lookup_cons]
    split_ifs with hk
    · rw [hk, hnone]
      rfl
    · exact Option.or_none

omit [Sha256] in
theorem distinct_setMember (h : (Json.obj ms).Distinct) (hv : v.Distinct) :
    (Json.obj (setMember ms name v)).Distinct := by
  cases h with
  | obj hkeys hvalues =>
      refine .obj ?_ fun e he ↦ ?_
      · rw [keys_setMember]
        split_ifs with hmem
        · exact hkeys
        · exact List.nodup_append'.mpr ⟨hkeys, List.nodup_singleton name,
            List.disjoint_singleton.mpr hmem⟩
      · rw [setMember] at he
        split_ifs at he with hmem
        · obtain ⟨e', he', rfl⟩ := List.mem_map.mp he
          split_ifs
          · exact hv
          · exact hvalues e' he'
        · rcases List.mem_append.mp he with he | he
          · exact hvalues e he
          · rw [List.mem_singleton.mp he]
            exact hv

omit [Sha256] in
theorem look_setMember (k : String) :
    look (setMember ms name v) k = if k = name then v else look ms k := by
  rw [look, lookup_setMember]
  split_ifs <;> rfl

variable {r : EffectReceipt}

omit [Sha256] in
/-- The candidate of `recordReceipt` writes the chain with the receipt. -/
theorem WritesChain.candidate {rs : List (String × Json)} (h : WritesChain c p d g none ms)
    (hr : WritesReceipt r rs) :
    WritesChain c p d g (some r) (setMember ms "receipt" (.obj rs)) where
  distinct := distinct_setMember h.distinct hr.distinct
  writes := {
    names := fun k hk ↦ by
      rw [keys_setMember] at hk
      split_ifs at hk with hmem
      · exact h.writes.names k hk
      · rcases List.mem_append.mp hk with hk | hk
        · exact h.writes.names k hk
        · rw [List.mem_singleton.mp hk]
          decide
    commitment := by
      rw [look_setMember, if_neg (by decide)]
      exact h.writes.commitment
    proposal := by
      rw [look_setMember, if_neg (by decide)]
      exact h.writes.proposal
    decision := by
      rw [look_setMember, if_neg (by decide)]
      exact h.writes.decision
    grant := by
      rw [look_setMember, if_neg (by decide)]
      exact h.writes.grant
    receipt := by
      rw [look_setMember, if_pos rfl]
      exact hr.writes
    reconciliations := by
      rw [lookup_setMember, if_neg (by decide)]
      exact h.writes.reconciliations }
  commitment_valid := h.commitment_valid
  proposal_valid := h.proposal_valid
  decision_valid := h.decision_valid
  grant_valid := h.grant_valid
  receipt_valid := by
    rintro _ ⟨⟩
    exact hr.receipt_valid

omit [Sha256] in
/-- A receipt adds its own texts to those of the chain. -/
theorem noMark_chain_some :
    NoMark (chainBundle c p d g (some r)) ↔ NoMark (chainBundle c p d g none) ∧ NoMark r := by
  constructor
  · intro h
    obtain ⟨hrecords, hgrant, hreceipt, hhistory⟩ := noMark_bundle.mp h
    exact ⟨noMark_bundle.mpr ⟨hrecords, hgrant, by rintro _ ⟨⟩, hhistory⟩, hreceipt r rfl⟩
  · rintro ⟨h, hr⟩
    obtain ⟨hrecords, hgrant, -, hhistory⟩ := noMark_bundle.mp h
    refine noMark_bundle.mpr ⟨hrecords, hgrant, ?_, hhistory⟩
    rintro _ ⟨⟩
    exact hr

theorem WritesChain.failsVerifying_chain (h : WritesChain c p d g (some r) ms) :
    FailsVerifying (verifyChain c p d g r) := by
  refine FailsVerifying.bind h.failsVerifying fun _ ↦ ?_
  refine failsVerifying_reject rfl (failsVerifying_reject rfl (failsVerifying_reject rfl ?_))
  exact failsVerifying_commitment (h.receipt_valid r rfl) (failsVerifying_ok _)

omit [Sha256] in
theorem rel_map {α β : Type} (f : α → β) (o : Option α) :
    Option.Rel (fun a b ↦ b = f a) o (o.map f) := by
  cases o with
  | none => exact .none
  | some a => exact .some rfl

omit [Sha256] in
/-- The receipt names the winning claim on one side if it does on the other. -/
theorem WritesReceipt.mismatch_iff (h : WritesReceipt r ms) {claim : GrantClaim}
    (hle : claim.claimedAtMs ≤ maxSafeInteger) :
    (r.attemptId ≠ claim.attemptId ∨ r.claimedAtMs ≠ claim.claimedAtMs) ↔
      (!strictlyEqual (field (ofJsonMembers ms) "attempt_id")
          (.string (units claim.attemptId))) = true ∨
        (!strictlyEqual (field (ofJsonMembers ms) "claimed_at_ms")
          (.number (.ofInt claim.claimedAtMs))) = true := by
  obtain ⟨_, ⟨⟩, -, hholds⟩ := h.writes.holds
  obtain ⟨-, -, -, hclaimed, -⟩ := EffectReceipt.validate_eq_ok.mp h.receipt_valid
  have hattempt : field (ofJsonMembers ms) "attempt_id" = .string (units r.attemptId) :=
    field_of_holds (v := .str r.attemptId) hholds (by simp [Serialize.fields])
  have htime : field (ofJsonMembers ms) "claimed_at_ms" = .number (.ofInt r.claimedAtMs) :=
    field_of_holds (v := writeNat r.claimedAtMs) hholds (by simp [Serialize.fields])
  rw [hattempt, htime]
  exact or_congr (not_eq_iff strictlyEqual_units) (not_eq_iff (strictlyEqual_nat hclaimed hle))

/-- The receipt is one for the claim that the store holds of the grant. -/
def Receivable (s : MemoryGrantState) (g : ExecutionGrant) (r : EffectReceipt) : Prop :=
  ∃ stored claim, s.grants g.grantId = some stored ∧ stored.claim = some claim ∧
    r.attemptId = claim.attemptId ∧ r.claimedAtMs = claim.claimedAtMs ∧
    ReceiptFor stored.proposal stored.grant r

theorem recordReceipt_follows {S : Set (List UInt8)} (hS : CollisionFree S)
    (hinv : MemoryGrantStore.Invariant S s) (h : Simulates s t)
    (hreceipt : WritesReceipt r ms) (hmark : Receivable s g r → NoMark r)
    (hgrant : r.grantHash = recordHash g) (hg : validate g = .ok ()) (hgS : preimage g ∈ S)
    (hsame : ∀ stored, s.grants g.grantId = some stored → stored.grant = g) :
    Corresponds SameKind (fun h s ↦ s = units h.asStr) (MemoryGrantStore.recordReceipt r s).1
        (ReferenceLifecycleTarget.recordReceipt (units g.grantId) (ofJsonMembers ms) t).1 ∧
      Simulates (MemoryGrantStore.recordReceipt r s).2
        (ReferenceLifecycleTarget.recordReceipt (units g.grantId) (ofJsonMembers ms) t).2 := by
  refine follows_atomically ?_ h
  rw [MemoryGrantStore.recordReceiptLocked, hreceipt.receipt_valid, ok_bind, hgrant,
    ReferenceLifecycleTarget.recordReceiptChecked]
  have hrel := h.grants g.grantId
  generalize hst : t.grants (units g.grantId) = found at hrel
  cases hstored : s.grants g.grantId with
  | none =>
      rw [hstored] at hrel
      have hnone : s.grantByHash (recordHash g) = none := by
        rw [Option.eq_none_iff_forall_ne_some]
        intro id hid
        obtain ⟨other, hother, heq⟩ := hinv.hash_index _ id hid
        exact hinv.recordHash_ne hS hgS hg hstored hother heq.symm
      rw [hnone]
      cases hrel
      exact .error rfl
  | some stored =>
      obtain rfl := hsame stored hstored
      have hid := (hinv.stored _ _ hstored).by_hash
      rw [hstored] at hrel
      rw [hid, okOr_some, ok_bind, hstored, okOr_some, ok_bind]
      cases hrel with
      | @some _ st hmirrors =>
          obtain ⟨bundle, hbundle, hpresents⟩ := hmirrors.bundle
          have hcand := hpresents.toWritesChain.candidate hreceipt
          have hclaims : Option.Rel (fun a b ↦ b = Claim.mk (units a.attemptId) a.claimedAtMs)
              stored.claim st.claim := by
            rw [hmirrors.claim]
            exact rel_map _ _
          rw [okOr_some, ok_bind]
          refine corresponds_okOr hclaims rfl fun claim _ hclaim _ heq ↦ ?_
          subst heq
          refine corresponds_reject (hreceipt.mismatch_iff (hmirrors.claimed_le claim hclaim))
            rfl fun hmatch ↦ ?_
          rw [not_or, not_not, not_not] at hmatch
          have hcandidate : setField st.bundle "receipt" (.object (ofJsonMembers ms)) =
              ofJsonMembers (setMember bundle "receipt" (.obj ms)) := by
            rw [hbundle]
            exact setField_ofJsonMembers (v := .obj ms)
          dsimp only
          rw [hcandidate]
          have hunmarked : AcceptedBundle (chainBundle stored.commitment stored.proposal
              stored.decision stored.grant (some r)) → NoMark _ := fun hacc ↦
            noMark_chain_some.mpr ⟨hpresents.unmarked, hmark ⟨stored, claim, hstored, hclaim,
              hmatch.1, hmatch.2, (accepted_some.mp hacc).2⟩⟩
          have hverify := hcand.follows hunmarked hcand.failsVerifying_chain
            fun _ ↦ verifyChain_eq_ok.trans (and_congr_left' accepted_some.symm)
          refine hverify.bind fun a b hab ↦ ?_
          obtain ⟨-, rfl, rfl⟩ := hab
          have hhash : (ofReport (report (chainBundle stored.commitment stored.proposal
              stored.decision stored.grant (some r)))).receiptHash = some (hashUnits r) := rfl
          rw [hhash, Option.getD_some, hmirrors.receiptHash]
          cases hrecorded : stored.receipt with
          | some existing =>
              dsimp only [Option.map_some]
              rw [commitment_of_valid (hmirrors.receipt_valid existing hrecorded), ok_bind]
              refine corresponds_reject ?_ rfl fun _ ↦ .ok ⟨rfl, h⟩
              rw [hashUnits, hashUnits, ne_eq, ne_eq, units_injective.eq_iff, ← Digest32.ext_iff]
          | none =>
              have hnew : Mirrors { stored with receipt := some r }
                  { st with
                    receiptHash := some (hashUnits r)
                    receiptWrites := st.receiptWrites + 1 } :=
                { hmirrors with
                  receipt_valid := by
                    rintro _ ⟨⟩
                    exact hreceipt.receipt_valid
                  receiptHash := rfl
                  receiptWrites := by
                    rw [hmirrors.receiptWrites, hrecorded]
                    rfl }
              exact .ok ⟨rfl, { h with grants := rel_insert h.grants hnew }⟩

/-! ### Receipts with a mark -/

/-- The store knows a receivable receipt: it records it, or holds another one already. -/
theorem recordReceipt_of_receivable {S : Set (List UInt8)} (hinv : MemoryGrantStore.Invariant S s)
    (hr : Receivable s g r)
    (hsame : ∀ stored, s.grants g.grantId = some stored → stored.grant = g) {e : ProtocolError}
    (he : (MemoryGrantStore.recordReceipt r s).1 = .error e) : e = .receiptAlreadyRecorded := by
  obtain ⟨stored, claim, hstored, hclaim, hattempt, htime, hfor⟩ := hr
  obtain rfl := hsame stored hstored
  have hwell := hinv.stored _ _ hstored
  have hchain : GrantChain stored.commitment stored.proposal stored.decision stored.grant :=
    hwell.accepted.grant _ rfl
  have hid : s.grantByHash r.grantHash = some stored.grant.grantId := by
    rw [hfor.receipt_grant_hash]
    exact hwell.by_hash
  have hmatch : ¬(r.attemptId ≠ claim.attemptId ∨ r.claimedAtMs ≠ claim.claimedAtMs) := by
    rw [not_or, not_not, not_not]
    exact ⟨hattempt, htime⟩
  rw [MemoryGrantStore.recordReceipt, MemoryGrantStore.recordReceiptLocked, hfor.receipt_valid,
    ok_bind, hid, okOr_some, ok_bind, hstored, okOr_some, ok_bind, hclaim, okOr_some, ok_bind,
    rejectIf_false hmatch, ok_bind, verifyChain_eq_ok.mpr ⟨⟨hchain, hfor⟩, rfl⟩, ok_bind] at he
  dsimp only at he
  cases hrecorded : stored.receipt with
  | none =>
      rw [hrecorded] at he
      cases he
  | some existing =>
      obtain ⟨_, -, hexisting⟩ := hwell.accepted.receipt existing hrecorded
      rw [hrecorded] at he
      dsimp only at he
      rw [commitment_of_valid hexisting.receipt_valid, ok_bind] at he
      by_cases hne : recordHash existing ≠ recordHash r
      · rw [rejectIf_true hne] at he
        cases he
        rfl
      · rw [rejectIf_false hne] at he
        cases he

/-- The target throws on a receivable receipt that has a mark. -/
theorem recordReceipt_thrown (h : Simulates s t) (hreceipt : WritesReceipt r ms)
    (hr : Receivable s g r) (hmark : ¬NoMark r) :
    ∃ e, (ReferenceLifecycleTarget.recordReceipt (units g.grantId) (ofJsonMembers ms) t).1 =
      .error (.thrown e) := by
  obtain ⟨stored, claim, hstored, hclaim, hattempt, htime, -⟩ := hr
  have hrel := h.grants g.grantId
  rw [hstored] at hrel
  generalize hst : t.grants (units g.grantId) = found at hrel
  cases hrel with
  | @some _ st hmirrors =>
      obtain ⟨bundle, hbundle, hpresents⟩ := hmirrors.bundle
      have hmatch := mt (hreceipt.mismatch_iff (hmirrors.claimed_le claim hclaim)).mpr (by
        rw [not_or, not_not, not_not]
        exact ⟨hattempt, htime⟩)
      have hcandidate : setField st.bundle "receipt" (.object (ofJsonMembers ms)) =
          ofJsonMembers (setMember bundle "receipt" (.obj ms)) := by
        rw [hbundle]
        exact setField_ofJsonMembers (v := .obj ms)
      rw [ReferenceLifecycleTarget.recordReceipt, ReferenceLifecycleTarget.recordReceiptChecked,
        hst, okOr_some, ok_bind, hmirrors.claim, hclaim, Option.map_some, okOr_some, ok_bind,
        rejectIf_false hmatch, ok_bind]
      dsimp only
      rw [hcandidate]
      cases hverify : TypeScript.verifyTransaction
          (.object (ofJsonMembers (setMember bundle "receipt" (.obj ms)))) with
      | error e => exact ⟨e, rfl⟩
      | ok result =>
          obtain ⟨-, hnomark, -⟩ := (hpresents.toWritesChain.candidate hreceipt).verify_eq_ok.mp
            hverify
          exact absurd (noMark_chain_some.mp hnomark).2 hmark

end Receipts

end Operations

end Etp.Conformance
