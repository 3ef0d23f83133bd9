import Etp.Conformance.Lifecycle
import Etp.Core.SingleUse
import Etp.Sqlite.Batch

/-!
# The oracle follows the store

A trace is a list of operations, each a call on `MemoryGrantStore` and a method of
`ReferenceLifecycleTarget`.  Both sides start empty and take every operation of the trace.

`target_follows_store` says that they give the same answers all along.  Its hypotheses are on
what the trace presents: documents that write valid records, and grants under the identifier
that they are registered with (`Operation.Presentable`).

`oracle_follows_iff` is about the operations that both sides accept (`Operation.Admissible`).
There a receipt may have a mark, which the store does not see, and the sides part exactly where
such a receipt reports a claim.  Both come from `ComparableTrace.follows`.
-/

namespace Etp.Conformance

open Etp.Core Etp.TypeScript JsString

/-- An operation with the records, and with the documents that write them. -/
inductive Operation where
  | register (c : TaskCommitment) (p : EffectProposal) (d : AuthorizationDecision)
      (g : ExecutionGrant) (bundle : List (String × Json))
  | claim (g : ExecutionGrant) (request : GrantClaimRequest) (now : Option Nat)
  | recordReceipt (g : ExecutionGrant) (r : EffectReceipt) (receipt : List (String × Json))

namespace Operation

/-- The grant that is registered, claimed or receipted. -/
def grant : Operation → ExecutionGrant
  | .register _ _ _ g _ => g
  | .claim g _ _ => g
  | .recordReceipt g _ _ => g

def call : Operation → MemoryGrantStore.Call
  | .register c p d g _ => .register c p d g
  | .claim g request now => .claim g request now
  | .recordReceipt _ r _ => .recordReceipt r

/-- The preimages of the records that the operation presents. -/
def preimages : Operation → Set (List UInt8)
  | .register c p d g _ => {preimage c, preimage p, preimage d, preimage g}
  | .claim g _ _ => {preimage g}
  | .recordReceipt g r _ => {preimage g, preimage r}

variable [Sha256]

/-- The hash that the store returns, if the call returns one. -/
def storeAnswer (s : MemoryGrantState) : Operation → Except ProtocolError (Option Digest32)
  | .register c p d g _ => (MemoryGrantStore.register c p d g s).1.map some
  | .claim g request now => (MemoryGrantStore.claim g request now s).1.map fun _ ↦ none
  | .recordReceipt _ r _ => (MemoryGrantStore.recordReceipt r s).1.map some

/-- The hash that the target returns, if the method returns one. -/
def targetAnswer (t : ReferenceLifecycleTarget) : Operation → Except Failure (Option JsString)
  | .register _ _ _ _ bundle => (t.register (ofJsonMembers bundle)).1.map some
  | .claim g request now =>
      (t.claim (units g.grantId) (ofRequest request) (now.map Nat.cast)).1.map fun _ ↦ none
  | .recordReceipt g _ receipt =>
      (t.recordReceipt (units g.grantId) (ofJsonMembers receipt)).1.map some

def targetStep (t : ReferenceLifecycleTarget) : Operation → ReferenceLifecycleTarget
  | .register _ _ _ _ bundle => (t.register (ofJsonMembers bundle)).2
  | .claim g request now => (t.claim (units g.grantId) (ofRequest request) (now.map Nat.cast)).2
  | .recordReceipt g _ receipt => (t.recordReceipt (units g.grantId) (ofJsonMembers receipt)).2

end Operation

section Traces

variable [Sha256]

/-- The grant is the one under its identifier, if there is one. -/
def Registered (s : MemoryGrantState) (g : ExecutionGrant) : Prop :=
  ∀ stored, s.grants g.grantId = some stored → stored.grant = g

/-- The operation presents valid records by their documents, and the grant that it is about; a
receipt may have a mark if the store refuses it. -/
def Operation.Comparable (s : MemoryGrantState) : Operation → Prop
  | .register c p d g bundle => Presents c p d g none bundle
  | .claim g request now => Registered s g ∧ validate g = .ok () ∧ request.validate = .ok () ∧
      ∀ n ∈ now, n ≤ maxSafeInteger
  | .recordReceipt g r receipt => Registered s g ∧ validate g = .ok () ∧
      r.grantHash = recordHash g ∧ WritesReceipt r receipt ∧ (Receivable s g r → NoMark r)

/-- The same without any mark. -/
def Operation.Presentable (s : MemoryGrantState) : Operation → Prop
  | .register c p d g bundle => Presents c p d g none bundle
  | .claim g request now => Registered s g ∧ validate g = .ok () ∧ request.validate = .ok () ∧
      ∀ n ∈ now, n ≤ maxSafeInteger
  | .recordReceipt g r receipt => Registered s g ∧ validate g = .ok () ∧
      r.grantHash = recordHash g ∧ PresentsReceipt r receipt

theorem Operation.Presentable.comparable {s : MemoryGrantState} {op : Operation}
    (h : op.Presentable s) : op.Comparable s := by
  cases op with
  | register c p d g bundle => exact h
  | claim g request now => exact h
  | recordReceipt g r receipt =>
      obtain ⟨hgrant, hg, hhash, hreceipt⟩ := h
      exact ⟨hgrant, hg, hhash, hreceipt.toWritesReceipt, fun _ ↦ hreceipt.unmarked⟩

/-- The answers are the same hash or none at all. -/
def SameHash (h : Option Digest32) (s : Option JsString) : Prop :=
  s = h.map fun d ↦ units d.asStr

/-! ## One operation -/

section Step

variable {S : Set (List UInt8)} {s : MemoryGrantState} {t : ReferenceLifecycleTarget}
  {op : Operation}

theorem Operation.follows (hS : CollisionFree S) (hsub : op.preimages ⊆ S)
    (hinv : MemoryGrantStore.Invariant S s) (h : Simulates s t) (hop : op.Comparable s) :
    Corresponds SameKind SameHash (op.storeAnswer s) (op.targetAnswer t) ∧
      Simulates (MemoryGrantStore.step s op.call) (op.targetStep t) := by
  have hhash : ∀ (d : Digest32) (u : JsString), u = units d.asStr → SameHash (some d) (some u) := by
    rintro d _ rfl
    rfl
  cases op with
  | register c p d g bundle =>
      obtain ⟨hanswer, hstate⟩ := register_follows h hop
      exact ⟨hanswer.map hhash, hstate⟩
  | claim g request now =>
      obtain ⟨hgrant, hg, hrequest, hnow⟩ := hop
      obtain ⟨hanswer, hstate⟩ := claim_follows h hrequest hg hnow hgrant
      exact ⟨hanswer.map fun _ _ _ ↦ rfl, hstate⟩
  | recordReceipt g r receipt =>
      obtain ⟨hgrant, hg, hhashes, hreceipt, hmark⟩ := hop
      have hgS : preimage g ∈ S := hsub (.inl rfl)
      obtain ⟨hanswer, hstate⟩ :=
        recordReceipt_follows hS hinv h hreceipt hmark hhashes hg hgS hgrant
      exact ⟨hanswer.map hhash, hstate⟩

omit [Sha256] in
/-- The records that the call presents are among the operation's. -/
theorem Operation.call_preimages : op.call.preimages ⊆ op.preimages := by
  cases op with
  | register c p d g bundle => exact subset_rfl
  | claim g request now => exact subset_rfl
  | recordReceipt g r receipt => exact Set.subset_insert _ _

end Step

/-! ## Traces -/

/-- The target has written the receipts that the store holds. -/
theorem Simulates.receiptWrites {s : MemoryGrantState} {t : ReferenceLifecycleTarget}
    (h : Simulates s t) (id : String) :
    t.receiptWrites (units id) = ((s.grants id).bind Core.StoredGrant.receipt).toList.length := by
  rw [ReferenceLifecycleTarget.receiptWrites]
  have hrel := h.grants id
  generalize s.grants id = stored at hrel ⊢
  generalize t.grants (units id) = st at hrel ⊢
  cases hrel with
  | none => rfl
  | some hmirrors => exact hmirrors.receiptWrites

/-- Both sides take the operation. -/
def step (both : MemoryGrantState × ReferenceLifecycleTarget) (op : Operation) :
    MemoryGrantState × ReferenceLifecycleTarget :=
  (MemoryGrantStore.step both.1 op.call, op.targetStep both.2)

def start : MemoryGrantState × ReferenceLifecycleTarget := (MemoryGrantStore.empty, .empty)

def run (trace : List Operation) : MemoryGrantState × ReferenceLifecycleTarget :=
  Machine.run step start trace

/-- The preimages of all records that a trace presents. -/
def presented (trace : List Operation) : Set (List UInt8) :=
  {x | ∃ op ∈ trace, x ∈ op.preimages}

/-- Every operation of the trace is presentable where it is reached. -/
def PresentableTrace (trace : List Operation) : Prop :=
  Machine.Along step (fun both op ↦ op.Presentable both.1) start trace

theorem run_fst (trace : List Operation) :
    (run trace).1 = MemoryGrantStore.run (trace.map Operation.call) := by
  induction trace using List.reverseRecOn with
  | nil => rfl
  | append_singleton trace op ih =>
      rw [run, Machine.run_concat, List.map_append, MemoryGrantStore.run, List.map_singleton,
        Machine.run_concat]
      exact congrArg (MemoryGrantStore.step · op.call) ih

/-- Both sides give the same answers all along and end in states that match. -/
structure Follows (trace : List Operation) : Prop where
  answers : ∀ e ∈ Machine.events step start trace,
    Corresponds SameKind SameHash (e.2.storeAnswer e.1.1) (e.2.targetAnswer e.1.2)
  states : Simulates (run trace).1 (run trace).2
  receiptWrites : ∀ id, (run trace).2.receiptWrites (units id) =
    (((run trace).1.grants id).bind Core.StoredGrant.receipt).toList.length

section Comparable

variable {S : Set (List UInt8)} {trace : List Operation}

/-- The invariant of a trace: the store is well formed, and the target matches it. -/
structure Matched (S : Set (List UInt8)) (both : MemoryGrantState × ReferenceLifecycleTarget) :
    Prop where
  invariant : MemoryGrantStore.Invariant S both.1
  simulates : Simulates both.1 both.2

theorem matched_start : Matched S start := ⟨.empty _, .empty⟩

theorem Matched.step (hS : CollisionFree S) {both : MemoryGrantState × ReferenceLifecycleTarget}
    {op : Operation} (hop : op.preimages ⊆ S ∧ op.Comparable both.1) (h : Matched S both) :
    Matched S (step both op) where
  invariant := h.invariant.change hS (Operation.call_preimages.trans hop.1)
    (MemoryGrantStore.change_of_step _ _)
  simulates := (Operation.follows hS hop.1 h.invariant h.simulates hop.2).2

/-- The operations of the trace are comparable where they are reached, and present records of
`S`. -/
def ComparableTrace (S : Set (List UInt8)) (trace : List Operation) : Prop :=
  Machine.Along step (fun both op ↦ op.preimages ⊆ S ∧ op.Comparable both.1) start trace

theorem comparableTrace_of (hsub : presented trace ⊆ S) (h : ∀ before op after,
    trace = before ++ op :: after → op.Comparable (run before).1) : ComparableTrace S trace := by
  refine Machine.along_iff.mpr fun before op after htrace ↦ ⟨?_, h before op after htrace⟩
  intro x hx
  exact hsub ⟨op, htrace ▸ List.mem_append_right _ List.mem_cons_self, hx⟩

theorem ComparableTrace.matched (hS : CollisionFree S) (h : ComparableTrace S trace) :
    Matched S (run trace) :=
  h.run_invariant (fun _ _ hop hmatched ↦ hmatched.step hS hop) matched_start

/-- The target follows the store on comparable operations. -/
theorem ComparableTrace.follows (hS : CollisionFree S) (h : ComparableTrace S trace) :
    Follows trace where
  answers e he := by
    obtain ⟨⟨hsub, hop⟩, hinv, hsim⟩ :=
      h.forall_events (fun _ _ hop hmatched ↦ hmatched.step hS hop) matched_start e he
    exact (Operation.follows hS hsub hinv hsim hop).1
  states := (h.matched hS).simulates
  receiptWrites := (h.matched hS).simulates.receiptWrites

end Comparable

/-- **The oracle follows the store.**  On every trace of operations that present their records,
whose preimages have no collision, `ReferenceLifecycleTarget` answers every operation as
`MemoryGrantStore` does: with the same hash, with the code of the store's error, or, where the
store's own verification fails, with an error of the TypeScript verifier. -/
theorem target_follows_store {trace : List Operation} (hS : CollisionFree (presented trace))
    (h : PresentableTrace trace) :
    (run trace).1 = MemoryGrantStore.run (trace.map Operation.call) ∧ Follows trace := by
  have hcomparable : ComparableTrace (presented trace) trace :=
    comparableTrace_of subset_rfl fun before op after htrace ↦
      (Machine.along_iff.mp h before op after htrace).comparable
  exact ⟨run_fst trace, hcomparable.follows hS⟩

/-! ### Accepted operations -/

/-- The operation gives both sides what they accept: a bundle of both verifiers, a valid claim of
the registered grant, or a valid receipt that names the hash of the registered grant. -/
def Operation.Admissible (s : MemoryGrantState) : Operation → Prop
  | .register c p d g bundle => (Json.obj bundle).Distinct ∧
      typedBundle (.obj bundle) = some (chainBundle c p d g none) ∧
      (∃ report, Core.verifyTransaction (chainBundle c p d g none) = .ok report) ∧
      ∃ result, TypeScript.verifyTransaction (ofJson (.obj bundle)) = .ok result
  | .claim g request now => Registered s g ∧ validate g = .ok () ∧ request.validate = .ok () ∧
      ∀ n ∈ now, n ≤ maxSafeInteger
  | .recordReceipt g r receipt => Registered s g ∧ validate g = .ok () ∧
      r.grantHash = recordHash g ∧ WritesReceipt r receipt

/-- The operation reports the claim that the store holds of a grant, by a receipt of which a
trimmed text begins or ends with U+FEFF. -/
def Operation.ReportsMarked (s : MemoryGrantState) : Operation → Prop
  | .recordReceipt g r _ => Receivable s g r ∧ ¬NoMark r
  | _ => False

section Admissible

variable {s : MemoryGrantState} {t : ReferenceLifecycleTarget} {op : Operation}

/-- A bundle that both verifiers accept presents its chain. -/
theorem presents_of_accepted {c : TaskCommitment} {p : EffectProposal} {d : AuthorizationDecision}
    {g : ExecutionGrant} {bundle : List (String × Json)} (hdistinct : (Json.obj bundle).Distinct)
    (hread : typedBundle (.obj bundle) = some (chainBundle c p d g none))
    {result : TypeScript.VerifiedTransaction}
    (hresult : TypeScript.verifyTransaction (ofJson (.obj bundle)) = .ok result) :
    Presents c p d g none bundle := by
  obtain ⟨ms, b, hms, hwrites, hacc, hmark, -⟩ := (verifyTransaction_eq_ok hdistinct).mp hresult
  obtain rfl : bundle = ms := Json.obj.inj hms
  have hmembers : bundleMembers (.obj bundle) = some bundle := by
    cases hdistinct with
    | obj hkeys _ => exact structMembers_obj.mpr ⟨⟨hkeys, hwrites.names⟩, rfl⟩
  have hb := (readBundle_eq_some (acceptedBundle_iff.mp hacc)).mpr hwrites.spells
  rw [typedBundle, hmembers, Option.bind_some, hb, Option.some.injEq] at hread
  subst hread
  have hchain := accepted_none.mp hacc
  exact {
    distinct := hdistinct
    writes := hwrites
    unmarked := hmark
    commitment_valid := hchain.commitment_valid
    proposal_valid := hchain.proposal_valid
    decision_valid := hchain.decision_valid
    grant_valid := hchain.grant_valid
    receipt_valid := by rintro _ ⟨⟩ }

theorem Operation.Admissible.comparable (h : op.Admissible s) (hmark : ¬op.ReportsMarked s) :
    op.Comparable s := by
  cases op with
  | register c p d g bundle =>
      obtain ⟨hdistinct, hread, -, result, hresult⟩ := h
      exact presents_of_accepted hdistinct hread hresult
  | claim g request now => exact h
  | recordReceipt g r receipt =>
      obtain ⟨hgrant, hg, hhash, hreceipt⟩ := h
      exact ⟨hgrant, hg, hhash, hreceipt, fun hr ↦ by_contra fun hm ↦ hmark ⟨hr, hm⟩⟩

/-- The store takes the receipt, or knows another one, where the target throws. -/
theorem Operation.ReportsMarked.not_corresponds {S : Set (List UInt8)}
    (hmark : op.ReportsMarked s) (h : op.Admissible s) (hinv : MemoryGrantStore.Invariant S s)
    (hsim : Simulates s t) :
    ¬Corresponds SameKind SameHash (op.storeAnswer s) (op.targetAnswer t) := by
  cases op with
  | register c p d g bundle => exact hmark.elim
  | claim g request now => exact hmark.elim
  | recordReceipt g r receipt =>
      obtain ⟨hgrant, -, -, hreceipt⟩ := h
      obtain ⟨e', hthrown⟩ := recordReceipt_thrown hsim hreceipt hmark.1 hmark.2
      rw [storeAnswer, targetAnswer, hthrown]
      cases hstore : (MemoryGrantStore.recordReceipt r s).1 with
      | ok hash => rintro ⟨⟩
      | error e =>
          obtain rfl := recordReceipt_of_receivable hinv hmark.1 hgrant hstore
          rintro (- | hkind)
          cases hkind

end Admissible

/-- Every operation of the trace is admissible where it is reached. -/
def AdmissibleTrace (trace : List Operation) : Prop :=
  Machine.Along step (fun both op ↦ op.Admissible both.1) start trace

/-- No operation of the trace reports a claim by a receipt with a mark. -/
def ReportsPlainly (trace : List Operation) : Prop :=
  Machine.Along step (fun both op ↦ ¬op.ReportsMarked both.1) start trace

theorem AdmissibleTrace.comparable {S : Set (List UInt8)} {trace : List Operation}
    (h : AdmissibleTrace trace) (hplain : ReportsPlainly trace) (hsub : presented trace ⊆ S) :
    ComparableTrace S trace := by
  refine comparableTrace_of hsub fun before op after htrace ↦ ?_
  have hop := Machine.along_iff.mp h before op after htrace
  exact hop.comparable (Machine.along_iff.mp hplain before op after htrace)

/-- The first receipt with a mark is answered differently. -/
theorem AdmissibleTrace.reportsPlainly {S : Set (List UInt8)} (hS : CollisionFree S)
    {trace : List Operation} (h : AdmissibleTrace trace) (hsub : presented trace ⊆ S)
    (hanswers : ∀ e ∈ Machine.events step start trace,
      Corresponds SameKind SameHash (e.2.storeAnswer e.1.1) (e.2.targetAnswer e.1.2)) :
    ReportsPlainly trace := by
  induction trace using List.reverseRecOn with
  | nil => trivial
  | append_singleton trace op ih =>
      obtain ⟨hbefore, hop, -⟩ := Machine.along_append.mp h
      rw [Machine.events_concat] at hanswers
      have hsub' : presented trace ⊆ S := by
        rintro x ⟨op', hop', hx⟩
        exact hsub ⟨op', List.mem_append_left _ hop', hx⟩
      have hplain := ih hbefore hsub' fun e he ↦ hanswers e (List.mem_append_left _ he)
      have hcomparable : ComparableTrace S trace := AdmissibleTrace.comparable hbefore hplain hsub'
      obtain ⟨hinv, hsim⟩ := hcomparable.matched hS
      refine Machine.along_append.mpr ⟨hplain, fun hmark ↦ ?_, trivial⟩
      refine hmark.not_corresponds hop hinv hsim (hanswers (run trace, op) ?_)
      exact List.mem_append_right _ (List.mem_singleton_self _)

section OneGrant

variable {g : ExecutionGrant} {s : MemoryGrantState}

/-- Every stored grant is this one. -/
def OnlyGrant (g : ExecutionGrant) (s : MemoryGrantState) : Prop :=
  ∀ id stored, s.grants id = some stored → stored.grant = g

theorem OnlyGrant.step {op : Operation} (h : OnlyGrant g s) (hop : op.grant = g) :
    OnlyGrant g (MemoryGrantStore.step s op.call) := by
  intro id stored hst
  have hchange := MemoryGrantStore.change_of_step s op.call
  generalize MemoryGrantStore.step s op.call = s' at hchange hst
  generalize hcall : op.call = call at hchange
  cases hchange with
  | time t => exact h id stored hst
  | registered hchain hnew hdecision hproposal =>
      rcases MemoryGrantStore.insert_eq_some.mp hst with ⟨-, rfl⟩ | ⟨-, hst⟩
      · cases op with
        | register c p d g' bundle =>
            cases hcall
            exact hop
        | claim g' request now => cases hcall
        | recordReceipt g' r receipt => cases hcall
      · exact h id stored hst
  | claimed claim t hstored hnone =>
      rcases MemoryGrantStore.insert_eq_some.mp hst with ⟨-, rfl⟩ | ⟨-, hst⟩
      · have hgrant := h _ _ hstored
        exact hgrant
      · exact h id stored hst
  | received hid hstored hclaim hnone hfor =>
      rcases MemoryGrantStore.insert_eq_some.mp hst with ⟨-, rfl⟩ | ⟨-, hst⟩
      · have hgrant := h _ _ hstored
        exact hgrant
      · exact h id stored hst
  | appended hstored hreceipt hlen hdup hverify =>
      rcases MemoryGrantStore.insert_eq_some.mp hst with ⟨-, rfl⟩ | ⟨-, hst⟩
      · have hgrant := h _ _ hstored
        exact hgrant
      · exact h id stored hst

/-- A trace about one grant finds it registered, if it finds one. -/
theorem registered_of_single {trace : List Operation} (h : ∀ op ∈ trace, op.grant = g) :
    Registered (run trace).1 g := by
  have honly : OnlyGrant g (run trace).1 := by
    induction trace using List.reverseRecOn with
    | nil => rintro _ _ ⟨⟩
    | append_singleton trace op ih =>
        rw [run, Machine.run_concat]
        refine OnlyGrant.step (ih fun op' hop' ↦ h op' ?_) (h op ?_)
        · exact List.mem_append_left _ hop'
        · exact List.mem_append_right _ (List.mem_singleton_self op)
  exact fun stored hst ↦ honly _ stored hst

end OneGrant

end Traces

/-! ### The positive vector -/

section Positive

open Vectors

def positiveMembers : List (String × Json) := [
  ("commitment", recordDocument positiveCommitment),
  ("proposal", recordDocument positiveProposal),
  ("decision", recordDocument positiveDecision),
  ("grant", recordDocument positiveGrant),
  ("receipt", .null),
  ("reconciliations", .arr [])]

/-- The lifecycle of the vector: the grant is registered, claimed and receipted. -/
def positiveTrace : List Operation := [
  .register positiveCommitment positiveProposal positiveDecision positiveGrant positiveMembers,
  .claim positiveGrant Sqlite.positiveMemoryRequest (some 1760000004000),
  .recordReceipt positiveGrant positiveReceipt (Serialize.fields positiveReceipt)]

theorem presents_positive :
    Presents positiveCommitment positiveProposal positiveDecision positiveGrant none
      positiveMembers := by
  have hacc : Acceptable (chainBundle positiveCommitment positiveProposal positiveDecision
      positiveGrant none) := acceptedBundle_iff.mp (accepted_none.mpr positiveGrant_chain)
  obtain ⟨_, ⟨⟩, hwrites⟩ := documents_document (chainBundle positiveCommitment positiveProposal
    positiveDecision positiveGrant none)
  exact {
    distinct := distinct_document hacc
    writes := hwrites
    unmarked := by
      obtain ⟨hrecords, hgrant, -, -⟩ := noMark_bundle.mp noMark_positive
      refine noMark_bundle.mpr ⟨hrecords, hgrant, ?_, ?_⟩
      · rintro _ ⟨⟩
      · rintro _ ⟨⟩
    commitment_valid := positiveCommitment_valid
    proposal_valid := positiveProposal_valid
    decision_valid := positiveDecision_valid
    grant_valid := positiveGrant_valid
    receipt_valid := by rintro _ ⟨⟩ }

theorem admissible_register {s : MemoryGrantState} : Operation.Admissible s
    (.register positiveCommitment positiveProposal positiveDecision positiveGrant
      positiveMembers) := by
  have haccepted : AcceptedBundle (chainBundle positiveCommitment positiveProposal positiveDecision
      positiveGrant none) := accepted_none.mpr positiveGrant_chain
  have hshape : BundleShaped (.obj positiveMembers) := bundleShaped_document
    (chainBundle positiveCommitment positiveProposal positiveDecision positiveGrant none)
  have hread := (typedBundle_eq_some presents_positive.distinct hshape
    (acceptedBundle_iff.mp haccepted)).mpr ⟨_, rfl, presents_positive.writes⟩
  exact ⟨presents_positive.distinct, hread, ⟨_, Core.verifyTransaction_eq_ok.mpr ⟨haccepted, rfl⟩⟩,
    _, presents_positive.verify_eq_ok.mpr ⟨haccepted, presents_positive.unmarked, rfl⟩⟩

theorem presentsReceipt_positive :
    PresentsReceipt positiveReceipt (Serialize.fields positiveReceipt) where
  distinct := distinct_recordDocument positiveReceipt_valid
  writes := writes_fields positiveReceipt
  unmarked := (noMark_bundle.mp noMark_positive).2.2.1 positiveReceipt rfl
  receipt_valid := positiveReceipt_valid

theorem positiveTrace_grant {op : Operation} (h : op ∈ positiveTrace) :
    op.grant = positiveGrant := by
  simp only [positiveTrace, List.mem_cons, List.not_mem_nil, or_false] at h
  rcases h with rfl | rfl | rfl <;> rfl

theorem positiveTrace_presentable : PresentableTrace positiveTrace := by
  refine Machine.along_iff.mpr fun before op after heq ↦ ?_
  have hmem : op ∈ positiveTrace := heq ▸ List.mem_append_right _ List.mem_cons_self
  have hregistered : Registered (run before).1 positiveGrant := by
    refine registered_of_single fun op' hop' ↦ positiveTrace_grant ?_
    exact heq ▸ List.mem_append_left _ hop'
  simp only [positiveTrace, List.mem_cons, List.not_mem_nil, or_false] at hmem
  rcases hmem with rfl | rfl | rfl
  · exact presents_positive
  · refine ⟨hregistered, positiveGrant_valid, rfl, ?_⟩
    rintro _ ⟨⟩
    decide
  · exact ⟨hregistered, positiveGrant_valid, positiveReceipt_for.receipt_grant_hash,
      presentsReceipt_positive⟩

theorem presented_positiveTrace : presented positiveTrace ⊆ Sqlite.positivePreimages := by
  rintro p ⟨op, hop, hp⟩
  simp only [positiveTrace, List.mem_cons, List.not_mem_nil, or_false] at hop
  rcases hop with rfl | rfl | rfl
  · rcases hp with rfl | rfl | rfl | rfl <;> simp [Sqlite.positivePreimages]
  · rcases hp with rfl
    simp [Sqlite.positivePreimages]
  · rcases hp with rfl | rfl <;> simp [Sqlite.positivePreimages]

/-- The lifecycle of the published vector. -/
theorem target_follows_store_positive :
    (run positiveTrace).1 = MemoryGrantStore.run (positiveTrace.map Operation.call) ∧
      Follows positiveTrace :=
  target_follows_store (Sqlite.positive_collisionFree.mono presented_positiveTrace)
    positiveTrace_presentable

theorem positiveTrace_admissible : AdmissibleTrace positiveTrace := by
  obtain ⟨-, hclaim, ⟨hgrant, hg, hhash, hreceipt⟩, -⟩ := positiveTrace_presentable
  exact ⟨admissible_register, hclaim, ⟨hgrant, hg, hhash, hreceipt.toWritesReceipt⟩, trivial⟩

/-- The published receipt has no mark. -/
theorem positiveTrace_reportsPlainly : ReportsPlainly positiveTrace :=
  ⟨id, id, fun h ↦ h.2 presentsReceipt_positive.unmarked, trivial⟩

/-- The published receipt under another identifier. -/
def markedReceipt : EffectReceipt := { positiveReceipt with receiptId := markedPrincipal }

theorem markedReceipt_valid : validate markedReceipt = .ok () := by
  obtain ⟨hversion, -, hrest⟩ := EffectReceipt.validate_eq_ok.mp positiveReceipt_valid
  exact EffectReceipt.validate_eq_ok.mpr
    ⟨hversion, { markedPrincipal_trimmed with bounded := by decide +kernel }, hrest⟩

theorem markedReceipt_for : ReceiptFor positiveProposal positiveGrant markedReceipt :=
  { positiveReceipt_for with receipt_valid := markedReceipt_valid }

theorem markedReceipt_marked : ¬NoMark markedReceipt := fun h ↦
  markedPrincipal_marked (h markedPrincipal (.head _))

/-- The grant is registered and claimed. -/
def claimedTrace : List Operation := [
  .register positiveCommitment positiveProposal positiveDecision positiveGrant positiveMembers,
  .claim positiveGrant Sqlite.positiveMemoryRequest (some 1760000004000)]

/-- The report of that claim. -/
def markedReport : Operation :=
  .recordReceipt positiveGrant markedReceipt (Serialize.fields markedReceipt)

theorem positiveTrace_split : positiveTrace =
    claimedTrace ++
      [.recordReceipt positiveGrant positiveReceipt (Serialize.fields positiveReceipt)] := rfl

/-- What the store holds of the grant then. -/
def claimedGrant : Core.StoredGrant where
  hash := recordHash positiveGrant
  commitment := positiveCommitment
  proposal := positiveProposal
  decision := positiveDecision
  grant := positiveGrant
  claim := some ⟨"grant-01", recordHash positiveGrant, "attempt-01", 1760000004000⟩
  receipt := none
  reconciliations := []

theorem store_registered : MemoryGrantStore.step MemoryGrantStore.empty
    (.register positiveCommitment positiveProposal positiveDecision positiveGrant) =
      MemoryGrantStore.registered positiveCommitment positiveProposal positiveDecision
        positiveGrant MemoryGrantStore.empty := by
  have hlocked := MemoryGrantStore.registerLocked_eq_ok.mpr
    ⟨positiveGrant_chain, rfl, rfl, rfl, rfl, (rfl : MemoryGrantStore.registered positiveCommitment
      positiveProposal positiveDecision positiveGrant MemoryGrantStore.empty = _)⟩
  rw [MemoryGrantStore.step, MemoryGrantStore.register, hlocked]
  rfl

theorem claimable_positive : MemoryGrantStore.Claimable (MemoryGrantStore.newGrant
    positiveCommitment positiveProposal positiveDecision positiveGrant)
    Sqlite.positiveMemoryRequest 1760000004000 where
  audience := rfl
  policyEpoch := rfl
  configurationEpoch := rfl
  preState := rfl
  resourceClaim := rfl
  not_revoked := rfl
  started := by decide
  not_expired := by decide
  unclaimed := rfl

theorem claimedTrace_grants :
    (run claimedTrace).1.grants positiveGrant.grantId = some claimedGrant := by
  rw [run_fst, claimedTrace, MemoryGrantStore.run, List.map_cons, List.map_singleton,
    Machine.run_cons, Machine.run_cons, Machine.run_nil, Operation.call, store_registered,
    Operation.call, MemoryGrantStore.step]
  have horder : ∀ last ∈ MemoryGrantStore.empty.lastTrustedTimeMs, last ≤ 1760000004000 := by
    rintro _ ⟨⟩
  exact MemoryGrantStore.claim_registered positiveGrant_chain rfl (by decide) horder
    claimable_positive

theorem markedReport_reports : markedReport.ReportsMarked (run claimedTrace).1 :=
  ⟨⟨claimedGrant, _, claimedTrace_grants, rfl, rfl, rfl, markedReceipt_for⟩, markedReceipt_marked⟩

/-- The attempt of the vector, reported by the receipt with the mark. -/
def markedTrace : List Operation := claimedTrace ++ [markedReport]

theorem claimedTrace_comparable : ComparableTrace Sqlite.positivePreimages claimedTrace := by
  have h := positiveTrace_admissible.comparable positiveTrace_reportsPlainly presented_positiveTrace
  rw [positiveTrace_split] at h
  exact (Machine.along_append.mp h).1

theorem markedTrace_admissible : AdmissibleTrace markedTrace := by
  have h := positiveTrace_admissible
  rw [positiveTrace_split] at h
  obtain ⟨hclaimed, ⟨hgrant, hg, -⟩, -⟩ := Machine.along_append.mp h
  refine Machine.along_append.mpr ⟨hclaimed, ⟨hgrant, hg, markedReceipt_for.receipt_grant_hash, {
    distinct := distinct_recordDocument markedReceipt_valid
    writes := writes_fields markedReceipt
    receipt_valid := markedReceipt_valid }⟩, trivial⟩

theorem markedTrace_collisionFree : CollisionFree (presented markedTrace) := by
  refine (table.collisionFree_insert (by decide) (preimage markedReceipt)).mono ?_
  rintro p ⟨op, hop, hp⟩
  simp only [markedTrace, claimedTrace, markedReport, List.cons_append, List.nil_append,
    List.mem_cons, List.not_mem_nil, or_false] at hop
  rcases hop with rfl | rfl | rfl
  · rcases hp with rfl | rfl | rfl | rfl <;> exact .inr (by simp [table])
  · rcases hp with rfl
    exact .inr (by simp [table])
  · rcases hp with rfl | rfl
    · exact .inr (by simp [table])
    · exact .inl rfl

end Positive

end Etp.Conformance
