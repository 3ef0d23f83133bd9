import Etp.Core.Vectors

/-!
# What the batch verifier accepts

`verify_transaction` compares neighbours: each record with its parent, each
window with the one around it.  `Acceptable` is the condition it amounts to, in
global terms: sequence numbers are positions, observation times are ordered over
all pairs, only the last reconciliation may be terminal.

The second half is about heads.  Each record of an accepted bundle names the
hashes of its predecessors, so the hash of the last record determines every
record of the bundle, as long as SHA-256 does not collide on the records of the
two bundles compared.
-/

namespace Etp.Core

section Acceptance

variable [Sha256]

/-! ## Exact acceptance -/

/-- The condition for a bundle, over whole lists and for every lifecycle prefix. -/
structure Acceptable (b : TransactionBundle) : Prop where
  commitment_valid : validate b.commitment = .ok ()
  proposal_valid : validate b.proposal = .ok ()
  decision_valid : validate b.decision = .ok ()
  grant_valid : ∀ g ∈ b.grant, validate g = .ok ()
  receipt_valid : ∀ r ∈ b.receipt, validate r = .ok ()
  reconciliations_valid : ∀ x ∈ b.reconciliations, validate x = .ok ()
  -- Every record names the recomputed commitments of its predecessors.
  proposal_link : commitment b.commitment = .ok b.proposal.commitmentHash
  decision_link : commitment b.proposal = .ok b.decision.proposalHash
  grant_links : ∀ g ∈ b.grant,
    commitment b.proposal = .ok g.proposalHash ∧ commitment b.decision = .ok g.decisionHash
  receipt_links : ∀ r ∈ b.receipt, commitment b.proposal = .ok r.proposalHash ∧
    ∀ g ∈ b.grant, commitment g = .ok r.grantHash
  reconciliation_links : ∀ r ∈ b.receipt, ∀ x ∈ b.reconciliations,
    commitment r = .ok x.receiptHash
  -- The lifecycle has no gaps, and a grant needs an allowing decision.
  grant_present : b.receipt.isSome → b.grant.isSome
  receipt_present : b.reconciliations ≠ [] → b.receipt.isSome
  allowed : b.grant.isSome → b.decision.outcome = .allow
  -- The windows are nested, and the claim lies in the grant's window.
  created_le : b.commitment.createdAtMs ≤ b.proposal.createdAtMs
  decided_ge : b.proposal.createdAtMs ≤ b.decision.decidedAtMs
  not_before_ge : ∀ g ∈ b.grant, b.decision.decidedAtMs ≤ g.notBeforeMs
  claimed : ∀ g ∈ b.grant, ∀ r ∈ b.receipt,
    g.notBeforeMs ≤ r.claimedAtMs ∧ r.claimedAtMs < g.expiresAtMs
  grant_expires_le : ∀ g ∈ b.grant, g.expiresAtMs ≤ b.decision.expiresAtMs
  decision_expires_le : b.decision.expiresAtMs ≤ b.proposal.expiresAtMs
  proposal_expires_le : b.proposal.expiresAtMs ≤ b.commitment.expiresAtMs
  -- The reconciliation history.
  limit : b.reconciliations.length ≤ maxReconciliationRecords
  unknown : b.reconciliations ≠ [] → ∀ r ∈ b.receipt, r.outcome = .unknown
  sequence : ∀ i (h : i < b.reconciliations.length), b.reconciliations[i].sequence = i + 1
  first_parent : ∀ x ∈ b.reconciliations.head?, x.parentReconciliationHash = none
  parent : ∀ i (h : i + 1 < b.reconciliations.length), ∃ d,
    commitment b.reconciliations[i] = .ok d ∧
      b.reconciliations[i + 1].parentReconciliationHash = some d
  observed_ge : ∀ r ∈ b.receipt, ∀ x ∈ b.reconciliations, r.completedAtMs ≤ x.observedAtMs
  ordered : b.reconciliations.Pairwise fun x y ↦ x.observedAtMs ≤ y.observedAtMs
  distinct : (b.reconciliations.map ReconciliationRecord.reconciliationId).Nodup
  terminal_last : ∀ i (h : i + 1 < b.reconciliations.length),
    b.reconciliations[i].outcome.isTerminal = false

/-- Linked records have their positions as sequence numbers. -/
theorem sequence_eq_of_linked {rs : List ReconciliationRecord} (h : Chained ParentLink none rs)
    (i : Nat) (hi : i < rs.length) : rs[i].sequence = i + 1 := by
  obtain ⟨h₀, hs⟩ := Chained.iff_getElem.mp h
  induction i with
  | zero => exact (h₀ rs[0] (by simp [List.head?_eq_getElem?, hi])).1
  | succ i ih =>
      have := (hs i hi).2.1
      rw [this, ih (by omega)]

namespace AcceptedBundle

variable {b : TransactionBundle}

/-- All records of the list belong to the receipt, even when the list is empty. -/
theorem history_of_receipt (h : AcceptedBundle b) {r : EffectReceipt} (hr : r ∈ b.receipt) :
    History r b.reconciliations := by
  by_cases hne : b.reconciliations = []
  · rw [hne]
    exact history_nil r
  · obtain ⟨r', hr', hh⟩ := h.history hne
    rwa [Option.mem_unique hr hr']

theorem linked (h : AcceptedBundle b) : Chained ParentLink none b.reconciliations := by
  by_cases hne : b.reconciliations = []
  · rw [hne]
    trivial
  · obtain ⟨r, -, hh⟩ := h.history hne
    exact hh.linked

theorem exists_receipt (h : AcceptedBundle b) {x : ReconciliationRecord}
    (hx : x ∈ b.reconciliations) : ∃ r ∈ b.receipt, ReconciliationFor r x := by
  obtain ⟨r, hr, hh⟩ := h.history (List.ne_nil_of_mem hx)
  exact ⟨r, hr, hh.each x hx⟩

theorem receiptFor (h : AcceptedBundle b) {g : ExecutionGrant} {r : EffectReceipt}
    (hg : g ∈ b.grant) (hr : r ∈ b.receipt) : ReceiptFor b.proposal g r := by
  obtain ⟨g', hg', hf⟩ := h.receipt r hr
  rwa [Option.mem_unique hg hg']

theorem acceptable (h : AcceptedBundle b) : Acceptable b where
  commitment_valid := h.decision.commitment_valid
  proposal_valid := h.decision.proposal_valid
  decision_valid := h.decision.decision_valid
  grant_valid g hg := (h.grant g hg).grant_valid
  receipt_valid r hr := by
    obtain ⟨g, -, hf⟩ := h.receipt r hr
    exact hf.receipt_valid
  reconciliations_valid x hx := by
    obtain ⟨r, -, hf⟩ := h.exists_receipt hx
    exact hf.record_valid
  proposal_link := commitment_eq_ok.mpr ⟨h.decision.commitment_valid, h.decision.commitment_hash⟩
  decision_link := commitment_eq_ok.mpr ⟨h.decision.proposal_valid, h.decision.proposal_hash⟩
  grant_links g hg :=
    ⟨commitment_eq_ok.mpr ⟨h.decision.proposal_valid, (h.grant g hg).grant_proposal_hash⟩,
      commitment_eq_ok.mpr ⟨h.decision.decision_valid, (h.grant g hg).grant_decision_hash⟩⟩
  receipt_links r hr := by
    obtain ⟨g, hg, hf⟩ := h.receipt r hr
    refine ⟨commitment_eq_ok.mpr ⟨h.decision.proposal_valid, hf.receipt_proposal_hash⟩,
      fun g' hg' ↦ ?_⟩
    obtain rfl := Option.mem_unique hg hg'
    exact commitment_eq_ok.mpr ⟨(h.grant g hg).grant_valid, hf.receipt_grant_hash⟩
  reconciliation_links r hr x hx := by
    obtain ⟨g, -, hf⟩ := h.receipt r hr
    exact commitment_eq_ok.mpr
      ⟨hf.receipt_valid, ((h.history_of_receipt hr).each x hx).receipt_hash⟩
  grant_present hr := by
    obtain ⟨r, hr⟩ := Option.isSome_iff_exists.mp hr
    obtain ⟨g, hg, -⟩ := h.receipt r hr
    exact Option.isSome_iff_exists.mpr ⟨g, hg⟩
  receipt_present hne := by
    obtain ⟨r, hr, -⟩ := h.history hne
    exact Option.isSome_iff_exists.mpr ⟨r, hr⟩
  allowed hg := by
    obtain ⟨g, hg⟩ := Option.isSome_iff_exists.mp hg
    exact (h.grant g hg).allowed
  created_le := h.decision.created_le
  decided_ge := h.decision.decided_ge
  not_before_ge g hg := (h.grant g hg).not_before_ge
  claimed g hg r hr := ⟨(h.receiptFor hg hr).claimed_ge, (h.receiptFor hg hr).claimed_lt⟩
  grant_expires_le g hg := (h.grant g hg).grant_expires_le
  decision_expires_le := h.decision.decision_expires_le
  proposal_expires_le := h.decision.expires_le
  limit := h.limit
  unknown hne r hr := by
    obtain ⟨x, hx⟩ := List.exists_mem_of_ne_nil _ hne
    exact ((h.history_of_receipt hr).each x hx).unknown
  sequence i hi := sequence_eq_of_linked h.linked i hi
  first_parent x hx := ((Chained.iff_getElem.mp h.linked).1 x hx).2
  parent i hi := by
    have hlt : i < b.reconciliations.length := by omega
    obtain ⟨r, -, hf⟩ := h.exists_receipt (List.getElem_mem hlt)
    exact ⟨_, commitment_of_valid hf.record_valid,
      ((Chained.iff_getElem.mp h.linked).2 i hi).2.2.1⟩
  observed_ge r hr x hx := ((h.history_of_receipt hr).each x hx).observed_ge
  ordered := h.linked.pairwise le_trans fun _ _ hl ↦ hl.2.2.2
  distinct := by
    by_cases hne : b.reconciliations = []
    · rw [hne]
      exact List.nodup_nil
    · obtain ⟨r, -, hh⟩ := h.history hne
      exact hh.distinct
  terminal_last i hi := ((Chained.iff_getElem.mp h.linked).2 i hi).1

end AcceptedBundle

namespace Acceptable

variable {b : TransactionBundle}

theorem decisionChain (h : Acceptable b) :
    DecisionChain b.commitment b.proposal b.decision where
  commitment_valid := h.commitment_valid
  proposal_valid := h.proposal_valid
  decision_valid := h.decision_valid
  commitment_hash := (commitment_eq_ok.mp h.proposal_link).2
  proposal_hash := (commitment_eq_ok.mp h.decision_link).2
  created_le := h.created_le
  expires_le := h.proposal_expires_le
  decided_ge := h.decided_ge
  decision_expires_le := h.decision_expires_le

/-- Neighbouring records satisfy what the loop checks of them. -/
theorem linked (h : Acceptable b) : Chained ParentLink none b.reconciliations := by
  refine Chained.iff_getElem.mpr ⟨fun x hx ↦ ⟨?_, h.first_parent x hx⟩, fun i hi ↦ ?_⟩
  · obtain ⟨hl, rfl⟩ := List.getElem?_eq_some_iff.mp (List.head?_eq_getElem? ▸ hx)
    exact h.sequence 0 hl
  · obtain ⟨d, hd, hp⟩ := h.parent i hi
    refine ⟨h.terminal_last i hi, ?_, ?_, ?_⟩
    · rw [h.sequence (i + 1) hi, h.sequence i (by omega)]
    · rw [hp, (commitment_eq_ok.mp hd).2]
    · exact List.pairwise_iff_getElem.mp h.ordered i (i + 1) (by omega) hi (by omega)

theorem accepted (h : Acceptable b) : AcceptedBundle b where
  limit := h.limit
  decision := h.decisionChain
  grant g hg :=
    { h.decisionChain with
      grant_valid := h.grant_valid g hg
      allowed := h.allowed (Option.isSome_iff_exists.mpr ⟨g, hg⟩)
      grant_proposal_hash := (commitment_eq_ok.mp (h.grant_links g hg).1).2
      grant_decision_hash := (commitment_eq_ok.mp (h.grant_links g hg).2).2
      not_before_ge := h.not_before_ge g hg
      grant_expires_le := h.grant_expires_le g hg }
  receipt r hr := by
    obtain ⟨g, hg⟩ := Option.isSome_iff_exists.mp
      (h.grant_present (Option.isSome_iff_exists.mpr ⟨r, hr⟩))
    exact ⟨g, hg, h.receipt_valid r hr, (commitment_eq_ok.mp (h.receipt_links r hr).1).2,
      (commitment_eq_ok.mp ((h.receipt_links r hr).2 g hg)).2, (h.claimed g hg r hr).1,
      (h.claimed g hg r hr).2⟩
  history hne := by
    obtain ⟨r, hr⟩ := Option.isSome_iff_exists.mp (h.receipt_present hne)
    refine ⟨r, hr, fun x hx ↦ ?_, h.linked, h.distinct⟩
    exact ⟨h.reconciliations_valid x hx, h.unknown hne r hr,
      (commitment_eq_ok.mp (h.reconciliation_links r hr x hx)).2, h.observed_ge r hr x hx⟩

end Acceptable

theorem acceptedBundle_iff {b : TransactionBundle} : AcceptedBundle b ↔ Acceptable b :=
  ⟨AcceptedBundle.acceptable, Acceptable.accepted⟩

/-- **Exact acceptance.**  `verify_transaction` returns `Ok` on a bundle exactly when the
bundle is `Acceptable`. -/
theorem verifyTransaction_ok_iff (b : TransactionBundle) :
    (∃ v, verifyTransaction b = .ok v) ↔ Acceptable b := by
  rw [← acceptedBundle_iff]
  constructor
  · rintro ⟨v, hv⟩
    exact (verifyTransaction_eq_ok.mp hv).1
  · exact fun h ↦ ⟨_, verifyTransaction_eq_ok.mpr ⟨h, rfl⟩⟩

/-! ## The head determines the history -/

/-- The byte strings that are hashed when a bundle is verified. -/
def TransactionBundle.preimages (b : TransactionBundle) : Set (List UInt8) :=
  {preimage b.commitment, preimage b.proposal, preimage b.decision} ∪
    {x | ∃ g ∈ b.grant, x = preimage g} ∪ {x | ∃ r ∈ b.receipt, x = preimage r} ∪
    {x | ∃ r ∈ b.reconciliations, x = preimage r}

omit [Sha256] in
theorem TransactionBundle.mem_preimages {b : TransactionBundle} {x : List UInt8} :
    x ∈ b.preimages ↔ x = preimage b.commitment ∨ x = preimage b.proposal ∨
      x = preimage b.decision ∨ (∃ g ∈ b.grant, x = preimage g) ∨
      (∃ r ∈ b.receipt, x = preimage r) ∨ ∃ r ∈ b.reconciliations, x = preimage r := by
  simp only [preimages, Set.mem_union, Set.mem_insert_iff, Set.mem_singleton_iff,
    Set.mem_ofPred_eq, or_assoc]

/-- The last commitments of two reports are equal: both of a reconciliation, or both of a
receipt without reconciliations, or both of a grant without a receipt, or both of a decision
without a grant. -/
inductive SameHead (v w : VerifiedTransaction) : Prop
  | reconciliation {h : Digest32} (hv : v.reconciliationHashes.getLast? = some h)
      (hw : w.reconciliationHashes.getLast? = some h)
  | receipt {h : Digest32} (hv : v.receiptHash = some h) (hw : w.receiptHash = some h)
      (hv' : v.reconciliationHashes = []) (hw' : w.reconciliationHashes = [])
  | grant {h : Digest32} (hv : v.grantHash = some h) (hw : w.grantHash = some h)
      (hv' : v.receiptHash = none) (hw' : w.receiptHash = none)
  | decision (h : v.decisionHash = w.decisionHash) (hv : v.grantHash = none)
      (hw : w.grantHash = none)

/-- The last records of two bundles are equal. -/
inductive SameHeadRecord (a b : TransactionBundle) : Prop
  | reconciliation {x : ReconciliationRecord} (ha : a.reconciliations.getLast? = some x)
      (hb : b.reconciliations.getLast? = some x)
  | receipt {r : EffectReceipt} (ha : a.receipt = some r) (hb : b.receipt = some r)
      (ha' : a.reconciliations = []) (hb' : b.reconciliations = [])
  | grant {g : ExecutionGrant} (ha : a.grant = some g) (hb : b.grant = some g)
      (ha' : a.receipt = none) (hb' : b.receipt = none)
  | decision (h : a.decision = b.decision) (ha : a.grant = none) (hb : b.grant = none)

theorem SameHeadRecord.sameHead {a b : TransactionBundle} (h : SameHeadRecord a b) :
    SameHead (report a) (report b) := by
  cases h with
  | reconciliation ha hb =>
      exact .reconciliation (h := recordHash _) (by simp [report, ha]; rfl)
        (by simp [report, hb])
  | receipt ha hb ha' hb' =>
      exact .receipt (h := recordHash _) (by simp [report, ha]; rfl) (by simp [report, hb])
        (by simp [report, ha']) (by simp [report, hb'])
  | grant ha hb ha' hb' =>
      exact .grant (h := recordHash _) (by simp [report, ha]; rfl) (by simp [report, hb])
        (by simp [report, ha']) (by simp [report, hb'])
  | decision h ha hb =>
      exact .decision (by simp [report, h]) (by simp [report, ha]) (by simp [report, hb])

section Determined

variable {a b : TransactionBundle} {S : Set (List UInt8)}

/-- Equal decisions have equal predecessors. -/
theorem DecisionChain.eq (hS : CollisionFree S) (ha : a.preimages ⊆ S) (hb : b.preimages ⊆ S)
    (hca : DecisionChain a.commitment a.proposal a.decision)
    (hcb : DecisionChain b.commitment b.proposal b.decision)
    (h : recordHash a.decision = recordHash b.decision) :
    a.commitment = b.commitment ∧ a.proposal = b.proposal ∧ a.decision = b.decision := by
  have hd : a.decision = b.decision :=
    eq_of_recordHash_eq hS (ha (by simp [TransactionBundle.preimages]))
      (hb (by simp [TransactionBundle.preimages])) hca.decision_valid hcb.decision_valid h
  have hp : a.proposal = b.proposal :=
    eq_of_recordHash_eq hS (ha (by simp [TransactionBundle.preimages]))
      (hb (by simp [TransactionBundle.preimages])) hca.proposal_valid hcb.proposal_valid
      (by rw [← hca.proposal_hash, ← hcb.proposal_hash, hd])
  have hc : a.commitment = b.commitment :=
    eq_of_recordHash_eq hS (ha (by simp [TransactionBundle.preimages]))
      (hb (by simp [TransactionBundle.preimages])) hca.commitment_valid hcb.commitment_valid
      (by rw [← hca.commitment_hash, ← hcb.commitment_hash, hp])
  exact ⟨hc, hp, hd⟩

/-- Equal grant hashes make equal grants with equal predecessors. -/
theorem AcceptedBundle.eq_of_grant (hS : CollisionFree S) (ha : a.preimages ⊆ S)
    (hb : b.preimages ⊆ S) (haa : AcceptedBundle a) (hab : AcceptedBundle b)
    {g g' : ExecutionGrant} (hg : g ∈ a.grant) (hg' : g' ∈ b.grant)
    (h : recordHash g = recordHash g') :
    g = g' ∧ a.commitment = b.commitment ∧ a.proposal = b.proposal ∧ a.decision = b.decision := by
  have hga := haa.grant g hg
  have hgb := hab.grant g' hg'
  have heq : g = g' :=
    eq_of_recordHash_eq hS (ha (.inl (.inl (.inr ⟨g, hg, rfl⟩))))
      (hb (.inl (.inl (.inr ⟨g', hg', rfl⟩)))) hga.grant_valid hgb.grant_valid h
  refine ⟨heq, DecisionChain.eq hS ha hb haa.decision hab.decision ?_⟩
  rw [← hga.grant_decision_hash, ← hgb.grant_decision_hash, heq]

/-- Equal receipt hashes make equal receipts with equal predecessors. -/
theorem AcceptedBundle.eq_of_receipt (hS : CollisionFree S) (ha : a.preimages ⊆ S)
    (hb : b.preimages ⊆ S) (haa : AcceptedBundle a) (hab : AcceptedBundle b)
    {r r' : EffectReceipt} (hr : r ∈ a.receipt) (hr' : r' ∈ b.receipt)
    (h : recordHash r = recordHash r') :
    r = r' ∧ a.grant = b.grant ∧ a.commitment = b.commitment ∧ a.proposal = b.proposal ∧
      a.decision = b.decision := by
  obtain ⟨g, hg, hra⟩ := haa.receipt r hr
  obtain ⟨g', hg', hrb⟩ := hab.receipt r' hr'
  have heq : r = r' :=
    eq_of_recordHash_eq hS (ha (.inl (.inr ⟨r, hr, rfl⟩))) (hb (.inl (.inr ⟨r', hr', rfl⟩)))
      hra.receipt_valid hrb.receipt_valid h
  have hgrant := eq_of_grant hS ha hb haa hab hg hg'
    (by rw [← hra.receipt_grant_hash, ← hrb.receipt_grant_hash, heq])
  refine ⟨heq, ?_, hgrant.2⟩
  rw [Option.mem_def.mp hg, Option.mem_def.mp hg', hgrant.1]

/-- Equal last reconciliations make equal histories with equal receipts. -/
theorem AcceptedBundle.eq_of_reconciliation (hS : CollisionFree S) (ha : a.preimages ⊆ S)
    (hb : b.preimages ⊆ S) (haa : AcceptedBundle a) (hab : AcceptedBundle b)
    {x y : ReconciliationRecord} (hx : a.reconciliations.getLast? = some x)
    (hy : b.reconciliations.getLast? = some y) (h : recordHash x = recordHash y) : a = b := by
  let T : Set ReconciliationRecord := {z | validate z = .ok () ∧ preimage z ∈ S}
  have hT : Set.InjOn recordHash T := fun z hz w hw heq ↦
    eq_of_recordHash_eq hS hz.2 hw.2 hz.1 hw.1 heq
  have hmem : ∀ {c : TransactionBundle}, AcceptedBundle c → c.preimages ⊆ S →
      ∀ z ∈ c.reconciliations, z ∈ T := by
    intro c hc hsub z hz
    obtain ⟨r, -, hf⟩ := hc.exists_receipt hz
    exact ⟨hf.record_valid, hsub (.inr ⟨z, hz, rfl⟩)⟩
  have hrecs : a.reconciliations = b.reconciliations :=
    Chained.eq_of_last hT (fun _ _ hl ↦ hl.hash) haa.linked hab.linked (hmem haa ha) (hmem hab hb)
      (by simp [hx, hy, h])
  have hxa : x ∈ a.reconciliations := List.mem_of_getLast? hx
  obtain ⟨r, hr, hfa⟩ := haa.exists_receipt hxa
  obtain ⟨r', hr', hfb⟩ := hab.exists_receipt (hrecs ▸ hxa)
  obtain ⟨hreq, hg, hc, hp, hd⟩ := eq_of_receipt hS ha hb haa hab hr hr'
    (by rw [← hfa.receipt_hash, hfb.receipt_hash])
  cases a; cases b
  simp_all

/-- Accepted bundles with the same head are equal. -/
theorem AcceptedBundle.eq_of_sameHead (hS : CollisionFree S) (ha : a.preimages ⊆ S)
    (hb : b.preimages ⊆ S) (haa : AcceptedBundle a) (hab : AcceptedBundle b)
    (h : SameHead (report a) (report b)) : a = b := by
  cases h with
  | reconciliation hv hw =>
      simp only [report, List.getLast?_map, Option.map_eq_some_iff] at hv hw
      obtain ⟨x, hx, rfl⟩ := hv
      obtain ⟨y, hy, hxy⟩ := hw
      exact eq_of_reconciliation hS ha hb haa hab hx hy hxy.symm
  | receipt hv hw hv' hw' =>
      simp only [report, Option.map_eq_some_iff, List.map_eq_nil_iff] at hv hw hv' hw'
      obtain ⟨r, hr, rfl⟩ := hv
      obtain ⟨r', hr', heq⟩ := hw
      obtain ⟨hreq, hg, hc, hp, hd⟩ := eq_of_receipt hS ha hb haa hab hr hr' heq.symm
      cases a; cases b
      simp_all
  | grant hv hw hv' hw' =>
      simp only [report, Option.map_eq_some_iff, Option.map_eq_none_iff] at hv hw hv' hw'
      obtain ⟨g, hg, rfl⟩ := hv
      obtain ⟨g', hg', heq⟩ := hw
      obtain ⟨hgeq, hc, hp, hd⟩ := eq_of_grant hS ha hb haa hab hg hg' heq.symm
      have hna : a.reconciliations = [] := by
        by_contra hne
        obtain ⟨r, hr, -⟩ := haa.history hne
        simp [hv'] at hr
      have hnb : b.reconciliations = [] := by
        by_contra hne
        obtain ⟨r, hr, -⟩ := hab.history hne
        simp [hw'] at hr
      cases a; cases b
      simp_all
  | decision h hv hw =>
      simp only [report, Option.map_eq_none_iff] at h hv hw
      obtain ⟨hc, hp, hd⟩ := DecisionChain.eq hS ha hb haa.decision hab.decision h
      have empty : ∀ {c : TransactionBundle}, AcceptedBundle c → c.grant = none →
          c.receipt = none ∧ c.reconciliations = [] := by
        intro c hc hg
        have hr : c.receipt = none := Option.eq_none_iff_forall_not_mem.mpr fun r hr ↦ by
          obtain ⟨g, hg', -⟩ := hc.receipt r hr
          simp [hg] at hg'
        refine ⟨hr, ?_⟩
        by_contra hne
        obtain ⟨r, hr', -⟩ := hc.history hne
        simp [hr] at hr'
      have hea := empty haa hv
      have heb := empty hab hw
      cases a; cases b
      simp_all

end Determined

/-- **The head hash determines the whole history.**  Two accepted bundles with the same last
commitment are equal; hence a bundle that differs from an accepted one but keeps its last
record is rejected. -/
theorem head_determines_history {a b : TransactionBundle} {v : VerifiedTransaction}
    (hfree : CollisionFree (a.preimages ∪ b.preimages)) (ha : verifyTransaction a = .ok v) :
    (∀ w, verifyTransaction b = .ok w → SameHead v w → a = b) ∧
      (b ≠ a → SameHeadRecord a b → ∃ e, verifyTransaction b = .error e) := by
  obtain ⟨haa, rfl⟩ := verifyTransaction_eq_ok.mp ha
  have heq : ∀ w, verifyTransaction b = .ok w → SameHead (report a) w → a = b := by
    intro w hw hh
    obtain ⟨hab, rfl⟩ := verifyTransaction_eq_ok.mp hw
    exact haa.eq_of_sameHead hfree Set.subset_union_left Set.subset_union_right hab hh
  refine ⟨heq, fun hne hrec ↦ ?_⟩
  cases hv : verifyTransaction b with
  | error e => exact ⟨e, rfl⟩
  | ok w =>
      obtain ⟨-, rfl⟩ := verifyTransaction_eq_ok.mp hv
      exact absurd (heq _ hv hrec.sameHead).symm hne

end Acceptance

open Vectors in
/-- The positive chain with another proposal under the same last record. -/
theorem head_determines_history_substituted :
    ∃ e, verifyTransaction { positiveBundle with proposal := substitutedProposal } = .error e := by
  refine (head_determines_history (v := report positiveBundle) ?_
    (verifyTransaction_eq_ok.mpr ⟨positiveBundle_accepted, rfl⟩)).2 (by decide)
    (.reconciliation rfl rfl)
  refine table.collisionFree.mono fun p hp ↦ ?_
  simp only [TransactionBundle.preimages, positiveBundle, Option.mem_def, Option.some.injEq,
    exists_eq_left', List.mem_cons, List.not_mem_nil, or_false, exists_eq_or_imp, exists_eq_left,
    Set.mem_union, Set.mem_insert_iff, Set.mem_singleton_iff, Set.mem_ofPred_eq] at hp
  rcases hp with (((((rfl | rfl | rfl) | rfl) | rfl) | rfl | rfl) |
    ((((rfl | rfl | rfl) | rfl) | rfl) | rfl | rfl)) <;> simp [table]

end Etp.Core
