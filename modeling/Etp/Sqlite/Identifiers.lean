import Etp.Sqlite.Attempt

/-!
# Which identifiers the store keeps apart

The keys of the schema are `grant_id`, `attempt_id`, `receipt_id` and
`reconciliation_id`, and hashes.  A unique hash says that no record is stored
twice; it says nothing about an identifier inside the record.  So the store takes
two proposals under one `proposal_id`, and likewise decisions, commitments and
grants that share a nonce (`shared_identifiers`).

What is left to the callers is exactly that: when every chain that is presented
uses the identifiers and the nonces of the stored ones for the same records only,
all identifiers are unique (`identifiers_unique`).
-/

namespace Etp.Sqlite

open Etp.Core SqliteEffectStore

section Unique

variable [Sha256] {t : Tables}

/-- The two chains use an identifier, or a nonce, for the same record only. -/
structure ShareRecords (x y : StoredChain) : Prop where
  commitment : x.commitment.commitmentId = y.commitment.commitmentId → x.commitment = y.commitment
  proposal : x.proposal.proposalId = y.proposal.proposalId → x.proposal = y.proposal
  decision : x.decision.decisionId = y.decision.decisionId → x.decision = y.decision
  grant : x.grant.grantId = y.grant.grantId → x.grant = y.grant
  nonce : x.grant.nonce = y.grant.nonce → x.grant = y.grant

/-- Identifiers are unique within their record type. -/
structure IdentifiersUnique (db : Db) : Prop where
  chains : ∀ row ∈ db.authorizationChains, ∀ row' ∈ db.authorizationChains, ∀ x y,
    decodeChain row = .ok x → decodeChain row' = .ok y → ShareRecords x y
  attempts : (db.claims.map ClaimRow.attemptId).Nodup
  receipts : (db.receipts.map ReceiptRow.receiptId).Nodup
  receipt_id : ∀ row ∈ db.receipts, ∀ r, decodeReceipt row = .ok r → r.receiptId = row.receiptId
  reconciliations : (db.reconciliations.map ReconciliationRow.reconciliationId).Nodup
  reconciliation_id : ∀ row ∈ db.reconciliations, ∀ r, decodeReconciliation row = .ok r →
    r.reconciliationId = row.reconciliationId

/-- The chain that is presented for registration uses the identifiers of the stored records,
and the nonces of the stored grants, for no other record. -/
def PresentsFresh (db : Db) : Call → Prop
  | .registerChain c p d g => ∀ row ∈ db.authorizationChains, ∀ x, decodeChain row = .ok x →
      (x.commitment.commitmentId = c.commitmentId → x.commitment = c) ∧
        (x.proposal.proposalId = p.proposalId → x.proposal = p) ∧
          (x.decision.decisionId = d.decisionId → x.decision = d) ∧
            (x.grant.nonce = g.nonce → x.grant = g)
  | _ => True

/-! ## The tables -/

/-- The part of the uniqueness that no key of the schema enforces. -/
def ChainsShare (t : Tables) : Prop :=
  ∀ x ∈ t.chains, ∀ y ∈ t.chains, ShareRecords x.stored y.stored

omit [Sha256] in
theorem ShareRecords.refl (x : StoredChain) : ShareRecords x x :=
  ⟨fun _ ↦ rfl, fun _ ↦ rfl, fun _ ↦ rfl, fun _ ↦ rfl, fun _ ↦ rfl⟩

omit [Sha256] in
theorem ShareRecords.symm {x y : StoredChain} (h : ShareRecords x y) : ShareRecords y x where
  commitment he := (h.commitment he.symm).symm
  proposal he := (h.proposal he.symm).symm
  decision he := (h.decision he.symm).symm
  grant he := (h.grant he.symm).symm
  nonce he := (h.nonce he.symm).symm

theorem ChainsShare.addChain {x : RegisteredChain} (h : ChainsShare t) (hfresh : t.Fresh x)
    (hp : PresentsFresh t.encode (.registerChain x.commitment x.proposal x.decision x.grant)) :
    ChainsShare (t.addChain x) := by
  have hnew : ∀ y ∈ t.chains, ShareRecords y.stored x.stored := by
    intro y hy
    obtain ⟨hc, hpr, hd, hn⟩ :=
      hp y.row (List.mem_map.mpr ⟨y, hy, rfl⟩) y.stored y.decodeChain_row
    exact ⟨hc, hpr, hd, fun hid ↦ absurd hid (hfresh.id y hy), hn⟩
  intro y hy z hz
  rcases List.mem_append.mp hy with hy | hy <;> rcases List.mem_append.mp hz with hz | hz
  · exact h y hy z hz
  · rw [List.mem_singleton.mp hz]
    exact hnew y hy
  · rw [List.mem_singleton.mp hy]
    exact (hnew z hz).symm
  · rw [List.mem_singleton.mp hy, List.mem_singleton.mp hz]
    exact .refl _

theorem ChainsShare.change {call : Call} {t' : Tables} (h : ChainsShare t) (hc : Change t call t')
    (hp : PresentsFresh t.encode call) : ChainsShare t' := by
  cases hc with
  | registered hfresh => exact h.addChain hfresh hp
  | _ => exact h

theorem WellFormed.identifiersUnique (h : WellFormed t) (hs : ChainsShare t) :
    IdentifiersUnique t.encode where
  chains := by
    intro row hrow row' hrow' x y hx hy
    obtain ⟨x', hx', rfl⟩ := List.mem_map.mp hrow
    obtain ⟨y', hy', rfl⟩ := List.mem_map.mp hrow'
    rw [x'.decodeChain_row] at hx
    rw [y'.decodeChain_row] at hy
    cases hx
    cases hy
    exact hs x' hx' y' hy'
  attempts := by
    rw [Tables.encode, List.map_map]
    exact h.attempts
  receipts := by
    rw [Tables.encode, List.map_map]
    exact h.receipt_ids
  receipt_id := by
    intro row hrow r hr
    obtain ⟨r', -, rfl⟩ := List.mem_map.mp hrow
    rw [decodeReceipt_row r'.2] at hr
    cases hr
    rfl
  reconciliations := by
    rw [Tables.encode, List.map_map]
    exact h.record_ids
  reconciliation_id := by
    intro row hrow r hr
    obtain ⟨r', -, rfl⟩ := List.mem_map.mp hrow
    rw [decodeReconciliation_row r'.2] at hr
    cases hr
    rfl

/-- **When identifiers are unique.**  In a run in which every chain is presented with
identifiers, and a nonce, that the stored chains use for the same records only, identifiers are
unique within their record type in every database that is reached. -/
theorem identifiers_unique (calls : List Call)
    (h : Machine.Along step PresentsFresh .empty calls) (n : ℕ) :
    IdentifiersUnique (run (calls.take n)) := by
  have hpre : Machine.Along step PresentsFresh .empty (calls.take n) := by
    rw [← List.take_append_drop n calls, Machine.along_append] at h
    exact h.1
  have hinv : ∃ t, WellFormed t ∧ ChainsShare t ∧ run (calls.take n) = t.encode := by
    refine Machine.Along.run_invariant (P := fun db ↦ ∃ t, WellFormed t ∧ ChainsShare t ∧
      db = t.encode) ?_ hpre ⟨.empty, .empty, by rintro _ ⟨⟩, rfl⟩
    rintro _ call hp ⟨t, hw, hs, rfl⟩
    obtain ⟨t', hchange, hstep⟩ := exists_change hw call
    exact ⟨t', hw.change hchange, hs.change hchange hp, hstep⟩
  obtain ⟨t, hw, hs, hrun⟩ := hinv
  rw [hrun]
  exact hw.identifiersUnique hs

theorem run_registered {x y : RegisteredChain} (hx : Tables.empty.Fresh x)
    (hy : (Tables.empty.addChain x).Fresh y) :
    run [.registerChain x.commitment x.proposal x.decision x.grant,
        .registerChain y.commitment y.proposal y.decision y.grant] =
      ((Tables.empty.addChain x).addChain y).encode := by
  simp only [run, Machine.run_cons, Machine.run_nil, step, ← Tables.encode_empty,
    registerChain_of_fresh hx, registerChain_of_fresh hy]

end Unique

/-! ## The positive vector -/

section Positive

open Vectors

/-- The attempt of the positive vector presents one chain to an empty store. -/
theorem identifiers_unique_positive : IdentifiersUnique (run (positiveCalls.take 5)) :=
  identifiers_unique positiveCalls ⟨by rintro _ ⟨⟩, trivial, trivial, trivial, trivial, trivial⟩ 5

def substitutedChain : RegisteredChain :=
  ⟨positiveCommitment, substitutedProposal, substitutedDecision, substitutedGrant,
    substitutedGrant_chain⟩

theorem substitutedChain_fresh :
    (Tables.empty.addChain positiveAttempt.chain).Fresh substitutedChain := by
  have hS := table.collisionFree
  constructor
  all_goals
    intro y hy
    obtain rfl : y = positiveAttempt.chain := List.mem_singleton.mp hy
  · decide
  · intro he
    have := eq_of_recordHash_eq hS (by simp [table]) (by simp [table]) positiveGrant_valid
      substitutedGrant_valid he
    exact absurd this (by decide)
  · intro he
    have := eq_of_recordHash_eq hS (by simp [table]) (by simp [table]) positiveProposal_valid
      substitutedProposal_valid he
    exact absurd this (by decide)
  · intro he
    have := eq_of_recordHash_eq hS (by simp [table]) (by simp [table]) positiveDecision_valid
      substitutedDecision_valid he
    exact absurd this (by decide)

/-- Two chains whose proposals, decisions and grants differ, under one `proposal_id`, one
`decision_id` and one nonce. -/
theorem shared_identifiers :
    ¬IdentifiersUnique (run [
      .registerChain positiveCommitment positiveProposal positiveDecision positiveGrant,
      .registerChain positiveCommitment substitutedProposal substitutedDecision
        substitutedGrant]) := by
  intro hu
  have hrun := run_registered positiveAttempt.fresh substitutedChain_fresh
  replace hu : IdentifiersUnique
      ((Tables.empty.addChain positiveAttempt.chain).addChain substitutedChain).encode := hrun ▸ hu
  have hshare := hu.chains positiveAttempt.chain.row
    (List.mem_map.mpr ⟨_, List.mem_cons_self, rfl⟩) substitutedChain.row
    (List.mem_map.mpr ⟨_, List.mem_cons_of_mem _ List.mem_cons_self, rfl⟩) _ _
    positiveAttempt.chain.decodeChain_row substitutedChain.decodeChain_row
  have hp : positiveProposal = substitutedProposal := hshare.proposal rfl
  exact absurd hp (by decide)

end Positive

end Etp.Sqlite
