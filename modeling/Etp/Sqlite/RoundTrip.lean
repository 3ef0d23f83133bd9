import Etp.Sqlite.Invariant

/-!
# What the store wrote it can read

A record that passes its checks survives `canonical_json` followed by
`parse_record`, and its text stays within the transport limit.  The store writes
records that have passed their checks and nothing else, so in no database it
produced is there a row that its loaders reject.
-/

namespace Etp.Sqlite

open Etp.Core SqliteEffectStore

variable [Sha256]

/-- Every valid record of the type is read back from its canonical bytes, with its commitment. -/
def RoundTrips (α : Type) [ProtocolRecord α] [Deserialize α] : Prop :=
  ∀ r : α, validate r = .ok () → ∃ bytes, canonicalJson r = .ok bytes ∧
    bytes.length ≤ maxTransportInputBytes ∧ parseRecord α bytes = .ok r ∧
      ∀ r', parseRecord α bytes = .ok r' → commitment r' = commitment r

theorem roundTrips (α : Type) [ProtocolRecord α] [Deserialize α] [LawfulRecord α] :
    RoundTrips α := by
  intro r h
  have hparse := parseRecord_canonicalText h
  refine ⟨utf8 (canonicalText r), canonicalJson_of_valid h, canonicalText_length_le h, hparse, ?_⟩
  intro r' hr'
  rw [hparse] at hr'
  cases hr'
  rfl

/-- Every row decodes to the records it was written for, and the loaders of the
reconciliations accept every history. -/
structure RowsDecode (db : Db) : Prop where
  chains : ∀ row ∈ db.authorizationChains, ∃ x, decodeChain row = .ok x ∧
    canonicalJson x.commitment = .ok row.commitmentJson ∧
      canonicalJson x.proposal = .ok row.proposalJson ∧
        canonicalJson x.decision = .ok row.decisionJson ∧
          canonicalJson x.grant = .ok row.grantJson
  receipts : ∀ row ∈ db.receipts, ∃ r, decodeReceipt row = .ok r ∧
    canonicalJson r = .ok row.receiptJson
  reconciliations : ∀ row ∈ db.reconciliations, ∃ r, decodeReconciliation row = .ok r ∧
    canonicalJson r = .ok row.recordJson
  loadAt : ∀ (hash : Digest32) (sequence : Nat), sequence ≤ maxSafeInteger →
    ∃ o, loadReconciliationAt db hash sequence = .ok o
  loadLatest : ∀ hash : Digest32, ∃ o, loadLatestReconciliation db hash = .ok o
  loadAll : ∀ hash : Digest32, ∃ l, loadAllReconciliations db hash = .ok l

theorem WellFormed.rowsDecode {t : Tables} (h : WellFormed t) : RowsDecode t.encode where
  chains := by
    intro row hrow
    obtain ⟨x, -, rfl⟩ := List.mem_map.mp hrow
    have hx := x.decodeChain_row
    simp only [RegisteredChain.stored, RegisteredChain.row] at hx ⊢
    exact ⟨_, hx, canonicalJson_of_valid x.verified.commitment_valid,
      canonicalJson_of_valid x.verified.proposal_valid,
      canonicalJson_of_valid x.verified.decision_valid,
      canonicalJson_of_valid x.verified.grant_valid⟩
  receipts := by
    intro row hrow
    obtain ⟨r, -, rfl⟩ := List.mem_map.mp hrow
    refine ⟨r.1, decodeReceipt_row r.2, ?_⟩
    simp only [receiptRow]
    exact canonicalJson_of_valid r.2
  reconciliations := by
    intro row hrow
    obtain ⟨r, -, rfl⟩ := List.mem_map.mp hrow
    refine ⟨r.1, decodeReconciliation_row r.2, ?_⟩
    simp only [reconciliationRow]
    exact canonicalJson_of_valid r.2
  loadAt hash sequence hle := ⟨_, t.loadReconciliationAt_encode hash hle⟩
  loadLatest hash := ⟨_, Tables.loadLatestReconciliation_encode (h.linked hash)⟩
  loadAll hash := ⟨_, Tables.loadAllReconciliations_encode (h.linked hash)⟩

/-- **The record round trip.**  Valid records of all six types are read back from their
canonical bytes, and so is every row of every database that a run reaches. -/
theorem record_round_trip :
    (RoundTrips TaskCommitment ∧ RoundTrips EffectProposal ∧ RoundTrips AuthorizationDecision ∧
      RoundTrips ExecutionGrant ∧ RoundTrips EffectReceipt ∧ RoundTrips ReconciliationRecord) ∧
        ∀ calls, RowsDecode (run calls) := by
  refine ⟨⟨roundTrips _, roundTrips _, roundTrips _, roundTrips _, roundTrips _, roundTrips _⟩, ?_⟩
  intro calls
  obtain ⟨t, h, hrun⟩ := exists_tables calls
  rw [hrun]
  exact h.rowsDecode

end Etp.Sqlite
