import Etp.Core.Verify

/-!
# The positive chain of the test vectors

`vectors/positive-chain.json` as records, with the digests that the file states.
SHA-256 is a parameter of the development, so running the model on these records
takes a hash function that agrees with SHA-256 on them.  A `HashTable` is such a
function: it answers a listed preimage with its listed digest.  It is free of
collisions on the listed preimages whenever both columns are free of
repetitions, which is how the hypothesis of a result about collision-free runs is
met on a concrete input.
-/

namespace Etp.Core

/-! ## Hash functions given by a table -/

/-- Finitely many preimages with their digests, no preimage and no digest twice. -/
structure HashTable where
  entries : List (List UInt8 × Vector UInt8 32)
  preimages_nodup : (entries.map Prod.fst).Nodup
  digests_nodup : (entries.map Prod.snd).Nodup
  digests_ne_zero : zeroDigest ∉ entries.map Prod.snd

namespace HashTable

variable (t : HashTable)

/-- The hash function of a table: one fixed digest off the table. -/
@[reducible] def sha256 : Sha256 where
  digest payload := (t.entries.lookup payload).getD (Vector.replicate 32 1)
  digest_ne_zero payload := by
    cases h : t.entries.lookup payload with
    | none => decide
    | some d =>
        intro hz
        have hmem := (KeyMap.lookup_eq_some_iff t.preimages_nodup).mp h
        exact t.digests_ne_zero (hz ▸ List.mem_map.mpr ⟨_, hmem, rfl⟩)

theorem digest_eq {p : List UInt8} {d : Vector UInt8 32} (h : (p, d) ∈ t.entries) :
    t.sha256.digest p = d := by
  show (t.entries.lookup p).getD _ = d
  rw [(KeyMap.lookup_eq_some_iff t.preimages_nodup).mpr h, Option.getD_some]

/-- A table does not collide on its own preimages. -/
theorem collisionFree : @CollisionFree t.sha256 {p | p ∈ t.entries.map Prod.fst} := by
  intro p hp q hq heq
  obtain ⟨⟨p, d⟩, hpd, rfl⟩ := List.mem_map.mp hp
  obtain ⟨⟨q, e⟩, hqe, rfl⟩ := List.mem_map.mp hq
  change t.sha256.digest p = t.sha256.digest q at heq
  rw [t.digest_eq hpd, t.digest_eq hqe] at heq
  have := List.inj_on_of_nodup_map t.digests_nodup hpd hqe heq
  rw [this]

/-- Nor with one preimage that is off the table, if the digest of those is not on it. -/
theorem collisionFree_insert (h : Vector.replicate 32 1 ∉ t.entries.map Prod.snd)
    (p : List UInt8) : @CollisionFree t.sha256 (insert p {q | q ∈ t.entries.map Prod.fst}) := by
  by_cases hp : p ∈ {q | q ∈ t.entries.map Prod.fst}
  · rw [Set.insert_eq_of_mem hp]
    exact t.collisionFree
  · refine (Set.injOn_insert hp).mpr ⟨t.collisionFree, ?_⟩
    rintro ⟨_, hq, heq⟩
    obtain ⟨⟨q, d⟩, hqd, rfl⟩ := List.mem_map.mp hq
    have hnone : t.entries.lookup p = none := by
      refine List.lookup_eq_none_iff.mpr fun e he ↦ bne_iff_ne.mpr ?_
      rintro rfl
      exact hp (List.mem_map_of_mem he)
    change t.sha256.digest q = (t.entries.lookup p).getD (Vector.replicate 32 1) at heq
    rw [t.digest_eq hqd, hnone, Option.getD_none] at heq
    exact h (heq ▸ List.mem_map_of_mem hqd)

end HashTable

/-! ## Records of different kinds or contents -/

section Distinct

variable {α β : Type} [ProtocolRecord α] [Deserialize α] [LawfulRecord α] [ProtocolRecord β]
  [Deserialize β] [LawfulRecord β]

theorem preimage_ne_of_domain_ne {a : α} {b : β}
    (h : ProtocolRecord.domain α ≠ ProtocolRecord.domain β) : preimage a ≠ preimage b :=
  fun heq ↦ h (preimage_eq_iff.mp heq).1

theorem preimage_ne_of_ne {a b : α} (ha : validate a = .ok ()) (hb : validate b = .ok ())
    (h : a ≠ b) : preimage a ≠ preimage b := fun heq ↦ h (preimage_injective ha hb heq)

end Distinct

/-! ## The positive chain -/

namespace Vectors

/-- The bytes of a digest written as one hexadecimal number. -/
def hexBytes (n : Nat) : Vector UInt8 32 :=
  Vector.ofFn fun i ↦ UInt8.ofNat (n / 256 ^ (31 - i.val))

def hexDigest (n : Nat) (h : hexBytes n ≠ zeroDigest := by decide) : Digest32 :=
  .ofBytes (hexBytes n) h

def positiveCommitment : TaskCommitment where
  version := 1
  commitmentId := "commitment-01"
  principal := "user:alice@example.test"
  objectiveDigest :=
    hexDigest 0x1111111111111111111111111111111111111111111111111111111111111111
  constraintsDigest :=
    hexDigest 0x2222222222222222222222222222222222222222222222222222222222222222
  authorityScopeDigest :=
    hexDigest 0x3333333333333333333333333333333333333333333333333333333333333333
  policyEpoch := 7
  configurationEpoch := 12
  createdAtMs := 1760000000000
  expiresAtMs := 1760000900000

def positiveProposal : EffectProposal where
  version := 1
  proposalId := "proposal-01"
  commitmentHash :=
    hexDigest 0xddd4eb6e45872278d745eb93e6c005c844ec297ace77808bd62723763b14686e
  effectProfile := "io.effect-transaction.http.v1"
  operation := "post"
  target := "https://api.example.test/deployments"
  argumentsDigest :=
    hexDigest 0x4444444444444444444444444444444444444444444444444444444444444444
  expectedEffectDigest :=
    hexDigest 0x5555555555555555555555555555555555555555555555555555555555555555
  preStateDigest :=
    hexDigest 0x6666666666666666666666666666666666666666666666666666666666666666
  resourceClaimDigest :=
    hexDigest 0x7777777777777777777777777777777777777777777777777777777777777777
  createdAtMs := 1760000001000
  expiresAtMs := 1760000600000

def positiveDecision : AuthorizationDecision where
  version := 1
  decisionId := "decision-01"
  proposalHash :=
    hexDigest 0x72b779c8bd5c56b7f2a84f4daef85f89bc8e5069b628ca80199ea3ceb7983ed1
  evidenceHashes := [
    hexDigest 0x8888888888888888888888888888888888888888888888888888888888888888,
    hexDigest 0x9999999999999999999999999999999999999999999999999999999999999999]
  outcome := .allow
  reasonCodes := ["policy.allow"]
  decidedAtMs := 1760000002000
  expiresAtMs := 1760000300000

def positiveGrant : ExecutionGrant where
  version := 1
  grantId := "grant-01"
  proposalHash :=
    hexDigest 0x72b779c8bd5c56b7f2a84f4daef85f89bc8e5069b628ca80199ea3ceb7983ed1
  decisionHash :=
    hexDigest 0x6710d73f2e7bdea7328637859e7f08370f809b7e8514741fef5d80d39e13702b
  audience := "executor:edge-01"
  notBeforeMs := 1760000003000
  expiresAtMs := 1760000060000
  uses := 1
  nonce := "7f9a99c1AQIDBAUGBwgJCg"

def positiveReceipt : EffectReceipt where
  version := 1
  receiptId := "receipt-01"
  proposalHash :=
    hexDigest 0x72b779c8bd5c56b7f2a84f4daef85f89bc8e5069b628ca80199ea3ceb7983ed1
  grantHash :=
    hexDigest 0x37ae6952c81c3d306921d497919ca3356361254640f93345dd2587502b556f8c
  attemptId := "attempt-01"
  claimedAtMs := 1760000004000
  dispatchedAtMs := some 1760000004100
  completedAtMs := 1760000009000
  outcome := .unknown
  observationDigest :=
    hexDigest 0xaaaaaaaaaaaaaaaaaaaaaaaaaaaaaaaaaaaaaaaaaaaaaaaaaaaaaaaaaaaaaaaa

/-- The receipt of `vectors/positive-not-dispatched.json`. -/
def notDispatchedReceipt : EffectReceipt :=
  { positiveReceipt with dispatchedAtMs := none, outcome := .notDispatched }

def firstObservation : ReconciliationRecord where
  version := 1
  reconciliationId := "reconciliation-01"
  receiptHash :=
    hexDigest 0x915bd9cef697718b037aa1c2b036017b870eacfd0cbe4d622ca6f438f07ae9df
  sequence := 1
  parentReconciliationHash := none
  observedAtMs := 1760000010000
  outcome := .stillUnknown
  evidenceDigest :=
    hexDigest 0xbbbbbbbbbbbbbbbbbbbbbbbbbbbbbbbbbbbbbbbbbbbbbbbbbbbbbbbbbbbbbbbb

def secondObservation : ReconciliationRecord where
  version := 1
  reconciliationId := "reconciliation-02"
  receiptHash :=
    hexDigest 0x915bd9cef697718b037aa1c2b036017b870eacfd0cbe4d622ca6f438f07ae9df
  sequence := 2
  parentReconciliationHash :=
    some (hexDigest 0xfb6994e1a5cdbc431f2b64221ebdaf4ce9ced593b9ee6c33953362355a7face5)
  observedAtMs := 1760000020000
  outcome := .effectConfirmed
  evidenceDigest :=
    hexDigest 0xcccccccccccccccccccccccccccccccccccccccccccccccccccccccccccccccc

/-- The proposal with another target. -/
def substitutedProposal : EffectProposal :=
  { positiveProposal with target := "https://api.example.test/secrets" }

/-- The decision and the grant of the substituted proposal, under the identifiers of the chain. -/
def substitutedDecision : AuthorizationDecision :=
  { positiveDecision with
    proposalHash :=
      hexDigest 0xffbc1e5197b99003026591769d3d69b69d583eb7cc60afdb96f11c373736e345 }

def substitutedGrant : ExecutionGrant :=
  { positiveGrant with
    grantId := "grant-02"
    proposalHash :=
      hexDigest 0xffbc1e5197b99003026591769d3d69b69d583eb7cc60afdb96f11c373736e345
    decisionHash :=
      hexDigest 0xf42a27b27721386ced95a9269e118641a3d4220a1d93c1ffa1614b0e9f5bcba4 }

theorem positiveCommitment_valid : validate positiveCommitment = .ok () := rfl
theorem positiveProposal_valid : validate positiveProposal = .ok () := rfl
theorem positiveDecision_valid : validate positiveDecision = .ok () := rfl
theorem positiveGrant_valid : validate positiveGrant = .ok () := rfl
theorem positiveReceipt_valid : validate positiveReceipt = .ok () := rfl
theorem notDispatchedReceipt_valid : validate notDispatchedReceipt = .ok () := rfl
theorem firstObservation_valid : validate firstObservation = .ok () := rfl
theorem secondObservation_valid : validate secondObservation = .ok () := rfl
theorem substitutedProposal_valid : validate substitutedProposal = .ok () := rfl
theorem substitutedDecision_valid : validate substitutedDecision = .ok () := rfl
theorem substitutedGrant_valid : validate substitutedGrant = .ok () := rfl

/-- SHA-256 on the preimages of these records. -/
def table : HashTable where
  entries := [
    (preimage positiveCommitment,
      hexBytes 0xddd4eb6e45872278d745eb93e6c005c844ec297ace77808bd62723763b14686e),
    (preimage positiveProposal,
      hexBytes 0x72b779c8bd5c56b7f2a84f4daef85f89bc8e5069b628ca80199ea3ceb7983ed1),
    (preimage positiveDecision,
      hexBytes 0x6710d73f2e7bdea7328637859e7f08370f809b7e8514741fef5d80d39e13702b),
    (preimage positiveGrant,
      hexBytes 0x37ae6952c81c3d306921d497919ca3356361254640f93345dd2587502b556f8c),
    (preimage positiveReceipt,
      hexBytes 0x915bd9cef697718b037aa1c2b036017b870eacfd0cbe4d622ca6f438f07ae9df),
    (preimage firstObservation,
      hexBytes 0xfb6994e1a5cdbc431f2b64221ebdaf4ce9ced593b9ee6c33953362355a7face5),
    (preimage secondObservation,
      hexBytes 0xfad83d7caf1a59e6d98077a6f1e616415b26b8b7683c15409695e2647db64770),
    (preimage notDispatchedReceipt,
      hexBytes 0xa842b6c707a7dcc8b4a1aabf17d5b7e8f6ffb732d6bbdd1b7955af9c214abd56),
    (preimage substitutedProposal,
      hexBytes 0xffbc1e5197b99003026591769d3d69b69d583eb7cc60afdb96f11c373736e345),
    (preimage substitutedDecision,
      hexBytes 0xf42a27b27721386ced95a9269e118641a3d4220a1d93c1ffa1614b0e9f5bcba4),
    (preimage substitutedGrant,
      hexBytes 0x54833cd4a1058ce1fa4d93d1dee97e06e5d59f0537c0bc624835d36878630c47)]
  preimages_nodup := by
    simp only [List.map_cons, List.map_nil, List.nodup_cons, List.mem_cons, List.not_mem_nil,
      or_false, not_or, List.nodup_nil, not_false_eq_true, and_true]
    -- Only five pairs of records share a domain.
    have hp := preimage_ne_of_ne positiveProposal_valid substitutedProposal_valid (by decide)
    have hd := preimage_ne_of_ne positiveDecision_valid substitutedDecision_valid (by decide)
    have hg := preimage_ne_of_ne positiveGrant_valid substitutedGrant_valid (by decide)
    have hr := preimage_ne_of_ne positiveReceipt_valid notDispatchedReceipt_valid (by decide)
    have ho := preimage_ne_of_ne firstObservation_valid secondObservation_valid (by decide)
    refine ⟨⟨?_, ?_, ?_, ?_, ?_, ?_, ?_, ?_, ?_, ?_⟩, ⟨?_, ?_, ?_, ?_, ?_, ?_, hp, ?_, ?_⟩,
      ⟨?_, ?_, ?_, ?_, ?_, ?_, hd, ?_⟩, ⟨?_, ?_, ?_, ?_, ?_, ?_, hg⟩, ⟨?_, ?_, hr, ?_, ?_, ?_⟩,
      ⟨ho, ?_, ?_, ?_, ?_⟩, ⟨?_, ?_, ?_, ?_⟩, ⟨?_, ?_, ?_⟩, ⟨?_, ?_⟩, ?_⟩
    all_goals exact preimage_ne_of_domain_ne (by decide)
  digests_nodup := by decide
  digests_ne_zero := by decide

/-- SHA-256 as far as the vectors tell. -/
scoped instance sha256 : Sha256 := table.sha256

theorem recordHash_eq {α : Type} [ProtocolRecord α] {r : α} {n : Nat}
    (h : hexBytes n ≠ zeroDigest) (hm : (preimage r, hexBytes n) ∈ table.entries) :
    recordHash r = hexDigest n h := by
  have hd : Sha256.digest (preimage r) = hexBytes n := table.digest_eq hm
  refine Digest32.ext ?_
  show formatDigest (Sha256.digest (preimage r)) = formatDigest (hexBytes n)
  rw [hd]

def positiveBundle : TransactionBundle where
  commitment := positiveCommitment
  proposal := positiveProposal
  decision := positiveDecision
  grant := some positiveGrant
  receipt := some positiveReceipt
  reconciliations := [firstObservation, secondObservation]

theorem positiveGrant_chain :
    GrantChain positiveCommitment positiveProposal positiveDecision positiveGrant where
  commitment_valid := positiveCommitment_valid
  proposal_valid := positiveProposal_valid
  decision_valid := positiveDecision_valid
  commitment_hash := (recordHash_eq (by decide) (by simp [table])).symm
  proposal_hash := (recordHash_eq (by decide) (by simp [table])).symm
  created_le := by decide
  expires_le := by decide
  decided_ge := by decide
  decision_expires_le := by decide
  grant_valid := positiveGrant_valid
  allowed := rfl
  grant_proposal_hash := (recordHash_eq (by decide) (by simp [table])).symm
  grant_decision_hash := (recordHash_eq (by decide) (by simp [table])).symm
  not_before_ge := by decide
  grant_expires_le := by decide

/-- The substituted chain verifies as well. -/
theorem substitutedGrant_chain :
    GrantChain positiveCommitment substitutedProposal substitutedDecision substitutedGrant where
  commitment_valid := positiveCommitment_valid
  proposal_valid := substitutedProposal_valid
  decision_valid := substitutedDecision_valid
  commitment_hash := (recordHash_eq (by decide) (by simp [table])).symm
  proposal_hash := (recordHash_eq (by decide) (by simp [table])).symm
  created_le := by decide
  expires_le := by decide
  decided_ge := by decide
  decision_expires_le := by decide
  grant_valid := substitutedGrant_valid
  allowed := rfl
  grant_proposal_hash := (recordHash_eq (by decide) (by simp [table])).symm
  grant_decision_hash := (recordHash_eq (by decide) (by simp [table])).symm
  not_before_ge := by decide
  grant_expires_le := by decide

theorem positiveReceipt_for : ReceiptFor positiveProposal positiveGrant positiveReceipt where
  receipt_valid := positiveReceipt_valid
  receipt_proposal_hash := (recordHash_eq (by decide) (by simp [table])).symm
  receipt_grant_hash := (recordHash_eq (by decide) (by simp [table])).symm
  claimed_ge := by decide
  claimed_lt := by decide

theorem positive_history : History positiveReceipt [firstObservation, secondObservation] where
  each r hr := by
    have hh : hexDigest 0x915bd9cef697718b037aa1c2b036017b870eacfd0cbe4d622ca6f438f07ae9df =
        recordHash positiveReceipt := (recordHash_eq (by decide) (by simp [table])).symm
    rcases List.mem_pair.mp hr with rfl | rfl
    · exact ⟨firstObservation_valid, rfl, hh, by decide⟩
    · exact ⟨secondObservation_valid, rfl, hh, by decide⟩
  linked := by
    refine ⟨⟨rfl, rfl⟩, ⟨rfl, rfl, ?_, by decide⟩, trivial⟩
    exact congrArg some (recordHash_eq (by decide) (by simp [table])).symm
  distinct := by decide

theorem positiveBundle_accepted : AcceptedBundle positiveBundle where
  limit := by decide
  decision := positiveGrant_chain.toDecisionChain
  grant _ hg := by cases hg; exact positiveGrant_chain
  receipt _ hr := by cases hr; exact ⟨_, rfl, positiveReceipt_for⟩
  history _ := ⟨_, rfl, positive_history⟩

end Vectors

end Etp.Core
