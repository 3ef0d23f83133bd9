import Etp.Authority.Statement
import Etp.Core.Vectors
import Etp.Lib.Json.Same

/-!
# Commitment preimages

A commitment is the hash of a domain, a zero byte and the canonical text of a
record.  No domain contains the zero byte, so the preimage splits back into its
domain and its text; the domain names the kind of the record, and a valid record
reads back from its text.  Hence a preimage determines the record it belongs to,
among the six kinds of the core and the authority statement together.
-/

namespace Etp.Authority

open Etp.Core

/-- A record of one of the seven kinds that are hashed. -/
inductive AnyRecord where
  | taskCommitment (record : TaskCommitment)
  | effectProposal (record : EffectProposal)
  | authorizationDecision (record : AuthorizationDecision)
  | executionGrant (record : ExecutionGrant)
  | effectReceipt (record : EffectReceipt)
  | reconciliationRecord (record : ReconciliationRecord)
  | authorityStatement (record : AuthorityStatement)

namespace AnyRecord

def Valid : AnyRecord → Prop
  | taskCommitment r => Core.validate r = .ok ()
  | effectProposal r => Core.validate r = .ok ()
  | authorizationDecision r => Core.validate r = .ok ()
  | executionGrant r => Core.validate r = .ok ()
  | effectReceipt r => Core.validate r = .ok ()
  | reconciliationRecord r => Core.validate r = .ok ()
  | authorityStatement r => Core.validate r = .ok ()

/-- The bytes that `hash_record` hashes for the record. -/
def preimage : AnyRecord → List UInt8
  | taskCommitment r => Core.preimage r
  | effectProposal r => Core.preimage r
  | authorizationDecision r => Core.preimage r
  | executionGrant r => Core.preimage r
  | effectReceipt r => Core.preimage r
  | reconciliationRecord r => Core.preimage r
  | authorityStatement r => Core.preimage r

/-- The domain tells the kinds apart, and the text the records of one kind. -/
theorem eq_of_preimage_eq {a b : AnyRecord} (ha : a.Valid) (hb : b.Valid)
    (h : a.preimage = b.preimage) : a = b := by
  cases a <;> cases b <;>
    first
    | exact congrArg _ (preimage_injective ha hb h)
    | exact absurd (preimage_eq_iff.mp h).1 (by decide)

end AnyRecord

/-- **Injective preimages.**  The preimage of a commitment determines the kind
and every field of a valid record, and a canonical text determines the value it
is of, objects taken as finite maps. -/
theorem preimages_injective :
    (∀ a b : AnyRecord, a.Valid → b.Valid → a.preimage = b.preimage → a = b) ∧
      ∀ (v w : Json) (bytes : List UInt8), v.Distinct → w.Distinct →
        canonicalValue v = .ok bytes → canonicalValue w = .ok bytes → v.Same w := by
  refine ⟨fun a b ha hb h ↦ AnyRecord.eq_of_preimage_eq ha hb h, fun v w bytes hv hw hev hew ↦ ?_⟩
  obtain ⟨-, rfl⟩ := canonicalValue_eq_ok.mp hev
  obtain ⟨-, heq⟩ := canonicalValue_eq_ok.mp hew
  have htext := String.ofList_injective (utf8_injective heq)
  exact (Json.sortKeys_eq_iff hv hw).mp (Json.text_injective htext)

/-- The published grant against itself, and one object in two orders. -/
theorem preimages_injective_positive :
    AnyRecord.executionGrant Vectors.positiveGrant = .executionGrant Vectors.positiveGrant ∧
      (Json.obj [("b", .num 1), ("a", .null)]).Same (.obj [("a", .null), ("b", .num 1)]) := by
  have hpair : ∀ k l : String, k ≠ l → ∀ x y : Json, x.Distinct → y.Distinct →
      (Json.obj [(k, x), (l, y)]).Distinct := by
    intro k l hne x y hx hy
    exact .obj (by simpa using hne) (by simpa using ⟨hx, hy⟩)
  exact ⟨preimages_injective.1 _ _ Vectors.positiveGrant_valid Vectors.positiveGrant_valid rfl,
    preimages_injective.2 _ _ (utf8 "\x7b\"a\":null,\"b\":1\x7d")
      (hpair _ _ (by decide) _ _ (.num 1) .null) (hpair _ _ (by decide) _ _ .null (.num 1))
      rfl rfl⟩

end Etp.Authority
