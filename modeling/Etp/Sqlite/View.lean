import Etp.Sqlite.Terminal

/-!
# What the database says of one grant

`Tables.view` is the part of the tables that a client of one grant looks at: whether its
chain is registered, the snapshot under its currentness key, the trusted time, its claim,
its receipt and the history of the receipt.

A call that changes the tables changes the view of every grant in one of a few ways.
`ViewChange` lists them with what the call has checked, and `Change.view` is the one place
where it is derived; what is said about the life of one grant only looks at `ViewChange`.
-/

namespace Etp.Sqlite

open Etp.Core SqliteEffectStore

structure View where
  registered : Bool
  snapshot : Option CurrentnessSnapshot
  time : Nat
  claim : Option DurableClaim
  receipt : Option EffectReceipt
  history : List ReconciliationRecord

variable [Sha256] {t t' : Tables} {x : RegisteredChain} {key : String} {call : Call}

def Tables.view (t : Tables) (hash : Digest32) (key : String) : View where
  registered := (t.chain hash).isSome
  snapshot := t.snapshot key
  time := t.lastTrustedTimeMs.getD 0
  claim := t.claim hash
  receipt := t.receipt hash
  history := (t.receipt hash).elim [] fun r ↦ t.history (recordHash r)

/-- The tables are those of the chain and the key: no other chain is registered under its
hash, and its claim names the key. -/
structure Fitting (x : RegisteredChain) (key : String) (t : Tables) : Prop where
  chain : ∀ y, t.chain x.grantHash = some y → y = x
  key : ∀ c, t.claim x.grantHash = some c → c.currentnessKey = key

theorem Fitting.of_kept (h : Fitting x key t') (hkept : t.Kept t') : Fitting x key t where
  chain y hy := h.chain y (hkept.chain hy)
  key c hc := by
    obtain ⟨c', hc', hclaim⟩ := hkept.claim hc
    rw [← h.key c' hc']
    rcases hclaim with rfl | ⟨-, d, rfl⟩ <;> rfl

/-- What a call can do to the view of the grant. -/
inductive ViewChange (x : RegisteredChain) (v : View) : View → Prop
  /-- Nothing, or time passes. -/
  | rest {now : Nat} (hle : v.time ≤ now) : ViewChange x v { v with time := now }
  | registered : ViewChange x v { v with registered := true }
  | observed {s : CurrentnessSnapshot} (hv : ValidSnapshot s)
      (hadvance : ∀ previous ∈ v.snapshot, Advances previous s) :
      ViewChange x v { v with snapshot := some s }
  | claimed {c : DurableClaim} {s : CurrentnessSnapshot} (hregistered : v.registered = true)
      (hnone : v.claim = none) (hreceipt : v.receipt = none) (hs : v.snapshot = some s)
      (hcurrent : Current s x) (hle : v.time ≤ c.claimedAtMs)
      (hlt : c.claimedAtMs < x.grant.expiresAtMs) (hunmarked : c.dispatchStartedAtMs = none) :
      ViewChange x v { v with time := c.claimedAtMs, claim := some c }
  | marked {c : DurableClaim} {dispatched : Nat} (hc : v.claim = some c)
      (hunmarked : c.dispatchStartedAtMs = none) (hreceipt : v.receipt = none)
      (hle : v.time ≤ dispatched) :
      ViewChange x v { v with
        time := dispatched
        claim := some { c with dispatchStartedAtMs := some dispatched } }
  | received {c : DurableClaim} {r : EffectReceipt} (hc : v.claim = some c)
      (hnone : v.receipt = none) (hevidence : Evidence r c.dispatchStartedAtMs) :
      ViewChange x v { v with receipt := some r }
  | appended {q : EffectReceipt} {r : ReconciliationRecord} (hq : v.receipt = some q)
      (hunknown : q.outcome = .unknown) (hlt : v.history.length < maxReconciliationRecords)
      (hparent : ParentLink v.history.getLast? r) :
      ViewChange x v { v with history := v.history ++ [r] }

/-- The trusted time is never behind the stored one. -/
theorem time_le {now : Nat} (h : ∀ last ∈ t.lastTrustedTimeMs, last ≤ now) :
    t.lastTrustedTimeMs.getD 0 ≤ now := by
  cases hlast : t.lastTrustedTimeMs with
  | none => exact Nat.zero_le _
  | some last => exact h last hlast

/-- Calls for other grants let the time pass at most. -/
theorem viewChange_of_eq {hash : Digest32} {now : Nat} (hchain : t'.chain hash = t.chain hash)
    (hsnapshot : t'.snapshot key = t.snapshot key) (htime : t'.lastTrustedTimeMs.getD 0 = now)
    (hle : t.lastTrustedTimeMs.getD 0 ≤ now) (hclaim : t'.claim hash = t.claim hash)
    (hreceipt : t'.receipt hash = t.receipt hash)
    (hhistory : ∀ r, t.receipt hash = some r →
      t'.history (recordHash r) = t.history (recordHash r)) :
    ViewChange x (t.view hash key) (t'.view hash key) := by
  have hview : t'.view hash key = { t.view hash key with time := now } := by
    rw [Tables.view, hchain, hsnapshot, htime, hclaim, hreceipt]
    cases hr : t.receipt hash with
    | none => simp only [Tables.view, hr, Option.elim]
    | some r => simp only [Tables.view, hr, Option.elim, hhistory r hr]
  rw [hview]
  exact .rest hle

/-- **One call, seen from one grant.** -/
theorem Change.view (hw : WellFormed t) (h : Change t call t') (hlate : ¬LateMark t.encode call)
    (hfits : Fitting x key t') :
    ViewChange x (t.view x.grantHash key) (t'.view x.grantHash key) := by
  cases h with
  | same => exact viewChange_of_eq rfl rfl rfl le_rfl rfl rfl fun _ _ ↦ rfl
  | @registered y hfresh =>
      by_cases hy : y.grantHash = x.grantHash
      · have hview : (t.addChain y).view x.grantHash key =
            { t.view x.grantHash key with registered := true } := by
          rw [Tables.view, Tables.chain_addChain hfresh, if_pos hy]
          rfl
        rw [hview]
        exact .registered
      · refine viewChange_of_eq ?_ rfl rfl le_rfl rfl rfl fun _ _ ↦ rfl
        rw [Tables.chain_addChain hfresh, if_neg hy]
  | @put s hv hadvance =>
      by_cases hs : s.key = key
      · have hview : (t.putSnapshot ⟨s, hv⟩).view x.grantHash key =
            { t.view x.grantHash key with snapshot := some s } := by
          rw [Tables.view, Tables.snapshot_putSnapshot, if_pos hs]
          rfl
        rw [hview]
        exact .observed hv (hs ▸ hadvance)
      · refine viewChange_of_eq rfl ?_ rfl le_rfl rfl rfl fun _ _ ↦ rfl
        rw [Tables.snapshot_putSnapshot, if_neg hs]
  | @claimed y request now s g hfree =>
      have hclaim := Tables.claim_addClaim (t := t.setTime now)
        (c := ⟨_, g.newClaim_valid⟩) (Tables.claimable_setTime.mpr hfree) x.grantHash
      have hle := time_le g.time
      have hchain := (hw.chain_of_chainById g.chain).2
      by_cases hy : y.grantHash = x.grantHash
      · obtain rfl : y = x := hfits.chain y (hy ▸ hchain)
        rw [if_pos (show (newClaim y request now).grantHash = y.grantHash from rfl)] at hclaim
        have hkey : request.currentnessKey = key := hfits.key _ hclaim
        have hview : ((t.setTime now).addClaim ⟨_, g.newClaim_valid⟩).view y.grantHash key =
            { t.view y.grantHash key with
              time := now, claim := some (newClaim y request now) } := by
          rw [Tables.view, hclaim]
          rfl
        have hs : (t.view y.grantHash key).snapshot = some s := hkey ▸ g.snapshot
        rw [hview]
        refine .claimed (c := newClaim y request now) ?_ hfree.grant ?_ hs g.current hle
          g.lt_expires rfl
        · show (t.chain y.grantHash).isSome = true
          rw [hchain]
          rfl
        · -- A receipt would have a claim under it.
          refine Option.eq_none_iff_forall_not_mem.mpr fun r hr ↦ ?_
          obtain ⟨-, c, -, hc, -⟩ := hw.received _ r hr
          rw [show t.claim y.grantHash = none from hfree.grant] at hc
          cases hc
      · exact viewChange_of_eq rfl rfl rfl hle (hclaim.trans (if_neg hy)) rfl fun _ _ ↦ rfl
  | @marked c y d s hc hnone hcd hmax g =>
      have hclaim := Tables.claim_mark (t := t.setTime d) hc rfl hnone hcd hmax x.grantHash
      have hle := time_le g.time
      by_cases hy : c.grantHash = x.grantHash
      · rw [if_pos hy] at hclaim
        have hview : ((t.setTime d).mark c.grantHash c.attemptId d).view x.grantHash key =
            { t.view x.grantHash key with
              time := d
              claim := some { c with dispatchStartedAtMs := some d } } := by
          rw [Tables.view, hclaim]
          rfl
        rw [hview]
        refine .marked (hy ▸ hc) hnone ?_ hle
        refine Option.eq_none_iff_forall_not_mem.mpr fun r hr ↦ hlate ?_
        have hr : t.receipt c.grantHash = some r := hy ▸ hr
        exact ⟨t, c, y, d, s, rfl, rfl, by rw [hr]; rfl, hc, hnone, hcd, hmax, g⟩
      · exact viewChange_of_eq rfl rfl rfl hle (hclaim.trans (if_neg hy)) rfl fun _ _ ↦ rfl
  | @received r y c g hfree =>
      have hreceipt := Tables.receipt_addReceipt (r := ⟨r, g.receiptFor.receipt_valid⟩) hfree
        x.grantHash
      by_cases hy : r.grantHash = x.grantHash
      · rw [if_pos hy] at hreceipt
        have hnone : t.receipt x.grantHash = none := hy ▸ hfree.grant
        have hhistory : t.history (recordHash r) = [] := by
          refine hw.no_orphans _ ?_
          simpa [Tables.receiptByHash, lookupBy_eq_none_iff] using hfree.hash
        have hview : (t.addReceipt ⟨r, g.receiptFor.receipt_valid⟩).view x.grantHash key =
            { t.view x.grantHash key with receipt := some r } := by
          simp only [Tables.view, hreceipt, hnone, Option.elim]
          rw [show (t.addReceipt ⟨r, g.receiptFor.receipt_valid⟩).history (recordHash r) = []
            from hhistory]
          rfl
        rw [hview]
        exact .received (hy ▸ g.claim) hnone g.evidence
      · exact viewChange_of_eq rfl rfl rfl le_rfl rfl (hreceipt.trans (if_neg hy)) fun _ _ ↦ rfl
  | @appended r q hq g =>
      have hhistory := fun hash ↦
        Tables.history_addRecord (t := t) ⟨r, g.recordFor.record_valid⟩ hash
      obtain ⟨hhash, hstored⟩ := hw.receipt_of_receiptByHash hq
      by_cases hy : q.grantHash = x.grantHash
      · rw [hy] at hstored
        have hview : (t.addRecord ⟨r, g.recordFor.record_valid⟩).view x.grantHash key =
            { t.view x.grantHash key with history := (t.view x.grantHash key).history ++ [r] } := by
          have hsame : (t.addRecord ⟨r, g.recordFor.record_valid⟩).receipt x.grantHash = some q :=
            hstored
          simp only [Tables.view, hsame, hstored, Option.elim, hhistory]
          rw [if_pos hhash.symm]
          rfl
        have hlist : (t.view x.grantHash key).history = t.history r.receiptHash := by
          rw [Tables.view, hstored, ← hhash]
          rfl
        rw [hview]
        refine .appended hstored g.recordFor.unknown ?_ ?_
        · rw [hlist]
          exact g.length_lt
        · rw [hlist]
          exact g.parent
      · refine viewChange_of_eq rfl rfl rfl le_rfl rfl rfl fun q' hq' ↦ ?_
        rw [hhistory, if_neg]
        intro heq
        -- The record is for a receipt with the same hash, so for this one.
        have hfound := (hw.receiptByHash_of_receipt hq').2
        rw [← heq, hq] at hfound
        obtain rfl := Option.some.inj hfound
        exact hy (hw.receiptByHash_of_receipt hq').1

end Etp.Sqlite
