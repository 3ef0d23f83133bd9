import Etp.Sqlite.Attempt

/-!
# What is written stays

The triggers of the schema forbid `UPDATE` and `DELETE` on the chains, the
receipts and the reconciliations, and let an update of a claim do one thing: set
its marker.  Here this is read off the operations: none of them alters a row of
the first three tables, and a claims row stays where it is, with its marker
written at most once (`Grown`).

Claims and first markers carry a time, and both move `last_trusted_time_ms` to
it.  Listed in the order in which they were committed, these times never fall
(`events_sorted`), whichever grants they belong to.  The branch of
`mark_dispatch_started` that finds the marker already written commits nothing,
and is not listed.
-/

namespace Etp.Sqlite

open Etp.Core SqliteEffectStore

variable [Sha256] {t : Tables}

/-! ## The tables grow -/

/-- The later tables hold all that the earlier ones hold. -/
structure Grown (t u : Tables) : Prop where
  chains : t.chains <+: u.chains
  receipts : t.receipts <+: u.receipts
  reconciliations : t.reconciliations <+: u.reconciliations
  claims : ∀ i : ℕ, ∀ c ∈ t.claims[i]?, ∃ c' ∈ u.claims[i]?, ClaimKept c.1 c'.1
  time : ∀ last ∈ t.lastTrustedTimeMs, ∃ last' ∈ u.lastTrustedTimeMs, last ≤ last'

namespace Grown

theorem refl (t : Tables) : Grown t t where
  chains := List.prefix_rfl
  receipts := List.prefix_rfl
  reconciliations := List.prefix_rfl
  claims _ c hc := ⟨c, hc, .refl c.1⟩
  time last hlast := ⟨last, hlast, le_rfl⟩

theorem trans {t u v : Tables} (h : Grown t u) (h' : Grown u v) : Grown t v where
  chains := h.chains.trans h'.chains
  receipts := h.receipts.trans h'.receipts
  reconciliations := h.reconciliations.trans h'.reconciliations
  claims i c hc := by
    obtain ⟨c', hc', hk⟩ := h.claims i c hc
    obtain ⟨c'', hc'', hk'⟩ := h'.claims i c' hc'
    exact ⟨c'', hc'', hk.trans hk'⟩
  time last hlast := by
    obtain ⟨last', hlast', hle⟩ := h.time last hlast
    obtain ⟨last'', hlast'', hle'⟩ := h'.time last' hlast'
    exact ⟨last'', hlast'', hle.trans hle'⟩

end Grown

omit [Sha256] in
theorem claimKept_withMarker {dispatched : Nat} {c : {c : DurableClaim // ValidClaim c}}
    (hnone : c.1.dispatchStartedAtMs = none) :
    ClaimKept c.1 (Tables.withMarker dispatched c).1 := by
  unfold Tables.withMarker
  split_ifs
  · exact .inr ⟨hnone, dispatched, rfl⟩
  · exact .refl c.1

theorem Change.grown {call : Call} {t' : Tables} (h : Change t call t') : Grown t t' := by
  have htime := fun last ↦ @Change.lastTrustedTime _ _ _ _ h last
  cases h with
  | registered _ => exact { Grown.refl t with chains := List.prefix_append _ _ }
  | claimed g _ =>
      refine { Grown.refl t with claims := fun i c hc ↦ ⟨c, ?_, .refl c.1⟩, time := htime }
      exact (List.getElem?_append_left (List.getElem?_eq_some_iff.mp hc).1).trans hc
  | marked _ _ _ _ g =>
      refine { Grown.refl t with claims := fun i c hc ↦ ?_, time := htime }
      refine ⟨_, (getElem?_updateWhere i).trans (congrArg _ hc), ?_⟩
      simp only
      split_ifs with hu
      · have hu := of_decide_eq_true hu
        exact claimKept_withMarker hu.2.2
      · exact .refl c.1
  | received _ _ => exact { Grown.refl t with receipts := List.prefix_append _ _ }
  | appended _ _ => exact { Grown.refl t with reconciliations := List.prefix_append _ _ }
  | _ => exact { Grown.refl t with time := htime }

theorem WellFormed.grown_run (h : WellFormed t) (calls : List Call) :
    ∃ t', WellFormed t' ∧ Grown t t' ∧ Machine.run step t.encode calls = t'.encode :=
  exists_run Grown.refl Grown.trans (fun _ hchange ↦ hchange.grown) h calls

/-! ## The rows grow -/

/-- The later claims row is the earlier one, or the earlier one without a marker is the later
one with its marker. -/
def ClaimRowKept (row row' : ClaimRow) : Prop :=
  row' = row ∨
    row.dispatchStartedAtMs = none ∧ ∃ d, row' = { row with dispatchStartedAtMs := some d }

/-- No row of the later database has been altered or removed, but for the markers. -/
structure AppendOnly (db db' : Db) : Prop where
  chains : db.authorizationChains <+: db'.authorizationChains
  receipts : db.receipts <+: db'.receipts
  reconciliations : db.reconciliations <+: db'.reconciliations
  claims : ∀ i : ℕ, ∀ row ∈ db.claims[i]?, ∃ row' ∈ db'.claims[i]?, ClaimRowKept row row'
  time : ∀ last ∈ db.lastTrustedTimeMs, ∃ last' ∈ db'.lastTrustedTimeMs, last ≤ last'

omit [Sha256] in
theorem ClaimKept.row {c c' : DurableClaim} (h : ClaimKept c c') : ClaimRowKept c.row c'.row := by
  rcases h with rfl | ⟨hnone, d, rfl⟩
  · exact .inl rfl
  · exact .inr ⟨by rw [DurableClaim.row, hnone]; rfl, d, rfl⟩

theorem Grown.appendOnly {u : Tables} (h : Grown t u) : AppendOnly t.encode u.encode where
  chains := h.chains.map _
  receipts := h.receipts.map _
  reconciliations := h.reconciliations.map _
  claims i row hrow := by
    simp only [Tables.encode, List.getElem?_map, Option.mem_def, Option.map_eq_some_iff] at hrow ⊢
    obtain ⟨c, hc, rfl⟩ := hrow
    obtain ⟨c', hc', hk⟩ := h.claims i c hc
    exact ⟨_, ⟨c', hc', rfl⟩, hk.row⟩
  time last hlast := by
    obtain ⟨l, hl, rfl⟩ := Option.mem_map.mp hlast
    obtain ⟨l', hl', hle⟩ := h.time l hl
    exact ⟨l', Option.mem_map.mpr ⟨l', hl', rfl⟩, Int.ofNat_le.mpr hle⟩

/-! ## The order of claims and first markers -/

/-- The time that a call commits: that of a successful claim, or of a marker it has written. -/
def event (db : Db) : Call → Option Nat
  | .claim grant request now =>
      match (claim grant request now db).1 with
      | .ok _ => some now
      | .error _ => none
  | .markDispatchStarted hash attemptId dispatched =>
      if (markDispatchStarted hash attemptId dispatched db).2.claims = db.claims then none
      else some dispatched
  | _ => none

/-- The successful claims and first markers of a run, in the order of their commits. -/
def events : Db → List Call → List Nat
  | _, [] => []
  | db, call :: calls => (event db call).toList ++ events (step db call) calls

/-- An event moves the trusted time to its own, which is no earlier. -/
theorem event_spec (h : WellFormed t) {call : Call} {time : Nat}
    (he : event t.encode call = some time) :
    (∀ last ∈ t.lastTrustedTimeMs, last ≤ time) ∧
      ∀ t' : Tables, step t.encode call = t'.encode → t'.lastTrustedTimeMs = some time := by
  cases call with
  | claim grant request now =>
      simp only [event] at he
      split at he
      next c hok =>
        cases he
        obtain ⟨x, s, rfl, rfl, g, hfree, hdb⟩ := claimTx_encode.mp (transaction_fst_ok hok)
        refine ⟨g.time, fun t' ht' ↦ ?_⟩
        have ht : t' = (t.setTime time).addClaim ⟨_, g.newClaim_valid⟩ :=
          Tables.encode_injective (ht'.symm.trans hdb)
        rw [ht]
        rfl
      next => cases he
  | markDispatchStarted hash attemptId dispatched =>
      simp only [event] at he
      split_ifs at he with hsame
      cases he
      obtain ⟨u, hchange, hstep⟩ := exists_change h (.markDispatchStarted hash attemptId time)
      have hu : u.encode.claims ≠ t.encode.claims := by
        rw [← hstep]
        exact hsame
      cases hchange with
      | same => exact absurd rfl hu
      | marked _ _ _ _ g =>
          refine ⟨g.time, fun t' ht' ↦ ?_⟩
          rw [Tables.encode_injective (ht'.symm.trans hstep)]
          rfl
  | _ => cases he

/-- **Claims and first markers are committed in the order of their times.** -/
theorem events_sorted (h : WellFormed t) (calls : List Call) :
    (∀ time ∈ events t.encode calls, ∀ last ∈ t.lastTrustedTimeMs, last ≤ time) ∧
      (events t.encode calls).Pairwise (· ≤ ·) := by
  induction calls generalizing t with
  | nil => exact ⟨by rintro _ ⟨⟩, List.Pairwise.nil⟩
  | cons call calls ih =>
      obtain ⟨u, hchange, hstep⟩ := exists_change h call
      obtain ⟨hlast, hsorted⟩ := ih (h.change hchange)
      -- What comes later is no earlier than the trusted time before the call.
      have hlater : ∀ time ∈ events u.encode calls, ∀ last ∈ t.lastTrustedTimeMs, last ≤ time := by
        intro time ht last hl
        obtain ⟨last', hl', hle⟩ := hchange.lastTrustedTime hl
        exact hle.trans (hlast time ht last' hl')
      rw [events, hstep]
      cases he : event t.encode call with
      | none => exact ⟨hlater, hsorted⟩
      | some time =>
          obtain ⟨hbefore, hafter⟩ := event_spec h he
          have hu := hafter u hstep
          refine ⟨?_, List.pairwise_cons.mpr ⟨fun time' ht' ↦ hlast time' ht' time hu, hsorted⟩⟩
          intro time' ht'
          rcases List.mem_cons.mp ht' with rfl | ht'
          · exact hbefore
          · exact hlater time' ht'

/-! ## The window of a claim -/

/-- The claims row is in the window of the grant that its chain row holds. -/
def InWindow (db : Db) (row : ClaimRow) : Prop :=
  ∃ chainRow ∈ db.authorizationChains, chainRow.grantHash = row.grantHash ∧
    ∃ chain, decodeChain chainRow = .ok chain ∧
      chain.grant.notBeforeMs ≤ row.claimedAtMs ∧ row.claimedAtMs < chain.grant.expiresAtMs ∧
        ∀ d ∈ row.dispatchStartedAtMs, row.claimedAtMs ≤ d ∧ d < chain.grant.expiresAtMs

theorem WellFormed.inWindow (h : WellFormed t) {row : ClaimRow} (hrow : row ∈ t.encode.claims) :
    InWindow t.encode row := by
  obtain ⟨c, hc, rfl⟩ := List.mem_map.mp hrow
  have hclaim : t.claim c.1.grantHash = some c.1 := by
    rw [Tables.claim, h.claim_grants.lookupBy_eq_some_iff.mpr ⟨hc, rfl⟩]
    rfl
  obtain ⟨x, hx, hfor⟩ := h.claimed _ _ hclaim
  refine ⟨x.row, List.mem_map.mpr ⟨x, mem_of_lookupBy hx, rfl⟩, ?_, x.stored, x.decodeChain_row,
    Int.ofNat_le.mpr hfor.not_before_le, Int.ofNat_lt.mpr hfor.lt_expires, fun d hd ↦ ?_⟩
  · exact congrArg Digest32.asStr (h.chainById_of_chain hx).1
  · obtain ⟨d', hd', rfl⟩ := Option.mem_map.mp hd
    obtain ⟨hle, hlt⟩ := hfor.marked d' hd'
    exact ⟨Int.ofNat_le.mpr hle, Int.ofNat_lt.mpr hlt⟩

/-- **Durable history is append-only and ordered in time.**  Between any two moments of a run no
row is altered or removed, but for markers that are written once, and the trusted time does not
fall; the times of the claims and first markers do not fall in the order of their commits; and
every claim and every marker is in the window of its grant. -/
theorem durable_history (calls later : List Call) :
    AppendOnly (run calls) (run (calls ++ later)) ∧ (events .empty calls).Pairwise (· ≤ ·) ∧
      ∀ row ∈ (run calls).claims, InWindow (run calls) row := by
  obtain ⟨t, h, hrun⟩ := exists_tables calls
  obtain ⟨u, -, hgrown, hrun'⟩ := h.grown_run later
  refine ⟨?_, (events_sorted WellFormed.empty calls).2, fun row hrow ↦ ?_⟩
  · have hlater : run (calls ++ later) = u.encode := by
      rw [run, Machine.run_append, ← hrun', ← hrun]
      rfl
    rw [hlater, hrun]
    exact hgrown.appendOnly
  · rw [hrun] at hrow ⊢
    exact h.inWindow hrow

end Etp.Sqlite
