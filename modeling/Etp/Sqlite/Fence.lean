import Etp.Sqlite.Currentness
import Etp.Sqlite.Later

/-!
# The version fence

`claim` writes the version of the currentness row it checked into the claim, and
`mark_dispatch_started` compares that number with the version of the row it finds.
Nothing else of the row is kept.  The comparison is enough because a version has one
content: over a run the row of a key is replaced by rows of greater versions only
(`snapshot_later`), so an equal number at two moments means an equal row at every
moment between them.
-/

namespace Etp.Sqlite

open Etp.Core SqliteEffectStore

variable [Sha256]

/-! ## Two moments of a run -/

theorem precedes_run (calls more : List Call) : Precedes (run calls) (run (calls ++ more)) :=
  ⟨⟨calls, rfl⟩, more, by rw [run, run, Machine.run_append]⟩

/-- The snapshot of a key at a later moment follows the one of now. -/
theorem snapshot_later {t t' : Tables} (h : Precedes t.encode t'.encode) {key : String}
    {s : CurrentnessSnapshot} (hs : t.snapshot key = some s) :
    ∃ s', t'.snapshot key = some s' ∧ Follows s s' := by
  obtain ⟨hw, -, -⟩ := h.kept_encode
  obtain ⟨calls, hrun⟩ := h.later
  obtain ⟨u, -, hu, hfollows⟩ := follows_run hw hs calls
  obtain rfl : u = t' := Tables.encode_injective (hu.symm.trans hrun.symm)
  exact hfollows

omit [Sha256] in
/-- Two snapshots of one version, of which one follows the other, are the same. -/
theorem Follows.eq_of_version {s s' : CurrentnessSnapshot} (h : Follows s s')
    (hv : s'.version = s.version) : s' = s := by
  rcases h.version with heq | hlt
  · exact heq
  · exact absurd hv hlt.ne'

omit [Sha256] in
/-- What lies between two moments with the same snapshot is that snapshot. -/
theorem Follows.eq_of_between {s s' s'' : CurrentnessSnapshot} (h : Follows s s')
    (h' : Follows s' s'') (hv : s''.version = s.version) : s' = s := by
  have hle : ∀ {a b : CurrentnessSnapshot}, Follows a b → a.version ≤ b.version := by
    intro a b hab
    rcases hab.version with rfl | hlt
    · exact le_rfl
    · exact hlt.le
  exact h.eq_of_version (le_antisymm ((hle h').trans hv.le) (hle h))

/-! ## What the fence promises -/

/-- One content is committed for a key and a version. -/
def OneContent (calls : List Call) : Prop :=
  ∀ earlier later key row row', earlier <+: calls → later <+: calls →
    (run earlier).currentnessByKey key = some row →
      (run later).currentnessByKey key = some row' →
        row.snapshotVersion = row'.snapshotVersion → row = row'

/-- The call finds the claim without a marker and succeeds. -/
def MarksFirst (db : Db) (hash : Digest32) (attemptId : String) (dispatched : Nat) : Prop :=
  ∃ row marker, db.claimByGrantHash hash.asStr = some row ∧ row.dispatchStartedAtMs = none ∧
    (markDispatchStarted hash attemptId dispatched db).1 = .ok marker

/-- Whenever a first marker is written, the claim names the key that the successful claim
checked, and the row of that key has been the same all the time. -/
def Fenced (calls : List Call) : Prop :=
  ∀ before grant request now c between attemptId dispatched after,
    calls = before ++ .claim grant request now ::
      (between ++ .markDispatchStarted c.grantHash attemptId dispatched :: after) →
    (claim grant request now (run before)).1 = .ok c →
    MarksFirst (run (before ++ .claim grant request now :: between)) c.grantHash attemptId
      dispatched →
    (∃ claimed, (run (before ++ .claim grant request now :: between)).claimByGrantHash
      c.grantHash.asStr = some claimed ∧ claimed.currentnessKey = request.currentnessKey) ∧
    ∃ row, (run before).currentnessByKey request.currentnessKey = some row ∧
      ∀ middle, middle <+: between →
        (run (before ++ .claim grant request now :: middle)).currentnessByKey
          request.currentnessKey = some row

/-- A change of the row, at any moment between the claim and the first marker, makes every
call for the marker fail. -/
def RefusesChanges (calls : List Call) : Prop :=
  ∀ before grant request now c between middle attemptId dispatched after,
    calls = before ++ .claim grant request now ::
      (between ++ .markDispatchStarted c.grantHash attemptId dispatched :: after) →
    (claim grant request now (run before)).1 = .ok c → middle <+: between →
    (run (before ++ .claim grant request now :: middle)).currentnessByKey request.currentnessKey ≠
      (run before).currentnessByKey request.currentnessKey →
    (∀ claimed, (run (before ++ .claim grant request now :: between)).claimByGrantHash
      c.grantHash.asStr = some claimed → claimed.dispatchStartedAtMs = none) →
    ∃ err, (markDispatchStarted c.grantHash attemptId dispatched
      (run (before ++ .claim grant request now :: between))).1 = .error err

/-- Submitting the stored snapshot again succeeds and changes nothing. -/
def ResubmitsQuietly (calls : List Call) : Prop :=
  ∀ earlier s, earlier <+: calls → loadCurrentness (run earlier) s.key = .ok (some s) →
    putCurrentness s (run earlier) = (.ok (), run earlier)

/-! ## The fence holds -/

theorem oneContent (calls : List Call) : OneContent calls := by
  -- One of two prefixes of a run is a prefix of the other.
  have key : ∀ earlier more key row row', (run earlier).currentnessByKey key = some row →
      (run (earlier ++ more)).currentnessByKey key = some row' →
        row.snapshotVersion = row'.snapshotVersion → row = row' := by
    intro earlier more key row row' hrow hrow' hversion
    have hlater := precedes_run earlier more
    obtain ⟨t, -, ht⟩ := exists_tables earlier
    obtain ⟨t', -, ht'⟩ := exists_tables (earlier ++ more)
    rw [ht] at hrow
    rw [ht'] at hrow'
    rw [ht, ht'] at hlater
    obtain ⟨s, hs, rfl⟩ := t.currentnessByKey_eq_some.mp hrow
    obtain ⟨s', hs', rfl⟩ := t'.currentnessByKey_eq_some.mp hrow'
    obtain ⟨s'', hs'', hfollows⟩ := snapshot_later hlater hs
    obtain rfl : s'' = s' := Option.some.inj (hs''.symm.trans hs')
    rw [hfollows.eq_of_version (Int.ofNat_inj.mp hversion.symm)]
  intro earlier later k row row' hearlier hlater hrow hrow' hversion
  rcases List.prefix_or_prefix_of_prefix hearlier hlater with ⟨more, rfl⟩ | ⟨more, rfl⟩
  · exact key earlier more k row row' hrow hrow' hversion
  · exact (key later more k row' row hrow' hrow hversion.symm).symm

/-- A run up to a claim that passes its checks. -/
theorem run_claim {before : List Call} {t : Tables} {x : RegisteredChain} {request : ClaimRequest}
    {now : Nat} {s : CurrentnessSnapshot} (ht : run before = t.encode)
    (hguards : ClaimGuards t x request now s)
    (hfree : Tables.Claimable (newClaim x request now) t) :
    run (before ++ [.claim x.grant request now]) =
      ((t.setTime now).addClaim ⟨_, hguards.newClaim_valid⟩).encode := by
  have hok := claimTx_encode.mpr ⟨x, s, rfl, rfl, hguards, hfree, rfl⟩
  rw [run] at ht
  rw [run, Machine.run_concat, ht]
  exact congrArg Prod.snd (transaction_ok hok)

theorem fenced (calls : List Call) : Fenced calls := by
  rintro before grant request now c between attemptId dispatched after - hclaim
    ⟨row, marker, hrow, hunmarked, hmark⟩
  obtain ⟨t, hw, ht⟩ := exists_tables before
  rw [ht] at hclaim
  obtain ⟨x, s, rfl, rfl, hguards, hfree, -⟩ := claimTx_encode.mp (transaction_fst_ok hclaim)
  have hclaimed := run_claim ht hguards hfree
  have hlater : ∀ middle, Precedes ((t.setTime now).addClaim ⟨_, hguards.newClaim_valid⟩).encode
      (run (before ++ .claim x.grant request now :: middle)) := by
    intro middle
    have := precedes_run (before ++ [.claim x.grant request now]) middle
    rwa [hclaimed, List.append_assoc, List.singleton_append] at this
  have hs : ((t.setTime now).addClaim ⟨_, hguards.newClaim_valid⟩).snapshot
      request.currentnessKey = some s := hguards.snapshot
  -- The claim at the marker is the one that was made.
  obtain ⟨u, hu, hrun⟩ := exists_tables (before ++ .claim x.grant request now :: between)
  have hbetween := hlater between
  rw [hrun] at hrow hmark hbetween
  obtain ⟨-, -, hkept⟩ := hbetween.kept_encode
  have hstored := Tables.claim_addClaim (t := t.setTime now) (c := ⟨_, hguards.newClaim_valid⟩)
    (Tables.claimable_setTime.mpr hfree) x.grantHash
  obtain ⟨q, hq, hqkept⟩ := hkept.claim (hstored.trans (if_pos rfl))
  obtain ⟨q', hq', rfl⟩ := u.claimByGrantHash_eq_some.mp hrow
  obtain rfl : q = q' := Option.some.inj (hq.symm.trans hq')
  have hnone : q.dispatchStartedAtMs = none := Option.map_eq_none_iff.mp hunmarked
  have hqc := hqkept.eq_of_unmarked hnone
  have hkey : q.currentnessKey = request.currentnessKey := by
    rw [hqc]
    rfl
  obtain ⟨-, -, q', hq', -, -, -, hcases⟩ :=
    (markDispatchStartedTx_encode hu.claim_grants).mp (transaction_fst_ok hmark)
  obtain rfl : q = q' := Option.some.inj (hq.symm.trans hq')
  rcases hcases with ⟨hsome, -⟩ | ⟨-, ⟨y, s', hmarks⟩, -⟩
  · rw [hnone] at hsome
    cases hsome
  have hs' := hmarks.snapshot
  rw [hkey] at hs'
  have hversion : s'.version = s.version := by
    rw [hmarks.version, hqc]
    exact hguards.version.symm
  refine ⟨⟨q.row, ?_, hkey⟩, s.row, ?_, fun middle hmiddle ↦ ?_⟩
  · rw [hrun]
    exact u.claimByGrantHash_eq_some.mpr ⟨q, hq, rfl⟩
  · rw [ht]
    exact t.currentnessByKey_eq_some.mpr ⟨s, hguards.snapshot, rfl⟩
  · obtain ⟨more, rfl⟩ := hmiddle
    have hfirst := hlater middle
    have hrest := precedes_run (before ++ .claim x.grant request now :: middle) more
    rw [List.append_assoc, List.cons_append] at hrest
    obtain ⟨v, -, hv⟩ := exists_tables (before ++ .claim x.grant request now :: middle)
    rw [hv] at hfirst hrest ⊢
    rw [hrun] at hrest
    obtain ⟨s₁, hs₁, hfollows⟩ := snapshot_later hfirst hs
    obtain ⟨s₂, hs₂, hfollows'⟩ := snapshot_later hrest hs₁
    obtain rfl : s₂ = s' := Option.some.inj (hs₂.symm.trans hs')
    rw [hfollows.eq_of_between hfollows' hversion] at hs₁
    exact v.currentnessByKey_eq_some.mpr ⟨s, hs₁, rfl⟩

theorem refusesChanges (calls : List Call) : RefusesChanges calls := by
  intro before grant request now c between middle attemptId dispatched after hcalls hclaim hmiddle
    hchanged hunmarked
  cases hmark : (markDispatchStarted c.grantHash attemptId dispatched
      (run (before ++ .claim grant request now :: between))).1 with
  | error err => exact ⟨err, rfl⟩
  | ok marker =>
      exfalso
      -- The call that succeeds found a claim, so the fence applies to it.
      obtain ⟨u, hu, hrun⟩ := exists_tables (before ++ .claim grant request now :: between)
      have hok := hmark
      rw [hrun] at hok
      obtain ⟨-, -, q, hq, -⟩ :=
        (markDispatchStartedTx_encode hu.claim_grants).mp (transaction_fst_ok hok)
      have hrow : (run (before ++ .claim grant request now :: between)).claimByGrantHash
          c.grantHash.asStr = some q.row := by
        rw [hrun]
        exact u.claimByGrantHash_eq_some.mpr ⟨q, hq, rfl⟩
      obtain ⟨-, row, hbefore, hsame⟩ := fenced calls before grant request now c between attemptId
        dispatched after hcalls hclaim ⟨q.row, marker, hrow, hunmarked _ hrow, hmark⟩
      exact hchanged ((hsame middle hmiddle).trans hbefore.symm)

theorem resubmitsQuietly (calls : List Call) : ResubmitsQuietly calls := by
  rintro earlier s - hload
  obtain ⟨t, -, ht⟩ := exists_tables earlier
  rw [ht, Tables.loadCurrentness_encode, Except.ok.injEq] at hload
  have hvalid : ValidSnapshot s := by
    obtain ⟨s', -, rfl⟩ := Option.map_eq_some_iff.mp hload
    exact s'.2
  rw [ht]
  exact transaction_ok (putCurrentnessTx_encode.mpr ⟨hvalid, .inl ⟨hload, rfl⟩⟩)

/-- **The version fence is exact.**  In every run, a key and a version have one content;
a first marker is written only if the row of the claim's key is, field for field and
since the claim, the row that the claim checked; any committed change of it in between
makes the marker fail; and submitting the same snapshot again changes nothing. -/
theorem version_fence_exact (calls : List Call) :
    OneContent calls ∧ Fenced calls ∧ RefusesChanges calls ∧ ResubmitsQuietly calls :=
  ⟨oneContent calls, fenced calls, refusesChanges calls, resubmitsQuietly calls⟩

end Etp.Sqlite
