import Etp.Sqlite.Attempt

/-!
# Currentness over a run

`put_currentness` compares a new snapshot with the stored one only.  Over a run
this makes the rows of one key follow each other in `Follows`: versions increase,
epochs and observation times never fall, and a revocation stays until an epoch
advances.  `claim` and `mark_dispatch_started` ask for the epochs of the grant's
commitment in a row that is not revoked, so after a revocation they let through
grants of later epochs only.
-/

namespace Etp.Sqlite

open Etp.Core SqliteEffectStore

/-- How two snapshots of one key at two moments of a run are related. -/
structure Follows (s s' : CurrentnessSnapshot) : Prop where
  version : s' = s ∨ s.version < s'.version
  policy : s.policyEpoch ≤ s'.policyEpoch
  configuration : s.configurationEpoch ≤ s'.configurationEpoch
  observed : s.observedAtMs ≤ s'.observedAtMs
  revoked : s.revoked = true → s'.policyEpoch = s.policyEpoch →
    s'.configurationEpoch = s.configurationEpoch → s'.revoked = true

namespace Follows

theorem refl (s : CurrentnessSnapshot) : Follows s s :=
  ⟨.inl rfl, le_rfl, le_rfl, le_rfl, fun h _ _ ↦ h⟩

theorem trans {s s' s'' : CurrentnessSnapshot} (h : Follows s s') (h' : Follows s' s'') :
    Follows s s'' where
  version := by
    rcases h'.version with rfl | hv'
    · exact h.version
    · rcases h.version with rfl | hv
      · exact .inr hv'
      · exact .inr (hv.trans hv')
  policy := h.policy.trans h'.policy
  configuration := h.configuration.trans h'.configuration
  observed := h.observed.trans h'.observed
  revoked hr hp hc := by
    -- Equal ends leave no room for the epochs in between.
    have hp' : s'.policyEpoch = s.policyEpoch := le_antisymm (hp ▸ h'.policy) h.policy
    have hc' : s'.configurationEpoch = s.configurationEpoch :=
      le_antisymm (hc ▸ h'.configuration) h.configuration
    exact h'.revoked (h.revoked hr hp' hc') (hp.trans hp'.symm) (hc.trans hc'.symm)

theorem of_advances {s s' : CurrentnessSnapshot} (h : Advances s s') : Follows s s' where
  version := .inr h.version
  policy := h.policy
  configuration := h.configuration
  observed := h.observed
  revoked hr hp hc := by
    by_contra hs
    exact h.revoked hr (Bool.eq_false_of_not_eq_true hs) ⟨hp, hc⟩

end Follows

section Runs

variable [Sha256] {t : Tables} {key : String} {s : CurrentnessSnapshot}

/-- The snapshot of a key at any later moment of a run follows the one of now. -/
theorem follows_run (h : WellFormed t) (hs : t.snapshot key = some s) (calls : List Call) :
    ∃ t', WellFormed t' ∧ Machine.run step t.encode calls = t'.encode ∧
      ∃ s', t'.snapshot key = some s' ∧ Follows s s' := by
  obtain ⟨t', h', hR, hrun⟩ := exists_run
    (R := fun t t' ↦ ∀ s, t.snapshot key = some s → ∃ s', t'.snapshot key = some s' ∧ Follows s s')
    (fun _ s hs ↦ ⟨s, hs, .refl s⟩)
    (fun htu huv s hs ↦ by
      obtain ⟨s', hs', hf⟩ := htu s hs
      obtain ⟨s'', hs'', hf'⟩ := huv s' hs'
      exact ⟨s'', hs'', hf.trans hf'⟩)
    (fun _ hchange s hs ↦ by
      obtain ⟨s', hs', rfl | hadvance⟩ := hchange.snapshot hs
      · exact ⟨s', hs', .refl s'⟩
      · exact ⟨s', hs', .of_advances hadvance⟩)
    h calls
  exact ⟨t', h', hrun, hR s hs⟩

/-! ## The rows of one key -/

/-- The two rows are the same or the second is a newer one. -/
structure RowFollows (row row' : CurrentnessRow) : Prop where
  version : row' = row ∨ row.snapshotVersion < row'.snapshotVersion
  policy : row.policyEpoch ≤ row'.policyEpoch
  configuration : row.configurationEpoch ≤ row'.configurationEpoch
  observed : row.observedAtMs ≤ row'.observedAtMs

/-- The commitment was made at epochs that are no older than the row's, and not the row's. -/
structure PastEpochs (row : CurrentnessRow) (c : TaskCommitment) : Prop where
  policy : row.policyEpoch ≤ c.policyEpoch
  configuration : row.configurationEpoch ≤ c.configurationEpoch
  ne : ¬((c.policyEpoch : Int) = row.policyEpoch ∧
    (c.configurationEpoch : Int) = row.configurationEpoch)

omit [Sha256] in
theorem Follows.row {s s' : CurrentnessSnapshot} (h : Follows s s') : RowFollows s.row s'.row where
  version := by
    rcases h.version with rfl | hv
    · exact .inl rfl
    · exact .inr (by simpa [CurrentnessSnapshot.row] using hv)
  policy := by simpa [CurrentnessSnapshot.row] using h.policy
  configuration := by simpa [CurrentnessSnapshot.row] using h.configuration
  observed := by simpa [CurrentnessSnapshot.row] using h.observed

/-- A chain that is current after a revocation is past its epochs. -/
theorem Current.pastEpochs {s s' : CurrentnessSnapshot} {x : RegisteredChain} (h : Current s' x)
    (hf : Follows s s') (hr : s.revoked = true) : PastEpochs s.row x.commitment := by
  have hp := hf.policy
  have hc := hf.configuration
  rw [h.policy] at hp
  rw [h.configuration] at hc
  refine ⟨by simpa [CurrentnessSnapshot.row] using hp, by simpa [CurrentnessSnapshot.row] using hc,
    fun ⟨hpe, hce⟩ ↦ ?_⟩
  have hrevoked := hf.revoked hr (by rw [h.policy]; simpa [CurrentnessSnapshot.row] using hpe)
    (by rw [h.configuration]; simpa [CurrentnessSnapshot.row] using hce)
  rw [h.not_revoked] at hrevoked
  cases hrevoked

/-- A claim under the key succeeds for grants past the epochs of the row only. -/
def ClaimsPast (row : CurrentnessRow) (db : Db) : Prop :=
  ∀ grant request now c, request.currentnessKey = row.currentnessKey →
    (claim grant request now db).1 = .ok c →
      ∃ chain, loadChainByGrantHash db c.grantHash = .ok (some chain) ∧ chain.grant = grant ∧
        PastEpochs row chain.commitment

/-- A first marker is written under the key for grants past the epochs of the row only. -/
def MarksPast (row : CurrentnessRow) (db : Db) : Prop :=
  ∀ call (hash : Digest32) c c', db.claimByGrantHash hash.asStr = some c →
    c.currentnessKey = row.currentnessKey → c.dispatchStartedAtMs = none →
      (step db call).claimByGrantHash hash.asStr = some c' → c'.dispatchStartedAtMs ≠ none →
        ∃ chain, loadChainByGrantHash db hash = .ok (some chain) ∧ PastEpochs row chain.commitment

theorem claimsPast_of_follows {s s' : CurrentnessSnapshot} (h : WellFormed t)
    (hs' : t.snapshot s.key = some s') (hf : Follows s s') (hr : s.revoked = true) :
    ClaimsPast s.row t.encode := by
  rintro grant request now c hkey hok
  obtain ⟨x, s₁, rfl, rfl, g, -, -⟩ := claimTx_encode.mp (transaction_fst_ok hok)
  have hs₁ := g.snapshot
  rw [hkey] at hs₁
  obtain rfl := Option.some.inj (hs'.symm.trans hs₁)
  have hx : t.chain x.grantHash = some x := (h.chain_of_chainById g.chain).2
  refine ⟨x.stored, ?_, rfl, g.current.pastEpochs hf hr⟩
  rw [Tables.loadChainByGrantHash_encode]
  exact congrArg (fun o ↦ Except.ok (Option.map RegisteredChain.stored o)) hx

theorem marksPast_of_follows {s s' : CurrentnessSnapshot} (h : WellFormed t)
    (hs' : t.snapshot s.key = some s') (hf : Follows s s') (hr : s.revoked = true) :
    MarksPast s.row t.encode := by
  rintro call hash _ _ hrow hkey hnone hrow' hmarked
  obtain ⟨c, hc, rfl⟩ := t.claimByGrantHash_eq_some.mp hrow
  obtain ⟨t', hchange, hstep⟩ := exists_change h call
  rw [hstep] at hrow'
  obtain ⟨c', hc', rfl⟩ := t'.claimByGrantHash_eq_some.mp hrow'
  rcases hchange.claim hc with hsame | ⟨-, d, x, s₁, -, -, g, -⟩
  · rw [hsame] at hc'
    cases hc'
    exact absurd hnone hmarked
  · have hs₁ := g.snapshot
    rw [show c.currentnessKey = s.key from hkey] at hs₁
    obtain rfl := Option.some.inj (hs'.symm.trans hs₁)
    have hx := g.chain
    rw [claim_grantHash hc] at hx
    exact ⟨x.stored, by rw [Tables.loadChainByGrantHash_encode, hx]; rfl,
      g.current.pastEpochs hf hr⟩

/-- **Currentness is monotone, and a revocation is final for its epochs.**  A committed
row of a key is followed in every later database by itself or by a row of a greater
version whose epochs and observation time have not fallen.  If it is revoked, no grant
at its epochs, or at an older one of them, is claimed or first marked under the key
again. -/
theorem currentness_monotone (calls later : List Call) (key : String) (row : CurrentnessRow)
    (hrow : (run calls).currentnessByKey key = some row) :
    (∃ row', (run (calls ++ later)).currentnessByKey key = some row' ∧ RowFollows row row') ∧
      (row.revoked = 1 →
        ClaimsPast row (run (calls ++ later)) ∧ MarksPast row (run (calls ++ later))) := by
  obtain ⟨t, h, hrun⟩ := exists_tables calls
  rw [hrun] at hrow
  obtain ⟨s, hs, rfl⟩ := t.currentnessByKey_eq_some.mp hrow
  obtain ⟨t', h', hrun', s', hs', hf⟩ := follows_run h hs later
  have hdb : run (calls ++ later) = t'.encode := by
    rw [run, Machine.run_append, ← hrun', ← hrun]
    rfl
  rw [hdb]
  refine ⟨⟨s'.row, t'.currentnessByKey_eq_some.mpr ⟨s', hs', rfl⟩, hf.row⟩, fun hrev ↦ ?_⟩
  have hr : s.revoked = true := by
    by_contra hno
    simp [CurrentnessSnapshot.row, hno] at hrev
  have hkey : s.key = key := by
    obtain ⟨s₀, hlookup, rfl⟩ := Option.map_eq_some_iff.mp hs
    exact (key_of_lookupBy hlookup :)
  subst hkey
  exact ⟨claimsPast_of_follows h' hs' hf hr, marksPast_of_follows h' hs' hf hr⟩

end Runs

/-! ## The positive vector -/

section Positive

open Vectors

/-- The vector's snapshot, revoked. -/
def revokedSnapshot : CurrentnessSnapshot := { positiveSnapshot with revoked := true }

theorem run_revokedSnapshot :
    (run [.putCurrentness revokedSnapshot]).currentnessByKey "deployments" =
      some revokedSnapshot.row := by
  have hv : ValidSnapshot revokedSnapshot := validateSnapshot_eq_ok.mp (by rfl)
  have hput : putCurrentness revokedSnapshot Tables.empty.encode =
      (.ok (), (Tables.empty.putSnapshot ⟨revokedSnapshot, hv⟩).encode) :=
    transaction_ok (putCurrentnessTx_encode.mpr ⟨hv, .inr ⟨by rintro _ ⟨⟩, rfl⟩⟩)
  simp only [run, Machine.run_cons, Machine.run_nil, step, ← Tables.encode_empty, hput]
  refine (Tables.currentnessByKey_eq_some _).mpr ⟨revokedSnapshot, ?_, rfl⟩
  exact (Tables.snapshot_putSnapshot _ _).trans (if_pos rfl)

/-- A revocation, and then a setup that tries to clear it at the same epochs. -/
theorem currentness_monotone_revoked :
    (∃ row', (run ([.putCurrentness revokedSnapshot] ++ positiveAttempt.setup)).currentnessByKey
        "deployments" = some row' ∧ RowFollows revokedSnapshot.row row') ∧
      (revokedSnapshot.row.revoked = 1 →
        ClaimsPast revokedSnapshot.row
            (run ([.putCurrentness revokedSnapshot] ++ positiveAttempt.setup)) ∧
          MarksPast revokedSnapshot.row
            (run ([.putCurrentness revokedSnapshot] ++ positiveAttempt.setup))) :=
  currentness_monotone _ positiveAttempt.setup _ _ run_revokedSnapshot

end Positive

end Etp.Sqlite
