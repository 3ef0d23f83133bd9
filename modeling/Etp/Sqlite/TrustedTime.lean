import Etp.Sqlite.Attempt

/-!
# Trusted time over a run

A successful `claim` and a first marker commit the trusted time they were given,
and both refuse a time below the committed one, so the committed time never falls
(`lastTrustedTime_run`).

The answer `GrantExpired` is an error, and an error rolls the transaction back:
the reading that showed the grant to be expired is forgotten with it.  A clock
that is then set back below the end of the window can revive the grant.
`expired_grant_stays_expired` says when it cannot, and `expired_grant_revived` is
a run in which it does.
-/

namespace Etp.Sqlite

open Etp.Core SqliteEffectStore

section Runs

variable [Sha256] {t : Tables}

/-- The committed trusted time never falls. -/
theorem lastTrustedTime_run (h : WellFormed t) (calls : List Call) :
    ∃ t', WellFormed t' ∧ Machine.run step t.encode calls = t'.encode ∧
      ∀ last ∈ t.lastTrustedTimeMs, ∃ last' ∈ t'.lastTrustedTimeMs, last ≤ last' := by
  obtain ⟨t', h', hR, hrun⟩ := exists_run
    (R := fun t t' ↦ ∀ last ∈ t.lastTrustedTimeMs, ∃ last' ∈ t'.lastTrustedTimeMs, last ≤ last')
    (fun _ last hlast ↦ ⟨last, hlast, le_rfl⟩)
    (fun htu huv last hlast ↦ by
      obtain ⟨last', hlast', hle⟩ := htu last hlast
      obtain ⟨last'', hlast'', hle'⟩ := huv last' hlast'
      exact ⟨last'', hlast'', hle.trans hle'⟩)
    (fun _ hchange _ hlast ↦ hchange.lastTrustedTime hlast)
    h calls
  exact ⟨t', h', hrun, hR⟩

/-- A claim call for the grant, with a reading past its window, that was answered
`GrantExpired`. -/
def ExpiredAt (grant : ExecutionGrant) (before : List Call) (call : Call) : Prop :=
  ∃ request now, call = .claim grant request now ∧ grant.expiresAtMs ≤ now ∧
    (claim grant request now (run before)).1 = .error .grantExpired

/-- A claim call for the grant that succeeded. -/
def ClaimedAt (grant : ExecutionGrant) (before : List Call) (call : Call) : Prop :=
  ∃ request now c, call = .claim grant request now ∧
    (claim grant request now (run before)).1 = .ok c

/-- Once expired, the grant is never claimed again in the run. -/
def StaysExpired (grant : ExecutionGrant) (calls : List Call) : Prop :=
  ∀ before expired between call after, calls = before ++ expired :: (between ++ call :: after) →
    ExpiredAt grant before expired → ¬ClaimedAt grant (before ++ expired :: between) call

/-- A reading that cannot claim the grant: it is outside the window, or below a trusted
time that the store held at an earlier moment of the run. -/
def Detected (grant : ExecutionGrant) (before : List Call) (now : Nat) : Prop :=
  now < grant.notBeforeMs ∨ grant.expiresAtMs ≤ now ∨
    ∃ prior, prior <+: before ∧ ∃ last ∈ (run prior).lastTrustedTimeMs, (now : Int) < last

/-- After the grant was found expired, every claim call for it has such a reading. -/
def RollbackDetected (grant : ExecutionGrant) (calls : List Call) : Prop :=
  ∀ before expired between request now after,
    calls = before ++ expired :: (between ++ .claim grant request now :: after) →
      ExpiredAt grant before expired → Detected grant (before ++ expired :: between) now

/-- A successful claim had a reading inside the window and at or above every trusted
time that the store ever held. -/
theorem not_detected_of_claimed {grant : ExecutionGrant} {before : List Call}
    {request : ClaimRequest} {now : Nat} {c : DurableClaim}
    (hok : (claim grant request now (run before)).1 = .ok c) : ¬Detected grant before now := by
  obtain ⟨t, -, hrun⟩ := exists_tables before
  rw [hrun] at hok
  obtain ⟨x, s, rfl, -, g, -⟩ := claimTx_encode.mp (transaction_fst_ok hok)
  rintro (hnb | hexp | ⟨prior, ⟨more, rfl⟩, last, hlast, hlt⟩)
  · exact absurd g.not_before_le (not_le.mpr hnb)
  · exact absurd g.lt_expires (not_lt.mpr hexp)
  · obtain ⟨t₀, h₀, hrun₀⟩ := exists_tables prior
    obtain ⟨t', -, hrun', hmono⟩ := lastTrustedTime_run h₀ more
    rw [run, Machine.run_append] at hrun
    obtain rfl : t' = t := Tables.encode_injective (by
      rw [← hrun', ← hrun, ← hrun₀]
      rfl)
    rw [hrun₀] at hlast
    obtain ⟨l, hl, rfl⟩ := Option.mem_map.mp hlast
    obtain ⟨l', hl', hle⟩ := hmono l hl
    have := g.time l' hl'
    omega

/-- **When an expired grant stays expired.**  In a run in which every claim call for the
grant, after one that was answered `GrantExpired`, has a reading outside the grant's
window or below a trusted time the store has held, no such call succeeds. -/
theorem expired_grant_stays_expired (grant : ExecutionGrant) (calls : List Call)
    (h : RollbackDetected grant calls) : StaysExpired grant calls := by
  rintro before expired between _ after hcalls hexpired ⟨request, now, c, rfl, hok⟩
  exact not_detected_of_claimed hok (h before expired between request now after hcalls hexpired)

end Runs

/-! ## The positive vector -/

section Positive

open Vectors

/-- The claim of the positive attempt, with some reading of the clock. -/
def positiveClaim (now : Nat) : Call := .claim positiveGrant positiveRequest now

theorem positive_expired :
    ExpiredAt positiveGrant positiveAttempt.setup (positiveClaim 1760000060000) := by
  refine ⟨_, _, rfl, by decide, ?_⟩
  rw [positiveAttempt.run_setup]
  have hchecks := positiveAttempt.checks (show 1760000060000 ≤ maxSafeInteger by decide)
    ⟨by decide, by decide⟩
  have hexpired := claimTx_expired hchecks (by decide) (by decide)
  exact congrArg (fun op ↦ (transaction positiveAttempt.prepared.encode op).1) hexpired

/-- Two readings past the window keep the grant expired. -/
theorem expired_grant_stays_expired_twice :
    StaysExpired positiveGrant
      (positiveAttempt.setup ++ [positiveClaim 1760000060000, positiveClaim 1760000060001]) := by
  refine expired_grant_stays_expired _ _ ?_
  intro before expired between request now after hcalls _
  have hmem : Call.claim positiveGrant request now ∈
      positiveAttempt.setup ++ [positiveClaim 1760000060000, positiveClaim 1760000060001] := by
    rw [hcalls]
    simp
  simp only [Attempt.setup, positiveClaim, List.cons_append, List.nil_append, List.mem_cons,
    reduceCtorEq, Call.claim.injEq, true_and, List.not_mem_nil, or_false, false_or] at hmem
  rcases hmem with ⟨-, rfl⟩ | ⟨-, rfl⟩
  · exact .inr (.inl (by decide))
  · exact .inr (.inl (by decide))

/-- A clock that is set back after the grant was found expired revives it. -/
theorem expired_grant_revived :
    ¬StaysExpired positiveGrant
      (positiveAttempt.setup ++ [positiveClaim 1760000060000, positiveClaim 1760000004000]) := by
  intro h
  refine h positiveAttempt.setup (positiveClaim 1760000060000) [] (positiveClaim 1760000004000) []
    rfl positive_expired ?_
  refine ⟨_, _, newClaim positiveAttempt.chain positiveRequest 1760000004000, rfl, ?_⟩
  -- The expired claim was rolled back, so the database is still the prepared one.
  obtain ⟨request, now, hcall, -, hanswer⟩ := positive_expired
  have hstep : step positiveAttempt.prepared.encode (positiveClaim 1760000060000) =
      positiveAttempt.prepared.encode := by
    rw [hcall, ← positiveAttempt.run_setup]
    exact transaction_snd_of_error hanswer
  rw [run, Machine.run_concat]
  have hrun := positiveAttempt.run_setup
  rw [run] at hrun
  rw [hrun, hstep]
  exact congrArg Prod.fst (Attempt.claim_prepared positive_claimable)

end Positive

end Etp.Sqlite
