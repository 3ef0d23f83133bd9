import Etp.Core.HighWater
import Etp.Core.Vectors

/-!
# Concurrent claims and one clock

A call of `claim` reads the clock first and takes the lock afterwards, so calls that read
the clock in one order may take the lock in another.  A world holds the calls that have
read the clock and wait for the lock; an action is one of the two steps of some call, or a
whole call of another operation.

A call is turned down as a rollback exactly when another with a later reading has been
faster, however well the clock behaves.
-/

namespace Etp.Core.ConcurrentClaims

open MemoryGrantStore

section Race

variable [Sha256]

/-- A call of `claim` that has read the clock. -/
structure Waiting where
  grant : ExecutionGrant
  request : GrantClaimRequest
  nowMs : Nat
  suppliedHash : Digest32

structure World where
  store : MemoryGrantState
  waiting : List Waiting
  /-- The readings of the calls that took the lock, in the order in which they did. -/
  locked : List Nat
  answers : List (Except ProtocolError GrantClaim)

inductive Action where
  | read (g : ExecutionGrant) (request : GrantClaimRequest) (now : Option Nat)
  | lock (i : Nat)
  | other (call : Call) (h : ¬IsClaim call)

namespace World

def empty : World where
  store := MemoryGrantStore.empty
  waiting := []
  locked := []
  answers := []

def step (w : World) : Action → World
  | .read g request now =>
      match claimRead g request now with
      | .error e => { w with answers := w.answers ++ [.error e] }
      | .ok (nowMs, suppliedHash) =>
          { w with waiting := w.waiting ++ [⟨g, request, nowMs, suppliedHash⟩] }
  | .lock i =>
      match w.waiting[i]? with
      | none => w
      | some c =>
          let result := claimUnderLock c.grant c.request c.nowMs c.suppliedHash w.store
          { store := result.2
            waiting := w.waiting.eraseIdx i
            locked := w.locked ++ [c.nowMs]
            answers := w.answers ++ [result.1] }
  | .other call _ => { w with store := MemoryGrantStore.step w.store call }

def run (actions : List Action) : World := Machine.run step empty actions

/-- No call was turned down as a rollback of the clock. -/
def NoRollback (w : World) : Prop := ∀ answer ∈ w.answers, answer ≠ .error .clockRollback

/-- The calls took the lock in the order of their readings. -/
def Ordered (w : World) : Prop := w.locked.Pairwise (· ≤ ·)

end World

/-! ## Schedules -/

/-- The readings of the calls that wait for the lock, and of those that took it. -/
structure Schedule where
  waiting : List Nat
  locked : List Nat

/-- Who takes the lock when does not depend on the store. -/
def Schedule.step (q : Schedule) : Action → Schedule
  | .read g request now =>
      match claimRead g request now with
      | .error _ => q
      | .ok (nowMs, _) => { q with waiting := q.waiting ++ [nowMs] }
  | .lock i =>
      match q.waiting[i]? with
      | none => q
      | some nowMs => ⟨q.waiting.eraseIdx i, q.locked ++ [nowMs]⟩
  | .other _ _ => q

/-- The readings in the order in which their calls take the lock. -/
def lockOrder (actions : List Action) : List Nat :=
  (Machine.run Schedule.step ⟨[], []⟩ actions).locked

/-- No call takes the lock after one with a later reading. -/
def InOrder (actions : List Action) : Prop := (lockOrder actions).Pairwise (· ≤ ·)

/-- What the clock said, in the order in which it was asked. -/
def readings (actions : List Action) : List Nat :=
  actions.filterMap fun
    | .read _ _ now => now
    | _ => none

/-- The clock never goes back. -/
def MonotoneClock (actions : List Action) : Prop := (readings actions).Pairwise (· ≤ ·)

/-! ## When a call is turned down -/

/-- As long as nothing was turned down, the trusted time is the greatest reading. -/
structure Tracked (w : World) : Prop where
  checked : Checked w.store
  mark : w.NoRollback → w.store.lastTrustedTimeMs = w.locked.max?
  order : w.NoRollback ↔ w.Ordered

theorem tracked_empty : Tracked .empty where
  checked := checked_empty
  mark := fun _ ↦ rfl
  order := iff_of_true (by rintro _ ⟨⟩) List.Pairwise.nil

section Step

variable {w : World} {actions : List Action}

omit [Sha256] in
theorem noRollback_concat {answer : Except ProtocolError GrantClaim} {w' : World}
    (h : w'.answers = w.answers ++ [answer]) :
    w'.NoRollback ↔ w.NoRollback ∧ answer ≠ .error .clockRollback := by
  simp only [World.NoRollback, h, List.forall_mem_append, List.forall_mem_singleton]

omit [Sha256] in
theorem forall_max?_iff {l : List Nat} {t : Nat} : (∀ m ∈ l.max?, m ≤ t) ↔ ∀ x ∈ l, x ≤ t := by
  cases hm : l.max? with
  | none => simp [List.max?_eq_none_iff.mp hm]
  | some m =>
      obtain ⟨hmem, hle⟩ := List.max?_eq_some_iff.mp hm
      constructor
      · intro h x hx
        exact (hle x hx).trans (h m rfl)
      · rintro h _ ⟨⟩
        exact h m hmem

theorem checked_claimUnderLock {c : Waiting} {s : MemoryGrantState} (hs : Checked s) :
    Checked (claimUnderLock c.grant c.request c.nowMs c.suppliedHash s).2 := by
  rw [claimUnderLock]
  split_ifs
  · exact hs
  · cases hlocked : claimLocked c.grant c.request c.nowMs c.suppliedHash (timed s c.nowMs) with
    | error e => exact hs
    | ok p =>
        obtain ⟨claim, s'⟩ := p
        obtain ⟨stored, hst, -, hchain, hown, -, -, rfl⟩ := claimLocked_eq_ok.mp hlocked
        intro id st hid
        rcases insert_eq_some.mp hid with ⟨rfl, rfl⟩ | ⟨-, hid⟩
        · exact ⟨hchain, hown.symm⟩
        · exact hs id st hid

theorem Tracked.read (h : Tracked w) (g : ExecutionGrant) (request : GrantClaimRequest)
    (now : Option Nat) : Tracked (w.step (.read g request now)) := by
  cases hread : claimRead g request now with
  | ok p =>
      have hstep : w.step (.read g request now) =
          { w with waiting := w.waiting ++ [⟨g, request, p.1, p.2⟩] } := by
        rw [World.step, hread]
      rw [hstep]
      exact ⟨h.checked, h.mark, h.order⟩
  | error e =>
      have hstep : w.step (.read g request now) =
          { w with answers := w.answers ++ [.error e] } := by
        rw [World.step, hread]
      have hne : (.error e : Except ProtocolError GrantClaim) ≠ .error .clockRollback := by
        rintro ⟨⟩
        exact (claimRead_error_ne hread).2 rfl
      have hiff : (w.step (.read g request now)).NoRollback ↔ w.NoRollback := by
        rw [noRollback_concat (congrArg World.answers hstep), and_iff_left hne]
      rw [hstep] at hiff ⊢
      exact ⟨h.checked, fun hno ↦ h.mark (hiff.mp hno), hiff.trans h.order⟩

theorem Tracked.lock (h : Tracked w) (i : Nat) : Tracked (w.step (.lock i)) := by
  cases hi : w.waiting[i]? with
  | none =>
      have hstep : w.step (.lock i) = w := by rw [World.step, hi]
      rwa [hstep]
  | some c =>
      have hstep : w.step (.lock i) =
          { store := (claimUnderLock c.grant c.request c.nowMs c.suppliedHash w.store).2
            waiting := w.waiting.eraseIdx i
            locked := w.locked ++ [c.nowMs]
            answers := w.answers ++
              [(claimUnderLock c.grant c.request c.nowMs c.suppliedHash w.store).1] } := by
        rw [World.step, hi]
      have hno : (w.step (.lock i)).NoRollback ↔ w.NoRollback ∧
          ¬∃ last ∈ w.store.lastTrustedTimeMs, c.nowMs < last := by
        rw [noRollback_concat (congrArg World.answers hstep), Ne,
          claimUnderLock_rollback_iff h.checked]
      have horder : (w.step (.lock i)).Ordered ↔ w.Ordered ∧ ∀ x ∈ w.locked, x ≤ c.nowMs := by
        rw [World.Ordered, congrArg World.locked hstep, List.pairwise_append]
        simp [World.Ordered]
      have hlast : w.NoRollback → ((¬∃ last ∈ w.store.lastTrustedTimeMs, c.nowMs < last) ↔
          ∀ x ∈ w.locked, x ≤ c.nowMs) := by
        intro hquiet
        rw [h.mark hquiet, ← forall_max?_iff]
        simp only [not_exists, not_and, not_lt]
      refine ⟨?_, fun hquiet ↦ ?_, ?_⟩
      · rw [hstep]
        exact checked_claimUnderLock h.checked
      · obtain ⟨hquiet, hle⟩ := hno.mp hquiet
        rw [hstep]
        show (claimUnderLock c.grant c.request c.nowMs c.suppliedHash w.store).2.lastTrustedTimeMs =
          (w.locked ++ [c.nowMs]).max?
        rw [claimUnderLock_time hle]
        exact (max?_append_of_le (forall_max?_iff.mpr ((hlast hquiet).mp hle))).symm
      · rw [hno, horder, ← h.order]
        exact and_congr_right hlast

theorem tracked_run (actions : List Action) : Tracked (World.run actions) := by
  refine Machine.run_invariant (fun w action h ↦ ?_) tracked_empty actions
  cases action with
  | read g request now => exact h.read g request now
  | lock i => exact h.lock i
  | other call hcall =>
      refine ⟨h.checked.change (change_of_step _ call), fun hno ↦ ?_, h.order⟩
      show (MemoryGrantStore.step w.store call).lastTrustedTimeMs = _
      rw [lastTrustedTime_step hcall]
      exact h.mark hno

end Step

/-! ## The order of the lock -/

def World.schedule (w : World) : Schedule := ⟨w.waiting.map Waiting.nowMs, w.locked⟩

theorem schedule_step (w : World) (action : Action) :
    (w.step action).schedule = w.schedule.step action := by
  cases action with
  | read g request now =>
      cases hread : claimRead g request now with
      | error e => simp only [World.step, Schedule.step, hread, World.schedule]
      | ok p => simp [World.step, Schedule.step, hread, World.schedule]
  | lock i =>
      have hwaiting : w.schedule.waiting[i]? = w.waiting[i]?.map Waiting.nowMs :=
        List.getElem?_map
      cases hi : w.waiting[i]? with
      | none =>
          rw [hi, Option.map_none] at hwaiting
          simp only [World.step, Schedule.step, hi, hwaiting]
      | some c =>
          rw [hi, Option.map_some] at hwaiting
          simp only [World.step, Schedule.step, hi, hwaiting]
          simp [World.schedule, List.eraseIdx_map]
  | other call h => rfl

theorem schedule_run (actions : List Action) :
    (World.run actions).schedule = Machine.run Schedule.step ⟨[], []⟩ actions := by
  induction actions using List.reverseRecOn with
  | nil => rfl
  | append_singleton actions action ih =>
      rw [World.run, Machine.run_concat, Machine.run_concat, ← ih]
      exact schedule_step _ action

theorem ordered_iff (actions : List Action) : (World.run actions).Ordered ↔ InOrder actions := by
  rw [InOrder, lockOrder, ← schedule_run]
  rfl

/-- In every interleaving, no call is turned down as a rollback exactly when the calls take
the lock in the order of their readings.  That the clock never goes back is not enough. -/
theorem noRollback_iff_inOrder (actions : List Action) :
    (World.run actions).NoRollback ↔ InOrder actions :=
  (tracked_run actions).order.trans (ordered_iff actions)

end Race

/-! ## Two calls at once -/

section Positive

open Vectors

theorem claimRead_of_valid {g : ExecutionGrant} {request : GrantClaimRequest} {nowMs : Nat}
    (hrequest : request.validate = .ok ()) (hsafe : nowMs ≤ maxSafeInteger)
    (hg : validate g = .ok ()) : claimRead g request (some nowMs) = .ok (nowMs, recordHash g) := by
  have hnow : validateSafeInteger "trusted now_ms" nowMs = .ok () :=
    validateSafeInteger_eq_ok.mpr hsafe
  simp only [claimRead, hrequest, ok_bind, okOr_some, commitment_of_valid hg, hnow]

/-- Two attempts for the positive grant.  The second reads the clock a millisecond after
the first, and takes the lock before it. -/
def racingActions : List Action := [
  .other (.register positiveCommitment positiveProposal positiveDecision positiveGrant) not_false,
  .read positiveGrant (positiveRequest "attempt-01") (some 1760000004000),
  .read positiveGrant (positiveRequest "attempt-02") (some 1760000004001),
  .lock 1,
  .lock 0]

theorem lockOrder_racingActions : lockOrder racingActions = [1760000004001, 1760000004000] := by
  have hfirst : claimRead positiveGrant (positiveRequest "attempt-01") (some 1760000004000) =
      .ok (1760000004000, recordHash positiveGrant) :=
    claimRead_of_valid rfl (by decide) positiveGrant_valid
  have hsecond : claimRead positiveGrant (positiveRequest "attempt-02") (some 1760000004001) =
      .ok (1760000004001, recordHash positiveGrant) :=
    claimRead_of_valid rfl (by decide) positiveGrant_valid
  simp [lockOrder, racingActions, Schedule.step, hfirst, hsecond]

/-- The clock moves forward, and a call is told that it went back. -/
theorem rollback_of_forward_clock :
    MonotoneClock racingActions ∧ ¬(World.run racingActions).NoRollback := by
  have hclock : readings racingActions = [1760000004000, 1760000004001] := rfl
  refine ⟨by rw [MonotoneClock, hclock]; decide, fun h ↦ ?_⟩
  have horder := (ordered_iff racingActions).mp ((tracked_run racingActions).order.mp h)
  rw [InOrder, lockOrder_racingActions] at horder
  revert horder
  decide

end Positive

end Etp.Core.ConcurrentClaims
