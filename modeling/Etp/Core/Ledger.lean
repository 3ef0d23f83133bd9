import Etp.Core.Acceptance

/-!
# The ledger a lifecycle store keeps

A store that takes records one at a time is judged against the batch verifier.
Its abstract state is a `Ledger`: for every registered grant, the bundle of the
records it has taken so far.  Every bundle of a ledger is to be one that
`verify_transaction` accepts, and appending a reconciliation is to do exactly
what the verifier would allow (`AppendAgrees`).

Nothing here knows how a store represents its bundles.  A store shows that its
append takes one of three courses (`AppendCourse`), and `AppendCourse.agrees`
turns that into the agreement.
-/

namespace Etp.Core

variable [Sha256]

/-- The bundle of each registered grant, by grant identifier. -/
abbrev Ledger := String → Option TransactionBundle

def TransactionBundle.extend (b : TransactionBundle) (r : ReconciliationRecord) :
    TransactionBundle := { b with reconciliations := b.reconciliations ++ [r] }

/-- The record stands in the history at its own position. -/
def TransactionBundle.HasAt (b : TransactionBundle) (r : ReconciliationRecord) : Prop :=
  0 < r.sequence ∧ b.reconciliations[r.sequence - 1]? = some r

/-- The batch verifier accepts the bundle. -/
def Verifies (b : TransactionBundle) : Prop := ∃ v, verifyTransaction b = .ok v

theorem verifies_iff {b : TransactionBundle} : Verifies b ↔ AcceptedBundle b :=
  ⟨fun ⟨_, h⟩ ↦ (verifyTransaction_eq_ok.mp h).1, fun h ↦ ⟨_, verifyTransaction_eq_ok.mpr ⟨h, rfl⟩⟩⟩

namespace Ledger

/-- Every registered grant has an accepted bundle that ends in that grant or later. -/
def Sound (L : Ledger) : Prop := ∀ id b, L id = some b → Verifies b

/-- No two grants have receipts with one commitment. -/
def UniqueReceipts (L : Ledger) : Prop :=
  ∀ id b r id' b' r', L id = some b → r ∈ b.receipt → L id' = some b' → r' ∈ b'.receipt →
    recordHash r = recordHash r' → id = id'

/-- The identifier of the record occurs in the history of no other grant. -/
def UnusedElsewhere (L : Ledger) (id : String) (r : ReconciliationRecord) : Prop :=
  ∀ id' b', id' ≠ id → L id' = some b' →
    r.reconciliationId ∉ b'.reconciliations.map ReconciliationRecord.reconciliationId

/-- The ledger with one record appended to the history of one grant. -/
def append (L : Ledger) (id : String) (r : ReconciliationRecord) : Ledger :=
  Function.update L id ((L id).map (·.extend r))

end Ledger

/-! ## Extending an accepted bundle -/

/-- What a record needs to extend an accepted history. -/
theorem accepted_extend_iff {b : TransactionBundle} {r : ReconciliationRecord}
    (h : AcceptedBundle b) :
    AcceptedBundle (b.extend r) ↔ b.reconciliations.length < maxReconciliationRecords ∧
      (∃ receipt ∈ b.receipt, ReconciliationFor receipt r) ∧
      ParentLink b.reconciliations.getLast? r ∧
      r.reconciliationId ∉ b.reconciliations.map ReconciliationRecord.reconciliationId := by
  constructor
  · intro hx
    obtain ⟨receipt, hr, hh⟩ := hx.history (by simp [TransactionBundle.extend])
    have hlen := hx.limit
    have hlinked := (Chained.concat_iff.mp hh.linked).2
    have hd := hh.distinct
    simp only [TransactionBundle.extend, List.length_append, List.length_singleton] at hlen
    rw [Option.or_none] at hlinked
    simp only [TransactionBundle.extend, List.map_append, List.map_cons, List.map_nil,
      List.nodup_append, List.mem_singleton, forall_eq] at hd
    refine ⟨by omega, ⟨receipt, hr, hh.each r (by simp [TransactionBundle.extend])⟩, hlinked,
      fun hmem ↦ hd.2.2 _ hmem rfl⟩
  · rintro ⟨hlen, ⟨receipt, hr, hfor⟩, hlink, hid⟩
    have hh := h.history_of_receipt hr
    refine ⟨by simp only [TransactionBundle.extend, List.length_append,
      List.length_singleton]; omega,
      h.decision, h.grant, h.receipt, fun _ ↦ ⟨receipt, hr, ?_, ?_, ?_⟩⟩
    · intro x hx
      rcases List.mem_append.mp hx with hx | hx
      · exact hh.each x hx
      · rw [List.mem_singleton.mp hx]
        exact hfor
    · exact Chained.concat_iff.mpr ⟨hh.linked, by rwa [Option.or_none]⟩
    · simp only [TransactionBundle.extend, List.map_append, List.map_cons, List.map_nil]
      refine List.nodup_append.mpr ⟨hh.distinct, List.nodup_singleton _, ?_⟩
      rintro x hx y hy rfl
      rw [List.mem_singleton] at hy
      exact hid (hy ▸ hx)

/-- A record that extends an accepted history carries the next sequence number. -/
theorem sequence_of_extend {b : TransactionBundle} {r : ReconciliationRecord}
    (h : AcceptedBundle (b.extend r)) : r.sequence = b.reconciliations.length + 1 := by
  have := sequence_eq_of_linked h.linked b.reconciliations.length
    (by simp [TransactionBundle.extend])
  simpa [TransactionBundle.extend] using this

omit [Sha256] in
theorem TransactionBundle.HasAt.mem {b : TransactionBundle} {r : ReconciliationRecord}
    (h : b.HasAt r) : r ∈ b.reconciliations := List.mem_of_getElem? h.2

omit [Sha256] in
theorem TransactionBundle.HasAt.sequence_le {b : TransactionBundle} {r : ReconciliationRecord}
    (h : b.HasAt r) : r.sequence ≤ b.reconciliations.length := by
  have hlt := (List.getElem?_eq_some_iff.mp h.2).1
  have := h.1
  omega

theorem not_extend_of_hasAt {b : TransactionBundle} {r : ReconciliationRecord} (h : b.HasAt r) :
    ¬AcceptedBundle (b.extend r) := fun hx ↦ by
  have h₁ := h.sequence_le
  have h₂ := sequence_of_extend hx
  omega

/-! ## Appending -/

section Append

variable {σ ε : Type*} (view : σ → Ledger) (free : Ledger → String → ReconciliationRecord → Prop)

/-- How one append to a store agrees with the batch verifier, when the store asks `free`
of the record on top. -/
structure AppendAgrees (s : σ) (r : ReconciliationRecord) (answer : Except ε Digest32) (s' : σ) :
    Prop where
  /-- A history grows by the record exactly when the verifier accepts the longer one. -/
  added_iff : ∀ id b, view s id = some b →
    (view s' id = some (b.extend r) ↔ Verifies (b.extend r) ∧ free (view s) id r)
  /-- Then the call succeeds and no other history changes. -/
  added : ∀ id b, view s id = some b → Verifies (b.extend r) → free (view s) id r →
    (∃ h, answer = .ok h) ∧ view s' = (view s).append id r
  /-- The call succeeds without a change exactly when the record stands at its position. -/
  replayed_iff : (∃ h, answer = .ok h) ∧ s' = s ↔ ∃ id b, view s id = some b ∧ b.HasAt r
  /-- In every other case the call fails and changes nothing. -/
  rejected : (¬∃ id b, view s id = some b ∧ Verifies (b.extend r) ∧ free (view s) id r) →
    (¬∃ id b, view s id = some b ∧ b.HasAt r) → (∃ e, answer = .error e) ∧ s' = s

/-- The three courses an append can take. -/
inductive AppendCourse (s : σ) (r : ReconciliationRecord) (answer : Except ε Digest32) (s' : σ) :
    Prop
  | added {id : String} {b : TransactionBundle} (hb : view s id = some b)
      (hv : AcceptedBundle (b.extend r)) (hf : free (view s) id r)
      (ha : answer = .ok (recordHash r)) (hs : view s' = (view s).append id r)
  | replayed {id : String} {b : TransactionBundle} (hb : view s id = some b) (hat : b.HasAt r)
      (ha : answer = .ok (recordHash r)) (hs : s' = s)
  | rejected {e : ε}
      (hx : ∀ id b, view s id = some b → AcceptedBundle (b.extend r) → ¬free (view s) id r)
      (hat : ∀ id b, view s id = some b → ¬b.HasAt r) (ha : answer = .error e) (hs : s' = s)

variable {view free} {s s' : σ} {r : ReconciliationRecord} {answer : Except ε Digest32}

omit [Sha256] in
theorem extend_ne (b : TransactionBundle) (r : ReconciliationRecord) : b.extend r ≠ b := fun h ↦ by
  have := congrArg (fun b ↦ b.reconciliations.length) h
  simp [TransactionBundle.extend] at this

/-- A record belongs to at most one grant of the ledger. -/
theorem Ledger.eq_of_reconciliationFor {L : Ledger} (hu : L.UniqueReceipts) {id id' : String}
    {b b' : TransactionBundle} (hb : L id = some b) (hb' : L id' = some b')
    (h : ∃ receipt ∈ b.receipt, ReconciliationFor receipt r)
    (h' : ∃ receipt ∈ b'.receipt, ReconciliationFor receipt r) : id = id' := by
  obtain ⟨rc, hrc, hf⟩ := h
  obtain ⟨rc', hrc', hf'⟩ := h'
  exact hu id b rc id' b' rc' hb hrc hb' hrc' (by rw [← hf.receipt_hash, hf'.receipt_hash])

theorem AppendCourse.agrees (hsound : (view s).Sound) (hu : (view s).UniqueReceipts)
    (h : AppendCourse view free s r answer s') : AppendAgrees view free s r answer s' := by
  have hacc : ∀ {id b}, view s id = some b → AcceptedBundle b := fun hb ↦
    verifies_iff.mp (hsound _ _ hb)
  have hext : ∀ {id b}, view s id = some b → AcceptedBundle (b.extend r) →
      ∃ receipt ∈ b.receipt, ReconciliationFor receipt r := fun hb hx ↦
    ((accepted_extend_iff (hacc hb)).mp hx).2.1
  have hat : ∀ {id b}, view s id = some b → b.HasAt r →
      ∃ receipt ∈ b.receipt, ReconciliationFor receipt r := fun hb ha ↦
    (hacc hb).exists_receipt ha.mem
  cases h with
  | added hb hv hf ha hs =>
      rename_i id₀ b₀
      have only : ∀ {id b}, view s id = some b → AcceptedBundle (b.extend r) →
          id = id₀ := fun hb' hv' ↦
        Ledger.eq_of_reconciliationFor hu hb' hb (hext hb' hv') (hext hb hv)
      have hchanged : s' ≠ s := by
        rintro rfl
        have := congrFun hs id₀
        rw [Ledger.append, Function.update_self, hb, Option.map_some] at this
        exact extend_ne b₀ r (Option.some.inj this).symm
      refine ⟨fun id b hb' ↦ ⟨fun heq ↦ ?_, fun ⟨hv', _⟩ ↦ ?_⟩, fun id b hb' hv' _ ↦ ?_, ?_, ?_⟩
      · by_cases hid : id = id₀
        · subst hid
          rw [hb] at hb'
          cases hb'
          exact ⟨verifies_iff.mpr hv, hf⟩
        · rw [hs, Ledger.append, Function.update_of_ne hid, hb'] at heq
          exact absurd (Option.some.inj heq).symm (extend_ne b r)
      · obtain rfl := only hb' (verifies_iff.mp hv')
        rw [hs, Ledger.append, Function.update_self, hb', Option.map_some]
      · obtain rfl := only hb' (verifies_iff.mp hv')
        exact ⟨⟨_, ha⟩, hs⟩
      · refine iff_of_false (fun hr ↦ hchanged hr.2) ?_
        rintro ⟨id, b, hb', hat'⟩
        obtain rfl := Ledger.eq_of_reconciliationFor hu hb' hb (hat hb' hat') (hext hb hv)
        rw [hb] at hb'
        cases hb'
        exact not_extend_of_hasAt hat' hv
      · intro hno _
        exact absurd ⟨_, _, hb, verifies_iff.mpr hv, hf⟩ hno
  | replayed hb hat₀ ha hs =>
      subst hs
      have none_extends : ∀ {id b}, view s' id = some b → ¬AcceptedBundle (b.extend r) := by
        intro id b hb' hv'
        obtain rfl := Ledger.eq_of_reconciliationFor hu hb' hb (hext hb' hv') (hat hb hat₀)
        rw [hb] at hb'
        cases hb'
        exact not_extend_of_hasAt hat₀ hv'
      refine ⟨fun id b hb' ↦ ?_, fun id b hb' hv' ↦ ?_, ?_, ?_⟩
      · refine iff_of_false (fun heq ↦ ?_) fun ⟨hv', _⟩ ↦ none_extends hb' (verifies_iff.mp hv')
        rw [hb'] at heq
        exact extend_ne b r (Option.some.inj heq).symm
      · exact absurd (verifies_iff.mp hv') (none_extends hb')
      · exact iff_of_true ⟨⟨_, ha⟩, rfl⟩ ⟨_, _, hb, hat₀⟩
      · exact fun _ hno ↦ absurd ⟨_, _, hb, hat₀⟩ hno
  | rejected hx hat₀ ha hs =>
      subst hs
      refine ⟨fun id b hb ↦ ?_, fun id b hb hv hf ↦ ?_, ?_, fun _ _ ↦ ⟨⟨_, ha⟩, rfl⟩⟩
      · refine iff_of_false (fun heq ↦ ?_) fun ⟨hv, hf⟩ ↦ hx id b hb (verifies_iff.mp hv) hf
        rw [hb] at heq
        exact extend_ne b r (Option.some.inj heq).symm
      · exact absurd hf (hx id b hb (verifies_iff.mp hv))
      · refine iff_of_false ?_ fun ⟨id, b, hb, hat'⟩ ↦ hat₀ id b hb hat'
        rintro ⟨⟨h, hok⟩, -⟩
        rw [ha] at hok
        cases hok

end Append

end Etp.Core
