import Mathlib

/-!
# Tables with unique keys

A table is the list of its rows in insertion order, and a `UNIQUE` column is a
key on which the rows differ.  `lookupBy` is the `SELECT` that such a column
allows, `updateWhere` the `UPDATE`.

The lemmas carry lookups through the three things that happen to a table here:
a row is appended, rows are rewritten in place, and the whole table is encoded
row by row.
-/

namespace Etp

variable {ρ σ κ ν : Type*}

/-- No two rows agree on the key. -/
def UniqueBy (key : ρ → κ) (rows : List ρ) : Prop := (rows.map key).Nodup

/-- `UPDATE … SET … WHERE …` -/
def updateWhere (p : ρ → Bool) (f : ρ → ρ) (rows : List ρ) : List ρ :=
  rows.map fun r ↦ if p r then f r else r

section Unique

variable {key : ρ → κ} {rows : List ρ} {r : ρ}

theorem UniqueBy.nil : UniqueBy key ([] : List ρ) := List.nodup_nil

theorem uniqueBy_concat :
    UniqueBy key (rows ++ [r]) ↔ UniqueBy key rows ∧ ∀ q ∈ rows, key q ≠ key r := by
  simp [UniqueBy, List.nodup_append]

theorem UniqueBy.eq (hu : UniqueBy key rows) {q : ρ} (hq : q ∈ rows) (hr : r ∈ rows)
    (h : key q = key r) : q = r := List.inj_on_of_nodup_map hu hq hr h

/-- A key that determines a unique one is unique. -/
theorem UniqueBy.of_determines {column : ρ → ν} (hu : UniqueBy key rows)
    (h : ∀ q ∈ rows, ∀ r ∈ rows, column q = column r → key q = key r) : UniqueBy column rows :=
  List.Nodup.map_on (fun q hq r hr heq ↦ hu.eq hq hr (h q hq r hr heq)) (List.Nodup.of_map key hu)

theorem uniqueBy_iff_countP [DecidableEq κ] :
    UniqueBy key rows ↔ ∀ k, rows.countP (fun r ↦ key r = k) ≤ 1 := by
  rw [UniqueBy, List.nodup_iff_count_le_one]
  refine forall_congr' fun k ↦ ?_
  rw [List.count, List.countP_map]
  have : ((fun c ↦ c == k) ∘ key) = fun r ↦ decide (key r = k) := by
    funext r
    exact beq_eq_decide _ _
  rw [this]

end Unique

section Lookup

variable [DecidableEq κ] {key : ρ → κ} {k : κ} {rows : List ρ} {r : ρ}

/-- `SELECT … WHERE key = ?` -/
def lookupBy (key : ρ → κ) (k : κ) (rows : List ρ) : Option ρ := rows.find? fun r ↦ key r = k

theorem mem_of_lookupBy (h : lookupBy key k rows = some r) : r ∈ rows := List.mem_of_find?_eq_some h

theorem key_of_lookupBy (h : lookupBy key k rows = some r) : key r = k := by
  simpa using List.find?_some h

theorem lookupBy_eq_none_iff : lookupBy key k rows = none ↔ ∀ r ∈ rows, key r ≠ k := by
  simp [lookupBy]

theorem lookupBy_isSome_iff : (lookupBy key k rows).isSome ↔ ∃ r ∈ rows, key r = k := by
  simp [lookupBy]

theorem lookupBy_append (more : List ρ) :
    lookupBy key k (rows ++ more) = (lookupBy key k rows).or (lookupBy key k more) :=
  List.find?_append

theorem lookupBy_singleton : lookupBy key k [r] = if key r = k then some r else none := by
  by_cases h : key r = k <;> simp [lookupBy, h]

theorem lookupBy_append_of_some (h : lookupBy key k rows = some r) (more : List ρ) :
    lookupBy key k (rows ++ more) = some r := by rw [lookupBy_append, h, Option.some_or]

/-- A new row is found under its own key and nothing else changes. -/
theorem lookupBy_concat (hfresh : ∀ q ∈ rows, key q ≠ key r) :
    lookupBy key k (rows ++ [r]) = if key r = k then some r else lookupBy key k rows := by
  rw [lookupBy_append, lookupBy_singleton]
  split_ifs with h
  · rw [lookupBy_eq_none_iff.mpr (h ▸ hfresh), Option.none_or]
  · rw [Option.or_none]

/-! ### Unique keys -/

theorem UniqueBy.lookupBy_eq_some_iff (hu : UniqueBy key rows) :
    lookupBy key k rows = some r ↔ r ∈ rows ∧ key r = k := by
  refine ⟨fun h ↦ ⟨mem_of_lookupBy h, key_of_lookupBy h⟩, fun ⟨hr, hk⟩ ↦ ?_⟩
  cases h : lookupBy key k rows with
  | none => exact absurd hk (lookupBy_eq_none_iff.mp h r hr)
  | some q => rw [hu.eq (mem_of_lookupBy h) hr ((key_of_lookupBy h).trans hk.symm)]

/-! ### Rewriting rows in place -/

section Update

variable {p : ρ → Bool} {f : ρ → ρ}

theorem getElem?_updateWhere (i : ℕ) :
    (updateWhere p f rows)[i]? = rows[i]?.map fun r ↦ if p r then f r else r := List.getElem?_map

theorem mem_updateWhere {q : ρ} :
    q ∈ updateWhere p f rows ↔ (q ∈ rows ∧ p q = false) ∨ ∃ r ∈ rows, p r = true ∧ f r = q := by
  simp only [updateWhere, List.mem_map]
  constructor
  · rintro ⟨r, hr, rfl⟩
    by_cases h : p r = true
    · exact .inr ⟨r, hr, h, by rw [if_pos h]⟩
    · rw [if_neg h]
      exact .inl ⟨hr, by simpa using h⟩
  · rintro (⟨hq, h⟩ | ⟨r, hr, h, rfl⟩)
    · exact ⟨q, hq, by rw [h]; rfl⟩
    · exact ⟨r, hr, if_pos h⟩

omit [DecidableEq κ] in
theorem map_updateWhere (hkey : ∀ r, key (f r) = key r) :
    (updateWhere p f rows).map key = rows.map key := by
  rw [updateWhere, List.map_map]
  refine List.map_congr_left fun r _ ↦ ?_
  simp only [Function.comp_apply]
  split <;> simp [hkey]

omit [DecidableEq κ] in
theorem UniqueBy.updateWhere (hu : UniqueBy key rows) (hkey : ∀ r, key (f r) = key r) :
    UniqueBy key (updateWhere p f rows) := by rwa [UniqueBy, map_updateWhere hkey]

theorem lookupBy_updateWhere (hkey : ∀ r, key (f r) = key r) :
    lookupBy key k (updateWhere p f rows) =
      (lookupBy key k rows).map fun r ↦ if p r then f r else r := by
  rw [updateWhere, lookupBy, lookupBy, List.find?_map]
  congr 2
  funext r
  simp only [Function.comp_apply]
  split <;> simp [hkey]

/-- Putting a row in the place of those with its key. -/
theorem lookupBy_replace (h : (lookupBy key (key r) rows).isSome) :
    lookupBy key k (updateWhere (fun q ↦ key q = key r) (fun _ ↦ r) rows) =
      if key r = k then some r else lookupBy key k rows := by
  have hkeyed : ∀ q, key (if decide (key q = key r) then r else q) = key q := fun q ↦ by
    by_cases hq : key q = key r <;> simp [hq]
  have : lookupBy key k (updateWhere (fun q ↦ key q = key r) (fun _ ↦ r) rows) =
      (lookupBy key k rows).map fun q ↦ if decide (key q = key r) then r else q := by
    rw [updateWhere, lookupBy, lookupBy, List.find?_map]
    congr 2
    funext q
    simp only [Function.comp_apply]
    rw [hkeyed]
  rw [this]
  cases hk : lookupBy key k rows with
  | none =>
      have hne : key r ≠ k := by
        rintro rfl
        simp [hk] at h
      simp [hne]
  | some q =>
      rw [Option.map_some, key_of_lookupBy hk]
      by_cases hkr : k = key r
      · simp [hkr]
      · simp [hkr, Ne.symm hkr]

end Update

/-! ### Encoding a table row by row -/

section Encode

variable [DecidableEq ν] {g : κ → ν} {e : ρ → σ} {column : σ → ν}

theorem lookupBy_map (hcol : ∀ r, column (e r) = g (key r)) (hg : Function.Injective g) :
    lookupBy column (g k) (rows.map e) = (lookupBy key k rows).map e := by
  rw [lookupBy, lookupBy, List.find?_map]
  congr 2
  funext r
  simp [hcol, hg.eq_iff]

omit [DecidableEq κ] [DecidableEq ν] in
theorem mem_column (hcol : ∀ r, column (e r) = g (key r)) (hg : Function.Injective g) :
    g k ∈ (rows.map e).map column ↔ k ∈ rows.map key := by
  simp [hcol, hg.eq_iff]

omit [DecidableEq κ] in
theorem map_updateWhere_encode (rows : List ρ) {p : ρ → Bool} {f : ρ → ρ} {q : σ → Bool} {h : σ → σ}
    (hp : ∀ r, q (e r) = p r) (hf : ∀ r ∈ rows, p r → h (e r) = e (f r)) :
    updateWhere q h (rows.map e) = (updateWhere p f rows).map e := by
  rw [updateWhere, updateWhere, List.map_map, List.map_map]
  refine List.map_congr_left fun r hr ↦ ?_
  by_cases hr' : p r = true
  · simp [hp, hr', hf r hr hr']
  · simp [hp, hr']

end Encode

end Lookup

/-! ## Sorting by a key -/

section Sorting

variable {key : ρ → Int} {rows : List ρ}

/-- `ORDER BY key` of rows that stand in that order. -/
theorem insertionSort_of_increasing (h : rows.Pairwise fun a b ↦ key a < key b) :
    rows.insertionSort (fun a b ↦ key a ≤ key b) = rows :=
  List.Pairwise.insertionSort_eq (h.imp fun hab ↦ hab.le)

/-- `ORDER BY key DESC` of rows that stand in increasing order. -/
theorem insertionSort_desc_of_increasing (h : rows.Pairwise fun a b ↦ key a < key b) :
    rows.insertionSort (fun a b ↦ key b ≤ key a) = rows.reverse := by
  have insert_last : ∀ {a : ρ} {l : List ρ}, (∀ b ∈ l, key a < key b) →
      l.orderedInsert (fun a b ↦ key b ≤ key a) a = l ++ [a] := by
    intro a l hl
    induction l with
    | nil => rfl
    | cons b l ih =>
        rw [List.orderedInsert_cons, if_neg (not_le.mpr (hl b (by simp))),
          ih fun c hc ↦ hl c (by simp [hc])]
        rfl
  induction h with
  | nil => rfl
  | cons ha _ ih =>
      rw [List.insertionSort_cons, ih, insert_last (by simpa using ha), List.reverse_cons]

end Sorting

end Etp
