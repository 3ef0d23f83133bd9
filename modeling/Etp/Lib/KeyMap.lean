import Etp.Lib.Utf8

/-!
# Maps with string keys

`BTreeMap<String, V>` as the list of its entries in iteration order: keys are
strictly increasing in the byte order of strings.  `KeyMap.insert` replaces the
value of a key that is already there, and `KeyMap.collect` inserts the entries
of a list from left to right, so the last entry of a key wins.

`Sorted.ext` is what makes such a map canonical: sorted lists with the same
lookups are equal.
-/

namespace Etp.KeyMap

variable {α β : Type*}

/-- The map with the key bound to the value, in the order of the bytes of the keys. -/
def insert (k : String) (v : α) : List (String × α) → List (String × α)
  | [] => [(k, v)]
  | (k', v') :: m =>
      if ByteLt k k' then (k, v) :: (k', v') :: m
      else if ByteLt k' k then (k', v') :: insert k v m
      else (k, v) :: m

/-- `iter.collect::<BTreeMap<_, _>>()` -/
def collect (entries : List (String × α)) : List (String × α) :=
  entries.foldl (fun m e ↦ insert e.1 e.2 m) []

/-- The representation invariant: keys strictly increase. -/
def Sorted (m : List (String × α)) : Prop := m.Pairwise fun a b ↦ ByteLt a.1 b.1

/-! ## Lookup -/

theorem lookup_cons (j k : String) (v : α) (m : List (String × α)) :
    ((k, v) :: m).lookup j = if j = k then some v else m.lookup j := by
  rw [List.lookup_cons]
  by_cases h : j = k
  · simp [h]
  · simp [beq_eq_false_iff_ne.mpr h, h]

/-- A lookup after an insertion. -/
theorem lookup_insert (j k : String) (v : α) (m : List (String × α)) :
    (insert k v m).lookup j = if j = k then some v else m.lookup j := by
  induction m with
  | nil => simp only [insert, lookup_cons]
  | cons e m ih =>
      obtain ⟨k', v'⟩ := e
      rw [insert]
      by_cases h₁ : ByteLt k k'
      · rw [if_pos h₁, lookup_cons, lookup_cons]
      · rw [if_neg h₁]
        by_cases h₂ : ByteLt k' k
        · rw [if_pos h₂, lookup_cons, ih, lookup_cons]
          have hne : k ≠ k' := by rintro rfl; exact h₁ h₂
          split_ifs <;> simp_all
        · obtain rfl := ByteLt.eq_of_not h₁ h₂
          rw [if_neg h₂, lookup_cons, lookup_cons]
          split_ifs <;> rfl

theorem lookup_foldl_insert (j : String) (entries m : List (String × α)) :
    (entries.foldl (fun m e ↦ insert e.1 e.2 m) m).lookup j =
      (entries.reverse.lookup j).or (m.lookup j) := by
  induction entries generalizing m with
  | nil => simp
  | cons e es ih =>
      rw [List.foldl_cons, ih, lookup_insert, List.reverse_cons, List.lookup_append, lookup_cons]
      split_ifs <;> cases es.reverse.lookup j <;> simp

/-- The last entry of a key is the one that counts. -/
theorem lookup_collect (j : String) (entries : List (String × α)) :
    (collect entries).lookup j = entries.reverse.lookup j := by
  simp [collect, lookup_foldl_insert]

theorem lookup_eq_some_iff {κ : Type*} [BEq κ] [LawfulBEq κ] {m : List (κ × α)}
    (h : (m.map Prod.fst).Nodup) {j : κ} {v : α} : m.lookup j = some v ↔ (j, v) ∈ m := by
  induction m with
  | nil => simp
  | cons e m ih =>
      obtain ⟨k, w⟩ := e
      rw [List.map_cons, List.nodup_cons] at h
      rw [List.lookup_cons, List.mem_cons]
      rcases eq_or_ne j k with rfl | hj
      · have : (j, v) ∉ m := fun hm ↦ h.1 (List.mem_map.mpr ⟨_, hm, rfl⟩)
        simp [this, eq_comm]
      · simp [beq_eq_false_iff_ne.mpr hj, hj, ih h.2]

theorem mem_keys_of_lookup {m : List (String × α)} {j : String} {v : α}
    (h : m.lookup j = some v) : j ∈ m.map Prod.fst := by
  obtain ⟨l₁, l₂, rfl, -⟩ := List.lookup_eq_some_iff.mp h
  simp

theorem lookup_reverse {m : List (String × α)} (h : (m.map Prod.fst).Nodup) (j : String) :
    m.reverse.lookup j = m.lookup j := by
  have h' : (m.reverse.map Prod.fst).Nodup := by simpa [List.map_reverse] using h
  ext v
  rw [lookup_eq_some_iff h, lookup_eq_some_iff h', List.mem_reverse]

/-- A map that is built from distinct keys finds what the list finds. -/
theorem lookup_collect_of_nodup {entries : List (String × α)}
    (h : (entries.map Prod.fst).Nodup) (j : String) :
    (collect entries).lookup j = entries.lookup j := by
  rw [lookup_collect, lookup_reverse h]

/-! ## Order -/

theorem mem_insert {k : String} {v : α} {m : List (String × α)} {e : String × α}
    (h : e ∈ insert k v m) : e = (k, v) ∨ e ∈ m := by
  induction m with
  | nil => simpa [insert] using h
  | cons e' m ih =>
      obtain ⟨k', v'⟩ := e'
      rw [insert] at h
      split_ifs at h
      · simpa using h
      · rcases List.mem_cons.mp h with rfl | h
        · simp
        · exact (ih h).imp_right (List.mem_cons_of_mem _)
      · exact (List.mem_cons.mp h).imp_right (List.mem_cons_of_mem _)

theorem Sorted.insert {m : List (String × α)} (h : Sorted m) (k : String) (v : α) :
    Sorted (insert k v m) := by
  induction m with
  | nil => exact List.pairwise_singleton _ _
  | cons e m ih =>
      obtain ⟨k', v'⟩ := e
      obtain ⟨hk', hm⟩ := List.pairwise_cons.mp h
      rw [KeyMap.insert]
      split_ifs with h₁ h₂
      · refine List.pairwise_cons.mpr ⟨fun e he ↦ ?_, h⟩
        rcases List.mem_cons.mp he with rfl | he
        · exact h₁
        · exact h₁.trans (hk' e he)
      · refine List.pairwise_cons.mpr ⟨fun e he ↦ ?_, ih hm⟩
        rcases mem_insert he with rfl | he
        · exact h₂
        · exact hk' e he
      · obtain rfl := ByteLt.eq_of_not h₁ h₂
        exact List.pairwise_cons.mpr ⟨hk', hm⟩

theorem sorted_foldl_insert (entries : List (String × α)) {m : List (String × α)}
    (h : Sorted m) : Sorted (entries.foldl (fun m e ↦ KeyMap.insert e.1 e.2 m) m) := by
  induction entries generalizing m with
  | nil => exact h
  | cons e es ih => exact ih (h.insert e.1 e.2)

/-- A map is sorted however it was built. -/
theorem sorted_collect (entries : List (String × α)) : Sorted (collect entries) :=
  sorted_foldl_insert entries List.Pairwise.nil

theorem Sorted.nodup {m : List (String × α)} (h : Sorted m) : (m.map Prod.fst).Nodup := by
  refine List.pairwise_map.mpr (h.imp ?_)
  rintro a b hab heq
  rw [heq] at hab
  exact ByteLt.irrefl _ hab

/-- A sorted list is determined by its lookups. -/
theorem Sorted.ext {m m' : List (String × α)} (h : Sorted m) (h' : Sorted m')
    (hl : ∀ j, m.lookup j = m'.lookup j) : m = m' := by
  have hmem : ∀ e, e ∈ m ↔ e ∈ m' := fun e ↦ by
    rw [← lookup_eq_some_iff h.nodup, ← lookup_eq_some_iff h'.nodup, hl]
  have hperm : m.Perm m' :=
    (List.perm_ext_iff_of_nodup h.nodup.of_map h'.nodup.of_map).mpr hmem
  exact hperm.eq_of_pairwise (fun a b _ _ hab hba ↦ absurd hba hab.asymm) h h'

/-- A sorted list of entries is the map that is built from it. -/
theorem Sorted.collect_eq {m : List (String × α)} (h : Sorted m) : collect m = m :=
  (sorted_collect m).ext h fun j ↦ lookup_collect_of_nodup h.nodup j

/-- Collecting entries with distinct keys only reorders them. -/
theorem collect_perm {m : List (String × α)} (h : (m.map Prod.fst).Nodup) :
    (collect m).Perm m := by
  refine (List.perm_ext_iff_of_nodup (sorted_collect m).nodup.of_map h.of_map).mpr fun e ↦ ?_
  rw [← lookup_eq_some_iff (sorted_collect m).nodup, ← lookup_eq_some_iff h,
    lookup_collect_of_nodup h]

/-! ## Values -/

/-- The map with a function applied to its values. -/
def mapVal (f : α → β) (m : List (String × α)) : List (String × β) :=
  m.map fun e ↦ (e.1, f e.2)

theorem lookup_mapVal (f : α → β) (m : List (String × α)) (j : String) :
    (mapVal f m).lookup j = (m.lookup j).map f := by
  induction m with
  | nil => rfl
  | cons e m ih =>
      obtain ⟨k, v⟩ := e
      rw [lookup_cons, mapVal, List.map_cons, lookup_cons]
      split_ifs
      · rfl
      · exact ih

theorem insert_mapVal (f : α → β) (k : String) (v : α) (m : List (String × α)) :
    insert k (f v) (mapVal f m) = mapVal f (insert k v m) := by
  induction m with
  | nil => rfl
  | cons e m ih =>
      obtain ⟨k', v'⟩ := e
      simp only [mapVal, List.map_cons, insert] at ih ⊢
      split_ifs <;> simp [ih]

theorem foldl_insert_mapVal (f : α → β) (l m : List (String × α)) :
    (mapVal f l).foldl (fun m e ↦ insert e.1 e.2 m) (mapVal f m) =
      mapVal f (l.foldl (fun m e ↦ insert e.1 e.2 m) m) := by
  induction l generalizing m with
  | nil => rfl
  | cons e l ih =>
      have := ih (insert e.1 e.2 m)
      rw [← insert_mapVal] at this
      exact this

/-- To build a map and to apply a function to its values commute. -/
theorem collect_mapVal (f : α → β) (l : List (String × α)) :
    collect (mapVal f l) = mapVal f (collect l) :=
  foldl_insert_mapVal f l []

end Etp.KeyMap
