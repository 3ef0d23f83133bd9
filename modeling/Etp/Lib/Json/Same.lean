import Etp.Lib.Json.Sorted

/-!
# Values that are equal as maps

`Json.Same` compares two values with their objects taken as finite maps: the
members of an object may stand in any order.  For values in which no object
repeats a name, it is equality of the sorted values (`sortKeys_eq_iff`).
-/

namespace Etp.Json

/-! ## Induction over a value -/

/-- Induction in which an array or an object has the hypothesis for all its children. -/
@[elab_as_elim]
theorem induction {P : Json → Prop} (null : P null) (bool : ∀ b, P (bool b))
    (num : ∀ n, P (num n)) (str : ∀ s, P (str s))
    (arr : ∀ vs, (∀ v ∈ vs, P v) → P (arr vs))
    (obj : ∀ ms, (∀ e ∈ ms, P e.2) → P (obj ms)) (v : Json) : P v := by
  refine @Json.rec P (fun vs ↦ ∀ v ∈ vs, P v) (fun ms ↦ ∀ e ∈ ms, P e.2) (fun e ↦ P e.2)
    null bool num str (fun vs ↦ arr vs) (fun ms ↦ obj ms) ?_ ?_ ?_ ?_ ?_ v
  · simp
  · exact fun v vs hv hvs ↦ List.forall_mem_cons.mpr ⟨hv, hvs⟩
  · simp
  · exact fun e ms he hms ↦ List.forall_mem_cons.mpr ⟨he, hms⟩
  · exact fun _ _ hv ↦ hv

/-! ## Equality as maps -/

/-- Equality of values with objects compared as finite maps. -/
inductive Same : Json → Json → Prop
  | null : Same null null
  | bool (b : Bool) : Same (bool b) (bool b)
  | num (n : Int) : Same (num n) (num n)
  | str (s : String) : Same (str s) (str s)
  | arr {vs ws : List Json} (h : List.Forall₂ Same vs ws) : Same (arr vs) (arr ws)
  | obj {ms ns : List (String × Json)} (h : ∀ k, Option.Rel Same (ms.lookup k) (ns.lookup k)) :
      Same (obj ms) (obj ns)

/-- No object of the value repeats a name. -/
inductive Distinct : Json → Prop
  | null : Distinct null
  | bool (b : Bool) : Distinct (bool b)
  | num (n : Int) : Distinct (num n)
  | str (s : String) : Distinct (str s)
  | arr {vs : List Json} (h : ∀ v ∈ vs, Distinct v) : Distinct (arr vs)
  | obj {ms : List (String × Json)} (hkeys : (ms.map Prod.fst).Nodup)
      (h : ∀ e ∈ ms, Distinct e.2) : Distinct (obj ms)

theorem lookup_sortKeysMembers {ms : List (String × Json)} (h : (ms.map Prod.fst).Nodup)
    (k : String) :
    (KeyMap.collect (sortKeysMembers ms)).lookup k = (ms.lookup k).map sortKeys := by
  have hkeys : (sortKeysMembers ms).map Prod.fst = ms.map Prod.fst := by
    rw [sortKeysMembers_eq_mapVal]
    simp [KeyMap.mapVal]
  rw [KeyMap.lookup_collect_of_nodup (by rwa [hkeys]), sortKeysMembers_eq_mapVal,
    KeyMap.lookup_mapVal]

theorem map_eq_map_iff_forall₂ {α β : Type*} {f : α → β} {R : α → α → Prop} {xs ys : List α}
    (h : ∀ x ∈ xs, ∀ y ∈ ys, f x = f y ↔ R x y) :
    xs.map f = ys.map f ↔ List.Forall₂ R xs ys := by
  induction xs generalizing ys with
  | nil => cases ys <;> simp
  | cons x xs ih =>
      cases ys with
      | nil => simp
      | cons y ys =>
          have hxy := h x (by simp) y (by simp)
          have hrest := ih fun a ha b hb ↦
            h a (List.mem_cons_of_mem _ ha) b (List.mem_cons_of_mem _ hb)
          rw [List.map_cons, List.map_cons, List.cons.injEq, hxy, hrest, List.forall₂_cons]

theorem map_eq_map_iff_rel {α β : Type*} {f : α → β} {R : α → α → Prop} {x y : Option α}
    (h : ∀ a ∈ x, ∀ b ∈ y, f a = f b ↔ R a b) : x.map f = y.map f ↔ Option.Rel R x y := by
  cases x with
  | none => cases y <;> simp
  | some a =>
      cases y with
      | none => simp
      | some b => simpa using h a rfl b rfl

/-- Sorting decides equality as maps, when no object repeats a name. -/
theorem sortKeys_eq_iff {v w : Json} (hv : Distinct v) (hw : Distinct w) :
    v.sortKeys = w.sortKeys ↔ Same v w := by
  induction v using induction generalizing w with
  | null =>
      constructor
      · intro h
        cases w <;> simp_all [sortKeys, Same.null]
      · rintro ⟨⟩
        rfl
  | bool b =>
      constructor
      · intro h
        cases w <;> simp_all [sortKeys, Same.bool]
      · rintro ⟨⟩
        rfl
  | num n =>
      constructor
      · intro h
        cases w <;> simp_all [sortKeys, Same.num]
      · rintro ⟨⟩
        rfl
  | str s =>
      constructor
      · intro h
        cases w <;> simp_all [sortKeys, Same.str]
      · rintro ⟨⟩
        rfl
  | arr vs ih =>
      cases hv with
      | arr hvs =>
          cases hw with
          | arr hws =>
              rw [sortKeys, sortKeys, arr.injEq, sortKeysValues_eq_map, sortKeysValues_eq_map,
                map_eq_map_iff_forall₂ fun v hv w hw ↦ ih v hv (hvs v hv) (hws w hw)]
              exact ⟨.arr, fun h ↦ by cases h with | arr h => exact h⟩
          | _ => exact ⟨by rintro ⟨⟩, by rintro ⟨⟩⟩
  | obj ms ih =>
      cases hv with
      | obj hkeys hms =>
          cases hw with
          | @obj ns hkeys' hns =>
              have hrel : ∀ k, (ms.lookup k).map sortKeys = (ns.lookup k).map sortKeys ↔
                  Option.Rel Same (ms.lookup k) (ns.lookup k) := by
                refine fun k ↦ map_eq_map_iff_rel fun a ha b hb ↦ ?_
                have ha := (KeyMap.lookup_eq_some_iff hkeys).mp ha
                have hb := (KeyMap.lookup_eq_some_iff hkeys').mp hb
                exact ih _ ha (hms _ ha) (hns _ hb)
              rw [sortKeys, sortKeys, obj.injEq]
              constructor
              · intro h
                refine .obj fun k ↦ (hrel k).mp ?_
                rw [← lookup_sortKeysMembers hkeys, h, lookup_sortKeysMembers hkeys']
              · intro h
                cases h with
                | obj h =>
                    refine (KeyMap.sorted_collect _).ext (KeyMap.sorted_collect _) fun k ↦ ?_
                    rw [lookup_sortKeysMembers hkeys, lookup_sortKeysMembers hkeys']
                    exact (hrel k).mpr (h k)
          | _ => exact ⟨by rintro ⟨⟩, by rintro ⟨⟩⟩

/-! ## What sorting keeps -/

/-- The members of a sorted object are those of the object, with their values sorted. -/
theorem sortKeys_members_perm {ms : List (String × Json)} (h : (ms.map Prod.fst).Nodup) :
    (KeyMap.collect (sortKeysMembers ms)).Perm (KeyMap.mapVal sortKeys ms) := by
  have hkeys : ((KeyMap.mapVal sortKeys ms).map Prod.fst) = ms.map Prod.fst := by
    simp [KeyMap.mapVal]
  rw [sortKeysMembers_eq_mapVal]
  exact KeyMap.collect_perm (by rwa [hkeys])

theorem Distinct.sortKeys {v : Json} (h : Distinct v) : Distinct v.sortKeys := by
  induction v using induction with
  | null | bool _ | num _ | str _ => exact h
  | arr vs ih =>
      cases h with
      | arr hvs =>
          rw [Json.sortKeys, sortKeysValues_eq_map]
          refine .arr fun w hw ↦ ?_
          obtain ⟨v, hv, rfl⟩ := List.mem_map.mp hw
          exact ih v hv (hvs v hv)
  | obj ms ih =>
      cases h with
      | obj hkeys hms =>
          rw [Json.sortKeys]
          refine .obj (KeyMap.sorted_collect _).nodup fun e he ↦ ?_
          obtain ⟨d, hd, rfl⟩ := List.mem_map.mp ((sortKeys_members_perm hkeys).subset he)
          exact ih d hd (hms d hd)

theorem Distinct.nodes_sortKeys {v : Json} (h : Distinct v) : v.sortKeys.nodes = v.nodes := by
  induction v using induction with
  | null | bool _ | num _ | str _ => rfl
  | arr vs ih =>
      cases h with
      | arr hvs =>
          rw [Json.sortKeys, sortKeysValues_eq_map, nodes, nodes, nodesValues_eq_sum,
            nodesValues_eq_sum, List.map_map,
            List.map_congr_left fun v hv ↦ show (nodes ∘ Json.sortKeys) v = v.nodes from
              ih v hv (hvs v hv)]
  | obj ms ih =>
      cases h with
      | obj hkeys hms =>
          have hsum := ((sortKeys_members_perm hkeys).map fun e ↦ e.2.nodes).sum_eq
          rw [Json.sortKeys, nodes, nodes, nodesMembers_eq_sum, nodesMembers_eq_sum, hsum,
            KeyMap.mapVal, List.map_map]
          congr 2
          exact List.map_congr_left fun e he ↦ ih e he (hms e he)

theorem Distinct.height_sortKeys {v : Json} (h : Distinct v) : v.sortKeys.height = v.height := by
  induction v using induction with
  | null | bool _ | num _ | str _ => rfl
  | arr vs ih =>
      cases h with
      | arr hvs =>
          rw [Json.sortKeys, sortKeysValues_eq_map, height, height]
          refine congrArg (· + 1) (eq_of_forall_ge_iff fun n ↦ ?_)
          rw [heightValues_le_iff, heightValues_le_iff, List.forall_mem_map]
          exact forall₂_congr fun v hv ↦ by rw [ih v hv (hvs v hv)]
  | obj ms ih =>
      cases h with
      | obj hkeys hms =>
          rw [Json.sortKeys, height, height]
          refine congrArg (· + 1) (eq_of_forall_ge_iff fun n ↦ ?_)
          rw [heightMembers_le_iff, heightMembers_le_iff,
            forall_congr' fun e ↦ imp_congr_left (sortKeys_members_perm hkeys).mem_iff,
            KeyMap.mapVal, List.forall_mem_map]
          exact forall₂_congr fun e he ↦ by rw [ih e he (hms e he)]

theorem Distinct.bounded_sortKeys {v : Json} (h : Distinct v) (limit : Nat) :
    v.sortKeys.bounded limit = v.bounded limit := by
  induction v using induction with
  | null | bool _ | num _ | str _ => rfl
  | arr vs ih =>
      cases h with
      | arr hvs =>
          rw [Json.sortKeys, sortKeysValues_eq_map, bounded, bounded, Bool.eq_iff_iff,
            boundedValues_iff, boundedValues_iff, List.forall_mem_map]
          exact forall₂_congr fun v hv ↦ by rw [ih v hv (hvs v hv)]
  | obj ms ih =>
      cases h with
      | obj hkeys hms =>
          rw [Json.sortKeys, bounded, bounded, Bool.eq_iff_iff, boundedMembers_iff,
            boundedMembers_iff,
            forall_congr' fun e ↦ imp_congr_left (sortKeys_members_perm hkeys).mem_iff,
            KeyMap.mapVal, List.forall_mem_map]
          exact forall₂_congr fun e he ↦ by rw [ih e he (hms e he)]

theorem Distinct.sortKeys_sortKeys {v : Json} (h : Distinct v) :
    v.sortKeys.sortKeys = v.sortKeys := by
  induction v using induction with
  | null | bool _ | num _ | str _ => rfl
  | arr vs ih =>
      cases h with
      | arr hvs =>
          rw [Json.sortKeys, Json.sortKeys, sortKeysValues_eq_map, sortKeysValues_eq_map,
            List.map_map]
          congr 1
          exact List.map_congr_left fun v hv ↦ ih v hv (hvs v hv)
  | obj ms ih =>
      cases h with
      | obj hkeys hms =>
          rw [Json.sortKeys, Json.sortKeys, sortKeysMembers_eq_mapVal (KeyMap.collect _)]
          have hfix : KeyMap.mapVal Json.sortKeys (KeyMap.collect (sortKeysMembers ms)) =
              KeyMap.collect (sortKeysMembers ms) := by
            refine (List.map_congr_left fun e he ↦ ?_).trans (List.map_id _)
            obtain ⟨d, hd, rfl⟩ := List.mem_map.mp ((sortKeys_members_perm hkeys).subset he)
            exact Prod.ext rfl (ih d hd (hms d hd))
          rw [hfix, (KeyMap.sorted_collect _).collect_eq]

/-- A value and its sorted form are the same value. -/
theorem Distinct.same_sortKeys {v : Json} (h : Distinct v) : Same v v.sortKeys :=
  (sortKeys_eq_iff h h.sortKeys).mp h.sortKeys_sortKeys.symm

theorem bytesOf_joinComma_eq (ps : List (List Char)) :
    bytesOf (joinComma ps) = (ps.map fun p ↦ bytesOf p + 1).sum - 1 := by
  match ps with
  | [] => rfl
  | [p] => simp [joinComma]
  | p :: q :: ps =>
      have ih := bytesOf_joinComma_eq (q :: ps)
      have hc : (String.utf8EncodeChar ',').length = 1 := by decide
      simp only [joinComma, bytesOf_append, bytesOf_cons, List.map_cons, List.sum_cons] at ih ⊢
      omega

/-- Sorting does not change the length of the text. -/
theorem Distinct.bytesOf_sortKeys {v : Json} (h : Distinct v) :
    bytesOf v.sortKeys.text = bytesOf v.text := by
  induction v using induction with
  | null | bool _ | num _ | str _ => rfl
  | arr vs ih =>
      cases h with
      | arr hvs =>
          have hmap : (vs.map Json.sortKeys).map (fun w ↦ bytesOf w.text + 1) =
              vs.map fun v ↦ bytesOf v.text + 1 := by
            rw [List.map_map]
            exact List.map_congr_left fun v hv ↦ congrArg (· + 1) (ih v hv (hvs v hv))
          have hsum : ∀ ws : List Json, ((ws.map text).map fun p ↦ bytesOf p + 1) =
              ws.map fun w ↦ bytesOf w.text + 1 := fun ws ↦ List.map_map
          rw [Json.sortKeys, sortKeysValues_eq_map, text_arr, text_arr, List.cons_append,
            List.cons_append, bytesOf_cons, bytesOf_cons, bytesOf_append, bytesOf_append,
            bytesOf_joinComma_eq, bytesOf_joinComma_eq, hsum, hsum, hmap]
  | obj ms ih =>
      cases h with
      | obj hkeys hms =>
          have hmap : (KeyMap.mapVal Json.sortKeys ms).map (fun e ↦ bytesOf (memberText e) + 1) =
              ms.map fun e ↦ bytesOf (memberText e) + 1 := by
            rw [KeyMap.mapVal, List.map_map]
            refine List.map_congr_left fun e he ↦ ?_
            simp only [Function.comp_apply, memberText, bytesOf_append, bytesOf_cons,
              ih e he (hms e he)]
          have hsum : ∀ ns : List (String × Json), ((ns.map memberText).map fun p ↦ bytesOf p + 1) =
              ns.map fun e ↦ bytesOf (memberText e) + 1 := fun ns ↦ List.map_map
          rw [Json.sortKeys, text_obj, text_obj, List.cons_append, List.cons_append, bytesOf_cons,
            bytesOf_cons, bytesOf_append, bytesOf_append, bytesOf_joinComma_eq,
            bytesOf_joinComma_eq, hsum, hsum, ← hmap,
            ((sortKeys_members_perm hkeys).map fun e ↦ bytesOf (memberText e) + 1).sum_eq]

end Etp.Json
