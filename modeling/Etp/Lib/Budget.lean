import Mathlib

/-!
# Walks with a budget

`walk` goes over everything below a root with a stack, and stops with an error at the
first node too many or at the first node too deep.  Nodes need not form a tree: what is
reached along two paths is counted twice, and a cycle is cut by the depth.

`walk_eq_ok` says what the walk bounds, level by level.  Where a node unfolds into a finite
tree (`Unfolding`), these are the height and the number of nodes of the tree
(`Unfolding.walk_eq_ok`).
-/

namespace Etp.Budget

section Walk

variable {ν ε : Type*} (children : ν → List ν) (maxNodes maxDepth : Nat) (tooMany tooDeep : ε)

/-- The walk over a stack of nodes with their depths.  The count of nodes ends it. -/
def walk : List (ν × Nat) → Nat → Except ε Unit
  | [], _ => .ok ()
  | (v, depth) :: pending, nodes =>
      if nodes + 1 > maxNodes then .error tooMany
      else if depth > maxDepth then .error tooDeep
      else walk (((children v).map fun child ↦ (child, depth + 1)).reverse ++ pending) (nodes + 1)
termination_by _ nodes => maxNodes - nodes

/-- No path down from the node has more levels. -/
def fitsIn : Nat → ν → Bool
  | 0, _ => false
  | levels + 1, v => (children v).all (fitsIn levels)

/-- The number of nodes on those levels, counted once for each path. -/
def nodesWithin : Nat → ν → Nat
  | 0, _ => 0
  | levels + 1, v => ((children v).map (nodesWithin levels)).sum + 1

variable {children} {maxNodes maxDepth} {tooMany tooDeep}

theorem nodesWithin_pos {levels : Nat} {v : ν} (h : fitsIn children levels v = true) :
    0 < nodesWithin children levels v := by
  cases levels with
  | zero => cases h
  | succ levels => exact Nat.succ_pos _

/-- The walk succeeds when everything on the stack fits in the levels that are left to it,
and all of it together in the number of nodes. -/
theorem walk_eq_ok (pending : List (ν × Nat)) (nodes : Nat) (hnodes : nodes ≤ maxNodes) :
    walk children maxNodes maxDepth tooMany tooDeep pending nodes = .ok () ↔
      (∀ p ∈ pending, fitsIn children (maxDepth + 1 - p.2) p.1 = true) ∧
      nodes + (pending.map fun p ↦ nodesWithin children (maxDepth + 1 - p.2) p.1).sum ≤
        maxNodes := by
  fun_induction walk children maxNodes maxDepth tooMany tooDeep pending nodes with
  | case1 => simpa using hnodes
  | case2 v depth pending nodes hlimit =>
      simp only [reduceCtorEq, false_iff, not_and, List.forall_mem_cons, List.map_cons,
        List.sum_cons, not_le]
      rintro ⟨hfits, -⟩
      have hpos := nodesWithin_pos hfits
      omega
  | case3 v depth pending nodes hlimit hdepth =>
      have hzero : maxDepth + 1 - depth = 0 := by omega
      simp [hzero, fitsIn]
  | case4 v depth pending nodes hlimit hdepth ih =>
      have hlevels : maxDepth + 1 - depth = maxDepth + 1 - (depth + 1) + 1 := by omega
      rw [ih (by omega)]
      simp only [List.forall_mem_append, List.forall_mem_cons, List.map_append, List.map_cons,
        List.sum_append, List.sum_cons, hlevels, fitsIn, nodesWithin, List.all_eq_true,
        List.mem_reverse, List.forall_mem_map, List.map_reverse, List.sum_reverse, List.map_map,
        Function.comp_def]
      have heta : (fun child ↦ nodesWithin children (maxDepth + 1 - (depth + 1)) child) =
          nodesWithin children (maxDepth + 1 - (depth + 1)) := funext fun _ ↦ rfl
      rw [heta]
      refine and_congr_right fun _ ↦ ?_
      constructor
      · intro h
        omega
      · intro h
        omega

end Walk

/-! ## Finite trees -/

/-- The two measures of finite trees, by their subtrees. -/
structure Measures {τ : Type*} (subtrees : τ → List τ) (nodes height : τ → Nat) : Prop where
  nodes_eq : ∀ t, nodes t = ((subtrees t).map nodes).sum + 1
  height_pos : ∀ t, 0 < height t
  height_le_iff : ∀ t h, height t ≤ h + 1 ↔ ∀ u ∈ subtrees t, height u ≤ h

/-- The children of a node are related, in some order, to the subtrees of its tree. -/
def Unfolding {ν τ : Type*} (children : ν → List ν) (subtrees : τ → List τ) (R : ν → τ → Prop) :
    Prop :=
  ∀ v t, R v t → ∃ vs, vs.Perm (children v) ∧ List.Forall₂ R vs (subtrees t)

section Related

variable {ν τ : Type*} {R : ν → τ → Prop}

theorem forall_mem_iff_of_forall₂ {p : ν → Prop} {q : τ → Prop} (h : ∀ v t, R v t → (p v ↔ q t))
    {vs : List ν} {ts : List τ} (hs : List.Forall₂ R vs ts) :
    (∀ v ∈ vs, p v) ↔ ∀ t ∈ ts, q t := by
  induction hs with
  | nil => simp
  | cons hhead _ ih => rw [List.forall_mem_cons, List.forall_mem_cons, h _ _ hhead, ih]

theorem map_eq_map_of_forall₂ {β : Type*} {f : ν → β} {g : τ → β} {vs : List ν} {ts : List τ}
    (hs : List.Forall₂ R vs ts) (h : ∀ t ∈ ts, ∀ v, R v t → f v = g t) :
    vs.map f = ts.map g := by
  induction hs with
  | nil => rfl
  | cons hhead _ ih =>
      rw [List.map_cons, List.map_cons, h _ List.mem_cons_self _ hhead,
        ih fun t ht ↦ h t (List.mem_cons_of_mem _ ht)]

end Related

namespace Unfolding

variable {ν τ ε : Type*} {children : ν → List ν} {subtrees : τ → List τ} {R : ν → τ → Prop}
  {nodes height : τ → Nat} (hu : Unfolding children subtrees R)
  (hm : Measures subtrees nodes height)

include hu hm

/-- The levels that a node fits in are the ones its tree fits in. -/
theorem fitsIn_iff {levels : Nat} {v : ν} {t : τ} (h : R v t) :
    fitsIn children levels v = true ↔ height t ≤ levels := by
  induction levels generalizing v t with
  | zero =>
      have := hm.height_pos t
      simp only [fitsIn, Bool.false_eq_true, false_iff]
      omega
  | succ levels ih =>
      obtain ⟨vs, hvs, hsub⟩ := hu v t h
      rw [fitsIn, ← hvs.all_eq, hm.height_le_iff, List.all_eq_true]
      exact forall_mem_iff_of_forall₂ (fun v t h ↦ ih h) hsub

/-- On enough levels the nodes are counted as in the tree. -/
theorem nodesWithin_eq {levels : Nat} {v : ν} {t : τ} (h : R v t) (hle : height t ≤ levels) :
    nodesWithin children levels v = nodes t := by
  induction levels generalizing v t with
  | zero => exact absurd hle (Nat.not_le.mpr (hm.height_pos t))
  | succ levels ih =>
      obtain ⟨vs, hvs, hsub⟩ := hu v t h
      have hlevels := (hm.height_le_iff t levels).mp hle
      rw [nodesWithin, ← (hvs.map _).sum_eq, hm.nodes_eq,
        map_eq_map_of_forall₂ hsub fun u hmem w hw ↦ ih hw (hlevels u hmem)]

/-- A walk from a node that unfolds into a tree bounds the tree. -/
theorem walk_eq_ok {maxNodes maxDepth : Nat} {tooMany tooDeep : ε} {v : ν} {t : τ} (h : R v t) :
    walk children maxNodes maxDepth tooMany tooDeep [(v, 1)] 0 = .ok () ↔
      height t ≤ maxDepth ∧ nodes t ≤ maxNodes := by
  rw [Budget.walk_eq_ok _ _ (Nat.zero_le _)]
  simp only [List.forall_mem_singleton, Nat.add_sub_cancel, List.map_cons, List.map_nil,
    List.sum_cons, List.sum_nil, Nat.zero_add, Nat.add_zero, fitsIn_iff hu hm h]
  exact and_congr_right fun hle ↦ by rw [nodesWithin_eq hu hm h hle]

end Unfolding

end Etp.Budget
