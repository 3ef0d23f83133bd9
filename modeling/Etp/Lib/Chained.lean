import Mathlib

/-!
# Lists checked against their predecessor

`Chained link p l` says that every element of `l` is related to the one before
it, the first one to `p`: what a loop establishes that carries the previous
element along.

`Chained.iff_getElem` states it by position, `Chained.pairwise` lifts a
transitive consequence of the link from neighbours to all pairs, and
`Chained.eq_of_last` is the fact behind hash chains: when every element names
the hash of its predecessor, the last hash determines the list.
-/

namespace Etp

variable {α η : Type*}

/-- Every element is linked to its predecessor, the first one to `p`. -/
def Chained (link : Option α → α → Prop) : Option α → List α → Prop
  | _, [] => True
  | p, a :: l => link p a ∧ Chained link (some a) l

namespace Chained

variable {link : Option α → α → Prop} {p : Option α} {l : List α}

theorem concat_iff {a : α} :
    Chained link p (l ++ [a]) ↔ Chained link p l ∧ link (l.getLast?.or p) a := by
  induction l generalizing p with
  | nil => simp [Chained]
  | cons b l ih =>
      have hlast : l.getLast?.or (some b) = (b :: l).getLast?.or p := by
        rw [List.getLast?_cons]
        cases l.getLast? <;> rfl
      rw [List.cons_append, Chained, ih, Chained, and_assoc, hlast]

/-- The same by position: the first element is linked to `p`, every other one to
its left neighbour. -/
theorem iff_getElem : Chained link p l ↔
    (∀ a ∈ l.head?, link p a) ∧
      ∀ i (h : i + 1 < l.length), link (some l[i]) l[i + 1] := by
  induction l generalizing p with
  | nil => simp [Chained]
  | cons a l ih =>
      rw [Chained, ih]
      constructor
      · rintro ⟨h, h₀, hs⟩
        refine ⟨by simpa using h, fun i hi ↦ ?_⟩
        cases i with
        | zero =>
            have hl : 0 < l.length := by simpa using hi
            exact h₀ l[0] (by simp [List.head?_eq_getElem?, hl])
        | succ i => exact hs i (by simpa using hi)
      · rintro ⟨h, hs⟩
        refine ⟨h a rfl, fun b hb ↦ ?_, fun i hi ↦ hs (i + 1) (by simpa using hi)⟩
        obtain ⟨hl, rfl⟩ := List.getElem?_eq_some_iff.mp (List.head?_eq_getElem? ▸ hb)
        exact hs 0 (by simpa using hl)

/-- A transitive consequence of the link holds of all pairs. -/
theorem pairwise {R : α → α → Prop} (htrans : ∀ {a b c}, R a b → R b c → R a c)
    (h : ∀ a b, link (some a) b → R a b) (hc : Chained link p l) : l.Pairwise R := by
  induction l generalizing p with
  | nil => exact .nil
  | cons a l ih =>
      refine List.pairwise_cons.mpr ⟨fun b hb ↦ ?_, ih hc.2⟩
      have key : ∀ {q : α} {m : List α}, (q = a ∨ R a q) → Chained link (some q) m →
          ∀ b ∈ m, R a b := by
        intro q m hq hm
        induction m generalizing q with
        | nil => simp
        | cons c m ihm =>
            have hac : R a c := by
              rcases hq with rfl | hq
              · exact h _ _ hm.1
              · exact htrans hq (h _ _ hm.1)
            simpa using ⟨hac, ihm (.inr hac) hm.2⟩
      exact key (.inl rfl) hc.2 b hb

/-- When a record names the hash of its predecessor, and hashes are injective on
the records in question, the last record determines the whole list. -/
theorem eq_of_last {hash : α → η} {parent : α → Option η} {S : Set α} (hinj : Set.InjOn hash S)
    (hlink : ∀ q a, link q a → parent a = q.map hash) {l m : List α}
    (hl : Chained link none l) (hm : Chained link none m) (hlS : ∀ a ∈ l, a ∈ S)
    (hmS : ∀ a ∈ m, a ∈ S) (hlast : l.getLast?.map hash = m.getLast?.map hash) : l = m := by
  induction l using List.reverseRecOn generalizing m with
  | nil =>
      cases m using List.reverseRecOn with
      | nil => rfl
      | append_singleton m b => simp at hlast
  | append_singleton l a ih =>
      cases m using List.reverseRecOn with
      | nil => simp at hlast
      | append_singleton m b =>
          rw [concat_iff, Option.or_none] at hl hm
          have hab : a = b := hinj (hlS a (by simp)) (hmS b (by simp)) (by simpa using hlast)
          subst hab
          -- The parents of the two last records agree, so the shorter lists end alike.
          have hpar : l.getLast?.map hash = m.getLast?.map hash := by
            rw [← hlink _ _ hl.2, ← hlink _ _ hm.2]
          rw [ih hl.1 hm.1 (fun c hc ↦ hlS c (by simp [hc])) (fun c hc ↦ hmS c (by simp [hc])) hpar]

end Chained

end Etp
