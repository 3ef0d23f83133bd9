import Etp.Sqlite.Invariant

/-!
# Two moments of a run

`Precedes db db'` says that some run passes `db` and later `db'`.  It is what a client
knows about the database between two of its transactions.  On the typed tables it
becomes `Tables.Kept`: a registered chain and a receipt stay, and a claim stays up
to its first marker.
-/

namespace Etp.Sqlite

open Etp.Core SqliteEffectStore

variable [Sha256]

/-- What stays in the tables, whatever is called. -/
structure Tables.Kept (t t' : Tables) : Prop where
  chain : ∀ {hash : Digest32} {x : RegisteredChain}, t.chain hash = some x → t'.chain hash = some x
  claim : ∀ {hash : Digest32} {c : DurableClaim}, t.claim hash = some c →
    ∃ c', t'.claim hash = some c' ∧ ClaimKept c c'
  receipt : ∀ {hash : Digest32} {r : EffectReceipt}, t.receipt hash = some r →
    t'.receipt hash = some r

namespace Tables.Kept

theorem refl (t : Tables) : t.Kept t where
  chain hx := hx
  claim {_ c} hc := ⟨c, hc, .refl c⟩
  receipt hr := hr

theorem trans {t u v : Tables} (h : t.Kept u) (h' : u.Kept v) : t.Kept v where
  chain hx := h'.chain (h.chain hx)
  claim hc := by
    obtain ⟨c', hc', hk⟩ := h.claim hc
    obtain ⟨c'', hc'', hk'⟩ := h'.claim hc'
    exact ⟨c'', hc'', hk.trans hk'⟩
  receipt hr := h'.receipt (h.receipt hr)

theorem of_change {t t' : Tables} {call : Call} (h : Change t call t') : t.Kept t' where
  chain hx := h.chain hx
  claim hc := h.claimKept hc
  receipt hr := h.receipt hr

/-- A chain is kept under its grant identifier as well. -/
theorem chainById {t t' : Tables} (h : t.Kept t') (hw : WellFormed t) (hw' : WellFormed t')
    {grantId : String} {x : RegisteredChain} (hx : t.chainById grantId = some x) :
    t'.chainById grantId = some x := by
  obtain ⟨rfl, hchain⟩ := hw.chain_of_chainById hx
  exact (hw'.chainById_of_chain (h.chain hchain)).2

end Tables.Kept

/-- The databases that some run passes. -/
def Reached (db : Db) : Prop := ∃ calls, db = run calls

/-- The second database is a later one of a run that passes the first. -/
structure Precedes (db db' : Db) : Prop where
  reached : Reached db
  later : ∃ calls, db' = Machine.run step db calls

theorem Reached.empty : Reached .empty := ⟨[], rfl⟩

theorem Reached.exists_tables {db : Db} (h : Reached db) : ∃ t, WellFormed t ∧ db = t.encode := by
  obtain ⟨calls, rfl⟩ := h
  exact Etp.Sqlite.exists_tables calls

namespace Precedes

variable {db db' db'' : Db}

theorem refl (h : Reached db) : Precedes db db := ⟨h, [], rfl⟩

theorem trans (h : Precedes db db') (h' : Precedes db' db'') : Precedes db db'' := by
  refine ⟨h.reached, ?_⟩
  obtain ⟨calls, rfl⟩ := h.later
  obtain ⟨calls', rfl⟩ := h'.later
  exact ⟨calls ++ calls', (Machine.run_append db calls calls').symm⟩

instance : IsTrans Db Precedes := ⟨fun _ _ _ ↦ trans⟩

theorem step (h : Reached db) (call : Call) : Precedes db (step db call) := ⟨h, [call], rfl⟩

theorem reached' (h : Precedes db db') : Reached db' := by
  obtain ⟨⟨pre, rfl⟩, calls, rfl⟩ := h
  exact ⟨pre ++ calls, (Machine.run_append _ pre calls).symm⟩

/-- The tables at the two moments. -/
theorem kept (h : Precedes db db') : ∃ t t', WellFormed t ∧ WellFormed t' ∧ db = t.encode ∧
    db' = t'.encode ∧ t.Kept t' := by
  obtain ⟨hreached, calls, rfl⟩ := h
  obtain ⟨t, hw, rfl⟩ := hreached.exists_tables
  obtain ⟨t', hw', hkept, hrun⟩ := exists_run (R := Tables.Kept) .refl .trans
    (fun _ hc ↦ .of_change hc) hw calls
  exact ⟨t, t', hw, hw', rfl, hrun, hkept⟩

/-- What stays of tables that are known. -/
theorem kept_encode {t t' : Tables} (h : Precedes t.encode t'.encode) :
    WellFormed t ∧ WellFormed t' ∧ t.Kept t' := by
  obtain ⟨u, u', hw, hw', hu, hu', hkept⟩ := h.kept
  cases Tables.encode_injective hu
  cases Tables.encode_injective hu'
  exact ⟨hw, hw', hkept⟩

end Precedes

/-! ## Rows that stay -/

/-- No row of a chain or a receipt ever goes, and of a claim only the marker changes. -/
structure RowsKept (db db' : Db) : Prop where
  chains : db.authorizationChains <+: db'.authorizationChains
  claims : db.claims.map (fun c ↦ (c.grantHash, c.attemptId)) <+:
    db'.claims.map fun c ↦ (c.grantHash, c.attemptId)
  receipts : db.receipts <+: db'.receipts

omit [Sha256] in
theorem prefix_map_concat {α β : Type} (f : α → β) (l : List α) (a : α) :
    l.map f <+: (l ++ [a]).map f := by
  rw [List.map_append]
  exact List.prefix_append _ _

theorem RowsKept.of_change {t t' : Tables} {call : Call} (h : Change t call t') :
    RowsKept t.encode t'.encode := by
  cases h with
  | registered _ => exact ⟨prefix_map_concat _ _ _, List.prefix_rfl, List.prefix_rfl⟩
  | claimed _ _ =>
      refine ⟨List.prefix_rfl, ?_, List.prefix_rfl⟩
      simp only [Tables.encode, List.map_map]
      exact prefix_map_concat _ _ _
  | @marked c _ dispatched _ _ _ _ _ _ =>
      refine ⟨List.prefix_rfl, ?_, List.prefix_rfl⟩
      simp only [Tables.encode, List.map_map]
      rw [Tables.mark, map_updateWhere fun q ↦ ?_]
      · exact List.prefix_rfl
      · show ((Tables.withMarker dispatched q).1.grantHash.asStr,
          (Tables.withMarker dispatched q).1.attemptId) = (q.1.grantHash.asStr, q.1.attemptId)
        rw [Tables.withMarker_grantHash, Tables.withMarker_attemptId]
  | received _ _ => exact ⟨List.prefix_rfl, List.prefix_rfl, prefix_map_concat _ _ _⟩
  | _ => exact ⟨List.prefix_rfl, List.prefix_rfl, List.prefix_rfl⟩

theorem Precedes.rows {db db' : Db} (h : Precedes db db') : RowsKept db db' := by
  obtain ⟨hreached, calls, rfl⟩ := h
  obtain ⟨t, hw, rfl⟩ := hreached.exists_tables
  obtain ⟨t', -, hrows, hrun⟩ := exists_run (R := fun t t' ↦ RowsKept t.encode t'.encode)
    (fun _ ↦ ⟨List.prefix_rfl, List.prefix_rfl, List.prefix_rfl⟩)
    (fun h h' ↦ ⟨h.chains.trans h'.chains, h.claims.trans h'.claims, h.receipts.trans h'.receipts⟩)
    (fun _ hc ↦ .of_change hc) hw calls
  rw [hrun]
  exact hrows

end Etp.Sqlite
