import Etp.TypeScript.Numerals

/-!
# The strict parser accepts exactly its grammar

`parseStrictJson_eq_ok` is the result: the parser returns a value exactly for the texts
of at most 2^20 bytes that the grammar derives from a value within the limits, and then
returns the JavaScript value of that value.  `parseStrictJson_ne_outOfFuel` says that it
always ends.

The first half is an induction on the fuel, which gives a derivation for every accepted
text.  The second half is an induction on the derivation.
-/

namespace Etp.TypeScript

open JsString Json Cursor

/-! ## Derivations for accepted texts -/

/-- The limits of the parser for a value at a depth. -/
structure Admitted (depth : Nat) (v : Json) : Prop where
  distinct : v.Distinct
  bounded : v.bounded JsNumber.maxSafe = true
  height : depth + v.height ≤ maxTransportNestingDepth + 1

/-- The text that took one cursor to the other spells the value. -/
structure ReadsValue (depth : Nat) (c : Cursor) (v : Json) (cs : List Char) (c' : Cursor) :
    Prop where
  admitted : Admitted depth v
  spells : Spells v cs
  consumes : Consumes c cs v.nodes c'
  nodes : c'.nodes ≤ maxTransportNodes

/-- The same for the elements of a nonempty array in the loop of an array at that depth. -/
structure ReadsValues (depth : Nat) (c : Cursor) (vs : List Json) (cs : List Char) (c' : Cursor) :
    Prop where
  admitted : ∀ v ∈ vs, Admitted (depth + 1) v
  spells : SpellsValues vs cs
  consumes : Consumes c cs (nodesValues vs) c'
  nodes : c'.nodes ≤ maxTransportNodes

/-- The same for the members of a nonempty object; their keys are new. -/
structure ReadsMembers (depth : Nat) (keys : List JsString) (c : Cursor)
    (ms : List (String × Json)) (cs : List Char) (c' : Cursor) : Prop where
  admitted : ∀ e ∈ ms, Admitted (depth + 1) e.2
  keys_new : ∀ e ∈ ms, utf16 e.1.toList ∉ keys
  nodup : (ms.map Prod.fst).Nodup
  spells : SpellsMembers ms cs
  consumes : Consumes c cs (nodesMembers ms) c'
  nodes : c'.nodes ≤ maxTransportNodes

theorem enter_eq_ok {c c' : Cursor} {depth : Nat} :
    c.enter depth = .ok c' ↔ depth ≤ maxTransportNestingDepth ∧
      c.nodes + 1 ≤ maxTransportNodes ∧ c' = { c with nodes := c.nodes + 1 } := by
  simp only [enter, bind_eq_ok, rejectIf_eq_ok, exists_const, Except.ok.injEq, not_lt,
    eq_comm (a := c')]

theorem Consumes.entered {c c' : Cursor} {cs : List Char} {n : Nat}
    (h : Consumes { c with nodes := c.nodes + 1 } cs n c') : Consumes c cs (n + 1) c' :=
  ⟨h.rest, by rw [h.nodes]; exact Nat.add_right_comm _ _ _⟩

theorem admitted_leaf {depth : Nat} {v : Json} (hd : depth ≤ maxTransportNestingDepth)
    (hheight : v.height = 1) (hdistinct : v.Distinct)
    (hbounded : v.bounded JsNumber.maxSafe = true) : Admitted depth v :=
  ⟨hdistinct, hbounded, by omega⟩

theorem admitted_arr {depth : Nat} {vs : List Json} (hd : depth ≤ maxTransportNestingDepth)
    (h : ∀ v ∈ vs, Admitted (depth + 1) v) : Admitted depth (.arr vs) where
  distinct := .arr fun v hv ↦ (h v hv).distinct
  bounded := boundedValues_iff.mpr fun v hv ↦ (h v hv).bounded
  height := by
    have : heightValues vs ≤ maxTransportNestingDepth - depth := heightValues_le_iff.mpr
      fun v hv ↦ by have := (h v hv).height; omega
    rw [Json.height]
    omega

theorem admitted_obj {depth : Nat} {ms : List (String × Json)}
    (hd : depth ≤ maxTransportNestingDepth) (hkeys : (ms.map Prod.fst).Nodup)
    (h : ∀ e ∈ ms, Admitted (depth + 1) e.2) : Admitted depth (.obj ms) where
  distinct := .obj hkeys fun e he ↦ (h e he).distinct
  bounded := boundedMembers_iff.mpr fun e he ↦ (h e he).bounded
  height := by
    have : heightMembers ms ≤ maxTransportNestingDepth - depth := heightMembers_le_iff.mpr
      fun e he ↦ by have := (h e he).height; omega
    rw [Json.height]
    omega

/-- White space and a structural character after it. -/
theorem exists_of_take_skipWhitespace {c c' : Cursor} {d : Char} (hd : d.toNat < 0x80)
    (h : c.skipWhitespace.take d = some c') :
    ∃ w, Ws w ∧ Consumes c (w ++ [d]) 0 c' := by
  obtain ⟨w, hw, hc⟩ := exists_consumes_skipWhitespace c
  exact ⟨w, hw, hc.trans (.of_take h hd)⟩

/-- A separator with white space on both sides. -/
theorem exists_of_expect {c c' : Cursor} {d : Char} {message : String} (hd : d.toNat < 0x80)
    (h : c.skipWhitespace.expect d message = .ok c') :
    ∃ w w', Ws w ∧ Ws w' ∧ Consumes c (w ++ d :: w') 0 c'.skipWhitespace := by
  obtain ⟨w, hw, hc⟩ := exists_consumes_skipWhitespace c
  obtain ⟨w', hw', hc'⟩ := exists_consumes_skipWhitespace c'
  exact ⟨w, w', hw, hw', hc.trans ((Consumes.of_expect h hd).trans hc')⟩

theorem exists_of_memberKey {c c' : Cursor} {keys : List JsString} {key : JsString}
    (h : c.memberKey keys = .ok (key, c')) :
    ∃ (k : String) (lit w w' : List Char), key = utf16 k.toList ∧ key ∉ keys ∧
      StringLiteral k lit ∧ Ws w ∧ Ws w' ∧ Consumes c (lit ++ (w ++ ':' :: w')) 0 c' := by
  rw [memberKey, bind_eq_ok] at h
  obtain ⟨_, hquote, h⟩ := h
  obtain ⟨⟨s, c₁⟩, hstring, h⟩ := bind_eq_ok.mp h
  obtain ⟨_, hnew, h⟩ := bind_eq_ok.mp h
  obtain ⟨c₂, hcolon, h⟩ := bind_eq_ok.mp h
  simp only [Except.ok.injEq, Prod.mk.injEq] at h
  obtain ⟨rfl, rfl⟩ := h
  rw [rejectIf_eq_ok, not_not] at hquote
  rw [rejectIf_eq_ok] at hnew
  obtain ⟨k, lit, rfl, hlit, hc₁⟩ := exists_of_string hquote hstring
  obtain ⟨w, w', hw, hw', hc₂⟩ := exists_of_expect (by decide) hcolon
  exact ⟨k, lit, w, w', rfl, hnew, hlit, hw, hw', hc₁.trans hc₂⟩

theorem exists_of_array {depth : Nat} {c c' : Cursor} {v : JsValue}
    {loop : Cursor → Except Failure (List JsValue × Cursor)}
    (hbracket : c.current = some (unit '[')) (hd : depth ≤ maxTransportNestingDepth)
    (hnodes : c.nodes ≤ maxTransportNodes)
    (hloop : ∀ {c₁ vs}, loop c₁ = .ok (vs, c') →
      ∃ ws cs, vs = ofJsonValues ws ∧ ReadsValues depth c₁ ws cs c')
    (h : c.array loop = .ok (v, c')) :
    ∃ (w : Json) (cs : List Char) (n : Nat), w.nodes = n + 1 ∧ v = ofJson w ∧
      Admitted depth w ∧ Spells w cs ∧ Consumes c cs n c' ∧ c'.nodes ≤ maxTransportNodes := by
  have hopen : Consumes c ['['] 0 (c.advance 1) := .unit hbracket (by decide)
  simp only [array] at h
  split at h
  · next c₁ hclose =>
      simp only [Except.ok.injEq, Prod.mk.injEq] at h
      obtain ⟨rfl, rfl⟩ := h
      obtain ⟨w, hw, hc⟩ := exists_of_take_skipWhitespace (by decide) hclose
      have hc := hopen.trans hc
      refine ⟨.arr [], _, 0, rfl, rfl, admitted_arr hd (by simp), .arrEmpty hw, hc, ?_⟩
      rw [hc.nodes]
      exact hnodes
  · obtain ⟨⟨vs, c₁⟩, hvs, h⟩ := bind_eq_ok.mp h
    simp only [Except.ok.injEq, Prod.mk.injEq] at h
    obtain ⟨rfl, rfl⟩ := h
    obtain ⟨w, hw, hskip⟩ := exists_consumes_skipWhitespace (c.advance 1)
    obtain ⟨ws, cs, rfl, hread⟩ := hloop hvs
    refine ⟨.arr ws, _, _, rfl, rfl, admitted_arr hd hread.admitted, .arr hw hread.spells, ?_,
      hread.nodes⟩
    have := hopen.trans (hskip.trans hread.consumes)
    rwa [Nat.zero_add, Nat.zero_add] at this

theorem exists_of_object {depth : Nat} {c c' : Cursor} {v : JsValue}
    {loop : Cursor → Except Failure (List (JsString × JsValue) × Cursor)}
    (hbrace : c.current = some (unit '\x7b')) (hd : depth ≤ maxTransportNestingDepth)
    (hnodes : c.nodes ≤ maxTransportNodes)
    (hloop : ∀ {c₁ ms}, loop c₁ = .ok (ms, c') →
      ∃ ns cs, ms = ofJsonMembers ns ∧ ReadsMembers depth [] c₁ ns cs c')
    (h : c.object loop = .ok (v, c')) :
    ∃ (w : Json) (cs : List Char) (n : Nat), w.nodes = n + 1 ∧ v = ofJson w ∧
      Admitted depth w ∧ Spells w cs ∧ Consumes c cs n c' ∧ c'.nodes ≤ maxTransportNodes := by
  have hopen : Consumes c ['{'] 0 (c.advance 1) := .unit hbrace (by decide)
  simp only [object] at h
  split at h
  · next c₁ hclose =>
      simp only [Except.ok.injEq, Prod.mk.injEq] at h
      obtain ⟨rfl, rfl⟩ := h
      obtain ⟨w, hw, hc⟩ := exists_of_take_skipWhitespace (by decide) hclose
      have hc := hopen.trans hc
      refine ⟨.obj [], _, 0, rfl, rfl, admitted_obj hd (by simp) (by simp), .objEmpty hw, hc, ?_⟩
      rw [hc.nodes]
      exact hnodes
  · obtain ⟨⟨ms, c₁⟩, hms, h⟩ := bind_eq_ok.mp h
    simp only [Except.ok.injEq, Prod.mk.injEq] at h
    obtain ⟨rfl, rfl⟩ := h
    obtain ⟨w, hw, hskip⟩ := exists_consumes_skipWhitespace (c.advance 1)
    obtain ⟨ns, cs, rfl, hread⟩ := hloop hms
    refine ⟨.obj ns, _, _, rfl, rfl, admitted_obj hd hread.nodup hread.admitted,
      .obj hw hread.spells, ?_, hread.nodes⟩
    have := hopen.trans (hskip.trans hread.consumes)
    rwa [Nat.zero_add, Nat.zero_add] at this

mutual

theorem exists_of_value : ∀ (fuel depth : Nat) {c c' : Cursor} {v : JsValue},
    value fuel depth c = .ok (v, c') → ∃ w cs, v = ofJson w ∧ ReadsValue depth c w cs c'
  | 0, _, _, _, _, h => by cases h
  | fuel + 1, depth, c, c', v, h => by
      rw [value, bind_eq_ok] at h
      obtain ⟨c₁, hstart, h⟩ := h
      obtain ⟨hd, hn, hc₁⟩ := enter_eq_ok.mp hstart
      have hrest : c₁.rest = c.rest := by rw [hc₁]
      have hnodes : c₁.nodes = c.nodes + 1 := by rw [hc₁]
      have hentered : ∀ {cs n}, Consumes c₁ cs n c' → Consumes c cs (n + 1) c' := by
        intro cs n hc
        exact .entered (hc₁ ▸ hc)
      -- A leaf is a lexeme.
      have leaf : ∀ {w : Json} {cs : List Char}, w.height = 1 → w.nodes = 1 → w.Distinct →
          w.bounded JsNumber.maxSafe = true → Spells w cs → Consumes c₁ cs 0 c' →
          ReadsValue depth c w cs c' := by
        intro w cs hheight hone hdistinct hbounded hspells hc
        refine ⟨admitted_leaf hd hheight hdistinct hbounded, hspells, ?_, ?_⟩
        · rw [hone]
          exact hentered hc
        · rw [hc.nodes]
          omega
      have tree : (∃ (w : Json) (cs : List Char) (n : Nat), w.nodes = n + 1 ∧ v = ofJson w ∧
          Admitted depth w ∧ Spells w cs ∧ Consumes c₁ cs n c' ∧ c'.nodes ≤ maxTransportNodes) →
          ∃ w cs, v = ofJson w ∧ ReadsValue depth c w cs c' := by
        rintro ⟨w, cs, n, hwn, hv, hadm, hspells, hc, hn'⟩
        exact ⟨w, cs, hv, hadm, hspells, hwn ▸ hentered hc, hn'⟩
      split_ifs at h with hobj harr hstr htrue hfalse hnull hnum
      · exact tree (exists_of_object hobj hd (by omega)
          (fun hl ↦ exists_of_objectLoop fuel depth [] hl) h)
      · exact tree (exists_of_array harr hd (by omega)
          (fun hl ↦ exists_of_arrayLoop fuel depth hl) h)
      · obtain ⟨⟨s, c₂⟩, hs, h⟩ := bind_eq_ok.mp h
        simp only [Except.ok.injEq, Prod.mk.injEq] at h
        obtain ⟨rfl, rfl⟩ := h
        obtain ⟨k, lit, rfl, hlit, hc⟩ := exists_of_string hstr hs
        exact ⟨.str k, lit, rfl, leaf rfl rfl (.str k) rfl (.str hlit) hc⟩
      · obtain ⟨rfl, hc⟩ := exists_of_keyword h
        exact ⟨.bool true, _, rfl, leaf rfl rfl (.bool true) rfl .true hc⟩
      · obtain ⟨rfl, hc⟩ := exists_of_keyword h
        exact ⟨.bool false, _, rfl, leaf rfl rfl (.bool false) rfl .false hc⟩
      · obtain ⟨rfl, hc⟩ := exists_of_keyword h
        exact ⟨.null, _, rfl, leaf rfl rfl .null rfl .null hc⟩
      · obtain ⟨n, ds, rfl, hds, hsafe, hc⟩ := exists_of_number h
        exact ⟨.num n, ds, rfl, leaf rfl rfl (.num n) (decide_eq_true hsafe) (.num hds) hc⟩

theorem exists_of_arrayLoop : ∀ (fuel depth : Nat) {c c' : Cursor} {vs : List JsValue},
    arrayLoop fuel depth c = .ok (vs, c') →
    ∃ ws cs, vs = ofJsonValues ws ∧ ReadsValues depth c ws cs c'
  | 0, _, _, _, _, h => by cases h
  | fuel + 1, depth, c, c', vs, h => by
      rw [arrayLoop, bind_eq_ok] at h
      obtain ⟨⟨v, c₁⟩, hv, h⟩ := h
      obtain ⟨w, u, rfl, hw⟩ := exists_of_value fuel (depth + 1) hv
      dsimp only at h
      split at h
      · next c₂ hclose =>
          simp only [Except.ok.injEq, Prod.mk.injEq] at h
          obtain ⟨rfl, rfl⟩ := h
          obtain ⟨ws, hws, hc⟩ := exists_of_take_skipWhitespace (by decide) hclose
          refine ⟨[w], _, rfl, ?_, .last hw.spells hws, hw.consumes.trans hc, ?_⟩
          · simpa using hw.admitted
          · rw [hc.nodes]
            exact hw.nodes
      · obtain ⟨c₂, hcomma, h⟩ := bind_eq_ok.mp h
        obtain ⟨⟨vs, c₃⟩, hvs, h⟩ := bind_eq_ok.mp h
        simp only [Except.ok.injEq, Prod.mk.injEq] at h
        obtain ⟨rfl, rfl⟩ := h
        obtain ⟨s, s', hs, hs', hc⟩ := exists_of_expect (by decide) hcomma
        obtain ⟨ws, us, rfl, hws⟩ := exists_of_arrayLoop fuel depth hvs
        refine ⟨w :: ws, u ++ (s ++ ',' :: (s' ++ us)), rfl,
          List.forall_mem_cons.mpr ⟨hw.admitted, hws.admitted⟩,
          .cons hw.spells hs hs' hws.spells, ?_, hws.nodes⟩
        have := hw.consumes.trans (hc.trans hws.consumes)
        rwa [Nat.zero_add, List.append_assoc] at this

theorem exists_of_objectLoop : ∀ (fuel depth : Nat) (keys : List JsString) {c c' : Cursor}
    {ms : List (JsString × JsValue)}, objectLoop fuel depth keys c = .ok (ms, c') →
    ∃ ns cs, ms = ofJsonMembers ns ∧ ReadsMembers depth keys c ns cs c'
  | 0, _, _, _, _, _, h => by cases h
  | fuel + 1, depth, keys, c, c', ms, h => by
      rw [objectLoop, bind_eq_ok] at h
      obtain ⟨⟨key, c₁⟩, hkey, h⟩ := h
      obtain ⟨⟨v, c₂⟩, hv, h⟩ := bind_eq_ok.mp h
      obtain ⟨k, lit, s, s', rfl, hnew, hlit, hs, hs', hc₁⟩ := exists_of_memberKey hkey
      obtain ⟨w, u, rfl, hw⟩ := exists_of_value fuel (depth + 1) hv
      have hmember := hc₁.trans hw.consumes
      rw [Nat.zero_add, List.append_assoc, List.append_assoc] at hmember
      dsimp only at h
      split at h
      · next c₃ hclose =>
          simp only [Except.ok.injEq, Prod.mk.injEq] at h
          obtain ⟨rfl, rfl⟩ := h
          obtain ⟨s'', hs'', hc⟩ := exists_of_take_skipWhitespace (by decide) hclose
          refine ⟨[(k, w)], _, rfl, by simpa using hw.admitted, by simpa using hnew, by simp,
            .last hlit hs hs' hw.spells hs'', ?_, ?_⟩
          · have := hmember.trans hc
            simpa [nodesMembers] using this
          · rw [hc.nodes]
            exact hw.nodes
      · obtain ⟨c₃, hcomma, h⟩ := bind_eq_ok.mp h
        obtain ⟨⟨ms, c₄⟩, hms, h⟩ := bind_eq_ok.mp h
        simp only [Except.ok.injEq, Prod.mk.injEq] at h
        obtain ⟨rfl, rfl⟩ := h
        obtain ⟨s'', s₃, hs'', hs₃, hc⟩ := exists_of_expect (by decide) hcomma
        obtain ⟨ns, us, rfl, hns⟩ := exists_of_objectLoop fuel depth _ hms
        have hout : ∀ e ∈ ns, utf16 e.1.toList ≠ utf16 k.toList ∧ utf16 e.1.toList ∉ keys :=
          fun e he ↦ by simpa using hns.keys_new e he
        refine ⟨(k, w) :: ns, _, rfl, List.forall_mem_cons.mpr ⟨hw.admitted, hns.admitted⟩,
          List.forall_mem_cons.mpr ⟨hnew, fun e he ↦ (hout e he).2⟩, ?_,
          .cons hlit hs hs' hw.spells hs'' hs₃ hns.spells, ?_, hns.nodes⟩
        · rw [List.map_cons, List.nodup_cons]
          refine ⟨fun hmem ↦ ?_, hns.nodup⟩
          obtain ⟨e, he, rfl⟩ := List.mem_map.mp hmem
          exact (hout e he).1 rfl
        · have := hmember.trans (hc.trans hns.consumes)
          simpa [nodesMembers] using this

end

/-! ## Derived texts are accepted -/

theorem isDigit_unit_iff {d : Char} (h : d.toNat < 0x80) :
    Cursor.isDigit (unit d) = true ↔ d.isDigit = true := by
  constructor
  · intro hd
    obtain ⟨e, he, heq, -⟩ := exists_digit_of_isDigit hd
    have := (isDigit_unit he).1
    rwa [← (unit_inj (by omega) (by omega)).mp heq]
  · exact fun hd ↦ (isDigit_unit hd).2

/-- How `value` goes on, by the character that it finds. -/
theorem value_of_head {c : Cursor} {d : Char} {t : JsString} {depth : Nat} (fuel : Nat)
    (hascii : d.toNat < 0x80) (h : c.rest = unit d :: t) (hd : depth ≤ maxTransportNestingDepth)
    (hn : c.nodes + 1 ≤ maxTransportNodes) {c₁ : Cursor}
    (hc₁ : c₁ = { c with nodes := c.nodes + 1 }) :
    value (fuel + 1) depth c =
      if d = '{' then c₁.object (objectLoop fuel depth [])
      else if d = '[' then c₁.array (arrayLoop fuel depth)
      else if d = '"' then c₁.string >>= fun p ↦ .ok (.string p.1, p.2)
      else if d = 't' then c₁.keyword "true" (.boolean true)
      else if d = 'f' then c₁.keyword "false" (.boolean false)
      else if d = 'n' then c₁.keyword "null" .null
      else if d = '-' ∨ d.isDigit = true then c₁.number
      else .error (c₁.invalid "expected a JSON value") := by
  have hcur : c₁.current = some (unit d) := by rw [current, hc₁, h]; rfl
  have hunit : ∀ e : Char, e.toNat < 0x80 → (some (unit d) = some (unit e) ↔ d = e) :=
    fun e he ↦ by rw [Option.some.injEq, unit_inj (by omega) (by omega)]
  rw [value, enter_eq_ok.mpr ⟨hd, hn, hc₁⟩, ok_bind]
  simp only [hcur, Option.any_some, hunit _ (show '{'.toNat < 0x80 by decide),
    hunit _ (show '['.toNat < 0x80 by decide), hunit _ (show '"'.toNat < 0x80 by decide),
    hunit _ (show 't'.toNat < 0x80 by decide), hunit _ (show 'f'.toNat < 0x80 by decide),
    hunit _ (show 'n'.toNat < 0x80 by decide), hunit _ (show '-'.toNat < 0x80 by decide),
    isDigit_unit_iff hascii]

theorem apart_unit {d : Char} (hd : d = ',' ∨ d = ']' ∨ d = '}' ∨ isWs d = true)
    (rest : JsString) : Apart (unit d :: rest) := by
  intro u hu
  obtain rfl : unit d = u := by simpa using hu
  rcases hd with rfl | rfl | rfl | hd
  · decide
  · decide
  · decide
  · simp only [isWs, decide_eq_true_eq] at hd
    rcases hd with rfl | rfl | rfl | rfl <;> decide

theorem apart_ws {w : List Char} {rest : JsString} (hw : Ws w) (hrest : Apart rest) :
    Apart (utf16 w ++ rest) := by
  cases w with
  | nil => exact hrest
  | cons d w =>
      have hd := hw d (by simp)
      rw [utf16_ascii (isWhitespace_unit hd).1]
      exact apart_unit (.inr (.inr (.inr hd))) _

theorem solid_of_opens {d : Char} {us : List Char} (hd : Opens d) (rest : JsString) :
    Solid (utf16 (d :: us) ++ rest) := by
  rw [utf16_ascii hd.ascii]
  exact solid_unit hd.ascii hd.solid _

/-- A structural character after white space. -/
theorem take_of_ws {c : Cursor} {w : List Char} {d : Char} {rest : JsString} (hw : Ws w)
    (hd : d.toNat < 0x80) (hws : isWs d = false) (h : c.rest = utf16 (w ++ [d]) ++ rest) :
    ∃ c', c.skipWhitespace.take d = some c' ∧ c'.rest = rest ∧ c'.nodes = c.nodes := by
  rw [utf16_append, utf16_ascii hd, utf16_nil, List.append_assoc] at h
  have hskip := skipWhitespace_of_rest hw h (solid_unit hd hws rest)
  exact ⟨_, take_of_rest hskip, by rw [advance_rest, hskip]; rfl, rfl⟩

theorem take_none_of_ws {c : Cursor} {w : List Char} {d e : Char} {rest : JsString} (hw : Ws w)
    (he : e.toNat < 0x80) (hws : isWs e = false) (hd : d.toNat < 0x80) (hne : e ≠ d)
    (h : c.rest = utf16 w ++ unit e :: rest) : c.skipWhitespace.take d = none := by
  have hskip := skipWhitespace_of_rest hw h (solid_unit he hws rest)
  exact take_of_ne hskip fun heq ↦ hne ((unit_inj (by omega) (by omega)).mp heq)

/-- A separator with white space on both sides, before something solid. -/
theorem expect_of_ws {c : Cursor} {w w' : List Char} {d : Char} {rest : JsString} (hw : Ws w)
    (hw' : Ws w') (hd : d.toNat < 0x80) (hws : isWs d = false) (message : String)
    (h : c.rest = utf16 w ++ unit d :: (utf16 w' ++ rest)) (hrest : Solid rest) :
    ∃ c', c.skipWhitespace.expect d message = .ok c' ∧ c'.skipWhitespace.rest = rest ∧
      c'.nodes = c.nodes := by
  have hskip := skipWhitespace_of_rest hw h (solid_unit hd hws _)
  refine ⟨_, expect_of_rest hskip, skipWhitespace_of_rest hw' ?_ hrest, rfl⟩
  rw [advance_rest, hskip]
  rfl

theorem array_of_empty {c : Cursor} {w : List Char} {rest : JsString} (hw : Ws w)
    (h : c.rest = utf16 ('[' :: w ++ [']']) ++ rest)
    (loop : Cursor → Except Failure (List JsValue × Cursor)) :
    Leaves (c.array loop) (.array []) rest c.nodes := by
  rw [List.cons_append, utf16_ascii (by decide), List.cons_append] at h
  obtain ⟨c', htake, hrest, hnodes⟩ := take_of_ws (c := c.advance 1) hw (d := ']') (by decide)
    (by decide) (show _ = _ ++ rest by rw [advance_rest, h]; rfl)
  exact ⟨c', by rw [array, htake], hrest, hnodes⟩

theorem object_of_empty {c : Cursor} {w : List Char} {rest : JsString} (hw : Ws w)
    (h : c.rest = utf16 ('{' :: w ++ ['}']) ++ rest)
    (loop : Cursor → Except Failure (List (JsString × JsValue) × Cursor)) :
    Leaves (c.object loop) (.object []) rest c.nodes := by
  rw [List.cons_append, utf16_ascii (by decide), List.cons_append] at h
  obtain ⟨c', htake, hrest, hnodes⟩ := take_of_ws (c := c.advance 1) hw (d := '}') (by decide)
    (by decide) (show _ = _ ++ rest by rw [advance_rest, h]; rfl)
  exact ⟨c', by rw [object, htake], hrest, hnodes⟩

theorem array_of_loop {c : Cursor} {w us : List Char} {rest : JsString} {n : Nat}
    {vs : List JsValue} {loop : Cursor → Except Failure (List JsValue × Cursor)} (hw : Ws w)
    (hus : ∃ d ds, us = d :: ds ∧ Opens d) (h : c.rest = utf16 ('[' :: w ++ us) ++ rest)
    (hloop : ∀ c₁ : Cursor, c₁.rest = utf16 us ++ rest → c₁.nodes = c.nodes →
      Leaves (loop c₁) vs rest n) :
    Leaves (c.array loop) (.array vs) rest n := by
  obtain ⟨d, ds, rfl, hd⟩ := hus
  rw [List.cons_append, utf16_ascii (by decide), utf16_append, List.cons_append,
    List.append_assoc] at h
  have hadv : (c.advance 1).rest = utf16 w ++ (utf16 (d :: ds) ++ rest) := by
    rw [advance_rest, h]
    rfl
  have hskip := skipWhitespace_of_rest hw hadv (solid_of_opens hd rest)
  obtain ⟨c', hc', hrest, hnodes⟩ := hloop _ hskip rfl
  have hnone : (c.advance 1).skipWhitespace.take ']' = none := by
    rw [utf16_ascii hd.ascii, List.cons_append] at hadv
    exact take_none_of_ws hw hd.ascii hd.solid (by decide) hd.not_bracket hadv
  refine ⟨c', ?_, hrest, hnodes⟩
  rw [array, hnone]
  dsimp only
  rw [hc', ok_bind]

theorem object_of_loop {c : Cursor} {w us : List Char} {rest : JsString} {n : Nat}
    {ms : List (JsString × JsValue)}
    {loop : Cursor → Except Failure (List (JsString × JsValue) × Cursor)} (hw : Ws w)
    (hus : ∃ ds, us = '"' :: ds) (h : c.rest = utf16 ('{' :: w ++ us) ++ rest)
    (hloop : ∀ c₁ : Cursor, c₁.rest = utf16 us ++ rest → c₁.nodes = c.nodes →
      Leaves (loop c₁) ms rest n) :
    Leaves (c.object loop) (.object ms) rest n := by
  obtain ⟨ds, rfl⟩ := hus
  have hd : Opens '"' := ⟨by decide, by decide, by decide, by decide⟩
  rw [List.cons_append, utf16_ascii (by decide), utf16_append, List.cons_append,
    List.append_assoc] at h
  have hadv : (c.advance 1).rest = utf16 w ++ (utf16 ('"' :: ds) ++ rest) := by
    rw [advance_rest, h]
    rfl
  have hskip := skipWhitespace_of_rest hw hadv (solid_of_opens hd rest)
  obtain ⟨c', hc', hrest, hnodes⟩ := hloop _ hskip rfl
  have hnone : (c.advance 1).skipWhitespace.take '}' = none := by
    rw [utf16_ascii hd.ascii, List.cons_append] at hadv
    exact take_none_of_ws hw hd.ascii hd.solid (by decide) hd.not_brace hadv
  refine ⟨c', ?_, hrest, hnodes⟩
  rw [object, hnone]
  dsimp only
  rw [hc', ok_bind]

theorem memberKey_of_rest {c : Cursor} {k : String} {lit w w' : List Char} {keys : List JsString}
    {rest : JsString} (hlit : StringLiteral k lit) (hw : Ws w) (hw' : Ws w')
    (hnew : utf16 k.toList ∉ keys) (h : c.rest = utf16 (lit ++ (w ++ ':' :: w')) ++ rest)
    (hrest : Solid rest) :
    Leaves (c.memberKey keys) (utf16 k.toList) rest c.nodes := by
  rw [utf16_append, utf16_append, utf16_ascii (by decide), List.append_assoc,
    List.append_assoc, List.cons_append] at h
  have hquote : c.current = some (unit '"') := by
    cases hlit
    rw [current, h, List.cons_append, utf16_ascii (by decide)]
    rfl
  obtain ⟨c₁, hstring, hrest₁, hnodes₁⟩ := string_of_rest hlit h
  obtain ⟨c₂, hcolon, hrest₂, hnodes₂⟩ := expect_of_ws hw hw' (d := ':') (by decide) (by decide)
    "expected ':' after object key" hrest₁ hrest
  refine ⟨c₂.skipWhitespace, ?_, hrest₂, hnodes₂.trans hnodes₁⟩
  rw [memberKey, rejectIf_false (not_not.mpr hquote), ok_bind, hstring, ok_bind]
  dsimp only
  rw [rejectIf_false hnew, ok_bind, hcolon, ok_bind]

theorem Admitted.depth_le {depth : Nat} {v : Json} (h : Admitted depth v) :
    depth ≤ maxTransportNestingDepth := by
  have hpos : 1 ≤ v.height := by cases v <;> simp [Json.height]
  have := h.height
  omega

theorem Admitted.of_arr {depth : Nat} {vs : List Json} (h : Admitted depth (.arr vs)) :
    ∀ v ∈ vs, Admitted (depth + 1) v := by
  intro v hv
  have hheight := h.height
  have hle := heightValues_le_iff.mp (le_refl (heightValues vs)) v hv
  rw [Json.height] at hheight
  refine ⟨?_, boundedValues_iff.mp h.bounded v hv, by omega⟩
  cases h.distinct with
  | arr hvs => exact hvs v hv

theorem Admitted.of_obj {depth : Nat} {ms : List (String × Json)} (h : Admitted depth (.obj ms)) :
    (ms.map Prod.fst).Nodup ∧ ∀ e ∈ ms, Admitted (depth + 1) e.2 := by
  have hheight := h.height
  rw [Json.height] at hheight
  cases h.distinct with
  | obj hkeys hms =>
      refine ⟨hkeys, fun e he ↦ ⟨hms e he, boundedMembers_iff.mp h.bounded e he, ?_⟩⟩
      have := heightMembers_le_iff.mp (le_refl (heightMembers ms)) e he
      omega

/-- Wherever the text stands, `value` accepts it with enough fuel. -/
def AcceptsValue (v : Json) (u : List Char) : Prop :=
  ∀ (depth fuel : Nat) (c : Cursor) (rest : JsString), Admitted depth v →
    c.nodes + v.nodes ≤ maxTransportNodes → c.rest = utf16 u ++ rest → Apart rest →
    2 * u.length + 1 ≤ fuel → Leaves (value fuel depth c) (ofJson v) rest (c.nodes + v.nodes)

/-- The same for the loop of `array`. -/
def AcceptsValues (vs : List Json) (us : List Char) : Prop :=
  ∀ (depth fuel : Nat) (c : Cursor) (rest : JsString), (∀ v ∈ vs, Admitted (depth + 1) v) →
    c.nodes + nodesValues vs ≤ maxTransportNodes → c.rest = utf16 us ++ rest →
    2 * us.length + 2 ≤ fuel →
    Leaves (arrayLoop fuel depth c) (ofJsonValues vs) rest (c.nodes + nodesValues vs)

/-- The same for the loop of `object`. -/
def AcceptsMembers (ms : List (String × Json)) (us : List Char) : Prop :=
  ∀ (depth fuel : Nat) (keys : List JsString) (c : Cursor) (rest : JsString),
    (∀ e ∈ ms, Admitted (depth + 1) e.2) → (ms.map Prod.fst).Nodup →
    (∀ e ∈ ms, utf16 e.1.toList ∉ keys) → c.nodes + nodesMembers ms ≤ maxTransportNodes →
    c.rest = utf16 us ++ rest → 2 * us.length + 2 ≤ fuel →
    Leaves (objectLoop fuel depth keys c) (ofJsonMembers ms) rest (c.nodes + nodesMembers ms)

/-- `value` goes on with the method for the character it finds. -/
theorem acceptsValue_of_head {v : Json} {d : Char} {us : List Char} (hd : d.toNat < 0x80)
    (hmethod : ∀ (depth fuel : Nat) (c : Cursor) (rest : JsString), Admitted depth v →
      c.nodes + v.nodes ≤ maxTransportNodes + 1 → c.rest = utf16 (d :: us) ++ rest → Apart rest →
      2 * (us.length + 1) ≤ fuel →
      Leaves (if d = '{' then c.object (objectLoop fuel depth [])
        else if d = '[' then c.array (arrayLoop fuel depth)
        else if d = '"' then c.string >>= fun p ↦ .ok (.string p.1, p.2)
        else if d = 't' then c.keyword "true" (.boolean true)
        else if d = 'f' then c.keyword "false" (.boolean false)
        else if d = 'n' then c.keyword "null" .null
        else if d = '-' ∨ d.isDigit = true then c.number
        else .error (c.invalid "expected a JSON value")) (ofJson v) rest (c.nodes + v.nodes - 1)) :
    AcceptsValue v (d :: us) := by
  intro depth fuel c rest hadm hn hrest hapart hfuel
  obtain ⟨n, rfl⟩ : ∃ n, fuel = n + 1 := ⟨fuel - 1, by rw [List.length_cons] at hfuel; omega⟩
  have hpos : 1 ≤ v.nodes := by cases v <;> simp [Json.nodes]
  have hhead : c.rest = unit d :: (utf16 us ++ rest) := by
    rw [hrest, utf16_ascii hd, List.cons_append]
  obtain ⟨c₁, hc₁⟩ : ∃ c₁ : Cursor, c₁ = { c with nodes := c.nodes + 1 } := ⟨_, rfl⟩
  have hnodes : c₁.nodes = c.nodes + 1 := by rw [hc₁]
  rw [value_of_head n hd hhead hadm.depth_le (by omega) hc₁]
  have := hmethod depth n c₁ rest hadm (by omega) (by rw [hc₁]; exact hrest) hapart
    (by rw [List.length_cons] at hfuel; omega)
  rwa [show c₁.nodes + v.nodes - 1 = c.nodes + v.nodes by omega] at this

mutual

theorem acceptsValue_of_spells : ∀ {v : Json} {u : List Char}, Spells v u → AcceptsValue v u
  | _, _, .null => acceptsValue_of_head (by decide) fun _ _ _ _ _ _ hrest _ _ ↦
      keyword_of_rest rfl hrest
  | _, _, .true => acceptsValue_of_head (by decide) fun _ _ _ _ _ _ hrest _ _ ↦
      keyword_of_rest rfl hrest
  | _, _, .false => acceptsValue_of_head (by decide) fun _ _ _ _ _ _ hrest _ _ ↦
      keyword_of_rest rfl hrest
  | _, _, .num h => by
      obtain ⟨d, us, rfl, hd⟩ := h.starts
      have hopens : d.toNat < 0x80 ∧ d ≠ '{' ∧ d ≠ '[' ∧ d ≠ '"' ∧ d ≠ 't' ∧ d ≠ 'f' ∧ d ≠ 'n' := by
        rcases hd with rfl | hd
        · decide
        · refine ⟨(isDigit_unit hd).1, ?_, ?_, ?_, ?_, ?_, ?_⟩ <;> (rintro rfl; cases hd)
      obtain ⟨hascii, h₁, h₂, h₃, h₄, h₅, h₆⟩ := hopens
      refine acceptsValue_of_head hascii fun depth fuel c rest hadm _ hrest hapart _ ↦ ?_
      rw [if_neg h₁, if_neg h₂, if_neg h₃, if_neg h₄, if_neg h₅, if_neg h₆, if_pos hd]
      exact number_of_rest h (of_decide_eq_true hadm.bounded) hrest hapart
  | _, _, .str h => by
      have hlit := h
      cases h
      refine acceptsValue_of_head (by decide) fun depth fuel c rest hadm _ hrest _ _ ↦ ?_
      obtain ⟨c', hc', hrest', hnodes⟩ := string_of_rest hlit hrest
      rw [if_neg (by decide), if_neg (by decide), if_pos rfl, hc', ok_bind]
      exact ⟨c', rfl, hrest', hnodes⟩
  | _, _, .arrEmpty hw => acceptsValue_of_head (by decide) fun depth fuel c rest _ _ hrest _ _ ↦
      array_of_empty hw hrest _
  | _, _, @Spells.arr vs w us hw h => by
      have hvs := acceptsValues_of_spells h
      show AcceptsValue (arr vs) ('[' :: (w ++ us))
      refine acceptsValue_of_head (by decide) fun depth fuel c rest hadm hn hrest _ hfuel ↦ ?_
      rw [if_neg (by decide), if_pos rfl]
      refine array_of_loop hw h.starts hrest fun c₁ hc₁ hnodes ↦ ?_
      rw [List.length_append] at hfuel
      rw [Json.nodes] at hn ⊢
      have := hvs depth fuel c₁ rest hadm.of_arr (by omega) hc₁ (by omega)
      rwa [hnodes] at this
  | _, _, .objEmpty hw => acceptsValue_of_head (by decide) fun depth fuel c rest _ _ hrest _ _ ↦
      object_of_empty hw hrest _
  | _, _, @Spells.obj ms w us hw h => by
      have hms := acceptsMembers_of_spells h
      show AcceptsValue (obj ms) ('{' :: (w ++ us))
      refine acceptsValue_of_head (by decide) fun depth fuel c rest hadm hn hrest _ hfuel ↦ ?_
      rw [if_pos rfl]
      refine object_of_loop hw h.starts hrest fun c₁ hc₁ hnodes ↦ ?_
      obtain ⟨hkeys, hadm⟩ := hadm.of_obj
      rw [List.length_append] at hfuel
      rw [Json.nodes] at hn ⊢
      have := hms depth fuel [] c₁ rest hadm hkeys (by simp) (by omega) hc₁ (by omega)
      rwa [hnodes] at this

theorem acceptsValues_of_spells : ∀ {vs : List Json} {us : List Char}, SpellsValues vs us →
    AcceptsValues vs us
  | _, _, @SpellsValues.last v u w h hw => by
      intro depth fuel c rest hadm hn hrest hfuel
      simp only [nodesValues, List.length_append, List.length_cons] at hn hfuel ⊢
      obtain ⟨n, rfl⟩ : ∃ n, fuel = n + 1 := ⟨fuel - 1, by omega⟩
      rw [utf16_append, List.append_assoc] at hrest
      have hapart : Apart (utf16 (w ++ [']']) ++ rest) := by
        rw [utf16_append, List.append_assoc, utf16_ascii (by decide)]
        exact apart_ws hw (apart_unit (by simp) _)
      obtain ⟨c₁, hv, hrest₁, hnodes₁⟩ :=
        acceptsValue_of_spells h (depth + 1) n c _ (hadm v (by simp))
          (by omega) hrest hapart (by omega)
      obtain ⟨c₂, htake, hrest₂, hnodes₂⟩ := take_of_ws hw (by decide) (by decide) hrest₁
      refine ⟨c₂, ?_, hrest₂, by omega⟩
      rw [arrayLoop, hv, ok_bind]
      dsimp only
      rw [htake]
      rfl
  | _, _, @SpellsValues.cons v vs u w w' us h hw hw' hs => by
      intro depth fuel c rest hadm hn hrest hfuel
      simp only [nodesValues, List.length_append, List.length_cons] at hn hfuel ⊢
      obtain ⟨n, rfl⟩ : ∃ n, fuel = n + 1 := ⟨fuel - 1, by omega⟩
      rw [utf16_append, utf16_append, utf16_ascii (by decide), utf16_append, List.append_assoc,
        List.append_assoc, List.cons_append, List.append_assoc] at hrest
      obtain ⟨c₁, hv, hrest₁, hnodes₁⟩ := acceptsValue_of_spells h (depth + 1) n c _
        (hadm v (by simp)) (by omega) hrest (apart_ws hw (apart_unit (by simp) _)) (by omega)
      have hsolid : Solid (utf16 us ++ rest) := by
        obtain ⟨d, ds, rfl, hd⟩ := hs.starts
        exact solid_of_opens hd rest
      have hnone := take_none_of_ws hw (by decide) (by decide) (d := ']') (by decide)
        (by decide) hrest₁
      obtain ⟨c₂, hcomma, hrest₂, hnodes₂⟩ := expect_of_ws hw hw' (by decide) (by decide)
        "expected ',' or ']' in array" hrest₁ hsolid
      obtain ⟨c₃, hvs, hrest₃, hnodes₃⟩ := acceptsValues_of_spells hs depth n c₂.skipWhitespace rest
        (fun v hv ↦ hadm v (List.mem_cons_of_mem _ hv)) (by rw [skipWhitespace_nodes]; omega)
        hrest₂ (by omega)
      rw [skipWhitespace_nodes] at hnodes₃
      refine ⟨c₃, ?_, hrest₃, by omega⟩
      rw [arrayLoop, hv, ok_bind]
      dsimp only
      rw [hnone]
      dsimp only
      rw [hcomma, ok_bind, hvs, ok_bind]
      rfl

theorem acceptsMembers_of_spells : ∀ {ms : List (String × Json)} {us : List Char},
    SpellsMembers ms us → AcceptsMembers ms us
  | _, _, @SpellsMembers.last k v lit w w' u w'' hk hw hw' h hw'' => by
      intro depth fuel keys c rest hadm hkeys hnew hn hrest hfuel
      simp only [nodesMembers, List.length_append, List.length_cons] at hn hfuel ⊢
      obtain ⟨n, rfl⟩ : ∃ n, fuel = n + 1 := ⟨fuel - 1, by omega⟩
      have hsplit : c.rest = utf16 (lit ++ (w ++ ':' :: w')) ++ (utf16 u ++
          (utf16 (w'' ++ ['}']) ++ rest)) := by
        rw [hrest]
        simp [utf16_append, utf16_cons, List.append_assoc]
      have hsolid : ∀ t, Solid (utf16 u ++ t) := by
        obtain ⟨d, ds, rfl, hd⟩ := h.starts
        exact solid_of_opens hd
      have hapart : Apart (utf16 (w'' ++ ['}']) ++ rest) := by
        rw [utf16_append, List.append_assoc, utf16_ascii (by decide)]
        exact apart_ws hw'' (apart_unit (by simp) _)
      obtain ⟨c₁, hkey, hrest₁, hnodes₁⟩ := memberKey_of_rest hk hw hw' (hnew (k, v) (by simp))
        hsplit (hsolid _)
      obtain ⟨c₂, hv, hrest₂, hnodes₂⟩ := acceptsValue_of_spells h (depth + 1) n c₁ _
        (hadm (k, v) (by simp)) (by omega) hrest₁ hapart (by omega)
      obtain ⟨c₃, htake, hrest₃, hnodes₃⟩ := take_of_ws hw'' (by decide) (by decide) hrest₂
      refine ⟨c₃, ?_, hrest₃, by omega⟩
      rw [objectLoop, hkey, ok_bind]
      dsimp only
      rw [hv, ok_bind]
      dsimp only
      rw [htake]
      rfl
  | _, _, @SpellsMembers.cons k v ms lit w w' u w'' w₃ us hk hw hw' h hw'' hw₃ hs => by
      intro depth fuel keys c rest hadm hkeys hnew hn hrest hfuel
      simp only [nodesMembers, List.length_append, List.length_cons] at hn hfuel ⊢
      obtain ⟨n, rfl⟩ : ∃ n, fuel = n + 1 := ⟨fuel - 1, by omega⟩
      rw [List.map_cons, List.nodup_cons] at hkeys
      have hsplit : c.rest = utf16 (lit ++ (w ++ ':' :: w')) ++ (utf16 u ++
          (utf16 w'' ++ unit ',' :: (utf16 w₃ ++ (utf16 us ++ rest)))) := by
        rw [hrest, ← List.singleton_append (x := unit ','),
          ← encode_of_lt (c := ',') (by decide)]
        simp [utf16_append, utf16_cons, List.append_assoc]
      have hsolid : ∀ t, Solid (utf16 u ++ t) := by
        obtain ⟨d, ds, rfl, hd⟩ := h.starts
        exact solid_of_opens hd
      have hsolid' : Solid (utf16 us ++ rest) := by
        obtain ⟨ds, rfl⟩ := hs.starts
        exact solid_of_opens ⟨by decide, by decide, by decide, by decide⟩ rest
      obtain ⟨c₁, hkey, hrest₁, hnodes₁⟩ := memberKey_of_rest hk hw hw' (hnew (k, v) (by simp))
        hsplit (hsolid _)
      obtain ⟨c₂, hv, hrest₂, hnodes₂⟩ := acceptsValue_of_spells h (depth + 1) n c₁ _
        (hadm (k, v) (by simp)) (by omega) hrest₁ (apart_ws hw'' (apart_unit (by simp) _))
        (by omega)
      have hnone := take_none_of_ws hw'' (by decide) (by decide) (d := '}') (by decide)
        (by decide) hrest₂
      obtain ⟨c₃, hcomma, hrest₃, hnodes₃⟩ := expect_of_ws hw'' hw₃ (by decide) (by decide)
        "expected ',' or '\x7d' in object" hrest₂ hsolid'
      have hnew' : ∀ e ∈ ms, utf16 e.1.toList ∉ utf16 k.toList :: keys := by
        intro e he hmem
        rcases List.mem_cons.mp hmem with heq | hmem
        · have hkey := String.toList_inj.mp (utf16_injective heq)
          exact hkeys.1 (List.mem_map.mpr ⟨e, he, hkey⟩)
        · exact hnew e (List.mem_cons_of_mem _ he) hmem
      obtain ⟨c₄, hms, hrest₄, hnodes₄⟩ := acceptsMembers_of_spells hs depth n
        (utf16 k.toList :: keys) c₃.skipWhitespace rest
        (fun e he ↦ hadm e (List.mem_cons_of_mem _ he)) hkeys.2 hnew'
        (by rw [skipWhitespace_nodes]; omega) hrest₃ (by omega)
      rw [skipWhitespace_nodes] at hnodes₄
      refine ⟨c₄, ?_, hrest₄, by omega⟩
      rw [objectLoop, hkey, ok_bind]
      dsimp only
      rw [hv, ok_bind]
      dsimp only
      rw [hnone]
      dsimp only
      rw [hcomma, ok_bind, hms, ok_bind]
      rfl

end

/-! ## The parser ends -/

/-- The call returns or throws. -/
def Ends {α : Type} (x : Except Failure α) : Prop := x ≠ .error .outOfFuel

namespace Ends

variable {α β : Type}

theorem ok (a : α) : Ends (.ok a : Except Failure α) := by rintro ⟨⟩

theorem thrown (e : CanonicalizationError) :
    Ends (.error (.thrown e) : Except Failure α) := by rintro ⟨⟩

theorem rejectIf {p : Prop} [Decidable p] (e : CanonicalizationError) :
    Ends (rejectIf p (.thrown e) : Except Failure PUnit) := by
  unfold Etp.rejectIf
  split
  · exact thrown e
  · exact ok _

theorem okOr (o : Option α) (e : CanonicalizationError) : Ends (okOr o (Failure.thrown e)) := by
  cases o with
  | none => exact thrown e
  | some a => exact ok a

theorem bind {x : Except Failure α} {f : α → Except Failure β} (hx : Ends x)
    (hf : ∀ a, x = .ok a → Ends (f a)) : Ends (x >>= f) := by
  cases x with
  | error e => exact fun h ↦ hx (by cases h; rfl)
  | ok a => exact hf a rfl

end Ends

theorem ends_hexUnit (c : Cursor) : Ends c.hexUnit := by
  unfold hexUnit
  split
  · split
    · exact .ok _
    · exact .thrown _
  · exact .thrown _

theorem ends_escape (c : Cursor) : Ends c.escape := by
  unfold escape
  split
  · exact .ok _
  · refine .bind (.rejectIf _) fun _ _ ↦ .bind (ends_hexUnit _) fun p _ ↦ ?_
    dsimp only
    split_ifs
    · exact .bind (.rejectIf _) fun _ _ ↦ .bind (ends_hexUnit _) fun _ _ ↦
        .bind (.rejectIf _) fun _ _ ↦ .ok _
    · exact .thrown _
    · exact .ok _

theorem ends_unescaped (c : Cursor) (u : UInt16) : Ends (c.unescaped u) := by
  unfold unescaped
  split_ifs
  · exact .thrown _
  · split
    · split_ifs
      · exact .ok _
      · exact .thrown _
    · exact .thrown _
  · exact .thrown _
  · exact .ok _

theorem Consumes.length_le {c c' : Cursor} {cs : List Char} {n : Nat} (h : Consumes c cs n c') :
    c'.rest.length + cs.length ≤ c.rest.length := by
  have := length_le_length_utf16 cs
  rw [h.rest, List.length_append]
  omega

theorem ends_stringLoop {fuel : Nat} {result : JsString} {c : Cursor}
    (h : c.rest.length < fuel) : Ends (stringLoop fuel result c) := by
  induction fuel generalizing result c with
  | zero => omega
  | succ fuel ih =>
      rw [stringLoop]
      cases hcur : c.current with
      | none => exact .thrown _
      | some u =>
          have hpos : 0 < c.rest.length := by
            cases hr : c.rest with
            | nil => simp [current, hr] at hcur
            | cons v rest => simp
          dsimp only
          split_ifs with hquote hsolidus
          · exact .ok _
          · refine .bind (ends_escape _) fun p hp ↦ ih ?_
            obtain ⟨d, us, -, -, hc⟩ := exists_of_escape hp
            have := hc.length_le
            rw [advance_rest, List.length_drop] at this
            omega
          · refine .bind (ends_unescaped _ _) fun p hp ↦ ih ?_
            obtain ⟨d, -, -, hc⟩ := exists_of_unescaped hcur hquote hsolidus hp
            have := hc.length_le
            rw [List.length_singleton] at this
            omega

theorem ends_string {c : Cursor} (h : c.current = some (unit '"')) : Ends c.string := by
  refine ends_stringLoop ?_
  cases hr : c.rest with
  | nil => simp [current, hr] at h
  | cons u rest => simp [advance_rest, hr]

theorem ends_number (c : Cursor) : Ends c.number := by
  refine .bind ?_ fun _ _ ↦ .bind ?_ fun _ _ ↦ .bind (.rejectIf _) fun _ _ ↦
    .bind (.rejectIf _) fun _ _ ↦ .ok _
  · unfold numberSign
    split
    · exact .bind (.rejectIf _) fun _ _ ↦ .ok _
    · exact .ok _
  · unfold numberDigits
    split
    · exact .bind (.rejectIf _) fun _ _ ↦ .ok _
    · exact .bind (.rejectIf _) fun _ _ ↦ .ok _

theorem ends_memberKey (c : Cursor) (keys : List JsString) : Ends (c.memberKey keys) := by
  refine .bind (.rejectIf _) fun _ hquote ↦ .bind (ends_string ?_) fun _ _ ↦
    .bind (.rejectIf _) fun _ _ ↦ .bind (.okOr _ _) fun _ _ ↦ .ok _
  exact not_not.mp (rejectIf_eq_ok.mp hquote)

theorem length_skipWhitespace_le (c : Cursor) :
    c.skipWhitespace.rest.length ≤ c.rest.length := by
  obtain ⟨w, -, hc⟩ := exists_consumes_skipWhitespace c
  have := hc.length_le
  omega

theorem ends_array {c : Cursor} {loop : Cursor → Except Failure (List JsValue × Cursor)}
    (h : c.rest ≠ []) (hloop : ∀ c₁ : Cursor, c₁.rest.length < c.rest.length → Ends (loop c₁)) :
    Ends (c.array loop) := by
  have hlt : (c.advance 1).skipWhitespace.rest.length < c.rest.length := by
    have hle := length_skipWhitespace_le (c.advance 1)
    have := List.length_pos_of_ne_nil h
    rw [advance_rest, List.length_drop] at hle
    omega
  simp only [array]
  split
  · exact .ok _
  · exact .bind (hloop _ hlt) fun _ _ ↦ .ok _

theorem ends_object {c : Cursor}
    {loop : Cursor → Except Failure (List (JsString × JsValue) × Cursor)}
    (h : c.rest ≠ []) (hloop : ∀ c₁ : Cursor, c₁.rest.length < c.rest.length → Ends (loop c₁)) :
    Ends (c.object loop) := by
  have hlt : (c.advance 1).skipWhitespace.rest.length < c.rest.length := by
    have hle := length_skipWhitespace_le (c.advance 1)
    have := List.length_pos_of_ne_nil h
    rw [advance_rest, List.length_drop] at hle
    omega
  simp only [object]
  split
  · exact .ok _
  · exact .bind (hloop _ hlt) fun _ _ ↦ .ok _

/-- A separator is at least one unit long. -/
theorem length_lt_of_expect {c c' : Cursor} {d : Char} {message : String} (hd : d.toNat < 0x80)
    (h : c.skipWhitespace.expect d message = .ok c') :
    c'.skipWhitespace.rest.length < c.rest.length := by
  obtain ⟨w, w', -, -, hc⟩ := exists_of_expect hd h
  have := hc.length_le
  rw [List.length_append, List.length_cons] at this
  omega

mutual

theorem ends_value : ∀ (fuel depth : Nat) {c : Cursor}, 2 * c.rest.length + 1 ≤ fuel →
    Ends (value fuel depth c)
  | 0, _, _, h => by omega
  | fuel + 1, depth, c, h => by
      have henter : Ends (c.enter depth) :=
        .bind (.rejectIf _) fun _ _ ↦ .bind (.rejectIf _) fun _ _ ↦ .ok _
      rw [value]
      refine .bind henter fun c₁ hc₁ ↦ ?_
      have hrest : c₁.rest = c.rest := by rw [(enter_eq_ok.mp hc₁).2.2]
      have hne : ∀ {u}, c₁.current = some u → c₁.rest ≠ [] := by
        intro u hu hnil
        rw [current, hnil] at hu
        cases hu
      split_ifs with hobj harr hstr htrue hfalse hnull hnum
      · refine ends_object (hne hobj) fun c₂ hlt ↦ ends_objectLoop fuel depth [] ?_
        rw [hrest] at hlt
        omega
      · refine ends_array (hne harr) fun c₂ hlt ↦ ends_arrayLoop fuel depth ?_
        rw [hrest] at hlt
        omega
      · exact .bind (ends_string hstr) fun _ _ ↦ .ok _
      · exact .bind (.rejectIf _) fun _ _ ↦ .ok _
      · exact .bind (.rejectIf _) fun _ _ ↦ .ok _
      · exact .bind (.rejectIf _) fun _ _ ↦ .ok _
      · exact ends_number c₁
      · exact .thrown _

theorem ends_arrayLoop : ∀ (fuel depth : Nat) {c : Cursor}, 2 * c.rest.length + 2 ≤ fuel →
    Ends (arrayLoop fuel depth c)
  | 0, _, _, h => by omega
  | fuel + 1, depth, c, h => by
      rw [arrayLoop]
      refine .bind (ends_value fuel (depth + 1) (by omega)) fun p hp ↦ ?_
      obtain ⟨w, cs, -, hw⟩ := exists_of_value fuel (depth + 1) hp
      have hle := hw.consumes.length_le
      dsimp only
      split
      · exact .ok _
      · refine .bind (.okOr _ _) fun c₂ hc₂ ↦ .bind (ends_arrayLoop fuel depth ?_) fun _ _ ↦ .ok _
        have := length_lt_of_expect (by decide) hc₂
        omega

theorem ends_objectLoop : ∀ (fuel depth : Nat) (keys : List JsString) {c : Cursor},
    2 * c.rest.length + 2 ≤ fuel → Ends (objectLoop fuel depth keys c)
  | 0, _, _, _, h => by omega
  | fuel + 1, depth, keys, c, h => by
      rw [objectLoop]
      refine .bind (ends_memberKey c keys) fun p hp ↦ ?_
      obtain ⟨k, lit, w, w', -, -, -, -, -, hkey⟩ := exists_of_memberKey hp
      have hkey := hkey.length_le
      refine .bind (ends_value fuel (depth + 1) (by omega)) fun q hq ↦ ?_
      obtain ⟨v, cs, -, hv⟩ := exists_of_value fuel (depth + 1) hq
      have hle := hv.consumes.length_le
      dsimp only
      split
      · exact .ok _
      · refine .bind (.okOr _ _) fun c₂ hc₂ ↦
          .bind (ends_objectLoop fuel depth _ ?_) fun _ _ ↦ .ok _
        have := length_lt_of_expect (by decide) hc₂
        omega

end

/-- The parser returns or throws on every string. -/
theorem parseStrictJson_ne_outOfFuel (text : JsString) :
    parseStrictJson text ≠ .error .outOfFuel := by
  refine Ends.bind (.rejectIf _) fun _ _ ↦ Ends.bind (ends_value _ _ ?_) fun p _ ↦
    Ends.bind (.rejectIf _) fun _ _ ↦ Ends.bind ?_ fun _ _ ↦ .ok _
  · have := length_skipWhitespace_le ⟨text, 0, 0⟩
    dsimp only at this
    omega
  · cases canonicalJson p.1 with
    | ok t => exact .ok _
    | error e => exact .thrown e

/-! ## The result -/

/-- The texts that the parser is to accept, with the values they denote: at most 2^20 bytes of
RFC 8259 text with integer literals, of magnitude at most 2^53 - 1, no repeated names, at most 64
levels and at most 100000 values. -/
structure Accepted (text : JsString) (v : Json) : Prop where
  spelled : ∃ cs, text = utf16 cs ∧ Json.Text v cs
  bytes : (toBuffer text).length ≤ 1048576
  distinct : v.Distinct
  bounded : v.bounded (2 ^ 53 - 1) = true
  height : v.height ≤ 64
  nodes : v.nodes ≤ 100000

theorem Accepted.encodable {text : JsString} {v : Json} (h : Accepted text v) :
    Core.Encodable v where
  height := h.height
  nodes := h.nodes
  bounded := by rw [h.distinct.bounded_sortKeys]; exact h.bounded

theorem Accepted.admitted {text : JsString} {v : Json} (h : Accepted text v) : Admitted 1 v where
  distinct := h.distinct
  bounded := h.bounded
  height := by
    have : maxTransportNestingDepth = 64 := rfl
    have := h.height
    omega

theorem accepted_of_parse {text : JsString} {value : JsValue}
    (hbytes : (toBuffer text).length ≤ maxTransportInputBytes) (h : parse text = .ok value) :
    ∃ v, Accepted text v ∧ value = ofJson v := by
  obtain ⟨⟨_, c⟩, hvalue, h⟩ := bind_eq_ok.mp h
  simp only [bind_eq_ok, rejectIf_eq_ok, not_not, exists_const, Except.ok.injEq] at h
  obtain ⟨hend, -, -, rfl⟩ := h
  obtain ⟨v, u, rfl, hv⟩ := exists_of_value _ _ hvalue
  obtain ⟨w, hw, hstart⟩ := exists_consumes_skipWhitespace ⟨text, 0, 0⟩
  obtain ⟨w', hw', hstop⟩ := exists_consumes_skipWhitespace c
  have hread := hstart.trans (hv.consumes.trans hstop)
  have hnodes := hv.consumes.nodes
  have hle := hv.nodes
  refine ⟨v, ⟨⟨w ++ (u ++ w'), ?_, w, u, w', hw, hw', hv.spells, rfl⟩, hbytes, hv.admitted.distinct,
    hv.admitted.bounded, ?_, ?_⟩, rfl⟩
  · have := hread.rest
    rwa [hend, List.append_nil] at this
  · have : maxTransportNestingDepth = 64 := rfl
    have := hv.admitted.height
    omega
  · have : maxTransportNodes = 100000 := rfl
    rw [skipWhitespace_nodes] at hnodes
    dsimp only at hnodes
    omega

theorem parse_of_accepted {text : JsString} {v : Json} (h : Accepted text v) :
    parse text = .ok (ofJson v) := by
  obtain ⟨_, htext, w, u, w', hw, hw', hu, rfl⟩ := h.spelled
  have hsolid : Solid (utf16 u ++ utf16 w') := by
    obtain ⟨d, ds, rfl, hd⟩ := hu.starts
    exact solid_of_opens hd _
  have hstart : (Cursor.mk text 0 0).skipWhitespace.rest = utf16 u ++ utf16 w' :=
    skipWhitespace_of_rest hw (by rw [htext, utf16_append, utf16_append]) hsolid
  have hlen := length_le_length_utf16 (w ++ (u ++ w'))
  rw [← htext, List.length_append, List.length_append] at hlen
  have hnodes : (0 : Nat) + v.nodes ≤ maxTransportNodes := by
    have : maxTransportNodes = 100000 := rfl
    have := h.nodes
    omega
  obtain ⟨c, hvalue, hrest, -⟩ := acceptsValue_of_spells hu 1 (2 * text.length + 1) _ (utf16 w')
    h.admitted hnodes hstart
    (by simpa using apart_ws (w := w') hw' (show Apart [] from by rintro _ ⟨⟩)) (by omega)
  have hend : c.skipWhitespace.rest = [] :=
    skipWhitespace_of_rest hw' (by rw [hrest, List.append_nil]) (by rintro _ ⟨⟩)
  have hcanonical := (canonicalJson_ofJson h.distinct).mpr ⟨h.encodable, rfl⟩
  rw [parse, hvalue, ok_bind]
  dsimp only
  rw [rejectIf_false (not_not.mpr hend), ok_bind, hcanonical]
  rfl

theorem parseStrictJson_iff_accepted {text : JsString} {value : JsValue} :
    parseStrictJson text = .ok value ↔ ∃ v, Accepted text v ∧ value = ofJson v := by
  rw [parseStrictJson]
  constructor
  · intro h
    obtain ⟨_, hbytes, h⟩ := bind_eq_ok.mp h
    rw [rejectIf_eq_ok, not_lt] at hbytes
    exact accepted_of_parse hbytes h
  · rintro ⟨v, hv, rfl⟩
    have hbytes : ¬(toBuffer text).length > maxTransportInputBytes := not_lt.mpr hv.bytes
    rw [rejectIf_false hbytes, ok_bind, parse_of_accepted hv]

/-- **The strict parser.**  It ends on every string, and it returns a value exactly for the
accepted texts, and then the JavaScript value that the text denotes. -/
theorem parseStrictJson_eq_ok (text : JsString) :
    parseStrictJson text ≠ .error .outOfFuel ∧
      ∀ value, parseStrictJson text = .ok value ↔ ∃ v, Accepted text v ∧ value = ofJson v :=
  ⟨parseStrictJson_ne_outOfFuel text, fun _ ↦ parseStrictJson_iff_accepted⟩

end Etp.TypeScript
