import Etp.TypeScript.Strict

/-!
# Decoding undoes encoding

The canonical text of a value of the subset is a text the parser accepts, and it denotes
the value with its objects sorted.  In the other direction the encoding of a parsed value
is never longer than the text it was parsed from, so it can be parsed again.

`roundTrip` puts both directions together.
-/

namespace Etp.TypeScript

open JsString Json

/-- The values of the ETP subset. -/
structure Subset (v : Json) : Prop where
  distinct : v.Distinct
  bounded : v.bounded (2 ^ 53 - 1) = true
  height : v.height ≤ 64
  nodes : v.nodes ≤ 100000

theorem Subset.encodable {v : Json} (h : Subset v) : Core.Encodable v where
  height := h.height
  nodes := h.nodes
  bounded := by rw [h.distinct.bounded_sortKeys]; exact h.bounded

theorem Subset.sortKeys {v : Json} (h : Subset v) : Subset v.sortKeys where
  distinct := h.distinct.sortKeys
  bounded := by rw [h.distinct.bounded_sortKeys]; exact h.bounded
  height := by rw [h.distinct.height_sortKeys]; exact h.height
  nodes := by rw [h.distinct.nodes_sortKeys]; exact h.nodes

theorem Accepted.subset {text : JsString} {v : Json} (h : Accepted text v) : Subset v :=
  ⟨h.distinct, h.bounded, h.height, h.nodes⟩

theorem length_toBuffer_utf16 (cs : List Char) : (toBuffer (utf16 cs)).length = bytesOf cs := by
  rw [toBuffer_utf16, utf8, String.toList_ofList]
  rfl

/-- The canonical text of a value of the subset. -/
theorem canonicalJson_of_subset {v : Json} (h : Subset v) :
    canonicalJson (ofJson v) = .ok (utf16 v.sortKeys.text) :=
  (canonicalJson_ofJson h.distinct).mpr ⟨h.encodable, rfl⟩

/-- The parser accepts the canonical text. -/
theorem accepted_canonical {v : Json} (h : Subset v)
    (hbytes : (toBuffer (utf16 v.sortKeys.text)).length ≤ 1048576) :
    Accepted (utf16 v.sortKeys.text) v.sortKeys where
  spelled := ⟨_, rfl, text_text _⟩
  bytes := hbytes
  distinct := h.sortKeys.distinct
  bounded := h.sortKeys.bounded
  height := h.sortKeys.height
  nodes := h.sortKeys.nodes

/-- The canonical text is no longer than any text of the value. -/
theorem Accepted.bytes_canonical {text : JsString} {v : Json} (h : Accepted text v) :
    (toBuffer (utf16 v.sortKeys.text)).length ≤ 1048576 := by
  obtain ⟨cs, rfl, hcs⟩ := h.spelled
  have hbytes := h.bytes
  rw [length_toBuffer_utf16] at hbytes ⊢
  rw [h.distinct.bytesOf_sortKeys]
  exact (bytesOf_text_le hcs).trans hbytes

theorem canonical_eq_iff {v w : Json} (hv : v.Distinct) (hw : w.Distinct) :
    utf16 v.sortKeys.text = utf16 w.sortKeys.text ↔ Same v w := by
  rw [← sortKeys_eq_iff hv hw]
  constructor
  · exact fun h ↦ text_injective (utf16_injective h)
  · exact fun h ↦ by rw [h]

/-- **Decoding undoes encoding.**  Every value of the subset has a canonical encoding, and within
the size limit the parser reads from it the value up to the order of members.  The value parsed
from an accepted text has a canonical encoding, which is the same for two texts exactly when they
denote the same value, and parsing and encoding it again gives it back. -/
theorem roundTrip :
    (∀ v, Subset v → ∃ t, canonicalJson (ofJson v) = .ok t ∧
      ((toBuffer t).length ≤ 1048576 → ∃ w, parseStrictJson t = .ok (ofJson w) ∧ Same v w)) ∧
    (∀ s value, parseStrictJson s = .ok value → ∃ t, canonicalJson value = .ok t ∧
      ∃ value', parseStrictJson t = .ok value' ∧ canonicalJson value' = .ok t) ∧
    ∀ s s' v v', Accepted s v → Accepted s' v' →
      ∃ t t', (parseStrictJson s = .ok (ofJson v) ∧ canonicalJson (ofJson v) = .ok t) ∧
        (parseStrictJson s' = .ok (ofJson v') ∧ canonicalJson (ofJson v') = .ok t') ∧
        (t = t' ↔ Same v v') := by
  refine ⟨fun v hv ↦ ?_, fun s value hs ↦ ?_, fun s s' v v' hs hs' ↦ ?_⟩
  · refine ⟨_, canonicalJson_of_subset hv, fun hbytes ↦ ?_⟩
    exact ⟨v.sortKeys, parseStrictJson_iff_accepted.mpr ⟨_, accepted_canonical hv hbytes, rfl⟩,
      hv.distinct.same_sortKeys⟩
  · obtain ⟨v, hv, rfl⟩ := parseStrictJson_iff_accepted.mp hs
    have hagain := accepted_canonical hv.subset hv.bytes_canonical
    have hcanonical := canonicalJson_of_subset hv.subset.sortKeys
    rw [hv.distinct.sortKeys_sortKeys] at hcanonical
    exact ⟨_, canonicalJson_of_subset hv.subset, _,
      parseStrictJson_iff_accepted.mpr ⟨_, hagain, rfl⟩, hcanonical⟩
  · refine ⟨_, _, ⟨?_, canonicalJson_of_subset hs.subset⟩,
      ⟨?_, canonicalJson_of_subset hs'.subset⟩, canonical_eq_iff hs.distinct hs'.distinct⟩
    · exact parseStrictJson_iff_accepted.mpr ⟨v, hs, rfl⟩
    · exact parseStrictJson_iff_accepted.mpr ⟨v', hs', rfl⟩

end Etp.TypeScript
