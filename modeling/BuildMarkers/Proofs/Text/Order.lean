import BuildMarkers.Text.Basic
import Mathlib.Data.String.Basic
/-!
# The order of written texts

Texts are compared character by character, and their written forms byte by byte.
The two orders are one (`encode_lt_encode_iff`): the bytes of a character put its
highest bits first, and longer forms begin with greater bytes. So names that are
sorted as texts are sorted as bytes, and so are lists of names
(`map_encode_lt_map_encode`).
-/

namespace BuildMarkers

namespace Text

variable {s t : String}

/-- The written form of the earlier of two characters comes first, whatever
follows either of them. -/
theorem utf8EncodeChar_append_lt {c d : Char} (h : c < d) (more more' : List UInt8) :
    String.utf8EncodeChar c ++ more < String.utf8EncodeChar d ++ more' := by
  have hd : d.val.toNat.isValidChar := d.valid
  rw [Char.lt_def, UInt32.lt_iff_toNat_lt] at h
  rw [Nat.isValidChar] at hd
  -- a byte holds what is left when the bits of the byte behind it are cut off
  have h12 (n : ℕ) : n / 4096 = n / 64 / 64 := by omega
  have h18 (n : ℕ) : n / 262144 = n / 64 / 64 / 64 := by omega
  simp only [String.utf8EncodeChar]
  split_ifs <;>
    simp only [List.cons_append, List.nil_append, List.cons_lt_cons_iff, UInt8.lt_iff_toNat_lt,
      ← UInt8.toNat_inj, UInt8.toNat_ofNat', h12, h18] <;>
    omega

theorem encode_lt_encode (h : s < t) : encode s < encode t := by
  rw [String.lt_iff_toList_lt] at h
  unfold encode
  generalize s.toList = cs, t.toList = ds at h
  induction h with
  | @nil d ds =>
    obtain ⟨b, bs, hb⟩ := List.exists_cons_of_ne_nil (String.utf8EncodeChar_ne_nil (c := d))
    rw [List.flatMap_nil, List.flatMap_cons, hb]
    exact List.nil_lt_cons b _
  | rel h => exact utf8EncodeChar_append_lt h _ _
  | cons _ ih => exact List.append_left_lt ih

/-- **Bytes keep the order of texts.** -/
theorem encode_lt_encode_iff : encode s < encode t ↔ s < t := by
  refine ⟨fun h => ?_, encode_lt_encode⟩
  rcases lt_trichotomy s t with hlt | rfl | hgt
  · exact hlt
  · exact absurd h (List.lt_irrefl _)
  · exact absurd h (List.lt_asymm (encode_lt_encode hgt))

/-- And the order of lists of texts. -/
theorem map_encode_lt_map_encode {l m : List String} (h : l < m) : l.map encode < m.map encode := by
  induction h with
  | nil => exact List.nil_lt_cons _ _
  | rel h => exact List.cons_lt_cons_iff.2 (.inl (encode_lt_encode h))
  | cons _ ih => exact List.cons_lt_cons_iff.2 (.inr ⟨rfl, ih⟩)

end Text

end BuildMarkers
