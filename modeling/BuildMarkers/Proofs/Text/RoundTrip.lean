import BuildMarkers.Path.Basic
import Mathlib.Algebra.Ring.Nat
import Mathlib.Order.RelClasses
/-!
# Reading back what is written as bytes

The strict reading of bytes as a text has an inverse in `encode`: bytes that
form a text are the written form of that text (`encode_of_decode?`). So no two
names of a directory have the same text, and the name of an entry is found
again from its text.
-/

namespace BuildMarkers

namespace Text

/-- The bytes of a character that has begun: the first byte, and each further
one within the bounds that the bytes before it set. -/
inductive Started : Begun → Prop
  | first {b : UInt8} {s : Begun} : begin? b = some s → Started s
  | more {s : Begun} {b : UInt8} {n : ℕ} : Started s → s.left = n + 1 → s.low ≤ b → b ≤ s.high →
      Started ⟨s.bytes ++ [b], 0x80, 0xBF, n⟩

/-- What the first byte of a longer character begins: its bounds, by cases on
how many bytes are still to come after the second. -/
theorem begin?_eq_some {b : UInt8} {s : Begun} (h : begin? b = some s) :
    s.bytes = [b] ∧ 0x80 ≤ s.low.toNat ∧ s.high.toNat ≤ 0xBF ∧
      (s.left = 0 ∧ 0xC2 ≤ b.toNat ∧ b.toNat < 0xE0 ∨
       s.left = 1 ∧ 0xE0 ≤ b.toNat ∧ b.toNat < 0xF0 ∧ (b.toNat = 0xE0 → 0xA0 ≤ s.low.toNat) ∧
         (b.toNat = 0xED → s.high.toNat ≤ 0x9F) ∨
       s.left = 2 ∧ 0xF0 ≤ b.toNat ∧ b.toNat ≤ 0xF4 ∧ (b.toNat = 0xF0 → 0x90 ≤ s.low.toNat) ∧
         (b.toNat = 0xF4 → s.high.toNat ≤ 0x8F)) := by
  simp only [begin?, UInt8.lt_iff_toNat_lt, ← UInt8.toNat_inj, UInt8.reduceToNat] at h
  split_ifs at h <;> cases h <;> simp <;> omega

/-- Two bytes at most follow the second. -/
theorem Started.left_le {s : Begun} (h : Started s) : s.left ≤ 2 := by
  induction h with
  | first h =>
    obtain ⟨-, -, -, h⟩ := begin?_eq_some h
    omega
  | more _ hleft _ _ ih =>
    simp only
    omega

theorem toNat_val_ofNat {n : ℕ} (h : n.isValidChar) : (Char.ofNat n).val.toNat = n := by
  rw [Char.ofNat, dif_pos h]
  rfl

/-- A character of two bytes. -/
theorem utf8EncodeChar_two {a b : UInt8} (ha : 0xC2 ≤ a.toNat ∧ a.toNat < 0xE0)
    (hb : 0x80 ≤ b.toNat ∧ b.toNat ≤ 0xBF) : String.utf8EncodeChar (assemble [a, b]) = [a, b] := by
  have hn : (assemble [a, b]).val.toNat = a.toNat % 32 * 64 + b.toNat % 64 := by
    change (Char.ofNat (a.toNat % 32 * 64 + b.toNat % 64)).val.toNat = _
    exact toNat_val_ofNat (Or.inl (by omega))
  simp only [String.utf8EncodeChar, hn]
  rw [if_neg (by omega), if_pos (by omega)]
  simp only [List.cons.injEq, ← UInt8.toNat_inj, UInt8.toNat_ofNat', and_true]
  omega

/-- A character of three bytes. -/
theorem utf8EncodeChar_three {a b c : UInt8} (ha : 0xE0 ≤ a.toNat ∧ a.toNat < 0xF0)
    (hb : 0x80 ≤ b.toNat ∧ b.toNat ≤ 0xBF) (hlow : a.toNat = 0xE0 → 0xA0 ≤ b.toNat)
    (hhigh : a.toNat = 0xED → b.toNat ≤ 0x9F) (hc : 0x80 ≤ c.toNat ∧ c.toNat ≤ 0xBF) :
    String.utf8EncodeChar (assemble [a, b, c]) = [a, b, c] := by
  have hn : (assemble [a, b, c]).val.toNat =
      (a.toNat % 16 * 64 + b.toNat % 64) * 64 + c.toNat % 64 := by
    change (Char.ofNat ((a.toNat % 16 * 64 + b.toNat % 64) * 64 + c.toNat % 64)).val.toNat = _
    exact toNat_val_ofNat (by simp only [Nat.isValidChar]; omega)
  simp only [String.utf8EncodeChar, hn]
  rw [if_neg (by omega), if_neg (by omega), if_pos (by omega)]
  simp only [List.cons.injEq, ← UInt8.toNat_inj, UInt8.toNat_ofNat', and_true]
  omega

/-- A character of four bytes. -/
theorem utf8EncodeChar_four {a b c d : UInt8} (ha : 0xF0 ≤ a.toNat ∧ a.toNat ≤ 0xF4)
    (hb : 0x80 ≤ b.toNat ∧ b.toNat ≤ 0xBF) (hlow : a.toNat = 0xF0 → 0x90 ≤ b.toNat)
    (hhigh : a.toNat = 0xF4 → b.toNat ≤ 0x8F) (hc : 0x80 ≤ c.toNat ∧ c.toNat ≤ 0xBF)
    (hd : 0x80 ≤ d.toNat ∧ d.toNat ≤ 0xBF) :
    String.utf8EncodeChar (assemble [a, b, c, d]) = [a, b, c, d] := by
  have hn : (assemble [a, b, c, d]).val.toNat =
      ((a.toNat % 8 * 64 + b.toNat % 64) * 64 + c.toNat % 64) * 64 + d.toNat % 64 := by
    change (Char.ofNat (((a.toNat % 8 * 64 + b.toNat % 64) * 64 + c.toNat % 64) * 64 +
      d.toNat % 64)).val.toNat = _
    exact toNat_val_ofNat (Or.inr (by omega))
  simp only [String.utf8EncodeChar, hn]
  rw [if_neg (by omega), if_neg (by omega), if_neg (by omega)]
  simp only [List.cons.injEq, ← UInt8.toNat_inj, UInt8.toNat_ofNat', and_true]
  omega

/-- **The last byte of a character completes its written form.** The first
byte leaves room for two more at most, so there are three lengths. -/
theorem utf8EncodeChar_assemble {s : Begun} {b : UInt8} (h : Started s) (hs : s.left = 0)
    (hlow : s.low ≤ b) (hhigh : b ≤ s.high) :
    String.utf8EncodeChar (assemble (s.bytes ++ [b])) = s.bytes ++ [b] := by
  rw [UInt8.le_iff_toNat_le] at hlow hhigh
  -- the bytes before the last one are one, two or three
  cases h with
  | first h =>
    obtain ⟨hbytes, h1, h2, h3⟩ := begin?_eq_some h
    rw [hbytes]
    exact utf8EncodeChar_two (by omega) (by omega)
  | more h hleft hlow' hhigh' =>
    simp only [UInt8.reduceToNat] at hlow hhigh hs
    rw [UInt8.le_iff_toNat_le] at hlow' hhigh'
    cases h with
    | first h =>
      obtain ⟨hbytes, h1, h2, h3⟩ := begin?_eq_some h
      simp only [hbytes]
      exact utf8EncodeChar_three (by omega) (by omega) (by omega) (by omega) (by omega)
    | more h hleft' hlow'' hhigh'' =>
      simp only [UInt8.reduceToNat] at hlow' hhigh' hleft
      rw [UInt8.le_iff_toNat_le] at hlow'' hhigh''
      cases h with
      | first h =>
        obtain ⟨hbytes, h1, h2, h3⟩ := begin?_eq_some h
        simp only [hbytes]
        exact utf8EncodeChar_four (by omega) (by omega) (by omega) (by omega) (by omega) (by omega)
      | more h hleft'' _ _ =>
        -- a fifth byte would be the third to come behind the second
        have := h.left_le
        simp only at hleft'
        omega

/-- The bytes of what has begun, none where nothing has. -/
def pending (begun : Option Begun) : List UInt8 := (begun.map Begun.bytes).getD []

theorem utf8EncodeChar_ofNat_of_lt {b : UInt8} (h : b < 0x80) :
    String.utf8EncodeChar (Char.ofNat b.toNat) = [b] := by
  simp only [UInt8.lt_iff_toNat_lt, UInt8.reduceToNat] at h
  simp only [String.utf8EncodeChar, toNat_val_ofNat (Or.inl (by omega) : b.toNat.isValidChar)]
  rw [if_pos (by omega), UInt8.ofNat_toNat]

/-- A first byte is read as itself or begins a character, unless it is broken. -/
theorem first_eq {b : UInt8} {done : List Part} {next : Option Begun} (h : first b = (done, next)) :
    (∀ s ∈ next, Started s) ∧
      ∀ cs, done.mapM Part.char? = some cs →
        cs.flatMap String.utf8EncodeChar ++ pending next = [b] := by
  unfold first at h
  split at h
  · next hb =>
    obtain ⟨rfl, rfl⟩ := Prod.mk.inj h
    refine ⟨by simp, fun cs hcs => ?_⟩
    obtain rfl : cs = [Char.ofNat b.toNat] := by simpa [Part.char?, eq_comm] using hcs
    simp [utf8EncodeChar_ofNat_of_lt hb, pending]
  · split at h
    · next s hs =>
      obtain ⟨rfl, rfl⟩ := Prod.mk.inj h
      refine ⟨fun t ht => ?_, fun cs hcs => ?_⟩
      · obtain rfl : s = t := by simpa using ht
        exact .first hs
      · obtain rfl : cs = [] := by simpa [eq_comm] using hcs
        simp [pending, (begin?_eq_some hs).1]
    · obtain ⟨rfl, rfl⟩ := Prod.mk.inj h
      exact ⟨by simp, fun cs hcs => by simp [Part.char?] at hcs⟩

/-- One more byte: what is complete and what has begun are written as before,
with the byte behind. -/
theorem advance_eq {begun : Option Begun} {b : UInt8} {done : List Part} {next : Option Begun}
    (hbegun : ∀ s ∈ begun, Started s) (h : advance begun b = (done, next)) :
    (∀ s ∈ next, Started s) ∧
      ∀ cs, done.mapM Part.char? = some cs →
        cs.flatMap String.utf8EncodeChar ++ pending next = pending begun ++ [b] := by
  cases begun with
  | none => simpa [pending] using first_eq h
  | some s =>
    have hs : Started s := hbegun s rfl
    simp only [advance] at h
    split at h
    · next hbounds =>
      simp only [Bool.and_eq_true, decide_eq_true_eq] at hbounds
      split at h
      · next hleft =>
        obtain ⟨rfl, rfl⟩ := Prod.mk.inj h
        refine ⟨by simp, fun cs hcs => ?_⟩
        obtain rfl : cs = [assemble (s.bytes ++ [b])] := by simpa [Part.char?, eq_comm] using hcs
        simp [pending, utf8EncodeChar_assemble hs hleft hbounds.1 hbounds.2]
      · next n hleft =>
        obtain ⟨rfl, rfl⟩ := Prod.mk.inj h
        refine ⟨fun t ht => ?_, fun cs hcs => ?_⟩
        · obtain rfl := Option.mem_some.1 ht
          exact .more hs hleft hbounds.1 hbounds.2
        · obtain rfl : cs = [] := by simpa [eq_comm] using hcs
          simp [pending]
    · obtain ⟨rfl, rfl⟩ := Prod.mk.inj h
      refine ⟨(first_eq (b := b) rfl).1, fun cs hcs => ?_⟩
      simp [Part.char?] at hcs

/-- What is read without a broken part is the written form of its text. -/
theorem flatMap_of_partsAfter {begun : Option Begun} {bytes : List UInt8} {cs : List Char}
    (hbegun : ∀ s ∈ begun, Started s) (h : (partsAfter begun bytes).mapM Part.char? = some cs) :
    cs.flatMap String.utf8EncodeChar = pending begun ++ bytes := by
  induction bytes generalizing begun cs with
  | nil =>
    cases begun with
    | none =>
      obtain rfl : cs = [] := by simpa [partsAfter, eq_comm] using h
      rfl
    | some s => simp [partsAfter, Part.char?] at h
  | cons b r ih =>
    obtain ⟨done, next, ha⟩ : ∃ done next, advance begun b = (done, next) := ⟨_, _, rfl⟩
    obtain ⟨hnext, hdone⟩ := advance_eq hbegun ha
    simp only [partsAfter, ha, List.mapM_append] at h
    obtain ⟨ds, hds, h⟩ := Option.bind_eq_some_iff.1 h
    obtain ⟨es, hes, h⟩ := Option.bind_eq_some_iff.1 h
    obtain rfl : ds ++ es = cs := by simpa using h
    rw [List.flatMap_append, ih hnext hes, ← List.append_assoc, hdone ds hds, List.append_assoc,
      List.singleton_append]

/-- **Bytes that form a text are its written form.** -/
theorem encode_of_decode? {bytes : List UInt8} {s : String} (h : decode? bytes = some s) :
    encode s = bytes := by
  obtain ⟨cs, hcs, rfl⟩ := Option.map_eq_some_iff.1 h
  have hnone : ∀ s ∈ (none : Option Begun), Started s := by simp
  simpa [encode, pending] using flatMap_of_partsAfter hnone hcs

/-- Two texts with one written form are one text. -/
theorem encode_injective : Function.Injective encode := by
  intro s t h
  have hbytes : s.toList.utf8Encode = t.toList.utf8Encode := congrArg List.toByteArray h
  rw [String.utf8Encode_toList, String.utf8Encode_toList] at hbytes
  exact String.toByteArray_inj.1 hbytes

end Text

namespace FileName

/-- A name is found again from its text. -/
theorem ofString_of_text? {n : FileName} {s : String} (h : n.text? = some s) : ofString s = n :=
  congrArg FileName.mk (Text.encode_of_decode? h)

end FileName

end BuildMarkers
