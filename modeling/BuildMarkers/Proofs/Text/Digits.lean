import BuildMarkers.Log.Diagnostic
import Mathlib.Data.List.Basic
import Mathlib.Data.Nat.Basic
/-!
# Decimal digits

The written form of a number is a run of digits that does not start with a zero
unless it is one (`head?_ne_zero`). A number of 32 bits is read from the digits
with its value and from no others (`number32?_eq_some_iff`), so it is read back
from what is written for it (`number32?_toDigits`), both in a line of a log and in
a report.
-/

namespace BuildMarkers

namespace Digits

variable {n : ℕ} {c : Char}

/-- The written form of a number consists of digits. -/
theorem isDigit_of_mem (h : c ∈ Nat.toDigits 10 n) : c.isDigit = true :=
  Nat.isDigit_of_mem_toDigits (by decide) le_rfl h

/-- No colon stands in the written form of a number. -/
theorem colon_notMem (n : ℕ) : ':' ∉ Nat.toDigits 10 n := by
  intro h
  exact absurd (isDigit_of_mem h) (by decide)

/-- Only the number zero is written with a zero in front. The induction is on the
number without its last digit, which has the same first digit. -/
theorem head?_ne_zero : ∀ n : ℕ, n ≠ 0 → (Nat.toDigits 10 n).head? ≠ some '0' := by
  intro n
  induction n using Nat.strong_induction_on with
  | _ n ih =>
    intro hn
    rcases Nat.lt_or_ge n 10 with hlt | hge
    · rw [Nat.toDigits_of_lt_base hlt, List.head?_cons]
      intro h
      have hvalue := congrArg Char.toNat (Option.some.inj h)
      rw [Nat.toNat_digitChar_of_lt_ten hlt] at hvalue
      have hzero : ('0' : Char).toNat = 48 := rfl
      omega
    · have hne : Nat.toDigits 10 (n / 10) ≠ [] := Nat.toDigits_ne_nil
      rw [Nat.toDigits_of_base_le (by decide) hge, List.head?_append_of_ne_nil _ hne]
      exact ih (n / 10) (by omega) (by omega)

end Digits

namespace Diagnostic

variable {digits : List Char} {n : UInt32}

theorem valueOf_eq_ofDigitChars (digits : List Char) :
    valueOf digits = Nat.ofDigitChars 10 digits 0 := by
  simp only [valueOf, Nat.ofDigitChars, Nat.mul_comm]

/-- **A number of 32 bits is the value of its digits**, and there is none if that is
larger. -/
theorem number32?_eq_some_iff :
    number32? digits = some n ↔ Nat.ofDigitChars 10 digits 0 = n.toNat := by
  rw [number32?, ← valueOf_eq_ofDigitChars]
  constructor
  · intro h
    rw [Option.ite_none_right_eq_some] at h
    rw [← Option.some.inj h.2, UInt32.toNat_ofNat_of_lt' h.1]
  · intro h
    rw [h, if_pos n.toNat_lt, UInt32.ofNat_toNat]

/-- **It is read back from its digits.** -/
theorem number32?_toDigits (n : UInt32) : number32? (Nat.toDigits 10 n.toNat) = some n :=
  number32?_eq_some_iff.2 Nat.ofDigitChars_ten_toDigits

end Diagnostic

end BuildMarkers
