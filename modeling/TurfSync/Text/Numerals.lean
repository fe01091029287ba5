import Mathlib.Algebra.Order.Group.Int
import Mathlib.Algebra.Ring.Nat
import Mathlib.Data.List.Infix
import Mathlib.Tactic.Common

/-! The decimal texts of integers, plain and padded with zeros: which characters they have, how
long they are, and that a text has one number. -/

namespace TurfSync.Text

theorem toList_toString (n : ℤ) : (toString n).toList =
    if 0 ≤ n then Nat.toDigits 10 n.toNat else '-' :: Nat.toDigits 10 (-n).toNat := by
  have hrepr : toString n = n.repr := rfl
  rw [hrepr, Int.repr_eq_if]
  split_ifs
  · exact Nat.toList_repr
  · rw [String.toList_append, Nat.toList_repr]
    rfl

theorem isDigit_of_mem {n : ℕ} {c : Char} (hc : c ∈ Nat.toDigits 10 n) : c.isDigit :=
  Nat.isDigit_of_mem_toDigits (by decide) (by decide) hc

theorem not_mem_toString {c : Char} (hdigit : c.isDigit = false) (hminus : c ≠ '-') (n : ℤ) :
    c ∉ (toString n).toList := by
  have hdigits : ∀ m, c ∉ Nat.toDigits 10 m := fun m hm => by
    rw [isDigit_of_mem hm] at hdigit
    exact absurd hdigit (by decide)
  rw [toList_toString]
  split_ifs
  · exact hdigits _
  · simp [hdigits, hminus]

theorem toList_toString_ne_nil (n : ℤ) : (toString n).toList ≠ [] := by
  rw [toList_toString]
  split_ifs
  · exact Nat.toDigits_ne_nil
  · exact List.cons_ne_nil _ _

theorem toDigits_injective : Function.Injective (Nat.toDigits 10) := by
  intro m m' h
  have hvalue := congrArg (Nat.ofDigitChars 10 · 0) h
  simpa [Nat.ofDigitChars_toDigits] using hvalue

theorem toString_injective : Function.Injective (toString : ℤ → String) := by
  have hminus : ∀ m m', Nat.toDigits 10 m ≠ '-' :: Nat.toDigits 10 m' := fun m m' h =>
    absurd (isDigit_of_mem (h ▸ List.mem_cons_self)) (by decide)
  intro n n' h
  have hlists := congrArg String.toList h
  rw [toList_toString, toList_toString] at hlists
  split_ifs at hlists
  · have := toDigits_injective hlists
    omega
  · exact absurd hlists (hminus _ _)
  · exact absurd hlists.symm (hminus _ _)
  · have := toDigits_injective (List.cons.inj hlists).2
    omega

theorem toString_of_nonneg {n : ℤ} (hn : 0 ≤ n) : toString n = toString n.toNat := by
  rw [← String.toList_inj, toList_toString, if_pos hn, Nat.toString_eq_repr, Nat.toList_repr]

theorem toString_natCast (n : ℕ) : toString (n : ℤ) = toString n :=
  toString_of_nonneg (Int.natCast_nonneg n)

/-! ### Padded with zeros -/

/-- `padStart(width, '0')`. -/
def padStart (width : ℕ) (text : String) : String :=
  String.ofList (text.toList.leftpad width '0')

/-- A number as `padStart` leaves it. -/
def numeral (width n : ℕ) : String := padStart width (toString n)

theorem toList_numeral (width n : ℕ) : (numeral width n).toList =
    List.replicate (width - (Nat.toDigits 10 n).length) '0' ++ Nat.toDigits 10 n := by
  rw [numeral, padStart, String.toList_ofList, Nat.toString_eq_repr, Nat.toList_repr, List.leftpad]

/-- Zeros in front do not change the value. -/
theorem ofDigitChars_numeral (width n : ℕ) :
    Nat.ofDigitChars 10 (numeral width n).toList 0 = n := by
  rw [toList_numeral, Nat.ofDigitChars_append, Nat.ofDigitChars_replicate_zero, Nat.mul_zero,
    Nat.ofDigitChars_ten_toDigits]

theorem numeral_injective (width : ℕ) : Function.Injective (numeral width) := by
  intro m n h
  rw [← ofDigitChars_numeral width m, h, ofDigitChars_numeral]

theorem length_numeral {width n : ℕ} (hwidth : 0 < width) (hn : n < 10 ^ width) :
    (numeral width n).toList.length = width := by
  have hle := (Nat.length_toDigits_le_iff (by decide) hwidth).mpr hn
  rw [toList_numeral, List.length_append, List.length_replicate]
  omega

theorem isDigit_of_mem_numeral {width n : ℕ} {c : Char} (hc : c ∈ (numeral width n).toList) :
    c.isDigit := by
  rw [toList_numeral, List.mem_append] at hc
  rcases hc with hc | hc
  · rw [List.eq_of_mem_replicate hc]
    decide
  · exact isDigit_of_mem hc

/-! ### Texts that end in a numeral of a known length -/

/-- A dash and a numeral of known length come off the end in one way. -/
theorem append_numeral_inj {a b : String} {width m n : ℕ} (hwidth : 0 < width)
    (hm : m < 10 ^ width) (hn : n < 10 ^ width)
    (h : a ++ "-" ++ numeral width m = b ++ "-" ++ numeral width n) : a = b ∧ m = n := by
  have hlists := congrArg String.toList h
  simp only [String.toList_append] at hlists
  have hlength : (numeral width m).toList.length = (numeral width n).toList.length := by
    rw [length_numeral hwidth hm, length_numeral hwidth hn]
  obtain ⟨hfront, hback⟩ := List.append_inj' hlists hlength
  have hab := List.append_cancel_right hfront
  exact ⟨String.toList_inj.mp hab, numeral_injective width (String.toList_inj.mp hback)⟩

end TurfSync.Text
