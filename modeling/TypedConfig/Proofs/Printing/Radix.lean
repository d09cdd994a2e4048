import Mathlib.Data.Nat.Digits.Lemmas
import TypedConfig.Number.Radix
/-!
Digits in a base. They are the digits of `Nat.digits` and denote what they denote for
`Nat.ofDigits`, but for their order: here the greatest stands first. So the digits of a number
denote it, none of them reaches the base and the first is not zero; and digits of that kind are
those of the number that they denote.
-/
namespace TypedConfig.Number

variable {base : Nat}

/-! ### What digits denote -/

/-- The last digit counts ones, and each place further to the front counts `base` times as much. -/
theorem ofRadix_eq (ds : List Nat) : ofRadix base ds = Nat.ofDigits base ds.reverse := by
  rw [Nat.ofDigits_eq_foldr, List.foldr_reverse, ofRadix]
  congr 1
  funext n d
  exact Nat.add_comm _ _

theorem ofRadix_append (xs ys : List Nat) :
    ofRadix base (xs ++ ys) = ofRadix base xs * base ^ ys.length + ofRadix base ys := by
  rw [ofRadix_eq, List.reverse_append, Nat.ofDigits_append, ← ofRadix_eq, ← ofRadix_eq,
    List.length_reverse, Nat.add_comm, Nat.mul_comm]

theorem ofRadix_replicate_zero (n : Nat) : ofRadix base (List.replicate n 0) = 0 := by
  rw [ofRadix_eq, List.reverse_replicate, Nat.ofDigits_replicate_zero]

theorem ofRadix_pos (two_le : 2 ≤ base) {ds : List Nat} (nonempty : ds ≠ [])
    (leading : ds.head? ≠ some 0) : 0 < ofRadix base ds := by
  apply Nat.pos_of_ne_zero
  intro hZero
  rw [ofRadix_eq] at hZero
  have hZeros := Nat.digits_zero_of_eq_zero (by omega) hZero
  obtain ⟨d, ds, rfl⟩ := List.exists_cons_of_ne_nil nonempty
  exact leading (congrArg some (hZeros d (List.mem_reverse.2 List.mem_cons_self)))

/-! ### The digits of a number -/

theorem toRadix_of_pos {n : Nat} (two_le : 2 ≤ base) (positive : 0 < n) :
    toRadix base n = toRadix base (n / base) ++ [n % base] := by
  rw [toRadix, if_neg (by omega)]

theorem toRadix_eq (two_le : 2 ≤ base) (n : Nat) :
    toRadix base n = (Nat.digits base n).reverse := by
  induction n using Nat.strongRecOn with
  | ind n ih =>
      by_cases positive : 0 < n
      · rw [toRadix_of_pos two_le positive, ih _ (Nat.div_lt_self positive two_le),
          Nat.digits_def' two_le positive, List.reverse_cons]
      · rw [Nat.eq_zero_of_not_pos positive, toRadix, if_pos (.inl rfl), Nat.digits_zero]
        rfl

theorem toRadix_of_lt {n : Nat} (positive : 0 < n) (small : n < base) : toRadix base n = [n] := by
  rw [toRadix_eq (by omega), Nat.digits_of_lt base n positive.ne' small]
  rfl

/-- A number is denoted by its digits. -/
theorem ofRadix_toRadix (two_le : 2 ≤ base) (n : Nat) : ofRadix base (toRadix base n) = n := by
  rw [ofRadix_eq, toRadix_eq two_le, List.reverse_reverse, Nat.ofDigits_digits]

theorem lt_of_mem_toRadix (two_le : 2 ≤ base) {n d : Nat} (mem : d ∈ toRadix base n) :
    d < base := by
  rw [toRadix_eq two_le, List.mem_reverse] at mem
  exact Nat.digits_lt_base two_le mem

theorem head?_toRadix (two_le : 2 ≤ base) (n : Nat) : (toRadix base n).head? ≠ some 0 := by
  rw [toRadix_eq two_le, List.head?_reverse]
  intro last
  by_cases hZero : n = 0
  · rw [hZero, Nat.digits_zero] at last
    cases last
  · rw [List.getLast?_eq_some_getLast (Nat.digits_ne_nil_iff_ne_zero.2 hZero)] at last
    exact Nat.getLast_digit_ne_zero base hZero (Option.some.inj last)

/-- Digits without a leading zero are those of the number that they denote. -/
theorem toRadix_ofRadix (two_le : 2 ≤ base) {ds : List Nat} (small : ∀ d ∈ ds, d < base)
    (leading : ds.head? ≠ some 0) : toRadix base (ofRadix base ds) = ds := by
  have hLast : ∀ h : ds.reverse ≠ [], ds.reverse.getLast h ≠ 0 := by
    intro h hZero
    apply leading
    rw [← List.getLast?_reverse, List.getLast?_eq_some_getLast h, hZero]
  rw [toRadix_eq two_le, ofRadix_eq, Nat.digits_ofDigits base two_le _ (by simpa using small) hLast,
    List.reverse_reverse]

/-- A number of so many digits is below that power of the base. -/
theorem lt_pow_length_toRadix (two_le : 2 ≤ base) (n : Nat) :
    n < base ^ (toRadix base n).length := by
  rw [toRadix_eq two_le, List.length_reverse]
  exact Nat.lt_base_pow_length_digits two_le

/-- The first digit of a number is not zero, so the number reaches the power below. -/
theorem pow_length_toRadix_le (two_le : 2 ≤ base) {n : Nat} (positive : 0 < n) :
    base ^ ((toRadix base n).length - 1) ≤ n := by
  have hDigits : 0 < (Nat.digits base n).length :=
    List.length_pos_iff.2 (Nat.digits_ne_nil_iff_ne_zero.2 positive.ne')
  rw [toRadix_eq two_le, List.length_reverse, ← Nat.lt_digits_length_iff two_le]
  omega

end TypedConfig.Number
