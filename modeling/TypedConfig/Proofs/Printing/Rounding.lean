import Mathlib.Tactic.Linarith
import Mathlib.Tactic.Ring
import TypedConfig.Number.Rounding
import TypedConfig.Number.Shortest
/-!
The quotients that round to a given number are those in its interval. Below the least significand of
a binade the grid is twice as fine, and a quotient there is rounded up into the binade.
-/
namespace TypedConfig.Number

/-- A whole number is the one nearest to the quotients at most one half away, the ends included if
it is even. -/
theorem roundHalfEven_eq {num den c : Nat} (positive : 0 < den)
    (low : 2 * c * den ≤ 2 * num + den) (high : 2 * num ≤ (2 * c + 1) * den)
    (odd : c % 2 = 1 → 2 * c * den < 2 * num + den ∧ 2 * num < (2 * c + 1) * den) :
    roundHalfEven num den = c := by
  have hNum : den * (num / den) + num % den = num := Nat.div_add_mod num den
  have hRest : num % den < den := Nat.mod_lt num positive
  rw [roundHalfEven]
  generalize num / den = q at hNum ⊢
  generalize num % den = r at hNum hRest ⊢
  have hUpper : c ≤ q + 1 := by
    by_contra hc
    have : den * (q + 2) ≤ den * c := Nat.mul_le_mul_left _ (by omega)
    nlinarith
  have hLower : q ≤ c := by
    by_contra hq
    have : den * (c + 1) ≤ den * q := Nat.mul_le_mul_left _ (by omega)
    nlinarith
  rcases Nat.eq_or_lt_of_le hLower with rfl | hLess
  · have hHalf : 2 * r ≤ den := by nlinarith
    have hTie : q % 2 = 1 → 2 * r < den := by
      intro h
      have := (odd h).2
      nlinarith
    have hKeep : ¬ ((decide (den < 2 * r) || (2 * r == den && q % 2 == 1)) = true) := by
      simp
      refine ⟨hHalf, fun h => ?_⟩
      by_contra hOdd
      have := hTie (by omega)
      omega
    rw [if_neg hKeep]
  · obtain rfl : c = q + 1 := by omega
    have hHalf : den ≤ 2 * r := by nlinarith
    have hTie : (q + 1) % 2 = 1 → den < 2 * r := by
      intro h
      have := (odd h).1
      nlinarith
    have hStep : (decide (den < 2 * r) || (2 * r == den && q % 2 == 1)) = true := by
      simp
      by_cases hStrict : den < 2 * r
      · exact .inl hStrict
      · refine .inr ⟨by omega, ?_⟩
        by_contra hEven
        exact hStrict (hTie (by omega))
    rw [if_pos hStep]

namespace Binary64

/-- A magnitude counts the units below a number and the significand in its unit. -/
theorem magnitude_eq (x : Binary64) : x.magnitude = x.unit * leadingBit + x.significand := by
  have hBit : 0 < leadingBit := by decide
  rw [unit, significand]
  split
  · next small => simp [Nat.div_eq_of_lt small]
  · next large =>
    have hPositive : 1 ≤ x.magnitude / leadingBit := Nat.div_pos (by omega) hBit
    have hSplit := Nat.div_add_mod x.magnitude leadingBit
    obtain ⟨k, hk⟩ : ∃ k, x.magnitude / leadingBit = k + 1 := ⟨_, (Nat.sub_add_cancel hPositive).symm⟩
    rw [hk] at hSplit ⊢
    rw [Nat.add_sub_cancel]
    nlinarith

theorem significand_lt (x : Binary64) : x.significand < 2 ^ 53 := by
  have hBit : leadingBit = 2 ^ 52 := rfl
  rw [significand]
  split
  · omega
  · have := Nat.mod_lt x.magnitude (show 0 < leadingBit by decide)
    omega

/-- Only the numbers of the least unit have less than the leading bit. -/
theorem le_significand {x : Binary64} (above : 0 < x.unit) : 2 ^ 52 ≤ x.significand := by
  have hBit : leadingBit = 2 ^ 52 := rfl
  rw [significand]
  split
  · next small =>
    rw [unit, Nat.div_eq_of_lt small] at above
    omega
  · omega

end Binary64

/-- How many bits are dropped is told by how many there are. -/
theorem nearestMagnitude_of_bits {num den e : Nat}
    (below : num * Nat.pow 2 1074 / den < 2 ^ (e + 53))
    (above : e = 0 ∨ 2 ^ (e + 52) ≤ num * Nat.pow 2 1074 / den) :
    nearestMagnitude num den =
      e * Binary64.leadingBit + roundHalfEven (num * Nat.pow 2 1074) (den * 2 ^ e) := by
  rw [nearestMagnitude]
  generalize num * Nat.pow 2 1074 = scaled at below above ⊢
  have hDropped : (if scaled / den = 0 then 0 else Nat.log2 (scaled / den) + 1 - 53) = e := by
    by_cases hZero : scaled / den = 0
    · rw [if_pos hZero]
      rcases above with h | h
      · exact h.symm
      · have : 0 < 2 ^ (e + 52) := Nat.two_pow_pos _
        omega
    · have hLess := (Nat.log2_lt hZero).2 below
      rw [if_neg hZero]
      rcases above with h | h
      · omega
      · have := (Nat.le_log2 hZero).2 h
        omega
  rw [hDropped]
  rfl

theorem roundHalfEven_le (num den : Nat) : roundHalfEven num den ≤ num / den + 1 := by
  rw [roundHalfEven]
  split <;> omega

theorem Binary64.nearest_eq {negative : Bool} {num den : Nat}
    (finite : nearestMagnitude num den < Binary64.infinite) :
    ∃ less, Binary64.nearest negative num den = ⟨negative, nearestMagnitude num den, less⟩ := by
  have hSign : Binary64.infinite < Binary64.signBit := by decide
  refine ⟨finite.trans hSign, ?_⟩
  rw [nearest, Nat.min_eq_right finite.le, ofMagnitude, dif_pos (finite.trans hSign)]

/-- Every integer of sixty-four bits is near to a finite number. -/
theorem Binary64.isFinite_ofInteger (n : Int64) : (ofInteger n).isFinite = true := by
  have hLow := n.le_toInt
  have hHigh := n.toInt_lt
  have hSize : n.toInt.natAbs < 2 ^ 64 := by omega
  rw [ofInteger]
  generalize n.toInt.natAbs = k at hSize ⊢
  have hScale : ∀ scale, k * Nat.pow 2 scale / 1 < 2 ^ (64 + scale) := by
    intro scale
    rw [Nat.div_one, Nat.pow_eq, pow_add]
    exact Nat.mul_lt_mul_of_pos_right hSize (Nat.two_pow_pos scale)
  have hUnits := hScale 1074
  have hBits : ∃ e ≤ 1085, k * Nat.pow 2 1074 / 1 < 2 ^ (e + 53) ∧
      (e = 0 ∨ 2 ^ (e + 52) ≤ k * Nat.pow 2 1074 / 1) := by
    generalize k * Nat.pow 2 1074 / 1 = units at hUnits
    by_cases hSmall : units < 2 ^ 53
    · exact ⟨0, by omega, hSmall, .inl rfl⟩
    · have hNonzero : units ≠ 0 := by omega
      have hLess := (Nat.log2_lt hNonzero).2 hUnits
      have hMore := (Nat.le_log2 hNonzero).2 (not_lt.1 hSmall)
      refine ⟨units.log2 - 52, by omega, ?_, .inr ?_⟩
      · exact (Nat.log2_lt hNonzero).1 (by omega)
      · exact (Nat.le_log2 hNonzero).1 (by omega)
  obtain ⟨e, hSteps, hBelow, hAbove⟩ := hBits
  have hRounded : roundHalfEven (k * Nat.pow 2 1074) (1 * 2 ^ e) ≤ 2 ^ 53 := by
    refine (roundHalfEven_le _ _).trans ?_
    rw [Nat.one_mul, Nat.succ_le_iff, Nat.div_lt_iff_lt_mul (Nat.two_pow_pos _), ← pow_add,
      Nat.add_comm 53]
    rw [Nat.div_one] at hBelow
    exact hBelow
  have hFinite : nearestMagnitude k 1 < infinite := by
    have hInfinite : infinite = 2047 * leadingBit := rfl
    have hBit : leadingBit = 2 ^ 52 := rfl
    rw [nearestMagnitude_of_bits hBelow hAbove, hInfinite]
    have hSteps := Nat.mul_le_mul_right leadingBit hSteps
    omega
  obtain ⟨less, hNearest⟩ := Binary64.nearest_eq hFinite
  rw [hNearest, isFinite]
  exact decide_eq_true hFinite

/-! ### Intervals -/

namespace RoundingInterval

/-- A quotient lies between the ends, and is one of them only if they belong to the interval. -/
structure Contains (r : RoundingInterval) (num den : Nat) : Prop where
  low : r.low * den ≤ num * r.den
  high : num * r.den ≤ r.high * den
  inside : r.closed = false → r.low * den < num * r.den ∧ num * r.den < r.high * den

theorem contains_of_covers {r : RoundingInterval} {up down t : Nat}
    (covers : r.covers up down t = true) : r.Contains (t * up) down := by
  rw [RoundingInterval.covers] at covers
  cases hClosed : r.closed with
  | true =>
      simp only [hClosed, if_true, Bool.and_eq_true, decide_eq_true_eq] at covers
      refine ⟨covers.1, covers.2, fun h => ?_⟩
      rw [hClosed] at h
      cases h
  | false =>
      simp only [hClosed, Bool.false_eq_true, if_false, Bool.and_eq_true, decide_eq_true_eq]
        at covers
      exact ⟨covers.1.le, covers.2.le, fun _ => covers⟩

/-- It is the quotient that matters. -/
theorem Contains.of_eq {r : RoundingInterval} {num den num' den' : Nat}
    (contains : r.Contains num den) (positive : 0 < den) (positive' : 0 < den')
    (same : num' * den = num * den') : r.Contains num' den' := by
  obtain ⟨hLow, hHigh, hInside⟩ := contains
  have hSame : num' * r.den * den = num * r.den * den' := by
    calc num' * r.den * den = num' * den * r.den := by ring
      _ = num * den' * r.den := by rw [same]
      _ = num * r.den * den' := by ring
  refine ⟨?_, ?_, fun closed => ⟨?_, ?_⟩⟩
  · apply Nat.le_of_mul_le_mul_right _ positive
    rw [hSame]
    calc r.low * den' * den = r.low * den * den' := by ring
      _ ≤ num * r.den * den' := Nat.mul_le_mul_right _ hLow
  · apply Nat.le_of_mul_le_mul_right _ positive
    rw [hSame]
    calc num * r.den * den' ≤ r.high * den * den' := Nat.mul_le_mul_right _ hHigh
      _ = r.high * den' * den := by ring
  · apply Nat.lt_of_mul_lt_mul_right (a := den)
    rw [hSame]
    calc r.low * den' * den = r.low * den * den' := by ring
      _ < num * r.den * den' := Nat.mul_lt_mul_of_pos_right (hInside closed).1 positive'
  · apply Nat.lt_of_mul_lt_mul_right (a := den)
    rw [hSame]
    calc num * r.den * den' < r.high * den * den' :=
          Nat.mul_lt_mul_of_pos_right (hInside closed).2 positive'
      _ = r.high * den' * den := by ring

theorem den_eq (x : Binary64) : (ofBinary64 x).den = 4 * Nat.pow 2 1074 := by
  rw [ofBinary64]

theorem den_pos (x : Binary64) : 0 < (ofBinary64 x).den := by
  have hScale : ∀ n, 0 < 4 * Nat.pow 2 n := fun n => Nat.mul_pos (by omega) (Nat.two_pow_pos n)
  rw [den_eq]
  exact hScale 1074

end RoundingInterval

namespace Binary64

theorem significand_pos {x : Binary64} (nonzero : x.magnitude ≠ 0) : 0 < x.significand := by
  have hCount := magnitude_eq x
  by_contra hZero
  have hUnit : x.unit = 0 := by
    by_contra hAbove
    have := le_significand (Nat.pos_of_ne_zero hAbove)
    omega
  rw [hUnit] at hCount
  omega

/-- The lower end is nearer only at the least significand of a binade. -/
theorem low_eq (x : Binary64) : ∃ below, 1 ≤ below ∧ below ≤ 2 ∧
    (below = 1 ↔ x.significand = 2 ^ 52 ∧ 0 < x.unit) ∧
    (RoundingInterval.ofBinary64 x).low = (4 * x.significand - below) * 2 ^ x.unit := by
  have hLow : (RoundingInterval.ofBinary64 x).low = (4 * x.significand -
      if (decide (x.significand = leadingBit) && decide (0 < x.unit)) = true then 1 else 2) *
        2 ^ x.unit := rfl
  have hBit : leadingBit = 2 ^ 52 := rfl
  by_cases h : x.significand = 2 ^ 52 ∧ 0 < x.unit
  · rw [if_pos (by simp [hBit, h])] at hLow
    exact ⟨1, by omega, by omega, by simp [h], hLow⟩
  · rw [if_neg (by simpa [hBit] using h)] at hLow
    exact ⟨2, by omega, by omega, by simpa using h, hLow⟩

/-- Only zero is close to zero. -/
theorem pos_of_contains {x : Binary64} {num den : Nat} (nonzero : x.magnitude ≠ 0)
    (positive : 0 < den) (contains : (RoundingInterval.ofBinary64 x).Contains num den) :
    0 < num := by
  obtain ⟨below, -, hTwo, -, hLow⟩ := low_eq x
  have hSignificand := significand_pos nonzero
  have hEnd : 0 < (RoundingInterval.ofBinary64 x).low * den := by
    rw [hLow]
    exact Nat.mul_pos (Nat.mul_pos (by omega) (Nat.two_pow_pos _)) positive
  by_contra hZero
  have hLowest := contains.low
  rw [show num = 0 by omega, Nat.zero_mul] at hLowest
  omega

/-- A quotient near to a significand in its unit. -/
theorem nearestMagnitude_of_unit {num den e c below : Nat} (positive : 0 < den) (small : c < 2 ^ 53)
    (two : below ≤ 2) (bits : e = 0 ∨ 2 ^ (e + 52) ≤ num * Nat.pow 2 1074 / den)
    (low : (4 * c - below) * (2 ^ e * den) ≤ 4 * (num * Nat.pow 2 1074))
    (high : 4 * (num * Nat.pow 2 1074) ≤ (4 * c + 2) * (2 ^ e * den))
    (odd : c % 2 = 1 → (4 * c - below) * (2 ^ e * den) < 4 * (num * Nat.pow 2 1074) ∧
      4 * (num * Nat.pow 2 1074) < (4 * c + 2) * (2 ^ e * den)) :
    nearestMagnitude num den = e * leadingBit + c := by
  have hPositive : 0 < den * 2 ^ e := Nat.mul_pos positive (Nat.two_pow_pos _)
  have hWhole : (4 * c + 2) * (2 ^ e * den) ≤ (2 ^ 55 - 2) * (2 ^ e * den) :=
    Nat.mul_le_mul_right _ (by omega)
  have hLess : num * Nat.pow 2 1074 / den < 2 ^ (e + 53) := by
    rw [Nat.div_lt_iff_lt_mul positive, pow_add, mul_right_comm, mul_comm _ den]
    rw [mul_comm (2 ^ e) den] at hWhole high
    omega
  rw [nearestMagnitude_of_bits hLess bits]
  refine congrArg (e * leadingBit + ·) ?_
  rw [mul_comm (2 ^ e) den] at low high odd
  generalize num * Nat.pow 2 1074 = scaled at low high odd ⊢
  generalize den * 2 ^ e = w at low high odd hPositive ⊢
  have hBelow : below * w ≤ 2 * w := Nat.mul_le_mul_right _ two
  rw [Nat.sub_mul, add_mul, mul_assoc] at odd
  rw [Nat.sub_mul, mul_assoc] at low
  rw [add_mul, mul_assoc] at high
  apply roundHalfEven_eq hPositive
  · rw [mul_assoc]
    omega
  · rw [add_mul, mul_assoc]
    omega
  · intro hOdd
    obtain ⟨hLow, hHigh⟩ := odd hOdd
    rw [add_mul, mul_assoc]
    omega

/-- A quotient just below a binade is rounded up to its least significand. -/
theorem nearestMagnitude_of_binade {num den e : Nat} (positive : 0 < den)
    (low : (4 * 2 ^ 52 - 1) * (2 ^ (e + 1) * den) ≤ 4 * (num * Nat.pow 2 1074))
    (less : num * Nat.pow 2 1074 < 2 ^ 52 * (2 ^ (e + 1) * den)) :
    nearestMagnitude num den = (e + 1) * leadingBit + 2 ^ 52 := by
  have hPositive : 0 < den * 2 ^ e := Nat.mul_pos positive (Nat.two_pow_pos _)
  have hDouble : 2 ^ (e + 1) * den = 2 * (den * 2 ^ e) := by
    rw [pow_succ]
    ring
  rw [hDouble] at low less
  have hLess : num * Nat.pow 2 1074 / den < 2 ^ (e + 53) := by
    rw [Nat.div_lt_iff_lt_mul positive, pow_add, mul_right_comm, mul_comm _ den]
    omega
  have hReached : 2 ^ (e + 52) ≤ num * Nat.pow 2 1074 / den := by
    rw [Nat.le_div_iff_mul_le positive, pow_add, mul_right_comm, mul_comm _ den]
    omega
  have hRounded : roundHalfEven (num * Nat.pow 2 1074) (den * 2 ^ e) = 2 ^ 53 := by
    generalize num * Nat.pow 2 1074 = scaled at low less ⊢
    generalize den * 2 ^ e = w at low less hPositive ⊢
    apply roundHalfEven_eq hPositive
    · omega
    · omega
    · omega
  have hBit : leadingBit = 2 ^ 52 := rfl
  rw [nearestMagnitude_of_bits hLess (.inr hReached), hRounded, hBit]
  omega

/-- A quotient in the interval of a number rounds to that number. -/
theorem nearestMagnitude_of_contains {x : Binary64} {num den : Nat} (positive : 0 < den)
    (contains : (RoundingInterval.ofBinary64 x).Contains num den) :
    nearestMagnitude num den = x.magnitude := by
  obtain ⟨hLow, hHigh, hInside⟩ := contains
  obtain ⟨below, hOne, hTwo, hBinade, hEnd⟩ := low_eq x
  have hUpper : (RoundingInterval.ofBinary64 x).high = (4 * x.significand + 2) * 2 ^ x.unit := rfl
  have hClosed : (RoundingInterval.ofBinary64 x).closed = (x.significand % 2 == 0) := rfl
  have hSmall := significand_lt x
  have hLarge := le_significand (x := x)
  rw [hEnd, RoundingInterval.den_eq] at hLow
  rw [hUpper, RoundingInterval.den_eq] at hHigh
  rw [hEnd, hUpper, RoundingInterval.den_eq, hClosed] at hInside
  rw [magnitude_eq]
  generalize x.significand = c at *
  generalize x.unit = e at *
  have hScaled : num * (4 * Nat.pow 2 1074) = 4 * (num * Nat.pow 2 1074) := by
    generalize Nat.pow 2 1074 = scale
    ring
  rw [hScaled, mul_assoc] at hLow hHigh hInside
  rw [mul_assoc] at hInside
  by_cases hBits : e = 0 ∨ 2 ^ (e + 52) ≤ num * Nat.pow 2 1074 / den
  · exact nearestMagnitude_of_unit positive hSmall hTwo hBits hLow hHigh fun odd =>
      hInside (by simp [odd])
  · obtain ⟨hUnit, hLess⟩ := not_or.1 hBits
    have hWeight : 0 < 2 ^ e * den := Nat.mul_pos (Nat.two_pow_pos _) positive
    have hScaledLess : num * Nat.pow 2 1074 < 2 ^ 52 * (2 ^ e * den) := by
      rw [not_le, Nat.div_lt_iff_lt_mul positive, pow_add, mul_comm (2 ^ e), mul_assoc] at hLess
      exact hLess
    have hLeast : c = 2 ^ 52 := by
      by_contra hOther
      have hMore : (4 * 2 ^ 52 + 2) * (2 ^ e * den) ≤ (4 * c - below) * (2 ^ e * den) :=
        Nat.mul_le_mul_right _ (by have := hLarge (by omega); omega)
      omega
    obtain ⟨k, rfl⟩ : ∃ k, e = k + 1 := ⟨e - 1, by omega⟩
    have hBelow : below = 1 := hBinade.2 ⟨hLeast, by omega⟩
    rw [hLeast, hBelow] at hLow
    rw [hLeast]
    exact nearestMagnitude_of_binade positive hLow hScaledLess

end Binary64

end TypedConfig.Number
