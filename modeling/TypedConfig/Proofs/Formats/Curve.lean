import Mathlib.NumberTheory.LegendreSymbol.Basic
import Mathlib.NumberTheory.LucasPrimality
import Mathlib.Tactic.FieldSimp
import Mathlib.Tactic.LinearCombination
import Mathlib.Tactic.NormNum.Prime
import TypedConfig.Format.Edwards25519
/-!
The test for points decides whether the curve has a point. That rests on the field being one, so the
order of the field is shown to be prime first, by certificates; then squares are told by their powers,
and the quotient that has to be one is a square just if the product is.
-/
namespace TypedConfig.Edwards25519

/-! ### The field -/

theorem powMod_eq (m base exponent : Nat) : powMod m base exponent = base ^ exponent % m := by
  induction exponent using Nat.strongRecOn generalizing base with
  | ind exponent ih =>
      rw [powMod]
      split
      · next hZero => rw [hZero, pow_zero]
      · next hPositive =>
        have hHalf : powMod m (base * base % m) (exponent / 2) =
            base ^ (2 * (exponent / 2)) % m := by
          rw [ih _ (by omega), ← Nat.pow_mod, pow_mul, sq]
        dsimp only
        rw [hHalf]
        split
        · next hOdd =>
          have hExponent : base ^ exponent = base ^ (2 * (exponent / 2)) * base := by
            rw [← pow_succ]
            congr 1
            omega
          rw [Nat.mod_mul_mod, hExponent]
        · next hEven =>
          congr 2
          omega

theorem powMod_eq_one_iff {m : Nat} (large : 1 < m) (base exponent : Nat) :
    powMod m base exponent = 1 ↔ (base : ZMod m) ^ exponent = 1 := by
  have hOne : (1 : ZMod m) = (1 : Nat) := Nat.cast_one.symm
  rw [powMod_eq, ← Nat.cast_pow, hOne, ZMod.natCast_eq_natCast_iff',
    Nat.one_mod_eq_one.2 large.ne']

/-- What shows by Lucas's test that a number is prime: an element that has to be of the greatest
possible order, and the prime factors of the number before it, each as often as it divides that. -/
structure Certificate where
  number : Nat
  element : Nat
  factors : List Nat

/-- The factors are among some primes and make up the number before the given one, and no smaller
power of the element is one. -/
def Certificate.Passes (primes : List Nat) (c : Certificate) : Prop :=
  1 < c.number ∧ (∀ q ∈ c.factors, q ∈ primes) ∧ c.factors.prod = c.number - 1 ∧
    powMod c.number c.element (c.number - 1) = 1 ∧
    ∀ q ∈ c.factors, powMod c.number c.element ((c.number - 1) / q) ≠ 1

instance (primes : List Nat) (c : Certificate) : Decidable (c.Passes primes) :=
  inferInstanceAs (Decidable (_ ∧ _))

/-- Every certificate passes with the primes before it. -/
def Certificate.AllPass (primes : List Nat) : List Certificate → Prop
  | [] => True
  | c :: cs => c.Passes primes ∧ AllPass (c.number :: primes) cs

instance Certificate.decidableAllPass (primes : List Nat) :
    (cs : List Certificate) → Decidable (AllPass primes cs)
  | [] => inferInstanceAs (Decidable True)
  | c :: cs =>
    have := decidableAllPass (c.number :: primes) cs
    inferInstanceAs (Decidable (_ ∧ _))

theorem Certificate.Passes.prime {primes : List Nat} {c : Certificate} (passes : c.Passes primes)
    (known : ∀ q ∈ primes, q.Prime) : c.number.Prime := by
  obtain ⟨hLarge, hKnown, hProduct, hWhole, hParts⟩ := passes
  apply lucas_primality c.number (c.element : ZMod c.number)
  · exact (powMod_eq_one_iff hLarge _ _).1 hWhole
  · intro q hq hDivides
    rw [← hProduct] at hDivides
    obtain ⟨r, hr, hqr⟩ := (Prime.dvd_prod_iff hq.prime).1 hDivides
    obtain rfl : q = r := (Nat.prime_dvd_prime_iff_eq hq (known r (hKnown r hr))).1 hqr
    rw [Ne, ← powMod_eq_one_iff hLarge]
    exact hParts q hr

theorem Certificate.prime_of_allPass {primes : List Nat} {cs : List Certificate}
    (allPass : AllPass primes cs) (known : ∀ q ∈ primes, q.Prime) : ∀ c ∈ cs, c.number.Prime := by
  induction cs generalizing primes with
  | nil => exact fun c mem => absurd mem List.not_mem_nil
  | cons c cs ih =>
      obtain ⟨hFirst, hOthers⟩ := allPass
      have hPrime := hFirst.prime known
      intro other mem
      rcases List.mem_cons.1 mem with rfl | mem
      · exact hPrime
      · refine ih hOthers (fun q hq => ?_) other mem
        rcases List.mem_cons.1 hq with rfl | hq
        · exact hPrime
        · exact known q hq

/-- The primes below a hundred thousand that occur in the certificates. -/
def smallPrimes : List Nat :=
  [2, 3, 5, 7, 13, 19, 31, 43, 47, 97, 103, 107, 127, 131, 223, 353, 419, 991, 1723, 2437, 3727, 4153,
    57467, 65147, 75707]

/-- The greater primes on the way to the order of the field, which is the last one. -/
def certificates : List Certificate :=
  [⟨132049, 26, [2, 2, 2, 2, 3, 3, 7, 131]⟩,
    ⟨1923133, 2, [2, 2, 3, 43, 3727]⟩,
    ⟨430751, 17, [2, 5, 5, 5, 1723]⟩,
    ⟨31757755568855353, 10, [2, 2, 2, 3, 31, 107, 223, 4153, 430751]⟩,
    ⟨569003, 2, [2, 7, 97, 419]⟩,
    ⟨2773320623, 5, [2, 2437, 569003]⟩,
    ⟨72106336199, 7, [2, 13, 2773320623]⟩,
    ⟨8574133, 2, [2, 2, 3, 7, 103, 991]⟩,
    ⟨1919519569386763, 2, [2, 3, 7, 19, 47, 47, 127, 8574133]⟩,
    ⟨75445702479781427272750846543864801, 7,
      [2, 2, 2, 2, 2, 3, 3, 5, 5, 75707, 72106336199, 1919519569386763]⟩,
    ⟨74058212732561358302231226437062788676166966415465897661863160754340907, 2,
      [2, 3, 353, 57467, 132049, 1923133, 31757755568855353,
        75445702479781427272750846543864801]⟩,
    ⟨prime, 2,
      [2, 2, 3, 65147, 74058212732561358302231226437062788676166966415465897661863160754340907]⟩]

theorem prime_prime : prime.Prime := by
  have hSmall : ∀ q ∈ smallPrimes, q.Prime := by
    simp only [smallPrimes, List.forall_mem_cons]
    norm_num
  have hPass : Certificate.AllPass smallPrimes certificates := by decide +kernel
  have hLast : prime ∈ certificates.map Certificate.number := by simp [certificates]
  obtain ⟨c, hMem, hNumber⟩ := List.mem_map.1 hLast
  exact hNumber ▸ Certificate.prime_of_allPass hPass hSmall c hMem

instance : Fact prime.Prime := ⟨prime_prime⟩

/-! ### Squares -/

/-- Euler's criterion is what the test for squares computes. -/
theorem isSquare_iff (a : Nat) : isSquare a = true ↔ IsSquare (a : ZMod prime) := by
  have hHalf : (prime - 1) / 2 = prime / 2 := by decide +kernel
  have hPower : powMod prime (a % prime) ((prime - 1) / 2) = 1 ↔
      (a : ZMod prime) ^ (prime / 2) = 1 := by
    rw [powMod_eq_one_iff prime_prime.one_lt, ZMod.natCast_mod, hHalf]
  rw [isSquare, Bool.or_eq_true, beq_iff_eq, beq_iff_eq, hPower]
  by_cases hZero : (a : ZMod prime) = 0
  · have hMod : a % prime = 0 := Nat.mod_eq_zero_of_dvd ((ZMod.natCast_eq_zero_iff a prime).1 hZero)
    simp [hZero, hMod]
  · have hMod : a % prime ≠ 0 := fun h =>
      hZero ((ZMod.natCast_eq_zero_iff a prime).2 (Nat.dvd_of_mod_eq_zero h))
    rw [ZMod.euler_criterion prime hZero]
    simp [hMod]

theorem cast_prime_sub_one : ((prime - 1 : Nat) : ZMod prime) = -1 := by
  rw [Nat.cast_sub prime_prime.one_lt.le, ZMod.natCast_self, Nat.cast_one, zero_sub]

theorem isSquare_minus_one : IsSquare (-1 : ZMod prime) := by
  have hTest : isSquare (prime - 1) = true := by decide +kernel
  rw [← cast_prime_sub_one]
  exact (isSquare_iff _).1 hTest

theorem not_isSquare_d : ¬ IsSquare (d : ZMod prime) := by
  have hTest : isSquare d = false := by decide +kernel
  rw [← isSquare_iff, hTest]
  exact Bool.false_ne_true

theorem d_eq : (d : ZMod prime) = -(121665 / 121666) := by
  have hNumerator : (d : ZMod prime) * 121666 + 121665 = 0 := by
    have hTest : (d * 121666 + 121665) % prime = 0 := by decide +kernel
    have hZero := (ZMod.natCast_eq_zero_iff _ prime).2 (Nat.dvd_of_mod_eq_zero hTest)
    simpa using hZero
  have hDenominator : (121666 : ZMod prime) ≠ 0 := by
    have hTest : 121666 % prime ≠ 0 := by decide +kernel
    intro hZero
    exact hTest (Nat.mod_eq_zero_of_dvd ((ZMod.natCast_eq_zero_iff 121666 prime).1 hZero))
  field_simp
  linear_combination hNumerator

/-! ### Points -/

/-- The equation of the curve. -/
def OnCurve (x y : ZMod prime) : Prop := -x ^ 2 + y ^ 2 = 1 - 121665 / 121666 * x ^ 2 * y ^ 2

/-- The element that bytes encode: the number whose digits they are, the least one first, without
its top bit. -/
def encoded (bytes : List UInt8) : ZMod prime :=
  (Number.ofRadix 256 (bytes.reverse.map UInt8.toNat) % 2 ^ 255 : Nat)

/-- The denominator is never zero, as `d` is no square and minus one is one. -/
theorem denominator_ne_zero (y : ZMod prime) : d * y ^ 2 + 1 ≠ 0 := by
  intro hZero
  obtain ⟨i, hi⟩ := isSquare_minus_one
  have hy : y ≠ 0 := by
    rintro rfl
    simp at hZero
  apply not_isSquare_d
  refine ⟨i / y, ?_⟩
  field_simp
  linear_combination hZero + hi

/-- There is a point with a given `y` just if the product of numerator and denominator of what `x`
has to be the root of is a square. -/
theorem exists_onCurve_iff (y : ZMod prime) :
    (∃ x, OnCurve x y) ↔ IsSquare ((y ^ 2 - 1) * (d * y ^ 2 + 1)) := by
  have hDenominator := denominator_ne_zero y
  have hEquation : ∀ x, OnCurve x y ↔ x ^ 2 * (d * y ^ 2 + 1) = y ^ 2 - 1 := by
    intro x
    rw [OnCurve, d_eq]
    constructor
    · intro h
      linear_combination -h
    · intro h
      linear_combination -h
  constructor
  · rintro ⟨x, hx⟩
    rw [hEquation] at hx
    exact ⟨x * (d * y ^ 2 + 1), by rw [← hx]; ring⟩
  · rintro ⟨r, hr⟩
    refine ⟨r / (d * y ^ 2 + 1), (hEquation _).2 ?_⟩
    field_simp
    linear_combination -hr

/-- The test for points is passed just by bytes that encode the `y` of a point of the curve. -/
theorem isPoint_iff (bytes : List UInt8) :
    isPoint bytes = true ↔ ∃ x, OnCurve x (encoded bytes) := by
  rw [exists_onCurve_iff, isPoint, isSquare_iff]
  have hSquare : ((Number.ofRadix 256 (bytes.reverse.map UInt8.toNat) % Nat.pow 2 255 % prime *
      (Number.ofRadix 256 (bytes.reverse.map UInt8.toNat) % Nat.pow 2 255 % prime) % prime : Nat) :
        ZMod prime) = encoded bytes ^ 2 := by
    rw [ZMod.natCast_mod, Nat.cast_mul, ZMod.natCast_mod, sq]
    rfl
  simp only [Nat.cast_mul, Nat.cast_add, hSquare, cast_prime_sub_one, Nat.cast_one,
    ← sub_eq_add_neg]

/-- The base point has four fifths as its `y`, and no point has two. -/
example : isPoint (0x58 :: List.replicate 31 0x66) = true ∧ isPoint (2 :: List.replicate 31 0) = false := by
  decide +kernel

end TypedConfig.Edwards25519
