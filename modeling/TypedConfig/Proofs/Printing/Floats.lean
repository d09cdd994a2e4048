import TypedConfig.Number.DecimalText
import TypedConfig.Number.Layout
import TypedConfig.Proofs.Printing.Lexing
import TypedConfig.Proofs.Printing.Rounding
/-!
Source text of a finite number is read as that number. The digits are those of a quotient in the
interval of the number: seventeen digits make a grid that is finer than the interval, so a shorter
grid is left only with a neighbour in the interval, and the layout keeps the value of the digits.
-/
namespace TypedConfig.Number

/-! ### Grids -/

/-- The power of ten below a positive quotient. -/
theorem pointPlace_le {num den : Nat} (numPositive : 0 < num) (denPositive : 0 < den) :
    10 ^ (pointPlace num den - 1).toNat * den ≤ num * 10 ^ (1 - pointPlace num den).toNat := by
  rw [pointPlace]
  split
  · next large =>
    have hQuotient : 0 < num / den := Nat.div_pos large denPositive
    have hLength := List.length_pos_iff.2 (digits_ne_nil (num / den))
    have hPow := pow_length_digits_le hQuotient
    have hAbove : (((digits (num / den)).length : Int) - 1).toNat =
        (digits (num / den)).length - 1 := by omega
    have hBelow : (1 - ((digits (num / den)).length : Int)).toNat = 0 := by omega
    rw [hAbove, hBelow, pow_zero, Nat.mul_one]
    exact (Nat.mul_le_mul_right den hPow).trans (Nat.div_mul_le_self num den)
  · next small =>
    have hPow := lt_pow_length_digits ((den + num - 1) / num - 1)
    generalize (digits ((den + num - 1) / num - 1)).length = k at hPow ⊢
    have hAbove : (1 - (k : Int) - 1).toNat = 0 := by omega
    have hBelow : (1 - (1 - (k : Int))).toNat = k := by omega
    rw [hAbove, hBelow, pow_zero, Nat.one_mul]
    have hCeil : (den + num - 1) / num ≤ 10 ^ k := by omega
    have hSplit := Nat.div_add_mod (den + num - 1) num
    have hRest := Nat.mod_lt (den + num - 1) numPositive
    have hProduct := Nat.mul_le_mul_left num hCeil
    omega

namespace RoundingInterval

theorem onGrid_covers {r : RoundingInterval} {tie : TieRule} {step : Int} {t : Nat}
    (found : r.onGrid tie step = some t) :
    r.covers (Nat.pow 10 step.toNat) (Nat.pow 10 (-step).toNat) t = true := by
  rw [onGrid] at found
  dsimp only at found
  split at found
  · next hLower hUpper =>
    split at found
    · cases found
      exact hLower
    · cases found
      exact hUpper
  · next hLower _ =>
    cases found
    exact hLower
  · next _ hUpper =>
    cases found
    exact hUpper
  · cases found

/-- A neighbour strictly between the ends is found. -/
theorem onGrid_ne_none {r : RoundingInterval} {tie : TieRule} {step : Int}
    (covered : ∃ t, (t = r.value * Nat.pow 10 (-step).toNat / (r.den * Nat.pow 10 step.toNat) ∨
      t = r.value * Nat.pow 10 (-step).toNat / (r.den * Nat.pow 10 step.toNat) + 1) ∧
      r.covers (Nat.pow 10 step.toNat) (Nat.pow 10 (-step).toNat) t = true) :
    r.onGrid tie step ≠ none := by
  obtain ⟨t, hNeighbour, hCovers⟩ := covered
  rw [onGrid]
  dsimp only
  rcases hNeighbour with rfl | rfl
  · rw [hCovers]
    split <;> simp_all
  · rw [hCovers]
    split <;> simp_all

theorem covers_of_lt {r : RoundingInterval} {up down t : Nat}
    (low : r.low * down < t * up * r.den) (high : t * up * r.den < r.high * down) :
    r.covers up down t = true := by
  rw [RoundingInterval.covers]
  split
  · simp [low.le, high.le]
  · simp [low, high]

/-- The grid of seventeen digits is so fine that sixteen digits of it stand for the value. -/
theorem step_le_value {num den : Nat} (numPositive : 0 < num) (denPositive : 0 < den) :
    10 ^ 16 * (den * Nat.pow 10 (pointPlace num den - 17).toNat) ≤
      num * Nat.pow 10 (-(pointPlace num den - 17)).toNat := by
  have hPoint := pointPlace_le numPositive denPositive
  generalize pointPlace num den = point at hPoint ⊢
  simp only [Nat.pow_eq]
  have hExponents : 16 + (point - 17).toNat + (1 - point).toNat =
      (point - 1).toNat + (-(point - 17)).toNat := by omega
  apply Nat.le_of_mul_le_mul_right _ (Nat.pow_pos (n := (1 - point).toNat) (show 0 < 10 by omega))
  calc 10 ^ 16 * (den * 10 ^ (point - 17).toNat) * 10 ^ (1 - point).toNat
      = 10 ^ (16 + (point - 17).toNat + (1 - point).toNat) * den := by
        rw [pow_add, pow_add]
        ring
    _ = 10 ^ (point - 1).toNat * den * 10 ^ (-(point - 17)).toNat := by
        rw [hExponents, pow_add]
        ring
    _ ≤ num * 10 ^ (1 - point).toNat * 10 ^ (-(point - 17)).toNat :=
        Nat.mul_le_mul_right _ hPoint
    _ = num * 10 ^ (-(point - 17)).toNat * 10 ^ (1 - point).toNat := by ring

/-- One of the neighbours on a grid that is fine enough lies strictly between the ends. -/
theorem neighbour_inside {c below w grid : Nat} (positive : 0 < c) (small : c < 2 ^ 53)
    (one : 1 ≤ below) (two : below ≤ 2) (binade : below = 1 → c = 2 ^ 52) (weight : 0 < w)
    (fine : 10 ^ 16 * grid ≤ 4 * c * w) :
    (4 * c - below) * w < 4 * c * w / grid * grid ∨
      (4 * c * w / grid + 1) * grid < (4 * c + 2) * w := by
  have hSplit := Nat.div_mul_le_self (4 * c * w) grid
  by_cases hLower : (4 * c - below) * w < 4 * c * w / grid * grid
  · exact .inl hLower
  · right
    have hBelow : (4 * c - below) * w + below * w = 4 * c * w := by
      rw [← Nat.add_mul, Nat.sub_add_cancel (by omega)]
    have hStep : grid < (below + 2) * w := by
      apply Nat.lt_of_mul_lt_mul_left (a := 10 ^ 16)
      calc 10 ^ 16 * grid ≤ 4 * c * w := fine
        _ < 10 ^ 16 * (below + 2) * w := Nat.mul_lt_mul_of_pos_right (by omega) weight
        _ = 10 ^ 16 * ((below + 2) * w) := mul_assoc ..
    rw [Nat.add_mul, Nat.one_mul, Nat.add_mul (4 * c)]
    rw [Nat.add_mul] at hStep
    omega

/-- Seventeen digits suffice. -/
theorem onGrid_seventeen {x : Binary64} (nonzero : x.magnitude ≠ 0) (tie : TieRule) :
    (ofBinary64 x).onGrid tie
      (pointPlace (ofBinary64 x).value (ofBinary64 x).den - 17) ≠ none := by
  obtain ⟨below, hOne, hTwo, hBinade, hLow⟩ := Binary64.low_eq x
  have hHigh : (ofBinary64 x).high = (4 * x.significand + 2) * 2 ^ x.unit := rfl
  have hValue : (ofBinary64 x).value = 4 * x.significand * 2 ^ x.unit := rfl
  have hPositive := Binary64.significand_pos nonzero
  have hNum : 0 < (ofBinary64 x).value := by
    rw [hValue]
    exact Nat.mul_pos (by omega) (Nat.two_pow_pos _)
  have hStep := step_le_value hNum (den_pos x)
  apply onGrid_ne_none
  generalize pointPlace (ofBinary64 x).value (ofBinary64 x).den - 17 = step at hStep ⊢
  generalize hUp : Nat.pow 10 step.toNat = up at hStep ⊢
  have hDown : 0 < Nat.pow 10 (-step).toNat := Nat.pow_pos (by omega)
  generalize Nat.pow 10 (-step).toNat = down at hStep hDown ⊢
  have hWeight : 0 < 2 ^ x.unit * down := Nat.mul_pos (Nat.two_pow_pos _) hDown
  have hWhole : (ofBinary64 x).value * down = 4 * x.significand * (2 ^ x.unit * down) := by
    rw [hValue, mul_assoc]
  rw [hWhole] at hStep ⊢
  have hInside := neighbour_inside hPositive (Binary64.significand_lt x) hOne hTwo
    (fun h => (hBinade.1 h).1) hWeight hStep
  have hGrid : 0 < (ofBinary64 x).den * up := by
    rw [← hUp]
    exact Nat.mul_pos (den_pos x) (Nat.pow_pos (by omega))
  have hFloor := Nat.div_mul_le_self (4 * x.significand * (2 ^ x.unit * down))
    ((ofBinary64 x).den * up)
  have hCeil := Nat.lt_div_mul_add hGrid (a := 4 * x.significand * (2 ^ x.unit * down))
  have hEnds : (ofBinary64 x).low * down = (4 * x.significand - below) * (2 ^ x.unit * down) ∧
      (ofBinary64 x).high * down = (4 * x.significand + 2) * (2 ^ x.unit * down) := by
    rw [hLow, hHigh, mul_assoc, mul_assoc]
    exact ⟨rfl, rfl⟩
  have hScaled : ∀ t, t * up * (ofBinary64 x).den = t * ((ofBinary64 x).den * up) := by
    intro t
    ring
  generalize 4 * x.significand * (2 ^ x.unit * down) / ((ofBinary64 x).den * up) = lower at *
  have hLess : (4 * x.significand - below) * (2 ^ x.unit * down) <
      (lower + 1) * ((ofBinary64 x).den * up) := by
    refine Nat.lt_of_le_of_lt (Nat.mul_le_mul_right _ (Nat.sub_le _ below)) ?_
    rw [Nat.add_mul, Nat.one_mul]
    exact hCeil
  have hMore : lower * ((ofBinary64 x).den * up) <
      (4 * x.significand + 2) * (2 ^ x.unit * down) := by
    refine Nat.lt_of_le_of_lt hFloor (Nat.mul_lt_mul_of_pos_right (by omega) hWeight)
  rcases hInside with hAbove | hBelow
  · exact ⟨lower, .inl rfl, covers_of_lt (by rw [hEnds.1, hScaled]; exact hAbove)
      (by rw [hEnds.2, hScaled]; exact hMore)⟩
  · exact ⟨lower + 1, .inr rfl, covers_of_lt (by rw [hEnds.1, hScaled]; exact hLess)
      (by rw [hEnds.2, hScaled]; exact hBelow)⟩

end RoundingInterval

/-! ### Digits -/

/-- The shortest digits, and the zeros behind them that are left out, denote a quotient in the
interval. -/
theorem Binary64.shortestDigits_eq {x : Binary64} (nonzero : x.magnitude ≠ 0) (tie : TieRule) :
    ∃ t step k ds, x.shortestDigits tie = ⟨ds, step + (ds.length + k : Nat)⟩ ∧
      digits t = ds ++ List.replicate k '0' ∧ ds ≠ [] ∧
      (RoundingInterval.ofBinary64 x).Contains (t * 10 ^ step.toNat) (10 ^ (-step).toNat) := by
  have hFound : ∃ t step, x.shortestDigits tie =
      ⟨((digits t).reverse.dropWhile (· == '0')).reverse, step + (digits t).length⟩ ∧
      (RoundingInterval.ofBinary64 x).onGrid tie step = some t := by
    rw [shortestDigits]
    dsimp only
    split
    · next hNone =>
      rw [List.findSome?_eq_none_iff] at hNone
      have hGrid := hNone 16 (List.mem_range.2 (by omega))
      rw [Option.map_eq_none_iff] at hGrid
      exact absurd hGrid (RoundingInterval.onGrid_seventeen nonzero tie)
    · next t step hSome =>
      obtain ⟨n, -, hMap⟩ := List.exists_of_findSome?_eq_some hSome
      obtain ⟨found, hGrid, hSame⟩ := Option.map_eq_some_iff.1 hMap
      cases hSame
      exact ⟨t, _, rfl, hGrid⟩
  obtain ⟨t, step, hDigits, hGrid⟩ := hFound
  have hContains := RoundingInterval.contains_of_covers (RoundingInterval.onGrid_covers hGrid)
  have hPositive : 0 < t := Nat.pos_of_mul_pos_right
    (pos_of_contains nonzero (Nat.pow_pos (by omega)) hContains)
  have hSplit := congrArg List.reverse (replicate_takeWhile_eq '0' (digits t).reverse)
  rw [List.reverse_append, List.reverse_replicate, List.reverse_reverse] at hSplit
  generalize ((digits t).reverse.takeWhile (· == '0')).length = k at hSplit
  generalize ((digits t).reverse.dropWhile (· == '0')).reverse = ds at hSplit hDigits
  refine ⟨t, step, k, ds, ?_, hSplit.symm, ?_, hContains⟩
  · rw [hDigits, ← hSplit, List.length_append, List.length_replicate]
  · rintro rfl
    have hHead := head?_digits hPositive
    rw [← hSplit] at hHead
    cases k with
    | zero => exact digits_ne_nil t hSplit.symm
    | succ k => exact hHead rfl

/-- Digits with the point in its place have digits on both sides of it, and keep their value. -/
theorem PlacedDigits.positional_eq {p : PlacedDigits} (isDigits : IsDigits p.digits) :
    ∃ whole part, p.positional = whole ++ '.' :: part ∧ IsDigits whole ∧ IsDigits part ∧
      digitsValue (whole ++ part) * 10 ^ ((p.digits.length : Int) - p.point).toNat =
        digitsValue p.digits * 10 ^ (p.point - p.digits.length).toNat * 10 ^ part.length := by
  obtain ⟨ds, point⟩ := p
  obtain ⟨hNonempty, hDigits⟩ := isDigits
  dsimp only at hNonempty hDigits ⊢
  have hLength := List.length_pos_iff.2 hNonempty
  have hZeros : ∀ n, ∀ c ∈ List.replicate n '0', c.isDigit = true := by
    intro n c mem
    rw [List.eq_of_mem_replicate mem]
    rfl
  rw [positional]
  dsimp only
  split
  · next hFront =>
    refine ⟨['0'], List.replicate (-point).toNat '0' ++ ds, rfl, ⟨by simp, by simp⟩,
      ⟨by simp [hNonempty], ?_⟩, ?_⟩
    · intro c mem
      rcases List.mem_append.1 mem with mem | mem
      · exact hZeros _ c mem
      · exact hDigits c mem
    · have hBehind : ((ds.length : Int) - point).toNat = (-point).toNat + ds.length := by omega
      have hExact : (point - (ds.length : Int)).toNat = 0 := by omega
      rw [digitsValue_append, digitsValue_append, digitsValue_replicate_zero, hBehind, hExact,
        List.length_append, List.length_replicate, digitsValue_singleton]
      simp [digitValue]
  · next hFront =>
    split
    · next hLong =>
      refine ⟨ds ++ List.replicate (point.toNat - ds.length) '0', ['0'], by simp,
        ⟨by simp [hNonempty], ?_⟩, ⟨by simp, by simp⟩, ?_⟩
      · intro c mem
        rcases List.mem_append.1 mem with mem | mem
        · exact hDigits c mem
        · exact hZeros _ c mem
      · have hBehind : ((ds.length : Int) - point).toNat = 0 := by omega
        have hExact : (point - (ds.length : Int)).toNat = point.toNat - ds.length := by omega
        rw [digitsValue_append, digitsValue_append, digitsValue_replicate_zero, hBehind, hExact,
          List.length_replicate, digitsValue_singleton]
        simp [digitValue]
    · next hShort =>
      have hTake : ds.take point.toNat ≠ [] := by
        rw [ne_eq, List.take_eq_nil_iff]
        rintro (h | h)
        · omega
        · exact hNonempty h
      have hDrop : ds.drop point.toNat ≠ [] := by
        rw [ne_eq, List.drop_eq_nil_iff]
        omega
      refine ⟨ds.take point.toNat, ds.drop point.toNat, rfl,
        ⟨hTake, fun c mem => hDigits c (List.mem_of_mem_take mem)⟩,
        ⟨hDrop, fun c mem => hDigits c (List.mem_of_mem_drop mem)⟩, ?_⟩
      have hBehind : ((ds.length : Int) - point).toNat = ds.length - point.toNat := by omega
      have hExact : (point - (ds.length : Int)).toNat = 0 := by omega
      rw [List.take_append_drop, hBehind, hExact, List.length_drop, pow_zero, Nat.mul_one]

/-! ### Reading and writing -/

theorem DecimalText.read_fraction {whole part : List Char} (isWhole : IsDigits whole)
    (isPart : IsDigits part) : read (whole ++ '.' :: part) = some ⟨whole, part, 0⟩ := by
  have hPoint : ∀ c ∈ ('.' :: part).head?, c.isDigit = false := by
    rintro c ⟨⟩
    rfl
  have hTake := takeWhile_append_stop isWhole.2 hPoint
  have hDrop := dropWhile_append_stop isWhole.2 hPoint
  have hTakePart : (part ++ []).takeWhile Char.isDigit = part :=
    takeWhile_append_stop isPart.2 (by simp)
  have hDropPart : (part ++ []).dropWhile Char.isDigit = [] :=
    dropWhile_append_stop isPart.2 (by simp)
  rw [List.append_nil] at hTakePart hDropPart
  rw [read]
  simp [hTake, hDrop, hTakePart, hDropPart, isWhole.1]

theorem DecimalText.toBinary64_fraction {negative : Bool} {whole part : List Char}
    (isPart : IsDigits part) :
    toBinary64 negative ⟨whole, part, 0⟩ =
      if digitsValue (whole ++ part) = 0 then .ofMagnitude negative 0
      else .nearest negative (digitsValue (whole ++ part)) (10 ^ part.length) := by
  have hLength := List.length_pos_iff.2 isPart.1
  have hSmall : ¬ (0 - (part.length : Int) + ((whole ++ part).length : Nat) < -324) := by
    rw [List.length_append]
    omega
  have hLarge : ¬ (310 < 0 - (part.length : Int)) := by omega
  have hFraction : 0 - (part.length : Int) < 0 := by omega
  have hExponent : (-(0 - (part.length : Int))).toNat = part.length := by omega
  rw [toBinary64]
  simp only [hSmall, decide_false, Bool.or_false, decide_eq_true_eq, if_neg hLarge,
    if_pos hFraction, hExponent, Nat.pow_eq]

namespace Binary64

/-- Source text of a finite number other than zero: digits on both sides of a point, which denote a
quotient in the interval of the number. -/
theorem exists_quotient {x : Binary64} (nonzero : x.magnitude ≠ 0) :
    ∃ whole part, (x.shortestDigits .up).positional = whole ++ '.' :: part ∧ IsDigits whole ∧
      IsDigits part ∧
      (RoundingInterval.ofBinary64 x).Contains (digitsValue (whole ++ part)) (10 ^ part.length) := by
  obtain ⟨t, step, k, ds, hShortest, hDigits, hNonempty, hContains⟩ := shortestDigits_eq nonzero .up
  have hIsDigits : IsDigits ds :=
    ⟨hNonempty, fun c mem => isDigit_of_mem_digits (hDigits ▸ List.mem_append_left _ mem)⟩
  obtain ⟨whole, part, hText, hWhole, hPart, hValue⟩ :=
    PlacedDigits.positional_eq (p := ⟨ds, step + (ds.length + k : Nat)⟩) hIsDigits
  refine ⟨whole, part, hShortest ▸ hText, hWhole, hPart, ?_⟩
  apply hContains.of_eq (Nat.pow_pos (by omega)) (Nat.pow_pos (by omega))
  have hWhole : t = digitsValue ds * 10 ^ k := by
    have hSame := digitsValue_digits t
    rw [hDigits, digitsValue_append, digitsValue_replicate_zero, List.length_replicate] at hSame
    exact hSame.symm
  have hBehind : ((ds.length : Int) - (step + (ds.length + k : Nat))).toNat =
      (-(step + k)).toNat := by omega
  have hBefore : (step + (ds.length + k : Nat) - (ds.length : Int)).toNat = (step + k).toNat := by
    omega
  have hExponents : (step + k).toNat + (-step).toNat = k + step.toNat + (-(step + k)).toNat := by
    omega
  rw [hBehind, hBefore] at hValue
  apply Nat.eq_of_mul_eq_mul_right (Nat.pow_pos (n := (-(step + k)).toNat) (show 0 < 10 by omega))
  calc digitsValue (whole ++ part) * 10 ^ (-step).toNat * 10 ^ (-(step + k)).toNat
      = digitsValue (whole ++ part) * 10 ^ (-(step + k)).toNat * 10 ^ (-step).toNat := by ring
    _ = digitsValue ds * 10 ^ ((step + k).toNat + (-step).toNat) * 10 ^ part.length := by
        rw [hValue, pow_add]
        ring
    _ = t * 10 ^ step.toNat * 10 ^ part.length * 10 ^ (-(step + k)).toNat := by
        rw [hExponents, hWhole, pow_add, pow_add]
        ring

theorem write_source {x : Binary64} (finite : x.isFinite = true) :
    x.write .source = (if x.negative then ['-'] else []) ++
      if x.magnitude = 0 then ['0', '.', '0'] else (x.shortestDigits .up).positional := by
  have hNumber : x.isNaN = false := by
    rw [isFinite, decide_eq_true_eq] at finite
    rw [isNaN, decide_eq_false_iff_not]
    omega
  have hLayout : ∀ point, FloatLayout.source.isPositional point = true := fun _ => rfl
  rw [write]
  by_cases hZero : x.magnitude = 0
  · simp [hNumber, finite, hZero]
  · simp [hNumber, finite, hZero, hLayout]
    rfl

/-- Source text of a finite number: an optional sign, and digits on both sides of a point. -/
theorem write_source_shape {x : Binary64} (finite : x.isFinite = true) :
    ∃ sign whole part, x.write .source = sign ++ whole ++ '.' :: part ∧
      (sign = [] ∨ sign = ['-']) ∧ IsDigits whole ∧ IsDigits part := by
  have hSign : (if x.negative then ['-'] else []) = [] ∨
      (if x.negative then ['-'] else []) = ['-'] := by
    cases x.negative <;> simp
  have hZero : IsDigits ['0'] := ⟨by simp, by simp⟩
  rw [write_source finite]
  by_cases h : x.magnitude = 0
  · rw [if_pos h]
    exact ⟨_, ['0'], ['0'], by simp, hSign, hZero, hZero⟩
  · obtain ⟨whole, part, hText, hWhole, hPart, -⟩ := exists_quotient h
    rw [if_neg h, hText]
    exact ⟨_, whole, part, by simp, hSign, hWhole, hPart⟩

/-- Digits on both sides of a point are read as the number nearest to what they denote. -/
theorem read_fraction {negative : Bool} {whole part : List Char} (isWhole : IsDigits whole)
    (isPart : IsDigits part) :
    read ((if negative then ['-'] else []) ++ (whole ++ '.' :: part)) =
      some (if digitsValue (whole ++ part) = 0 then .ofMagnitude negative 0
        else .nearest negative (digitsValue (whole ++ part)) (10 ^ part.length)) := by
  rw [← DecimalText.toBinary64_fraction isPart]
  have hText := DecimalText.read_fraction isWhole isPart
  cases negative with
  | true =>
      simp only [if_true, List.singleton_append]
      rw [read]
      simp [hText]
  | false =>
      simp only [Bool.false_eq_true, if_false, List.nil_append]
      obtain ⟨c, cs, rfl⟩ := List.exists_cons_of_ne_nil isWhole.1
      have hDigit := isWhole.2 c List.mem_cons_self
      rw [read]
      · dsimp only
        rw [hText]
      · rintro ds ⟨⟩
        exact absurd hDigit (by decide)
      · rintro ds ⟨⟩
        exact absurd hDigit (by decide)

/-- A finite number is read back from its source text. -/
theorem read_write_source {x : Binary64} (finite : x.isFinite = true) :
    read (x.write .source) = some x := by
  have hFinite : x.magnitude < infinite := of_decide_eq_true finite
  rw [write_source finite]
  by_cases h : x.magnitude = 0
  · have hZero : IsDigits ['0'] := ⟨by simp, by simp⟩
    have hText : ['0', '.', '0'] = ['0'] ++ '.' :: ['0'] := rfl
    have hValue : digitsValue (['0'] ++ ['0']) = 0 := rfl
    have hSign : 0 < signBit := by decide
    rw [if_pos h, hText, read_fraction hZero hZero, if_pos hValue, ofMagnitude, dif_pos hSign]
    obtain ⟨negative, magnitude, less⟩ := x
    cases h
    rfl
  · obtain ⟨whole, part, hText, hWhole, hPart, hContains⟩ := exists_quotient h
    have hDen : 0 < 10 ^ part.length := Nat.pow_pos (by omega)
    have hNearest := nearestMagnitude_of_contains hDen hContains
    have hPositive := pos_of_contains h hDen hContains
    obtain ⟨less, hRead⟩ := nearest_eq (hNearest ▸ hFinite)
    rw [if_neg h, hText, read_fraction hWhole hPart, if_neg (by omega), hRead]
    obtain ⟨negative, magnitude, less⟩ := x
    simp only [hNearest]

end Binary64

end TypedConfig.Number
