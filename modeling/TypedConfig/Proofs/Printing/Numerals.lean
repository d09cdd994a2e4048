import TypedConfig.Number.Integer
import TypedConfig.Proofs.Printing.Radix
/-!
Decimal numerals: the digits of a number are digits, at least one, and denote the number again. But
for the digit of zero they are those in base ten, so what holds of digits in a base holds of them.
A numeral has digits and a sign; it is read as the integer of sixty-four bits that it denotes, and
what is written for an integer is a numeral that denotes it.
-/
namespace TypedConfig.Number

/-- A text of digits that is not empty. -/
def IsDigits (ds : List Char) : Prop := ds ≠ [] ∧ ∀ c ∈ ds, c.isDigit = true

theorem isDigit_digitChar {d : Nat} (small : d < 10) : (digitChar d).isDigit = true := by
  revert d
  decide

theorem digitValue_digitChar {d : Nat} (small : d < 10) : digitValue (digitChar d) = d := by
  revert d
  decide

theorem digits_of_lt {n : Nat} (small : n < 10) : digits n = [digitChar n] := by
  rw [digits, if_pos small]

theorem digits_of_le {n : Nat} (large : 10 ≤ n) :
    digits n = digits (n / 10) ++ [digitChar (n % 10)] := by
  rw [digits, if_neg (by omega)]

theorem digits_ne_nil (n : Nat) : digits n ≠ [] := by
  rw [digits]
  split <;> simp

theorem digitValue_lt {c : Char} (digit : c.isDigit = true) : digitValue c < 10 := by
  have hRange : 48 ≤ c.toNat ∧ c.toNat ≤ 57 := Char.isDigit_iff_toNat.1 digit
  rw [digitValue]
  omega

theorem digitChar_digitValue {c : Char} (digit : c.isDigit = true) :
    digitChar (digitValue c) = c := by
  have hRange : 48 ≤ c.toNat ∧ c.toNat ≤ 57 := Char.isDigit_iff_toNat.1 digit
  rw [digitChar, digitValue, Nat.add_sub_cancel' hRange.1, Char.ofNat_toNat]

/-! ### Base ten -/

theorem digitsValue_eq (cs : List Char) : digitsValue cs = ofRadix 10 (cs.map digitValue) := by
  rw [ofRadix, List.foldl_map]
  rfl

/-- Zero has a digit of its own, and the other numbers have those in base ten. -/
theorem digits_eq {n : Nat} (positive : 0 < n) : digits n = (toRadix 10 n).map digitChar := by
  induction n using Nat.strongRecOn with
  | ind n ih =>
      by_cases small : n < 10
      · rw [digits_of_lt small, toRadix_of_lt positive small]
        rfl
      · rw [digits_of_le (by omega), toRadix_of_pos (by decide) positive, List.map_append,
          ih _ (by omega) (by omega)]
        rfl

theorem length_digits {n : Nat} (positive : 0 < n) :
    (digits n).length = (toRadix 10 n).length := by
  rw [digits_eq positive, List.length_map]

theorem isDigit_of_mem_digits {n : Nat} {c : Char} (mem : c ∈ digits n) : c.isDigit = true := by
  by_cases small : n < 10
  · rw [digits_of_lt small, List.mem_singleton] at mem
    rw [mem]
    exact isDigit_digitChar small
  · rw [digits_eq (by omega), List.mem_map] at mem
    obtain ⟨d, hDigit, rfl⟩ := mem
    exact isDigit_digitChar (lt_of_mem_toRadix (by decide) hDigit)

theorem isDigits_digits (n : Nat) : IsDigits (digits n) :=
  ⟨digits_ne_nil n, fun _ mem => isDigit_of_mem_digits mem⟩

theorem head?_digits {n : Nat} (positive : 0 < n) : (digits n).head? ≠ some '0' := by
  rw [digits_eq positive, List.head?_map]
  intro head
  obtain ⟨d, hFirst, hZero⟩ := Option.map_eq_some_iff.1 head
  have hSmall : d < 10 := lt_of_mem_toRadix (by decide) (List.mem_of_head? hFirst)
  have hValue := digitValue_digitChar hSmall
  rw [hZero] at hValue
  exact head?_toRadix (by decide) n (hFirst.trans (congrArg some hValue.symm))

/-- A number of so many digits is below that power of ten. -/
theorem lt_pow_length_digits (n : Nat) : n < 10 ^ (digits n).length := by
  by_cases small : n < 10
  · rw [digits_of_lt small]
    exact small
  · rw [length_digits (by omega)]
    exact lt_pow_length_toRadix (by decide) n

/-- A number of more than one digit has no leading zero. -/
theorem pow_length_digits_le {n : Nat} (positive : 0 < n) :
    10 ^ ((digits n).length - 1) ≤ n := by
  rw [length_digits positive]
  exact pow_length_toRadix_le (by decide) positive

/-! ### Values -/

theorem digitsValue_append (cs ds : List Char) :
    digitsValue (cs ++ ds) = digitsValue cs * 10 ^ ds.length + digitsValue ds := by
  simp only [digitsValue_eq, List.map_append, ofRadix_append, List.length_map]

theorem digitsValue_singleton (c : Char) : digitsValue [c] = digitValue c := by
  simp [digitsValue]

theorem digitsValue_replicate_zero (n : Nat) : digitsValue (List.replicate n '0') = 0 := by
  rw [digitsValue_eq, List.map_replicate]
  exact ofRadix_replicate_zero n

/-- The digits of a number denote it. -/
theorem digitsValue_digits (n : Nat) : digitsValue (digits n) = n := by
  by_cases small : n < 10
  · rw [digits_of_lt small, digitsValue_singleton, digitValue_digitChar small]
  · have hBack : ((toRadix 10 n).map digitChar).map digitValue = toRadix 10 n := by
      rw [List.map_map]
      exact (List.map_congr_left fun d mem =>
        digitValue_digitChar (lt_of_mem_toRadix (by decide) mem)).trans (List.map_id _)
    rw [digitsValue_eq, digits_eq (by omega), hBack, ofRadix_toRadix (by decide)]

/-- A numeral without leading zeros is the digits of the number that it denotes. -/
theorem IsDigits.digits_digitsValue {ds : List Char} (isDigits : IsDigits ds)
    (leading : ds.head? = some '0' → ds = ['0']) : digits (digitsValue ds) = ds := by
  obtain ⟨hNonempty, hDigits⟩ := isDigits
  by_cases hZero : ds = ['0']
  · rw [hZero, digits_of_lt (by decide)]
    rfl
  · have hLeading : (ds.map digitValue).head? ≠ some 0 := by
      rw [List.head?_map]
      intro head
      obtain ⟨c, hFirst, hValue⟩ := Option.map_eq_some_iff.1 head
      have hChar := digitChar_digitValue (hDigits c (List.mem_of_head? hFirst))
      rw [hValue] at hChar
      exact hZero (leading (hFirst.trans (congrArg some hChar.symm)))
    have hSmall : ∀ d ∈ ds.map digitValue, d < 10 := by
      simpa using fun c mem => digitValue_lt (hDigits c mem)
    have hBack : (ds.map digitValue).map digitChar = ds := by
      rw [List.map_map]
      exact (List.map_congr_left fun c mem => digitChar_digitValue (hDigits c mem)).trans
        (List.map_id _)
    have hPositive : 0 < ofRadix 10 (ds.map digitValue) :=
      ofRadix_pos (by decide) (by simpa using hNonempty) hLeading
    rw [digitsValue_eq, digits_eq hPositive, toRadix_ofRadix (by decide) hSmall hLeading, hBack]

/-- A numeral is the digits of the number that it denotes behind some zeros. -/
theorem IsDigits.exists_zeros {ds : List Char} (isDigits : IsDigits ds) :
    ∃ n, ds = List.replicate n '0' ++ digits (digitsValue ds) := by
  induction ds with
  | nil => exact absurd rfl isDigits.1
  | cons d ds ih =>
      by_cases hZero : d = '0' ∧ ds ≠ []
      · obtain ⟨rfl, hNonempty⟩ := hZero
        obtain ⟨n, hRest⟩ := ih ⟨hNonempty, fun c mem => isDigits.2 c (List.mem_cons_of_mem _ mem)⟩
        refine ⟨n + 1, ?_⟩
        have hValue : digitsValue ('0' :: ds) = digitsValue ds := rfl
        rw [hValue, List.replicate_succ, List.cons_append, ← hRest]
      · have hLeading : (d :: ds).head? = some '0' → d :: ds = ['0'] := by
          simp_all
        exact ⟨0, (isDigits.digits_digitsValue hLeading).symm⟩

/-! ### Integers -/

/-- An optional minus sign and at least one decimal digit. -/
structure Numeral where
  negative : Bool
  digits : List Char
  isDigits : IsDigits digits

namespace Numeral

/-- The sign, which is written only if it is a minus. -/
def sign (m : Numeral) : List Char := if m.negative then ['-'] else []

/-- The numeral as it is written. -/
def text (m : Numeral) : List Char := m.sign ++ m.digits

/-- What the digits denote: the last one counts ones, the one in front of it counts tens, and each
place further to the front counts ten times as much. -/
def magnitude (m : Numeral) : Nat :=
  Nat.ofDigits 10 (m.digits.reverse.map fun c => c.toNat - '0'.toNat)

/-- The mathematical integer that the numeral denotes. -/
def value (m : Numeral) : Int := if m.negative then -m.magnitude else m.magnitude

theorem sign_cases (m : Numeral) : m.sign = [] ∨ m.sign = ['-'] := by
  rw [sign]
  cases m.negative <;> simp

theorem magnitude_eq (m : Numeral) : m.magnitude = digitsValue m.digits := by
  rw [digitsValue_eq, ofRadix_eq, magnitude, List.map_reverse]
  rfl

end Numeral

theorem ne_minus_of_isDigit {c : Char} (digit : c.isDigit = true) : c ≠ '-' := by
  rintro rfl
  exact absurd digit (by decide)

theorem readInteger_of_digits {ds : List Char} (digit : ∀ c ∈ ds, c.isDigit = true) :
    readInteger ds = integer? (digitsValue ds) := by
  rw [readInteger.eq_def]
  split
  · exact absurd rfl (ne_minus_of_isDigit (digit _ List.mem_cons_self))
  · rfl

/-- An integer of sixty-four bits is found by its value and by no other one. -/
theorem integer?_eq_some_iff {value : Int} {n : Int64} :
    integer? value = some n ↔ n.toInt = value := by
  constructor
  · intro found
    rw [integer?] at found
    split at found
    · next hRange =>
      cases found
      exact Int64.toInt_ofInt_of_le hRange.1 hRange.2
    · cases found
  · rintro rfl
    have hLow := n.le_toInt
    have hHigh := n.toInt_lt
    rw [integer?, if_pos (by omega), Int64.ofInt_toInt]

namespace Numeral

/-- A numeral is read as the integer that it denotes, if there is one. -/
theorem readInteger_text (m : Numeral) : readInteger m.text = integer? m.value := by
  rw [text, sign, value, magnitude_eq]
  cases m.negative with
  | true => rfl
  | false => exact readInteger_of_digits m.isDigits.2

/-- What is written for an integer is a numeral that denotes it. -/
theorem exists_writeInteger (n : Int64) :
    ∃ m : Numeral, m.text = writeInteger n ∧ m.value = n.toInt := by
  rw [writeInteger]
  split
  · next k hToInt =>
    let m : Numeral := ⟨false, Number.digits k, isDigits_digits k⟩
    have hMagnitude : m.magnitude = k := m.magnitude_eq.trans (digitsValue_digits k)
    refine ⟨m, rfl, ?_⟩
    calc m.value = m.magnitude := rfl
      _ = (k : Int) := by rw [hMagnitude]
      _ = n.toInt := hToInt.symm
  · next k hToInt =>
    let m : Numeral := ⟨true, Number.digits (k + 1), isDigits_digits (k + 1)⟩
    have hMagnitude : m.magnitude = k + 1 := m.magnitude_eq.trans (digitsValue_digits (k + 1))
    refine ⟨m, rfl, ?_⟩
    calc m.value = -(m.magnitude : Int) := rfl
      _ = -((k + 1 : Nat) : Int) := by rw [hMagnitude]
      _ = n.toInt := hToInt.symm

end Numeral

end TypedConfig.Number
