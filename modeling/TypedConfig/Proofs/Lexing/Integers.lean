import TypedConfig.Proofs.Printing.Lexing
/-!
Integers in front of other text. The lexer takes all of a numeral as the integer that it denotes,
however long it is, or refuses all of it if sixty-four bits have no such integer.
-/
namespace TypedConfig

namespace Number

/-- The integers that fit into sixty-four bits, of which one more is below zero than above. -/
def InRange (value : Int) : Prop := -2 ^ 63 ≤ value ∧ value ≤ 2 ^ 63 - 1

instance (value : Int) : Decidable (InRange value) :=
  inferInstanceAs (Decidable (_ ∧ _))

theorem inRange_iff {value : Int} : InRange value ↔ ∃ n : Int64, n.toInt = value := by
  constructor
  · rintro ⟨hLow, hHigh⟩
    exact ⟨Int64.ofInt value, Int64.toInt_ofInt_of_le hLow (Int.lt_of_le_sub_one hHigh)⟩
  · rintro ⟨n, rfl⟩
    exact ⟨n.le_toInt, Int.le_sub_one_of_lt n.toInt_lt⟩

theorem integer?_eq_none_iff {value : Int} : integer? value = none ↔ ¬ InRange value := by
  rw [inRange_iff, not_exists, Option.eq_none_iff_forall_ne_some]
  exact forall_congr' fun n => not_congr integer?_eq_some_iff

end Number

namespace Token

variable {file : String} {p : Position} {rest : List Char} {m : Number.Numeral}

theorem scanFrom_of_value {n : Int64} (value : n.toInt = m.value)
    (ends : Lexeme.EndsInteger rest) : scanFrom file p (m.text ++ rest) =
      (scanFrom file (p.after m.text) rest).map (⟨.integer n, p⟩ :: ·) := by
  obtain ⟨c, cs, hHead, hNext⟩ := next_numeral m ends
  rw [Number.integer?_eq_some_iff.2 value] at hNext
  rw [hHead] at hNext ⊢
  exact scanFrom_cons hNext

theorem scanFrom_of_not_inRange (outside : ¬ Number.InRange m.value)
    (ends : Lexeme.EndsInteger rest) : scanFrom file p (m.text ++ rest) =
      .error ⟨.lexical (.number (String.ofList m.text)), ⟨file, p.line, p.column⟩⟩ := by
  obtain ⟨c, cs, hHead, hNext⟩ := next_numeral m ends
  rw [Number.integer?_eq_none_iff.2 outside] at hNext
  rw [hHead] at hNext ⊢
  exact scanFrom_cons_error hNext

/-- Integers are exact. A numeral of any length, in front of what does not go on with it, is read as
one token, which is the integer that the numeral denotes; and if that is not in range, the text
cannot be read at all, and the whole numeral is reported at its first character. So every integer is
read back from the text that it is printed as. -/
theorem scan_numeral (file : String) (p : Position) {rest : List Char}
    (ends : Lexeme.EndsInteger rest) :
    (∀ m : Number.Numeral, Number.InRange m.value → ∃ n : Int64, n.toInt = m.value ∧
      scanFrom file p (m.text ++ rest) =
        (scanFrom file (p.after m.text) rest).map (⟨.integer n, p⟩ :: ·)) ∧
      (∀ m : Number.Numeral, ¬ Number.InRange m.value → scanFrom file p (m.text ++ rest) =
        .error ⟨.lexical (.number (String.ofList m.text)), ⟨file, p.line, p.column⟩⟩) ∧
      ∀ (n : Int64) (depth : Nat), scanFrom file p ((Value.integer n).source depth ++ rest) =
        (scanFrom file (p.after ((Value.integer n).source depth)) rest).map
          (⟨.integer n, p⟩ :: ·) := by
  refine ⟨fun m inside => ?_, fun m outside => scanFrom_of_not_inRange outside ends,
    fun n depth => ?_⟩
  · obtain ⟨n, hValue⟩ := Number.inRange_iff.1 inside
    exact ⟨n, hValue, scanFrom_of_value hValue ends⟩
  · have hSource : (Value.integer n).source depth = Number.writeInteger n := by rw [Value.source]
    obtain ⟨m, hText, hValue⟩ := Number.Numeral.exists_writeInteger n
    rw [hSource, ← hText]
    exact scanFrom_of_value hValue.symm ends

/-- The least integer, and the number below it, behind zeros and in front of a point that begins no
fraction. -/
theorem scan_numeral_around_least :
    Lexeme.EndsInteger ['.', 'x'] ∧
      scan "main" "-009223372036854775808.x" = .ok [⟨.integer Int64.minValue, ⟨1, 1, 0⟩⟩,
        ⟨.mark .dot, ⟨1, 23, 22⟩⟩, ⟨.word "x", ⟨1, 24, 23⟩⟩, ⟨.endOfInput, ⟨1, 25, 24⟩⟩] ∧
      scan "main" "-009223372036854775809.x" =
        .error ⟨.lexical (.number "-009223372036854775809"), ⟨"main", 1, 1⟩⟩ := by
  let least : Number.Numeral :=
    ⟨true, "009223372036854775808".toList, by decide, List.all_eq_true.1 (by decide)⟩
  let below : Number.Numeral :=
    ⟨true, "009223372036854775809".toList, by decide, List.all_eq_true.1 (by decide)⟩
  have hEnds : Lexeme.EndsInteger ['.', 'x'] := by
    apply Lexeme.EndsInteger.mk
    · intro c mem
      cases mem
      decide
    · intro d ds h
      cases h
      decide
  obtain ⟨hInside, hOutside, -⟩ := scan_numeral "main" .start hEnds
  refine ⟨hEnds, ?_, hOutside below (by decide +kernel)⟩
  obtain ⟨n, hValue, hScan⟩ := hInside least (by decide +kernel)
  have hLeast : n = Int64.minValue := Int64.toInt_inj.1 (hValue.trans (by decide +kernel))
  subst hLeast
  exact hScan.trans (by decide +kernel)

end Token

end TypedConfig
