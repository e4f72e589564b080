import Questionnaire.Compile.Document
import Questionnaire.Proofs.Numerals
import Questionnaire.Proofs.Rounding

/-! Answer codes as numbers. A code should become a number exactly if it writes an integer of 64 bits,
and then this one. Digits alone are read without loss; any other numeral goes through a floating-point
number, and whether it becomes what it writes depends on what it is rounded to. -/
namespace Questionnaire.AnswerCodes
open Decimal AnswerCode Numerals Rounding

/-- A code writes an integer of 64 bits, blanks around it apart. -/
def WritesInteger (code : String) (n : ℤ) : Prop :=
  (∃ literal, Numeral literal (Text.trimChars code.toList) ∧ number literal = n) ∧
    minInteger ≤ n ∧ n ≤ maxInteger

/-- A code becomes exactly the number that it writes, and stays a text if it writes no integer of
64 bits. -/
structure Exact (code : String) : Prop where
  numbers : ∀ n, value code = .number n ↔ WritesInteger code n
  texts : (∀ n, ¬ WritesInteger code n) → value code = .text code

/-- A literal of digits alone that is an integer of 64 bits. -/
def PlainInteger (literal : Literal) : Prop :=
  literal.isPlain = true ∧ minInteger ≤ literal.plainValue ∧ literal.plainValue ≤ maxInteger

/-- The integer that a rounded magnitude becomes. The least power of two past the range is taken back
to the greatest integer. -/
def clamped (x : ℚ) (magnitude : ℕ) : ℤ :=
  if x < 0 then -magnitude else min magnitude maxInteger

/-- Rounding does a number no harm: if it makes an integer of it that is not past the range, this is
the number itself. -/
def Unharmed (x : ℚ) : Prop :=
  ∀ magnitude : ℕ, magnitude ≤ 2 ^ 63 → RoundsTo |x| magnitude → (clamped x magnitude : ℚ) = x

private theorem clamped_fits {x : ℚ} {magnitude : ℕ} (bounded : magnitude ≤ 2 ^ 63) :
    minInteger ≤ clamped x magnitude ∧ clamped x magnitude ≤ maxInteger := by
  have least : minInteger = -2 ^ 63 := rfl
  have greatest : maxInteger = 2 ^ 63 - 1 := rfl
  unfold clamped
  split <;> omega

private theorem toBinary64_approximates (literal : Literal) :
    Approximates literal.toBinary64 |number literal| := by
  rw [abs_number]
  exact ofScaled_approximates literal.coefficient literal.scale

/-- The sign of a literal is that of its number, unless this is zero. -/
theorem signed_eq_clamped {literal : Literal} {magnitude : ℕ}
    (rounds : RoundsTo |number literal| magnitude) :
    (if literal.negative then -(magnitude : ℤ) else min (magnitude : ℤ) maxInteger) =
      clamped (number literal) magnitude := by
  have nonnegative := absolute_nonneg literal
  unfold clamped
  by_cases negative : literal.negative = true
  · have value : number literal = -absolute literal := if_pos negative
    rw [if_pos negative, value]
    split
    · rfl
    · next notBelow =>
      have nothing : absolute literal = 0 := by linarith
      rw [abs_number, nothing] at rounds
      have zero : (magnitude : ℚ) = 0 := rounds.unique zero_isMagnitude.rounds
      obtain rfl : magnitude = 0 := by exact_mod_cast zero
      rfl
  · have value : number literal = absolute literal := if_neg negative
    rw [if_neg negative, value, if_neg (not_lt.mpr nonnegative)]

/-- A literal becomes the integer that it writes with digits alone, or else the one that it is
rounded to. -/
theorem integerOf?_eq_some_iff {literal : Literal} {n : ℤ} :
    integerOf? literal = some n ↔ (PlainInteger literal ∧ number literal = n) ∨
      (¬ PlainInteger literal ∧ ∃ magnitude : ℕ, magnitude ≤ 2 ^ 63 ∧
        RoundsTo |number literal| magnitude ∧ clamped (number literal) magnitude = n) := by
  by_cases plain : PlainInteger literal
  · have whole : number literal = n ↔ literal.plainValue = n := by
      rw [number_of_plain plain.1]
      exact Int.cast_inj
    have taken : integerOf? literal = some literal.plainValue := if_pos plain
    rw [taken, Option.some.injEq, whole]
    simp [plain]
  · have approximates := toBinary64_approximates literal
    have power : twoTo 63 = 2 ^ 63 := rfl
    have rounded : integerOf? literal = literal.toBinary64.toNat?.bind fun magnitude =>
        if twoTo 63 < magnitude then none
        else if literal.negative then some (-(magnitude : ℤ))
        else some (min (magnitude : ℤ) maxInteger) := if_neg plain
    rw [rounded, Option.bind_eq_some_iff]
    simp only [plain, false_and, not_false_eq_true, true_and, false_or]
    constructor
    · rintro ⟨magnitude, found, inRange⟩
      by_cases past : twoTo 63 < magnitude
      · simp [past] at inRange
      · have rounds := (approximates.toNat?_iff (by omega)).mp found
        rw [if_neg past, ← apply_ite some, signed_eq_clamped rounds] at inRange
        exact ⟨magnitude, by omega, rounds, Option.some.inj inRange⟩
    · rintro ⟨magnitude, bounded, rounds, rfl⟩
      refine ⟨magnitude, (approximates.toNat?_iff (by omega)).mpr rounds, ?_⟩
      rw [if_neg (by omega), ← apply_ite some, signed_eq_clamped rounds]

/-- An integer of 64 bits is always rounded to an integer that is not past the range. -/
theorem integer_rounds {literal : Literal} {n : ℤ} (written : number literal = n)
    (least : minInteger ≤ n) (greatest : n ≤ maxInteger) :
    ∃ magnitude : ℕ, magnitude ≤ 2 ^ 63 ∧ RoundsTo |number literal| magnitude := by
  have bounded : n.natAbs ≤ 2 ^ 63 := by
    have minimum : minInteger = -2 ^ 63 := rfl
    have maximum : maxInteger = 2 ^ 63 - 1 := rfl
    omega
  have boundedCast : (n.natAbs : ℚ) ≤ (2 ^ 63 : ℕ) := by exact_mod_cast bounded
  have natural : |number literal| = n.natAbs := by
    rw [written, Nat.cast_natAbs, Int.cast_abs]
  have approximates := toBinary64_approximates literal
  rw [natural] at approximates ⊢
  cases computed : literal.toBinary64 with
  | finite m q =>
    have rounds : RoundsTo n.natAbs (m * unit q) := by rwa [computed] at approximates
    obtain ⟨magnitude, same⟩ := rounds.natural
    rw [same] at rounds
    have notPast := rounds.le (power_isMagnitude (by decide)) boundedCast
    exact ⟨magnitude, by exact_mod_cast notPast, rounds⟩
  | infinite =>
    have large : unit 1023 ≤ n.natAbs := by rwa [computed] at approximates
    have past : unit 63 < unit 1023 := not_le.mp fun le => absurd (unit_le_iff.mp le) (by decide)
    have power : unit 63 = (2 ^ 63 : ℕ) := unit_natCast 63
    linarith

private theorem value_eq_number_iff {code : String} {n : ℤ} :
    value code = .number n ↔
      ∃ literal, Numeral literal (Text.trimChars code.toList) ∧ integerOf? literal = some n := by
  have read : value code = .number n ↔
      (Literal.parse? (Text.trimChars code.toList)).bind integerOf? = some n := by
    unfold value
    split
    · next found => simp [found]
    · next found => simp [found]
  rw [read, Option.bind_eq_some_iff]
  simp only [parse?_eq_some_iff]

private theorem value_eq_text {code : String} (unnumbered : ∀ n, value code ≠ .number n) :
    value code = .text code := by
  unfold value at unnumbered ⊢
  split
  · next number found => exact absurd (by rw [found]) (unnumbered number)
  · rfl

/-- If rounding does no harm to the numeral that a code is, the code becomes exactly what it writes. -/
theorem exact_of_harmless {code : String}
    (harmless : ∀ literal, Numeral literal (Text.trimChars code.toList) →
      PlainInteger literal ∨ Unharmed (number literal)) : Exact code := by
  have numbers (n : ℤ) : value code = .number n ↔ WritesInteger code n := by
    rw [value_eq_number_iff]
    constructor
    · rintro ⟨literal, numeral, found⟩
      rcases integerOf?_eq_some_iff.mp found with
        ⟨⟨plain, least, greatest⟩, written⟩ | ⟨other, magnitude, bounded, rounds, rfl⟩
      · have same : literal.plainValue = n := by
          rw [number_of_plain plain] at written
          exact_mod_cast written
        exact ⟨⟨literal, numeral, written⟩, same ▸ least, same ▸ greatest⟩
      · have unharmed := (harmless literal numeral).resolve_left other
        exact ⟨⟨literal, numeral, (unharmed magnitude bounded rounds).symm⟩, clamped_fits bounded⟩
    · rintro ⟨⟨literal, numeral, written⟩, least, greatest⟩
      refine ⟨literal, numeral, integerOf?_eq_some_iff.mpr ?_⟩
      by_cases plain : PlainInteger literal
      · exact .inl ⟨plain, written⟩
      · obtain ⟨magnitude, bounded, rounds⟩ := integer_rounds written least greatest
        have unharmed := (harmless literal numeral).resolve_left plain
        have same := (unharmed magnitude bounded rounds).trans written
        exact .inr ⟨plain, magnitude, bounded, rounds, by exact_mod_cast same⟩
  refine ⟨numbers, fun unwritten => value_eq_text fun n becomes => ?_⟩
  exact unwritten n ((numbers n).mp becomes)

/-- A code becomes exactly what it writes, if and only if it is no numeral, or one of digits alone that
is in range, or one that is not harmed by being rounded. -/
theorem code_exact_iff (code : String) :
    Exact code ↔ ∀ literal, Numeral literal (Text.trimChars code.toList) →
      PlainInteger literal ∨ Unharmed (number literal) := by
  refine ⟨fun exact literal numeral => ?_, exact_of_harmless⟩
  by_cases plain : PlainInteger literal
  · exact .inl plain
  · refine .inr fun magnitude bounded rounds => ?_
    have becomes : value code = .number (clamped (number literal) magnitude) :=
      value_eq_number_iff.mpr ⟨literal, numeral,
        integerOf?_eq_some_iff.mpr (.inr ⟨plain, magnitude, bounded, rounds, rfl⟩)⟩
    obtain ⟨⟨other, otherNumeral, written⟩, -⟩ := (exact.numbers _).mp becomes
    rw [otherNumeral.unique numeral] at written
    exact written.symm

/-- The first power of two past the range becomes the greatest integer, which it does not write. -/
theorem power_past_range_becomes_greatest :
    value "9223372036854775808" = .number 9223372036854775807 ∧ ¬ Exact "9223372036854775808" := by
  have becomes : value "9223372036854775808" = .number 9223372036854775807 := by decide +kernel
  refine ⟨becomes, fun exact => ?_⟩
  obtain ⟨⟨literal, numeral, written⟩, -⟩ := (exact.numbers _).mp becomes
  have parts : literal = ⟨false, "9223372036854775808".toList, none, none⟩ := by
    have read := parse?_eq_some_iff.mpr numeral
    have known : Literal.parse? (Text.trimChars "9223372036854775808".toList) =
        some ⟨false, "9223372036854775808".toList, none, none⟩ := by decide +kernel
    exact Option.some.inj (read.symm.trans known)
  have whole : literal.plainValue = 9223372036854775807 := by
    rw [number_of_plain (by rw [parts]; rfl)] at written
    exact_mod_cast written
  rw [parts] at whole
  exact absurd whole (by decide +kernel)

/-- Integers that a mantissa can hold are not harmed. -/
theorem small_integer_unharmed {n : ℤ} (small : n.natAbs ≤ 2 ^ 53) : Unharmed n := by
  intro magnitude _ rounds
  have natural : |(n : ℚ)| = n.natAbs := by rw [Nat.cast_natAbs, Int.cast_abs]
  rw [natural] at rounds
  have same : (magnitude : ℚ) = n.natAbs := rounds.unique (natural_isMagnitude small).rounds
  obtain rfl : magnitude = n.natAbs := by exact_mod_cast same
  have maximum : maxInteger = 2 ^ 63 - 1 := rfl
  unfold clamped
  by_cases negative : (n : ℚ) < 0
  · have below : n < 0 := by exact_mod_cast negative
    rw [if_pos negative]
    exact_mod_cast (by omega : -(n.natAbs : ℤ) = n)
  · have notBelow : ¬ n < 0 := by exact_mod_cast negative
    rw [if_neg negative]
    exact_mod_cast (by omega : min (n.natAbs : ℤ) maxInteger = n)

/-- A code that writes an integer of at most 53 bits becomes this number, however it is spelled. -/
theorem small_integer_exact {code : String} {n : ℤ} (written : WritesInteger code n)
    (small : n.natAbs ≤ 2 ^ 53) : value code = .number n := by
  obtain ⟨⟨literal, numeral, whole⟩, -⟩ := id written
  have exact : Exact code := by
    apply exact_of_harmless
    intro other otherNumeral
    rw [← numeral.unique otherNumeral, whole]
    exact .inr (small_integer_unharmed small)
  exact (exact.numbers n).mpr written

end Questionnaire.AnswerCodes
