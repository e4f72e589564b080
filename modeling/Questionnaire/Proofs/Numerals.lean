import Mathlib.Algebra.Order.Field.Power
import Mathlib.Data.List.TakeWhile
import Mathlib.Data.Rat.Cast.Order
import Mathlib.Tactic.Positivity
import Questionnaire.Decimal.Binary64

/-! Numerals, said without the reader: a sign, digits on at least one side of a point, and a power of
ten. The reader accepts exactly the texts that are put together in this way, and takes them apart
again. -/
namespace Questionnaire.Numerals
open Decimal

/-- Nothing but decimal digits. -/
def AllDigits (text : List Char) : Prop :=
  ∀ c ∈ text, c.isDigit = true

/-- How a sign is written. -/
inductive WritesSign : Bool → List Char → Prop where
  | none : WritesSign false []
  | plus : WritesSign false ['+']
  | minus : WritesSign true ['-']

/-- How digits behind a point are written; there may be none. -/
inductive WritesFraction : Option (List Char) → List Char → Prop where
  | none : WritesFraction none []
  | point {digits : List Char} (all : AllDigits digits) : WritesFraction (some digits) ('.' :: digits)

/-- How a power of ten is written. -/
inductive WritesExponent : Option Exponent → List Char → Prop where
  | none : WritesExponent none []
  | power {mark : Char} {negative : Bool} {sign digits : List Char} (marked : mark = 'e' ∨ mark = 'E')
      (signed : WritesSign negative sign) (all : AllDigits digits) (nonempty : digits ≠ []) :
      WritesExponent (some ⟨negative, digits⟩) (mark :: (sign ++ digits))

/-- A text is a numeral with these parts. -/
inductive Numeral : Literal → List Char → Prop where
  | mk {negative : Bool} {whole : List Char} {fraction : Option (List Char)}
      {exponent : Option Exponent} {sign point power : List Char}
      (signed : WritesSign negative sign) (all : AllDigits whole)
      (pointed : WritesFraction fraction point) (raised : WritesExponent exponent power)
      (nonempty : whole ++ fraction.getD [] ≠ []) :
      Numeral ⟨negative, whole, fraction, exponent⟩ (sign ++ (whole ++ (point ++ power)))

/-- No sign is in front of a text. -/
def Unsigned (text : List Char) : Prop :=
  ∀ c ∈ text.head?, c ≠ '-' ∧ c ≠ '+'

/-- No digit is in front of a text. -/
def Undigited (text : List Char) : Prop :=
  ∀ c ∈ text.head?, c.isDigit = false

private theorem digit_unsigned {c : Char} (digit : c.isDigit = true) : c ≠ '-' ∧ c ≠ '+' := by
  constructor
  · rintro rfl
    exact absurd digit (by decide)
  · rintro rfl
    exact absurd digit (by decide)

private theorem AllDigits.unsigned {digits rest : List Char} (all : AllDigits digits)
    (behind : digits = [] → Unsigned rest) : Unsigned (digits ++ rest) := by
  cases digits with
  | nil => exact behind rfl
  | cons digit digits =>
    intro c first
    obtain rfl : digit = c := by simpa using first
    exact digit_unsigned (all digit List.mem_cons_self)

private theorem splitSign_append {negative : Bool} {sign rest : List Char}
    (signed : WritesSign negative sign)
    (unsigned : Unsigned rest) : splitSign (sign ++ rest) = (negative, rest) := by
  cases signed with
  | none =>
    cases rest with
    | nil => rfl
    | cons c rest =>
      obtain ⟨noMinus, noPlus⟩ := unsigned c rfl
      simp [splitSign, noMinus, noPlus]
  | plus => rfl
  | minus => rfl

private theorem exists_sign (text : List Char) :
    ∃ sign, WritesSign (splitSign text).1 sign ∧ text = sign ++ (splitSign text).2 := by
  unfold splitSign
  split
  · exact ⟨['-'], .minus, rfl⟩
  · exact ⟨['+'], .plus, rfl⟩
  · exact ⟨[], .none, rfl⟩

theorem splitDigits_append {digits rest : List Char} (all : AllDigits digits)
    (undigited : Undigited rest) : splitDigits (digits ++ rest) = (digits, rest) := by
  have stops : rest.takeWhile Char.isDigit = [] ∧ rest.dropWhile Char.isDigit = rest := by
    cases rest with
    | nil => exact ⟨rfl, rfl⟩
    | cons c rest => simp [undigited c rfl]
  rw [splitDigits, List.takeWhile_append_of_pos all, List.dropWhile_append_of_pos all, stops.1, stops.2,
    List.append_nil]

private theorem splitDigits_digits (text : List Char) : AllDigits (splitDigits text).1 :=
  fun _ member => List.mem_takeWhile_imp member

private theorem splitDigits_whole (text : List Char) :
    (splitDigits text).1 ++ (splitDigits text).2 = text :=
  List.takeWhile_append_dropWhile

private theorem splitFraction_append {fraction : Option (List Char)} {point rest : List Char}
    (pointed : WritesFraction fraction point) (undigited : Undigited rest)
    (unpointed : rest.head? ≠ some '.') : splitFraction (point ++ rest) = (fraction, rest) := by
  cases pointed with
  | none =>
    cases rest with
    | nil => rfl
    | cons c rest =>
      have other : c ≠ '.' := by simpa using unpointed
      simp [splitFraction, other]
  | point all => simp [splitFraction, splitDigits_append all undigited]

private theorem exists_point (text : List Char) :
    ∃ point, WritesFraction (splitFraction text).1 point ∧ text = point ++ (splitFraction text).2 := by
  unfold splitFraction
  split
  · next rest =>
    refine ⟨'.' :: (splitDigits rest).1, .point (splitDigits_digits rest), ?_⟩
    rw [List.cons_append, splitDigits_whole]
  · exact ⟨[], .none, rfl⟩

/-- A power of ten is read exactly from the texts that write it. -/
theorem wholeExponent?_eq_some_iff {exponent : Option Exponent} {text : List Char} :
    wholeExponent? text = some exponent ↔ WritesExponent exponent text := by
  constructor
  · intro read
    cases text with
    | nil =>
      obtain rfl : none = exponent := by simpa [wholeExponent?] using read
      exact .none
    | cons mark rest =>
      obtain ⟨sign, signed, whole⟩ := exists_sign rest
      simp only [wholeExponent?, Option.ite_none_right_eq_some, Bool.and_eq_true, Bool.or_eq_true,
        beq_iff_eq, bne_iff_ne, List.all_eq_true, Option.some.injEq] at read
      obtain ⟨⟨⟨marked, nonempty⟩, all⟩, rfl⟩ := read
      have written := WritesExponent.power marked signed all nonempty
      rw [← whole] at written
      exact written
  · intro written
    cases written with
    | none => rfl
    | @power mark negative sign digits marked signed all nonempty =>
      have unsigned : Unsigned digits := by
        have nothingBehind := @AllDigits.unsigned digits [] all fun empty => absurd empty nonempty
        rwa [List.append_nil] at nothingBehind
      have accepted : ((mark == 'e' || mark == 'E') && digits != [] && digits.all Char.isDigit) = true := by
        have each : digits.all Char.isDigit = true := List.all_eq_true.mpr all
        simp [marked, nonempty, each]
      rw [wholeExponent?, splitSign_append signed unsigned]
      simp [accepted]

private theorem WritesExponent.apart {exponent : Option Exponent} {power : List Char}
    (raised : WritesExponent exponent power) : Undigited power ∧ power.head? ≠ some '.' := by
  cases raised with
  | none => simp [Undigited]
  | power marked => rcases marked with rfl | rfl <;> simp [Undigited]

/-- A text is read as a literal exactly if it is a numeral with these parts. -/
theorem parse?_eq_some_iff {literal : Literal} {text : List Char} :
    Literal.parse? text = some literal ↔ Numeral literal text := by
  constructor
  · intro read
    obtain ⟨sign, signed, behindSign⟩ := exists_sign text
    obtain ⟨point, pointed, behindPoint⟩ := exists_point (splitDigits (splitSign text).2).2
    simp only [Literal.parse?, Option.ite_none_left_eq_some, Option.map_eq_some_iff] at read
    obtain ⟨nonempty, exponent, power, rfl⟩ := read
    have raised := wholeExponent?_eq_some_iff.mp power
    have numeral := Numeral.mk signed (splitDigits_digits (splitSign text).2) pointed raised nonempty
    rw [← behindPoint, splitDigits_whole, ← behindSign] at numeral
    exact numeral
  · intro numeral
    cases numeral with
    | @mk negative whole fraction exponent sign point power signed all pointed raised nonempty =>
      obtain ⟨undigited, unpointed⟩ := raised.apart
      have behindWhole : Undigited (point ++ power) := by
        cases pointed with
        | none => exact undigited
        | point => simp [Undigited]
      have unsigned : Unsigned (whole ++ (point ++ power)) := by
        refine all.unsigned fun empty => ?_
        cases pointed with
        | none => simp [empty] at nonempty
        | point => simp [Unsigned]
      rw [Literal.parse?, splitSign_append signed unsigned]
      simp only [splitDigits_append all behindWhole, splitFraction_append pointed undigited unpointed,
        if_neg nonempty, wholeExponent?_eq_some_iff.mpr raised, Option.map_some]

/-- A text is a numeral in one way only. -/
theorem Numeral.unique {first second : Literal} {text : List Char} (one : Numeral first text)
    (other : Numeral second text) : first = second :=
  Option.some.inj ((parse?_eq_some_iff.mpr one).symm.trans (parse?_eq_some_iff.mpr other))

/-- The number that a literal writes, without its sign. -/
def absolute (literal : Literal) : ℚ :=
  literal.coefficient * 10 ^ literal.scale

/-- The number that a literal writes. -/
def number (literal : Literal) : ℚ :=
  if literal.negative then -absolute literal else absolute literal

theorem absolute_nonneg (literal : Literal) : 0 ≤ absolute literal := by
  unfold absolute
  positivity

theorem abs_number (literal : Literal) : |number literal| = absolute literal := by
  unfold number
  split
  · rw [abs_neg, abs_of_nonneg (absolute_nonneg literal)]
  · exact abs_of_nonneg (absolute_nonneg literal)

/-- Digits alone write an integer. -/
theorem number_of_plain {literal : Literal} (plain : literal.isPlain = true) :
    number literal = literal.plainValue := by
  obtain ⟨negative, whole, fraction, exponent⟩ := literal
  obtain ⟨rfl, rfl⟩ : fraction = none ∧ exponent = none := by simpa [Literal.isPlain] using plain
  have digits : absolute ⟨negative, whole, none, none⟩ = ofDigits whole := by
    simp [absolute, Literal.coefficient, Literal.scale]
  rw [number, digits, Literal.plainValue]
  cases negative <;> simp

end Questionnaire.Numerals
