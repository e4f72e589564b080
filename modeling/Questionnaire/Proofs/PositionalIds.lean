import Questionnaire.Proofs.Separators

/-! Positional identifiers tell questions apart. Each is three numerals with a separator between them that
no numeral has, so the numerals can be read off again. One identifier inside another has its separators
in the same places: of the first numeral it has the end, of the last one the beginning, and the one
between them is the same. -/
namespace Questionnaire.PositionalIds
open Separators

/-- The decimal numeral of an id. -/
def numeral (id : UInt64) : List Char :=
  Nat.toDigits 10 id.toNat

/-- Three numerals with separators between them. -/
def joined (first second third : List Char) : List Char :=
  ['X'].intercalate [first, second, third]

variable {survey group question survey' group' question' : UInt64}

private theorem unseparated_numeral (id : UInt64) : 'X' ∉ numeral id := by
  intro member
  have digit := Nat.isDigit_of_mem_toDigits (by decide) (by decide) member
  exact absurd digit (by decide)

private theorem numeral_inj {id other : UInt64} : numeral id = numeral other ↔ id = other := by
  constructor
  · intro same
    have read := congrArg (Nat.ofDigitChars 10 · 0) same
    simp only [numeral, Nat.ofDigitChars_toDigits (by decide : 1 < 10) (by decide)] at read
    exact UInt64.toNat_inj.mp read
  · rintro rfl
    rfl

private theorem positionalId_chars (survey group question : UInt64) :
    (positionalId survey group question).toList =
      joined (numeral survey) (numeral group) (numeral question) := by
  have mark : (toString "X").toList = ['X'] := rfl
  simp [positionalId, toString_chars, mark, numeral, joined, List.intercalate]

/-- Numerals without separators can be read off from where these stand. -/
theorem joined_inj {first second third first' second' third' : List Char}
    (apart : ∀ part ∈ [first, second, third], 'X' ∉ part)
    (apart' : ∀ part ∈ [first', second', third'], 'X' ∉ part) :
    joined first second third = joined first' second' third' ↔
      first = first' ∧ second = second' ∧ third = third' := by
  constructor
  · intro same
    have parts : [first, second, third] = [first', second', third'] := by
      calc
        _ = (joined first second third).splitOn 'X' :=
          (List.splitOn_intercalate 'X' apart (by simp)).symm
        _ = (joined first' second' third').splitOn 'X' := by rw [same]
        _ = _ := List.splitOn_intercalate 'X' apart' (by simp)
    simpa using parts
  · rintro ⟨rfl, rfl, rfl⟩
    rfl

private theorem positionalId_inj :
    positionalId survey group question = positionalId survey' group' question' ↔
      survey = survey' ∧ group = group' ∧ question = question' := by
  rw [← String.toList_inj, positionalId_chars, positionalId_chars,
    joined_inj (by simp [unseparated_numeral]) (by simp [unseparated_numeral]),
    numeral_inj, numeral_inj, numeral_inj]

/-- An identifier inside another one. Nothing around it has a separator, since all identifiers have
two of them. -/
theorem positionalId_infix_iff :
    (positionalId survey group question).toList <:+: (positionalId survey' group' question').toList ↔
      numeral survey <:+ numeral survey' ∧ group = group' ∧
        numeral question <+: numeral question' := by
  have marks (survey group question : UInt64) :
      (joined (numeral survey) (numeral group) (numeral question)).count 'X' = 2 := by
    simp [joined, List.intercalate, List.count_eq_zero.mpr (unseparated_numeral _)]
  rw [positionalId_chars, positionalId_chars]
  constructor
  · rintro ⟨front, back, whole⟩
    have counted := congrArg (List.count 'X') whole
    rw [List.count_append, List.count_append, marks, marks] at counted
    have unmarkedFront : 'X' ∉ front := List.count_eq_zero.mp (by omega)
    have unmarkedBack : 'X' ∉ back := List.count_eq_zero.mp (by omega)
    have wider : joined (front ++ numeral survey) (numeral group) (numeral question ++ back) =
        joined (numeral survey') (numeral group') (numeral question') := by
      simpa [joined, List.intercalate] using whole
    obtain ⟨ofSurvey, ofGroup, ofQuestion⟩ := (joined_inj
      (by simp [unmarkedFront, unmarkedBack, unseparated_numeral])
      (by simp [unseparated_numeral])).mp wider
    exact ⟨⟨front, ofSurvey⟩, numeral_inj.mp ofGroup, back, ofQuestion⟩
  · rintro ⟨⟨front, ofSurvey⟩, rfl, back, ofQuestion⟩
    refine ⟨front, back, ?_⟩
    rw [← ofSurvey, ← ofQuestion]
    simp [joined, List.intercalate]

/-- **Positional identifiers are unique.** Identifiers are the same exactly if they are made of the same
ids. Of two questions of a group, the identifier of one is in that of the other exactly if its numeral
begins the other numeral. -/
theorem positional_ids_tell_apart (survey group question survey' group' question' : UInt64) :
    (positionalId survey group question = positionalId survey' group' question' ↔
      survey = survey' ∧ group = group' ∧ question = question') ∧
      ((positionalId survey group question).toList <:+:
          (positionalId survey group question').toList ↔
        numeral question <+: numeral question') := by
  refine ⟨positionalId_inj, ?_⟩
  rw [positionalId_infix_iff]
  simp

/-- The identifier of question 5 is in that of question 51, but not in that of question 15. -/
example : (positionalId 1 2 5).toList <:+: (positionalId 1 2 51).toList ∧
    ¬ (positionalId 1 2 5).toList <:+: (positionalId 1 2 15).toList := by
  decide

end Questionnaire.PositionalIds
