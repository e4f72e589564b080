import Questionnaire.Proofs.CollisionWarnings
import Questionnaire.Proofs.Separators

/-! Conjunctions. Respelling puts the word `and` between two conditions, and the variables of the
group are looked for in this word as in all the rest. So a conjunction is translated into the
conjunction of the translations exactly if no question of the group is named by a part of that
word. -/
namespace Questionnaire.Conjunctions
open Relevance Separators TableContents TableOrder CollisionWarnings

/-- The condition that two conditions hold. -/
def conjunction (left right : String) : String :=
  left ++ " && " ++ right

private theorem conjunction_toList (left right : String) :
    (conjunction left right).toList =
      left.toList ++ ' ' :: ("&&".toList ++ ' ' :: right.toList) := by
  simp [conjunction]

/-- The operator is respelled by itself. -/
theorem respellChars_conjunction (left right : String) :
    respellChars (conjunction left right).toList =
      respellChars left.toList ++ ' ' :: ("and".toList ++ ' ' :: respellChars right.toList) := by
  have operator : respellChars "&&".toList = "and".toList := by decide +kernel
  rw [conjunction_toList, respellChars_around_blank, respellChars_around_blank, operator]

/-- The variables are replaced in both conditions and, just as well, in the word between them. -/
theorem replaceChars_conjunction {table : Table} {left right : List Char}
    (unblank : ∀ entry ∈ table.entries, entry.word ≠ "" ∧ ' ' ∉ entry.word.toList)
    (bracelessLeft : '\x7b' ∉ left) (bracelessRight : '\x7b' ∉ right) :
    replaceChars table (left ++ ' ' :: ("and".toList ++ ' ' :: right)) =
      replaceChars table left ++
        ' ' :: (replaceText table.entries "and".toList ++ ' ' :: replaceChars table right) := by
  have bracelessWord : '\x7b' ∉ "and".toList := by decide
  have bracelessRest : '\x7b' ∉ "and".toList ++ ' ' :: right := by simp [bracelessRight]
  rw [replaceChars_around unblank (by decide) bracelessLeft bracelessRest,
    replaceChars_around unblank (by decide) bracelessWord bracelessRight,
    replaceChars_braceless bracelessWord]

private theorem conjunction_conditional (left right : String) :
    conjunction left right ≠ unconditional := by
  intro same
  have blank : ' ' ∈ (conjunction left right).toList := by simp [conjunction_toList]
  rw [same] at blank
  exact absurd blank (by decide)

/-- How a conjunction is translated, whatever the variables do to the word. -/
theorem formCondition?_conjunction {table : Table} {left right : String}
    (unblank : ∀ entry ∈ table.entries, entry.word ≠ "" ∧ ' ' ∉ entry.word.toList)
    (bracelessLeft : '\x7b' ∉ left.toList) (bracelessRight : '\x7b' ∉ right.toList) :
    formCondition? table (conjunction left right) =
      some (String.ofList (replaceChars table (respellChars left.toList) ++
        ' ' :: (replaceText table.entries "and".toList ++
          ' ' :: replaceChars table (respellChars right.toList)))) := by
  rw [formCondition?, if_neg (conjunction_conditional left right), respellOperators,
    replaceVariables, String.toList_ofList, respellChars_conjunction,
    replaceChars_conjunction unblank (braceless_respellChars bracelessLeft)
      (braceless_respellChars bracelessRight)]

private theorem positionalId_mark (survey group question : UInt64) :
    'X' ∈ (positionalId survey group question).toList := by
  have mark : toString "X" = "X" := rfl
  simp [positionalId, mark]

/-- A variable that is a part of the word is a name: tags and positional identifiers have characters
that the word does not have. -/
theorem Spells.name_of_part {survey group : UInt64} {questions : List Question} {word : String}
    {origin : Origin} (spells : Spells survey group questions word origin)
    (part : word.toList <:+: "and".toList) : ∃ question ∈ questions, question.name = word := by
  have foreign {c : Char} (member : c ∈ word.toList) : c ∈ "and".toList := part.subset member
  cases spells with
  | name asked => exact ⟨_, asked, rfl⟩
  | id asked =>
    have mark : 'X' ∈ "and".toList := foreign (positionalId_mark _ _ _)
    exact absurd mark (by decide)
  | rowTag asked nested =>
    have mark : '_' ∈ "and".toList := foreign (by simp [memberTag])
    exact absurd mark (by decide)
  | rowId asked nested =>
    have mark : 'X' ∈ "and".toList := foreign (positionalId_mark _ _ _)
    exact absurd mark (by decide)
  | answerTag asked offered =>
    have mark : '_' ∈ "and".toList := foreign (by simp [memberTag])
    exact absurd mark (by decide)

/-- The variables of a table that are parts of the word are names of questions. -/
theorem no_part_iff {survey group : UInt64} {questions : List Question} {table : Table}
    (collected : Collected (Table.spellings survey group questions) table) :
    (∀ entry ∈ table.entries, ¬ entry.word.toList <:+: "and".toList) ↔
      ∀ question ∈ questions, question.name ≠ "" →
        ¬ question.name.toList <:+: "and".toList := by
  constructor
  · intro absent question asked nonempty
    obtain ⟨entry, found, _⟩ := collected.read_or_recorded nonempty (.name asked)
    have same : entry.word = question.name := by simpa using List.find?_some found
    rw [← same]
    exact absent entry (List.mem_of_find?_eq_some found)
  · intro absent entry held part
    obtain ⟨question, asked, same⟩ := Spells.name_of_part (collected.spells held) part
    have nonempty := (collected.given entry held).1
    rw [← same] at part nonempty
    exact absent question asked nonempty part

theorem bareQuestion_plainlyNamed {id : UInt64} {name : String} (plain : PlainName name) :
    PlainlyNamed (bareQuestion id name) :=
  ⟨plain, by simp [bareQuestion], by simp [bareQuestion]⟩

/-- **A conjunction is kept unless a question is named by a part of the word `and`.** In a group with
plain names, and for two conditions without braces that do not always hold, the translation of their
conjunction is the conjunction of their translations exactly if no name in the group occurs in the
word by which the operator is respelled. -/
theorem conjunction_translated_iff (survey : UInt64) (group : Group) (left right : String)
    (named : ∀ question ∈ group.baseQuestions, PlainlyNamed question)
    (conditionalLeft : left ≠ "1") (conditionalRight : right ≠ "1")
    (bracelessLeft : '\x7b' ∉ left.toList) (bracelessRight : '\x7b' ∉ right.toList) :
    let table := Table.ofGroup survey group
    (∃ first second, formCondition? table left = some first ∧
      formCondition? table right = some second ∧
      formCondition? table (left ++ " && " ++ right) = some (first ++ " and " ++ second)) ↔
    ∀ question ∈ group.baseQuestions, question.name ≠ "" →
      ¬ question.name.toList <:+: "and".toList := by
  intro table
  have collected : Collected _ table := of_questions_collected survey group.id group.baseQuestions
  have nonempty : ∀ entry ∈ table.entries, entry.word ≠ "" :=
    fun entry held => (collected.given entry held).1
  have unblank : ∀ entry ∈ table.entries, entry.word ≠ "" ∧ ' ' ∉ entry.word.toList := by
    intro entry held
    refine ⟨nonempty entry held, fun member => ?_⟩
    exact absurd (Spells.plain (collected.spells held) named ' ' member) (by decide)
  have translated := formCondition?_conjunction unblank bracelessLeft bracelessRight
  rw [conjunction] at translated
  rw [← no_part_iff collected, ← replaceText_eq_self_iff nonempty collected.token_opened (by decide),
    translated]
  simp only [formCondition?, unconditional, if_neg conditionalLeft, if_neg conditionalRight,
    respellOperators, replaceVariables, String.toList_ofList, Option.some.injEq]
  constructor
  · rintro ⟨first, second, rfl, rfl, same⟩
    have chars := congrArg String.toList same
    simp only [String.toList_append, String.toList_ofList, List.append_assoc] at chars
    have between := (List.cons.inj (List.append_cancel_left chars)).2
    exact List.append_cancel_right between
  · intro kept
    refine ⟨_, _, rfl, rfl, ?_⟩
    rw [kept, ← String.toList_inj]
    simp

/-- In the overlapping group no name is a part of the word, so its conjunctions are kept. -/
theorem overlapping_conjunction_translated : ∃ first second,
    formCondition? (Table.ofGroup 1 (groupOf overlapping)) "Q1_A == 1" = some first ∧
    formCondition? (Table.ofGroup 1 (groupOf overlapping)) "1X2X34 > 2" = some second ∧
    formCondition? (Table.ofGroup 1 (groupOf overlapping)) "Q1_A == 1 && 1X2X34 > 2" =
      some (first ++ " and " ++ second) := by
  have named : ∀ question ∈ (groupOf overlapping).baseQuestions, PlainlyNamed question := by
    intro question asked
    rcases List.mem_cons.mp asked with rfl | asked
    · refine ⟨by decide, fun row nested => ?_, by simp [questionWithRow, bareQuestion]⟩
      obtain rfl := List.mem_singleton.mp nested
      decide
    · obtain rfl := List.mem_singleton.mp asked
      exact bareQuestion_plainlyNamed (by decide)
  have kept := conjunction_translated_iff 1 (groupOf overlapping) "Q1_A == 1" "1X2X34 > 2" named
    (by decide) (by decide) (by decide) (by decide)
  refine kept.mpr fun question asked _ => ?_
  rcases List.mem_cons.mp asked with rfl | asked
  · decide
  · obtain rfl := List.mem_singleton.mp asked
    decide

/-- A group in which a question is named by the first letter of the word. -/
def lettered : List Question :=
  [bareQuestion 3 "Q1", bareQuestion 4 "a"]

/-- There the word itself is torn by a token, and the form has no conjunction. -/
theorem lettered_conjunction_torn :
    (∀ question ∈ (groupOf lettered).baseQuestions, PlainlyNamed question) ∧
    formCondition? (Table.ofGroup 1 (groupOf lettered)) "Q1 == 1" = some "\x7bQ1\x7d = 1" ∧
    formCondition? (Table.ofGroup 1 (groupOf lettered)) "a == 2" = some "\x7ba\x7d = 2" ∧
    formCondition? (Table.ofGroup 1 (groupOf lettered)) "Q1 == 1 && a == 2" =
      some "\x7bQ1\x7d = 1 \x7ba\x7dnd \x7ba\x7d = 2" ∧
    formCondition? (Table.ofGroup 1 (groupOf lettered)) "Q1 == 1 && a == 2" ≠
      some ("\x7bQ1\x7d = 1" ++ " and " ++ "\x7ba\x7d = 2") := by
  refine ⟨fun question asked => ?_, by decide +kernel, by decide +kernel, by decide +kernel,
    by decide +kernel⟩
  rcases List.mem_cons.mp asked with rfl | asked
  · exact bareQuestion_plainlyNamed (by decide)
  · obtain rfl := List.mem_singleton.mp asked
    exact bareQuestion_plainlyNamed (by decide)

end Questionnaire.Conjunctions
