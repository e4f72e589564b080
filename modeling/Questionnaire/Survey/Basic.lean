import Questionnaire.Keyed

/-! Survey definitions: a survey in a default language with groups of question rows. A row with a
parent belongs to a question of the same group and is not asked by itself; the rows that are
asked together with a question are nested in it. -/
namespace Questionnaire

/-- Texts by language code; a text may be kept open. -/
abbrev Wording := Keyed (Option String)

/-- The text for a language, if there is one. -/
def Wording.text? (language : String) (wording : Wording) : Option String :=
  (wording.get? language).join

/-- The kinds of question that have a form element of their own. -/
inductive QuestionKind where
  /-- Single choice from a list of radio buttons. -/
  | radioList
  /-- Single choice from a list of radio buttons with flexible labels. -/
  | flexibleRadioList
  /-- Single choice from a drop-down list. -/
  | dropdownList
  /-- A number. -/
  | number
  /-- Rows that share one scale of answers. -/
  | matrix
  /-- Any number of subquestions. -/
  | multipleChoice
  /-- Every other kind, by its code. -/
  | other (code : String)
deriving DecidableEq, Repr

namespace QuestionKind

/-- The kind that a code names; an unknown code is kept. -/
def ofCode (code : String) : QuestionKind :=
  if code = "L" then radioList
  else if code = "Z" then flexibleRadioList
  else if code = "!" then dropdownList
  else if code = "N" then number
  else if code = "F" then matrix
  else if code = "M" then multipleChoice
  else other code

/-- The code of a kind. -/
def code : QuestionKind → String
  | radioList => "L"
  | flexibleRadioList => "Z"
  | dropdownList => "!"
  | number => "N"
  | matrix => "F"
  | multipleChoice => "M"
  | other code => code

/-- A kind by code keeps its code. -/
@[simp]
theorem code_ofCode (text : String) : (ofCode text).code = text := by
  unfold ofCode
  repeat' split
  all_goals simp_all [code]

end QuestionKind

/-- An answer that can be chosen. -/
structure Answer where
  code : String
  wording : Wording

/-- A condition that always holds. -/
def unconditional : String := "1"

/-- A question row. -/
structure Question where
  id : UInt64
  parentId : Option UInt64
  name : String
  kind : QuestionKind
  mandatory : Bool
  /-- The condition under which the question is asked. -/
  relevance : String
  subquestions : List Question
  answers : List Answer
  wording : Wording

/-- A group of question rows, in stored order. -/
structure Group where
  id : UInt64
  name : String
  questions : List Question

/-- A survey definition. -/
structure Survey where
  id : UInt64
  /-- The default language. -/
  language : String
  /-- The other languages, in the order in which they are offered; the default one may be among
  them. -/
  languages : List String
  groups : List Group

namespace Answer

/-- The text of an answer in a language. -/
def text? (answer : Answer) (language : String) : Option String :=
  answer.wording.text? language

end Answer

namespace Question

/-- A base question has no parent. -/
def isBase (question : Question) : Bool :=
  question.parentId.isNone

/-- The text of a question in a language. -/
def text? (question : Question) (language : String) : Option String :=
  question.wording.text? language

end Question

namespace Group

/-- The questions without a parent, in stored order. -/
def baseQuestions (group : Group) : List Question :=
  group.questions.filter Question.isBase

end Group

/-- A list with only the first of equal entries. -/
def firstOccurrences {α : Type} [DecidableEq α] : List α → List α
  | [] => []
  | x :: xs => x :: (firstOccurrences xs).filter (· ≠ x)

@[simp]
theorem mem_firstOccurrences {α : Type} [DecidableEq α] {x : α} {xs : List α} :
    x ∈ firstOccurrences xs ↔ x ∈ xs := by
  induction xs with
  | nil => simp [firstOccurrences]
  | cons y rest ih =>
    by_cases same : x = y
    · simp [firstOccurrences, same]
    · simp [firstOccurrences, same, ih]

private theorem firstOccurrences_nodup {α : Type} [DecidableEq α] (xs : List α) :
    (firstOccurrences xs).Nodup := by
  induction xs with
  | nil => exact .nil
  | cons x rest ih =>
    refine List.nodup_cons.mpr ⟨fun member => ?_, List.Pairwise.filter _ ih⟩
    simp at member

namespace Survey

/-- Every language of a survey once: in listed order, with the default language in front if the
list omits it. -/
def offeredLanguages (survey : Survey) : List String :=
  if survey.language ∈ survey.languages then firstOccurrences survey.languages
  else survey.language :: firstOccurrences survey.languages

/-- The languages on offer are the default one and the others. -/
@[simp]
theorem mem_offeredLanguages {survey : Survey} {language : String} :
    language ∈ survey.offeredLanguages ↔
      language = survey.language ∨ language ∈ survey.languages := by
  unfold offeredLanguages
  split
  · next listed =>
    rw [mem_firstOccurrences]
    constructor
    · exact .inr
    · rintro (rfl | member)
      · exact listed
      · exact member
  · simp

/-- No language is offered twice. -/
theorem offeredLanguages_nodup (survey : Survey) : survey.offeredLanguages.Nodup := by
  unfold offeredLanguages
  split
  · exact firstOccurrences_nodup _
  · next omitted =>
    exact List.nodup_cons.mpr
      ⟨fun member => omitted (mem_firstOccurrences.mp member), firstOccurrences_nodup _⟩

/-- A survey is multilingual if it has more than one language. -/
def isMultilingual (survey : Survey) : Bool :=
  1 < survey.offeredLanguages.length

end Survey

/-- The positional identifier of a question: the ids of survey, group and question. -/
def positionalId (survey group question : UInt64) : String :=
  s!"{survey}X{group}X{question}"

end Questionnaire
