import Questionnaire.Proofs.ElementNames

/-! What a valid survey is. The report goes through groups, questions, rows and answers in turn, with
names that were met before at hand; its verdict is that of a survey which says enough for its form: it
has a default language, names that tell its parts apart, a text for each of them, and rows that belong
to a question of their group. -/
namespace Questionnaire.ValidSurveys
open Validation Reports ElementNames

/-- Something else than blanks is in a text. -/
def Filled (text : String) : Prop :=
  ∃ c ∈ text.toList, Text.isBlank c = false

/-- A wording has a text in a language, which is not kept open. -/
def Worded (language : String) (wording : Wording) : Prop :=
  ∃ text, wording.get? language = some (some text)

/-- Each name is filled, and no two of the questions have the same one. -/
structure NamedApart (questions : List Question) : Prop where
  filled : ∀ question ∈ questions, Filled question.name
  distinct : questions.Pairwise fun first second => first.name ≠ second.name

/-- Every row of a group that has a parent belongs to a question of the group that has none. -/
def RowsBelong (group : Group) : Prop :=
  ∀ row ∈ group.questions, ∀ parent, row.parentId = some parent →
    ∃ question ∈ group.questions, question.parentId = none ∧ question.id = parent

/-- What a question needs for its element: texts of its own, of its rows and of its answers, and names
for its rows. -/
structure Complete (language : String) (question : Question) : Prop where
  worded : Worded language question.wording
  rowsNamed : NamedApart question.subquestions
  rowsWorded : ∀ row ∈ question.subquestions, Worded language row.wording
  answersWorded : ∀ answer ∈ question.answers, Worded language answer.wording

/-- A survey that says enough. Neither its list of languages nor the variables of its groups matter. -/
structure Sound (survey : Survey) : Prop where
  language : Filled survey.language
  named : NamedApart (surveyQuestions survey)
  complete : ∀ question ∈ surveyQuestions survey, Complete survey.language question
  belong : ∀ group ∈ survey.groups, RowsBelong group

private theorem filled_iff {text : String} : Filled text ↔ Text.isBlankText text = false := by
  simp [Filled, Text.isBlankText]

private theorem worded_iff {language : String} {wording : Wording} :
    Worded language wording ↔ (wording.text? language).isSome = true := by
  unfold Worded Wording.text?
  cases wording.get? language with
  | none => simp
  | some text => cases text <;> simp

private theorem textIssues_eq_nil_iff {language path : String} {wording : Wording} :
    textIssues language path (wording.text? language) = [] ↔ Worded language wording := by
  rw [worded_iff, textIssues]
  split <;> simp_all

/-- Nothing is said about the names of parts exactly if they tell the parts apart. -/
theorem names_apart_iff {parts : List Named} :
    distinctIssues nameIssues [] parts = [] ↔ NamedApart (parts.map Named.question) := by
  rw [distinctIssues_nameIssues_eq_nil_iff]
  constructor
  · rintro ⟨filled, distinct, _⟩
    refine ⟨fun question member => ?_, ?_⟩
    · obtain ⟨part, held, rfl⟩ := List.mem_map.mp member
      exact filled_iff.mpr (filled part held)
    · simpa [List.Nodup, List.pairwise_map] using distinct
  · rintro ⟨filled, distinct⟩
    refine ⟨fun part held => ?_, ?_, by simp⟩
    · exact filled_iff.mp (filled part.question (List.mem_map_of_mem held))
    · simpa [List.Nodup, List.pairwise_map] using distinct

private theorem rows_complete_iff {language : String} {question : Named} :
    distinctIssues (partIssues language) [] (namedSubquestions question) = [] ↔
      NamedApart question.question.subquestions ∧
        ∀ row ∈ question.question.subquestions, Worded language row.wording := by
  have rows : (namedSubquestions question).map Named.question = question.question.subquestions := by
    simp [namedSubquestions, Function.comp_def]
  have texts : (∀ part ∈ namedSubquestions question,
      textIssues language part.path (part.question.text? language) = []) ↔
        ∀ row ∈ question.question.subquestions, Worded language row.wording := by
    simp only [namedSubquestions, List.forall_mem_map]
    exact forall₂_congr fun row _ => textIssues_eq_nil_iff
  rw [distinctIssues_eq_nil_iff (partIssues_eq language), names_apart_iff, rows, texts]

private theorem answers_complete_iff {language : String} {question : Named} :
    answerIssues language question = [] ↔
      ∀ answer ∈ question.question.answers, Worded language answer.wording := by
  rw [answerIssues, List.flatMap_eq_nil_iff]
  exact forall₂_congr fun answer _ => textIssues_eq_nil_iff

private theorem question_complete_iff {language : String} {question : Named} :
    textIssues language question.path (question.question.text? language) ++
        (distinctIssues (partIssues language) [] (namedSubquestions question) ++
          answerIssues language question) = [] ↔ Complete language question.question := by
  rw [List.append_eq_nil_iff, List.append_eq_nil_iff, rows_complete_iff, answers_complete_iff]
  constructor
  · rintro ⟨own, ⟨named, rows⟩, answers⟩
    exact ⟨textIssues_eq_nil_iff.mp own, named, rows, answers⟩
  · rintro ⟨own, named, rows, answers⟩
    exact ⟨textIssues_eq_nil_iff.mpr own, ⟨named, rows⟩, answers⟩

/-- Nothing is said about the questions of groups, one behind the other, exactly if their names tell
them apart and each of them is complete. -/
theorem questions_complete_iff {language : String} {groups : List Group} :
    distinctIssues (questionIssues language) [] (groups.flatMap namedQuestions) = [] ↔
      NamedApart (groups.flatMap Group.baseQuestions) ∧
        ∀ question ∈ groups.flatMap Group.baseQuestions, Complete language question := by
  rw [distinctIssues_eq_nil_iff (questionIssues_eq language), names_apart_iff,
    ← namedQuestions_question, List.forall_mem_map]
  exact and_congr_right fun _ => forall₂_congr fun part _ => question_complete_iff

private theorem orphanIssues_eq_nil_iff {group : Group} :
    orphanIssues group = [] ↔ RowsBelong group := by
  rw [orphanIssues, List.flatMap_eq_nil_iff]
  refine forall₂_congr fun row _ => ?_
  cases parented : row.parentId with
  | none => simp
  | some parent =>
    have known : group.baseQuestions.any (·.id == parent) = true ↔
        ∃ question ∈ group.questions, question.parentId = none ∧ question.id = parent := by
      simp [Group.baseQuestions, Question.isBase]
    by_cases belongs : group.baseQuestions.any (·.id == parent) = true
    · simpa [belongs] using known.mp belongs
    · simpa [belongs] using mt known.mpr belongs

theorem valid_questions_complete {survey : Survey} (valid : survey.validate.isValid = true) :
    ∀ question ∈ surveyQuestions survey, Complete survey.language question := by
  obtain ⟨_, _, nothing⟩ := (survey_isValid_iff survey).mp valid
  exact (questions_complete_iff.mp nothing).2

/-- Only repeated languages and colliding variables are no errors. -/
theorem not_error_iff {issue : Issue} :
    issue.severity ≠ .error ↔
      issue.defect.code = "duplicate_language" ∨ issue.defect.code = "token_collision" := by
  obtain ⟨path, defect⟩ := issue
  cases defect <;> simp [Issue.severity, Defect.severity, Defect.code]

/-- **A survey is valid exactly if it says enough.** Repeated languages and colliding variables are
what a report may still hold. -/
theorem valid_iff_sound (survey : Survey) :
    (survey.validate.isValid = true ↔ Sound survey) ∧
      (survey.validate.isValid = true ↔ ∀ issue ∈ survey.validate.issues,
        issue.defect.code = "duplicate_language" ∨ issue.defect.code = "token_collision") := by
  constructor
  · rw [survey_isValid_iff, ← filled_iff, questions_complete_iff]
    simp only [orphanIssues_eq_nil_iff]
    constructor
    · rintro ⟨language, belong, named, complete⟩
      exact ⟨language, named, complete, belong⟩
    · rintro ⟨language, named, complete, belong⟩
      exact ⟨language, belong, named, complete⟩
  · rw [isValid_iff]
    exact forall₂_congr fun issue _ => not_error_iff

end Questionnaire.ValidSurveys
