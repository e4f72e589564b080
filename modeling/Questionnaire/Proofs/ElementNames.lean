import Mathlib.Data.List.Nodup
import Questionnaire.Compile.Document
import Questionnaire.Proofs.Reports

/-! The elements of a form: their names and their arrangement. Every element is that of a base question
and has its name, but for the choice of language, whose name is fixed. The report on a survey compares
the names of the questions with each other and not with that one, so the elements of a valid survey
have names of their own unless a question is named like the choice of language. The layout decides how
the elements are held, on pages or in one list, and nothing else: each condition has been put into the
form's notation by the table of its own group before. -/
namespace Questionnaire
namespace ElementNames
open Validation Reports

/-- The base questions of a survey, group by group. -/
def surveyQuestions (survey : Survey) : List Question :=
  survey.groups.flatMap Group.baseQuestions

theorem namedQuestions_question (groups : List Group) :
    (groups.flatMap namedQuestions).map Named.question = groups.flatMap Group.baseQuestions := by
  rw [List.map_flatMap]
  congr 1
  funext group
  simp [namedQuestions, Function.comp_def]

/-- In the report on a valid survey nothing is said about the names of its questions. -/
theorem no_name_issues {survey : Survey} (valid : survey.validate.isValid = true) :
    distinctIssues nameIssues [] (survey.groups.flatMap namedQuestions) = [] := by
  obtain ⟨_, _, nothing⟩ := (survey_isValid_iff survey).mp valid
  exact ((distinctIssues_eq_nil_iff (questionIssues_eq survey.language)).mp nothing).1

/-- The questions of a valid survey have names of their own, none of them blank. -/
theorem valid_question_names {survey : Survey} (valid : survey.validate.isValid = true) :
    (∀ question ∈ surveyQuestions survey, Text.isBlankText question.name = false) ∧
      ((surveyQuestions survey).map Question.name).Nodup := by
  obtain ⟨filled, distinct, _⟩ := distinctIssues_nameIssues_eq_nil_iff.mp (no_name_issues valid)
  rw [surveyQuestions, ← namedQuestions_question]
  constructor
  · intro question member
    obtain ⟨part, held, rfl⟩ := List.mem_map.mp member
    exact filled part held
  · rwa [List.map_map]

private theorem mem_question_names {survey : Survey} {name : String} :
    name ∈ (surveyQuestions survey).map Question.name ↔
      ∃ group ∈ survey.groups, ∃ question ∈ group.baseQuestions, question.name = name := by
  simp only [surveyQuestions, List.mem_map, List.mem_flatMap]
  constructor
  · rintro ⟨question, ⟨group, held, asked⟩, same⟩
    exact ⟨group, held, question, asked, same⟩
  · rintro ⟨group, held, question, asked, same⟩
    exact ⟨question, ⟨group, held, asked⟩, same⟩

private theorem ne_empty_of_filled {name : String} (filled : Text.isBlankText name = false) :
    name ≠ "" := by
  rintro rfl
  exact absurd filled (by decide)

/-- Whatever the layout, the elements of a form are the choice of language, if there is one, and the
elements of the groups. -/
theorem compile_elements (survey : Survey) (options : CompileOptions) :
    (survey.compile options).elements = (survey.languagePicker? options).toList ++
      (survey.groupPages options).flatMap Page.elements := by
  unfold Survey.compile Document.elements
  cases options.layout with
  | flat => rfl
  | pages => simp [List.flatMap_append, List.flatMap_map]

private theorem group_element_names (survey : Survey) (options : CompileOptions) :
    ((survey.groupPages options).flatMap Page.elements).map Element.name =
      (surveyQuestions survey).map Question.name := by
  rw [Survey.groupPages, surveyQuestions, List.flatMap_map, List.map_flatMap, List.map_flatMap]
  congr 1
  funext group
  simp [Group.compile, Question.toElement, Function.comp_def]

private theorem languagePicker_name {survey : Survey} {options : CompileOptions} {picker : Element}
    (shown : survey.languagePicker? options = some picker) :
    picker.name = "language" ∧ options.languagePage = true ∧ survey.isMultilingual = true := by
  unfold Survey.languagePicker? at shown
  split at shown
  · next wanted =>
    obtain rfl := Option.some.inj shown
    exact ⟨rfl, by simpa using wanted⟩
  · cases shown

private theorem no_languagePicker {survey : Survey} {options : CompileOptions}
    (hidden : survey.languagePicker? options = none) :
    ¬ (options.languagePage = true ∧ survey.isMultilingual = true) := by
  unfold Survey.languagePicker? at hidden
  split at hidden
  · cases hidden
  · next unwanted => simpa using unwanted

/-- **The elements of a valid survey have names of their own unless a question is named like the choice
of language.** No name is empty, whatever the options; and two elements have the same name exactly if
the form begins with a choice of language and a base question has the name of this element. -/
theorem element_names_nodup_iff (survey : Survey) (options : CompileOptions)
    (valid : survey.validate.isValid = true) :
    let names := (survey.compile options).elements.map Element.name
    (∀ name ∈ names, name ≠ "") ∧
      (names.Nodup ↔ ¬ ((options.languagePage = true ∧ survey.isMultilingual = true) ∧
        ∃ group ∈ survey.groups, ∃ question ∈ group.baseQuestions, question.name = "language")) := by
  intro names
  obtain ⟨filled, distinct⟩ := valid_question_names valid
  have ofQuestions : ∀ name ∈ (surveyQuestions survey).map Question.name, name ≠ "" := by
    intro name member
    obtain ⟨question, asked, rfl⟩ := List.mem_map.mp member
    exact ne_empty_of_filled (filled question asked)
  have all : names = (survey.languagePicker? options).toList.map Element.name ++
      (surveyQuestions survey).map Question.name := by
    rw [← group_element_names survey options, ← List.map_append, ← compile_elements]
  rw [all]
  cases shown : survey.languagePicker? options with
  | none => exact ⟨ofQuestions, iff_of_true distinct fun both => no_languagePicker shown both.1⟩
  | some picker =>
    obtain ⟨named, wanted⟩ := languagePicker_name shown
    simp only [Option.toList_some, List.map_cons, List.map_nil, named, List.singleton_append]
    refine ⟨?_, ?_⟩
    · intro name member
      rcases List.mem_cons.mp member with rfl | later
      · decide
      · exact ofQuestions name later
    · rw [List.nodup_cons, mem_question_names]
      simp [wanted, distinct]

/-- A survey in two languages, of one group. -/
def bilingual (questions : List Question) : Survey :=
  ⟨1, "en", ["en", "de"], [⟨2, "Group", questions⟩]⟩

/-- A question with a text in the default language. -/
def worded (id : UInt64) (name : String) : Question where
  id := id
  parentId := none
  name := name
  kind := .other "S"
  mandatory := false
  relevance := unconditional
  subquestions := []
  answers := []
  wording := Keyed.empty.insert "en" (some name)

/-- With other names all elements of a form with a choice of language can be told apart. -/
theorem bilingual_names_nodup : (bilingual [worded 3 "Q1", worded 4 "Q2"]).validate.isValid = true ∧
    (((bilingual [worded 3 "Q1", worded 4 "Q2"]).compile {}).elements.map Element.name).Nodup := by
  have valid : (bilingual [worded 3 "Q1", worded 4 "Q2"]).validate.isValid = true := by
    decide +kernel
  refine ⟨valid, (element_names_nodup_iff _ {} valid).2.mpr ?_⟩
  rintro ⟨_, taken⟩
  exact absurd taken (by decide)

/-- A valid survey of which the form has two elements of one name. -/
theorem question_named_language : (bilingual [worded 3 "language"]).validate.isValid = true ∧
    ((bilingual [worded 3 "language"]).compile {}).elements.map Element.name =
      ["language", "language"] ∧
    ¬ (((bilingual [worded 3 "language"]).compile {}).elements.map Element.name).Nodup := by
  decide +kernel

end ElementNames

namespace Arrangements
open ElementNames

/-- The base questions of a survey, each with its group: group by group, as they are stored. -/
def asked (survey : Survey) : List (Group × Question) :=
  survey.groups.flatMap fun group => group.baseQuestions.map fun question => (group, question)

/-- The condition of a base question of a group in the form's notation, by the table of this group;
none if the form takes over no conditions. -/
def conditionOf (survey : Survey) (options : CompileOptions) (group : Group) (question : Question) :
    Option String :=
  if options.enableFilters then
    Relevance.formCondition? (Table.ofGroup survey.id group) question.relevance
  else none

/-- The element of a base question of a group. -/
def elementOf (survey : Survey) (options : CompileOptions) (entry : Group × Question) : Element :=
  entry.2.toElement (.ofSurvey survey options) (conditionOf survey options entry.1 entry.2)

/-- The page of a group has the elements of its base questions. -/
theorem group_elements (survey : Survey) (options : CompileOptions) (group : Group) :
    (group.compile survey.id (.ofSurvey survey options)).elements =
      group.baseQuestions.map fun question => elementOf survey options (group, question) := by
  unfold Group.compile elementOf conditionOf
  cases enabled : options.enableFilters <;> simp [CompileContext.ofSurvey, enabled]

/-- The pages of all groups together have one element for each base question. -/
theorem groups_elements (survey : Survey) (options : CompileOptions) :
    (survey.groupPages options).flatMap Page.elements =
      (asked survey).map (elementOf survey options) := by
  unfold Survey.groupPages asked
  induction survey.groups with
  | nil => rfl
  | cons group rest ih =>
    have here : (group.baseQuestions.map fun question => (group, question)).map
        (elementOf survey options) =
          group.baseQuestions.map fun question => elementOf survey options (group, question) :=
      List.map_map
    rw [List.map_cons, List.flatMap_cons, List.flatMap_cons, List.map_append, group_elements, here, ih]

end Arrangements
end Questionnaire
