import Mathlib.Data.List.Forall2
import Questionnaire.Proofs.ElementNames

/-! What reaches a form through its conditions. The ids of a survey and its conditions are read by the
tables of the groups only, and these write conditions only; a row with a parent is not read at all
unless it is nested in its parent. So a form without conditions is that of the survey's outline, in
which none of them is left, and conditions are all that forms of one outline can differ in. -/
namespace Questionnaire.ConditionChannel
open ElementNames Arrangements

mutual

/-- A question and its nested rows without their ids and conditions. -/
def outlineOf : Question → Question
  | { name, kind, mandatory, subquestions, answers, wording, .. } =>
    { id := 0
      parentId := none
      name, kind, mandatory
      relevance := unconditional
      subquestions := outlinesOf subquestions
      answers, wording }
termination_by structural question => question

/-- Questions without their ids and conditions. -/
def outlinesOf : List Question → List Question
  | [] => []
  | question :: questions => outlineOf question :: outlinesOf questions
termination_by structural questions => questions

end

/-- A group with the outlines of its base questions. -/
def groupOutline (group : Group) : Group where
  id := 0
  name := group.name
  questions := group.baseQuestions.map outlineOf

/-- A survey without ids, conditions and rows that stand in groups. -/
def surveyOutline (survey : Survey) : Survey where
  id := 0
  language := survey.language
  languages := survey.languages
  groups := survey.groups.map groupOutline

private theorem outlinesOf_eq (questions : List Question) :
    outlinesOf questions = questions.map outlineOf := by
  induction questions with
  | nil => rfl
  | cons question rest ih => rw [outlinesOf, ih, List.map_cons]

private theorem groupOutline_baseQuestions (group : Group) :
    (groupOutline group).baseQuestions = group.baseQuestions.map outlineOf := by
  apply List.filter_eq_self.mpr
  intro outline held
  obtain ⟨question, -, rfl⟩ := List.mem_map.mp held
  cases question
  rfl

/-- A nested row is shown by its name and its texts, which its outline has as well. -/
theorem map_outlinesOf {α : Type} (show? : String → Wording → α) (rows : List Question) :
    (outlinesOf rows).map (fun row => show? row.name row.wording) =
      rows.map fun row => show? row.name row.wording := by
  rw [outlinesOf_eq, List.map_map]
  apply List.map_congr_left
  intro row _
  cases row
  rfl

/-- A question is shown like its outline. -/
theorem outlineOf_toElement (context : CompileContext) (question : Question)
    (condition : Option String) :
    (outlineOf question).toElement context condition = question.toElement context condition := by
  obtain ⟨id, parent, name, kind, mandatory, relevance, rows, answers, wording⟩ := question
  have ticks := map_outlinesOf (fun _ wording =>
    Choice.mk (.number 1) (.localized (context.localize wording))) rows
  have shown := map_outlinesOf (fun name wording =>
    MatrixRow.mk name (context.localize wording)) rows
  cases kind with
  | multipleChoice =>
    simp only [outlineOf, Question.toElement, Question.control, Question.tickChoices, ticks]
  | matrix =>
    simp only [outlineOf, Question.toElement, Question.control, Question.matrixColumns,
      Question.matrixRows, shown]
  | radioList | flexibleRadioList | dropdownList | number | other => rfl

/-- An element that is shown in any case. -/
def elementWithout (element : Element) : Element :=
  { element with description := none, visibleIf := none }

/-- A page without conditions. -/
def pageWithout (page : Page) : Page :=
  { page with elements := page.elements.map elementWithout }

/-- A form without conditions. -/
def withoutConditions (document : Document) : Document :=
  { document with
    body :=
      match document.body with
      | .pages pages => .pages (pages.map pageWithout)
      | .questions elements => .questions (elements.map elementWithout) }

private theorem withoutConditions_elements (document : Document) :
    (withoutConditions document).elements = document.elements.map elementWithout := by
  unfold withoutConditions Document.elements
  cases document.body with
  | pages pages => simp [pageWithout, List.map_flatMap, List.flatMap_map]
  | questions elements => rfl

/-- The options with conditions left in the survey. -/
def unfiltered (options : CompileOptions) : CompileOptions :=
  { options with enableFilters := false }

/-- Leaving out the conditions of a page is compiling without them. -/
theorem pageWithout_compile (survey : Survey) (options : CompileOptions) (group : Group) :
    pageWithout (group.compile survey.id (.ofSurvey survey options)) =
      group.compile survey.id (.ofSurvey survey (unfiltered options)) := by
  have elements : (group.compile survey.id (.ofSurvey survey (unfiltered options))).elements =
      group.baseQuestions.map fun question => elementOf survey (unfiltered options) (group, question) :=
    group_elements survey (unfiltered options) group
  rw [pageWithout, group_elements, List.map_map]
  exact congrArg (Page.mk _) elements.symm

/-- Leaving out the conditions of a form is compiling without them. -/
theorem withoutConditions_compile (survey : Survey) (options : CompileOptions) :
    withoutConditions (survey.compile options) = survey.compile (unfiltered options) := by
  have inPlace : (unfiltered options).layout = options.layout := rfl
  have pages : (survey.groupPages options).map pageWithout =
      survey.groupPages (unfiltered options) := by
    rw [Survey.groupPages, Survey.groupPages, List.map_map]
    exact List.map_congr_left fun group _ => pageWithout_compile survey options group
  have picker : (survey.languagePicker? options).toList.map elementWithout =
      (survey.languagePicker? (unfiltered options)).toList := by
    unfold Survey.languagePicker?
    rw [show (unfiltered options).languagePage = options.languagePage from rfl]
    split <;> rfl
  cases layout : options.layout with
  | pages =>
    simp only [withoutConditions, Survey.compile, inPlace, layout, List.map_append, pages, ← picker,
      List.map_map]
    rfl
  | flat =>
    simp only [withoutConditions, Survey.compile, inPlace, layout, List.map_append, ← pages, picker,
      List.map_flatMap, List.flatMap_map]
    rfl

/-- Without conditions no id is read, so a group has the page of its outline. -/
theorem groupOutline_compile (survey : UInt64) {context : CompileContext} (group : Group)
    (unconditioned : context.enableFilters = false) :
    (groupOutline group).compile 0 context = group.compile survey context := by
  have each : (group.baseQuestions.map outlineOf).map (fun question =>
      question.toElement context none) =
        group.baseQuestions.map fun question => question.toElement context none := by
    rw [List.map_map]
    exact List.map_congr_left fun question _ => outlineOf_toElement context question none
  simp only [Group.compile, unconditioned, groupOutline_baseQuestions, Bool.false_eq_true, if_false,
    Option.bind_none, each]
  rfl

/-- Without conditions a survey has the form of its outline. -/
theorem surveyOutline_compile (survey : Survey) (options : CompileOptions) :
    (surveyOutline survey).compile (unfiltered options) = survey.compile (unfiltered options) := by
  have pages : (surveyOutline survey).groupPages (unfiltered options) =
      survey.groupPages (unfiltered options) := by
    rw [Survey.groupPages, Survey.groupPages, surveyOutline, List.map_map]
    exact List.map_congr_left fun group _ => groupOutline_compile survey.id group rfl
  have picker : (surveyOutline survey).languagePicker? (unfiltered options) =
      survey.languagePicker? (unfiltered options) := rfl
  rw [Survey.compile, Survey.compile, pages, picker]
  rfl

/-- A group with its base questions only. -/
def groupWithoutRows (group : Group) : Group :=
  { group with questions := group.baseQuestions }

/-- A survey without the rows with a parent that stand in its groups. -/
def withoutRows (survey : Survey) : Survey :=
  { survey with groups := survey.groups.map groupWithoutRows }

private theorem groupWithoutRows_compile (survey : UInt64) (context : CompileContext)
    (group : Group) :
    (groupWithoutRows group).compile survey context = group.compile survey context := by
  have base : (groupWithoutRows group).baseQuestions = group.baseQuestions := by
    simp [groupWithoutRows, Group.baseQuestions]
  rw [Group.compile, Group.compile, Table.ofGroup, Table.ofGroup, base]
  rfl

/-- Rows with a parent that stand in a group do not matter, with conditions or without. -/
theorem withoutRows_compile (survey : Survey) (options : CompileOptions) :
    (withoutRows survey).compile options = survey.compile options := by
  have pages : (withoutRows survey).groupPages options = survey.groupPages options := by
    rw [Survey.groupPages, Survey.groupPages, withoutRows, List.map_map]
    exact List.map_congr_left fun group _ => groupWithoutRows_compile survey.id _ group
  have picker : (withoutRows survey).languagePicker? options = survey.languagePicker? options := rfl
  rw [Survey.compile, Survey.compile, pages, picker]
  rfl

/-- An element shows a base question and carries its condition twice, as a text and as a rule, in the
notation of the form by the table of the question's own group; it carries none exactly if the question
is asked in any case. -/
structure Carries (survey : Survey) (options : CompileOptions) (entry : Group × Question)
    (element : Element) : Prop where
  shows : ∃ condition, element = entry.2.toElement (.ofSurvey survey options) condition
  same : element.description = element.visibleIf
  translated : element.visibleIf =
    Relevance.formCondition? (Table.ofGroup survey.id entry.1) entry.2.relevance
  exactly : element.visibleIf.isSome = true ↔ entry.2.relevance ≠ "1"

private theorem elementOf_carries {survey : Survey} {options : CompileOptions}
    (filtered : options.enableFilters = true) (entry : Group × Question) :
    Carries survey options entry (elementOf survey options entry) := by
  have kept : ∀ condition : Option String,
      condition.filter (fun _ => options.enableFilters) = condition := by
    intro condition
    cases condition with
    | none => rfl
    | some text => exact if_pos filtered
  have shown : (elementOf survey options entry).visibleIf =
      Relevance.formCondition? (Table.ofGroup survey.id entry.1) entry.2.relevance := by
    rw [elementOf, conditionOf, if_pos filtered]
    exact kept _
  refine ⟨⟨_, rfl⟩, rfl, shown, ?_⟩
  rw [shown, Relevance.formCondition?, unconditional]
  by_cases always : entry.2.relevance = "1"
  · simp [always]
  · simp [always]

/-- **Conditions are the only way from ids and conditions to the form.** Two surveys of one outline
differ at most in ids, conditions and rows with a parent that stand in their groups. If the form takes
over no conditions, they have the same form, and no element carries a condition. If it does, their
forms are the same without conditions, and the element of a base question carries its condition exactly
if there is one. And rows with a parent alone never make a difference. -/
theorem conditions_alone_differ (survey other : Survey) (options : CompileOptions)
    (alike : surveyOutline survey = surveyOutline other) :
    (options.enableFilters = false →
      survey.compile options = other.compile options ∧
        ∀ element ∈ (survey.compile options).elements,
          element.description = none ∧ element.visibleIf = none) ∧
      (options.enableFilters = true →
        withoutConditions (survey.compile options) = withoutConditions (other.compile options) ∧
          ∃ elements, (survey.compile options).elements =
              (survey.languagePicker? options).toList ++ elements ∧
            List.Forall₂ (Carries survey options) (asked survey) elements) ∧
      (withoutRows survey = withoutRows other →
        survey.compile options = other.compile options) := by
  have unconditioned : survey.compile (unfiltered options) = other.compile (unfiltered options) := by
    rw [← surveyOutline_compile, alike, surveyOutline_compile]
  refine ⟨?_, ?_, ?_⟩
  · intro off
    have same : options = unfiltered options := by rw [unfiltered, ← off]
    constructor
    · rw [same]
      exact unconditioned
    · intro element held
      rw [same, ← withoutConditions_compile, withoutConditions_elements] at held
      obtain ⟨shown, -, rfl⟩ := List.mem_map.mp held
      exact ⟨rfl, rfl⟩
  · intro filtered
    constructor
    · rw [withoutConditions_compile, withoutConditions_compile, unconditioned]
    · refine ⟨(asked survey).map (elementOf survey options), ?_, ?_⟩
      · rw [compile_elements, groups_elements]
      · apply List.forall₂_map_right_iff.mpr
        exact List.forall₂_same.mpr fun entry _ => elementOf_carries filtered entry
  · intro sameWithout
    rw [← withoutRows_compile, sameWithout, withoutRows_compile]

/-- Two questions, of which the second depends on the first. -/
def followUp (survey group first : UInt64) (condition : String) (rows : List Question) : Survey :=
  let asked (id : UInt64) (relevance : String) (name : String) : Question :=
    { worded id name with relevance, subquestions := [{ worded (id + 1) "A" with parentId := id }] }
  ⟨survey, "en", ["de"], [⟨group, "Group", asked first "1" "Q1" :: rows ++
    [asked (first + 2) condition "Q2"]⟩]⟩

/-- Other ids, another condition and rows with a parent change the form by its conditions alone. -/
theorem renumbered_form_differs_by_conditions :
    let survey := followUp 1 2 3 "Q1 == 1" []
    let other := followUp 7 8 20 "7X8X20 != Q1_A" [{ worded 30 "B" with parentId := some 20 }]
    surveyOutline survey = surveyOutline other ∧
      survey.compile {} = other.compile {} ∧
      withoutConditions (survey.compile { enableFilters := true }) =
        withoutConditions (other.compile { enableFilters := true }) := by
  intro survey other
  have alike : surveyOutline survey = surveyOutline other := rfl
  exact ⟨alike, ((conditions_alone_differ survey other {} alike).1 rfl).1,
    ((conditions_alone_differ survey other { enableFilters := true } alike).2.1 rfl).1⟩

example : ((followUp 7 8 20 "7X8X20 != Q1_A" []).compile { enableFilters := true }).elements.map
    Element.visibleIf = [none, none, some "\x7bQ1\x7d != \x7bQ1_A\x7d"] := by
  decide +kernel

end Questionnaire.ConditionChannel
