import Mathlib.Data.List.Forall2
import Questionnaire.Proofs.ValidSurveys

/-! The texts of a form. The report on a survey looks at the same parts as the form does: the questions
that become elements, and the answers and rows that become choices, columns and rows of these. So in
the form of a valid survey every text has one in the default language, and shows the texts of its
source in the languages on offer and nothing else. -/
namespace Questionnaire.FormTexts
open ValidSurveys ElementNames

/-- A text of the form shows a wording of the survey: by default it is the cleaned text in the
survey's language, which there is, and each language on offer in which there is a text has this one,
cleaned, once and in the order of the offer. -/
structure Shows (survey : Survey) (wording : Wording) (text : LocalizedText) : Prop where
  default : ∃ own, wording.get? survey.language = some (some own) ∧
    text.default = Text.Markup.clean own
  distinct : (text.byLanguage.map Prod.fst).Nodup
  ordered : (text.byLanguage.map Prod.fst).Sublist survey.offeredLanguages
  exactly : ∀ language shown, (language, shown) ∈ text.byLanguage ↔
    language ∈ survey.offeredLanguages ∧
      ∃ own, wording.get? language = some (some own) ∧ shown = Text.Markup.clean own
  inDefaultLanguage : text.get? survey.language = some text.default

/-- A choice gives a value and shows a wording. -/
def ChoiceShows (survey : Survey) (value : ChoiceValue) (wording : Wording) (choice : Choice) : Prop :=
  choice.value = value ∧ ∃ text, choice.label = .localized text ∧ Shows survey wording text

/-- The control of an element shows what belongs to its question, one for one and in stored order: a
list its answers, a matrix its answers as columns and its rows, a multiple choice its rows. -/
inductive ControlShows (survey : Survey) (question : Question) : Control → Prop where
  | radioGroup {choices : List Choice}
      (kind : question.kind = .radioList ∨ question.kind = .flexibleRadioList)
      (answers : List.Forall₂ (fun answer => ChoiceShows survey (AnswerCode.value answer.code)
        answer.wording) question.answers choices) :
      ControlShows survey question (.radioGroup true choices)
  | dropdown {choices : List Choice} (kind : question.kind = .dropdownList)
      (answers : List.Forall₂ (fun answer => ChoiceShows survey (AnswerCode.value answer.code)
        answer.wording) question.answers choices) :
      ControlShows survey question (.dropdown choices)
  | matrix {columns : List MatrixColumn} {rows : List MatrixRow} (kind : question.kind = .matrix)
      (answers : List.Forall₂ (fun answer column =>
        column.value = answer.code ∧ Shows survey answer.wording column.text)
        question.answers columns)
      (nested : List.Forall₂ (fun row shown =>
        shown.value = row.name ∧ Shows survey row.wording shown.text) question.subquestions rows) :
      ControlShows survey question (.matrix columnMinWidth columns rows)
  | checkbox {choices : List Choice} (kind : question.kind = .multipleChoice)
      (nested : List.Forall₂ (fun row => ChoiceShows survey (.number 1) row.wording)
        question.subquestions choices) :
      ControlShows survey question (.checkbox choices)
  | text {inputType : Option String} {validators : List Validator}
      (kind : question.kind = .number ∨ ∃ code, question.kind = .other code) :
      ControlShows survey question (.text inputType validators)

/-- An element shows a question: its title the question's own wording, its control the rest. -/
structure ElementShows (survey : Survey) (question : Question) (element : Element) : Prop where
  name : element.name = question.name
  title : Shows survey question.wording element.title
  control : ControlShows survey question element.control

/-- Where each key is there once at most, a pair that is there is the one found. -/
theorem find?_of_mem {α : Type} {pairs : List (String × α)} (distinct : (pairs.map Prod.fst).Nodup)
    {key : String} {value : α} (held : (key, value) ∈ pairs) :
    pairs.find? (·.1 == key) = some (key, value) := by
  cases found : pairs.find? (·.1 == key) with
  | none =>
    have absent := List.find?_eq_none.mp found _ held
    simp at absent
  | some pair =>
    have otherHeld := List.mem_of_find?_eq_some found
    have same : pair.1 = key := by simpa using List.find?_some found
    rw [List.inj_on_of_nodup_map distinct otherHeld held same]

/-- Where each language has one text at most, a text that is there is the one found. -/
theorem get?_of_mem {text : LocalizedText} (distinct : (text.byLanguage.map Prod.fst).Nodup)
    {language shown : String} (held : (language, shown) ∈ text.byLanguage) :
    text.get? language = some shown := by
  rw [LocalizedText.get?, find?_of_mem distinct held]
  rfl

private theorem text?_eq_some_iff {language own : String} {wording : Wording} :
    wording.text? language = some own ↔ wording.get? language = some (some own) := by
  unfold Wording.text?
  cases wording.get? language <;> simp

variable {survey : Survey} {options : CompileOptions}

/-- Where some keys are paired with what they have, the keys are those that have something. -/
theorem filterMap_keys {α β γ : Type} (own : α → Option β) (shown : β → γ) (keys : List α) :
    (keys.filterMap fun key => (own key).map fun value => (key, shown value)).map Prod.fst =
      keys.filter fun key => (own key).isSome := by
  induction keys with
  | nil => rfl
  | cons key rest ih =>
    cases present : own key with
    | none => simpa [present] using ih
    | some value => simpa [present] using ih

/-- The languages of a localized text are those on offer that have a text. -/
theorem localize_languages (context : CompileContext) (wording : Wording) :
    (context.localize wording).byLanguage.map Prod.fst =
      context.languages.filter fun language => (wording.text? language).isSome :=
  filterMap_keys (fun language => wording.text? language) Text.Markup.clean context.languages

theorem mem_localize {context : CompileContext} {wording : Wording} {language shown : String} :
    (language, shown) ∈ (context.localize wording).byLanguage ↔ language ∈ context.languages ∧
      ∃ own, wording.get? language = some (some own) ∧ shown = Text.Markup.clean own := by
  simp only [CompileContext.localize, List.mem_filterMap, Option.map_eq_some_iff, Prod.mk.injEq,
    text?_eq_some_iff]
  constructor
  · rintro ⟨offered, member, own, present, rfl, rfl⟩
    exact ⟨member, own, present, rfl⟩
  · rintro ⟨member, own, present, rfl⟩
    exact ⟨language, member, own, present, rfl, rfl⟩

/-- A wording with a text in the default language is shown. -/
theorem localize_shows {wording : Wording} (worded : Worded survey.language wording) :
    Shows survey wording ((CompileContext.ofSurvey survey options).localize wording) := by
  obtain ⟨own, present⟩ := worded
  let text := (CompileContext.ofSurvey survey options).localize wording
  have default : text.default = Text.Markup.clean own := by
    have ofWording := text?_eq_some_iff.mpr present
    simp [text, CompileContext.localize, CompileContext.ofSurvey, ofWording]
  have languages : text.byLanguage.map Prod.fst =
      survey.offeredLanguages.filter fun language => (wording.text? language).isSome :=
    localize_languages _ wording
  have ordered : (text.byLanguage.map Prod.fst).Sublist survey.offeredLanguages := by
    rw [languages]
    exact List.filter_sublist
  have distinct := ordered.nodup survey.offeredLanguages_nodup
  have offered : survey.language ∈ survey.offeredLanguages :=
    Survey.mem_offeredLanguages.mpr (.inl rfl)
  have held : (survey.language, text.default) ∈ text.byLanguage :=
    mem_localize.mpr ⟨offered, own, present, default⟩
  exact ⟨⟨own, present, default⟩, distinct, ordered, fun _ _ => mem_localize,
    get?_of_mem distinct held⟩

variable {question : Question}

private theorem forall₂_map_self {α β : Type} {R : α → β → Prop} {f : α → β} {xs : List α}
    (each : ∀ x ∈ xs, R x (f x)) : List.Forall₂ R xs (xs.map f) :=
  List.forall₂_map_right_iff.mpr (List.forall₂_same.mpr each)

/-- What the control of a question shows has been checked, whatever the kind of question. -/
theorem control_shows (complete : Complete survey.language question) :
    ControlShows survey question (question.control (.ofSurvey survey options)) := by
  have answers : List.Forall₂ (fun answer => ChoiceShows survey (AnswerCode.value answer.code)
      answer.wording) question.answers (question.listChoices (.ofSurvey survey options)) :=
    forall₂_map_self fun answer offered =>
      ⟨rfl, _, rfl, localize_shows (complete.answersWorded answer offered)⟩
  have ticks : List.Forall₂ (fun row => ChoiceShows survey (.number 1) row.wording)
      question.subquestions (question.tickChoices (.ofSurvey survey options)) :=
    forall₂_map_self fun row nested =>
      ⟨rfl, _, rfl, localize_shows (complete.rowsWorded row nested)⟩
  cases kind : question.kind with
  | radioList =>
    rw [Question.control, kind]
    exact .radioGroup (.inl kind) answers
  | flexibleRadioList =>
    rw [Question.control, kind]
    exact .radioGroup (.inr kind) answers
  | dropdownList =>
    rw [Question.control, kind]
    exact .dropdown kind answers
  | number =>
    rw [Question.control, kind]
    exact .text (.inl kind)
  | matrix =>
    rw [Question.control, kind]
    refine .matrix kind (forall₂_map_self fun answer offered => ?_)
      (forall₂_map_self fun row nested => ?_)
    · exact ⟨rfl, localize_shows (complete.answersWorded answer offered)⟩
    · exact ⟨rfl, localize_shows (complete.rowsWorded row nested)⟩
  | multipleChoice =>
    rw [Question.control, kind]
    exact .checkbox kind ticks
  | other code =>
    rw [Question.control, kind]
    exact .text (.inr ⟨code, kind⟩)

private theorem element_shows (complete : Complete survey.language question)
    (condition : Option String) :
    ElementShows survey question (question.toElement (.ofSurvey survey options) condition) where
  name := rfl
  title := localize_shows complete.worded
  control := control_shows complete

/-- The elements of groups show their questions, one behind the other. -/
theorem groups_show {groups : List Group}
    (complete : ∀ question ∈ groups.flatMap Group.baseQuestions, Complete survey.language question) :
    List.Forall₂ (ElementShows survey) (groups.flatMap Group.baseQuestions)
      ((groups.map (Group.compile survey.id (.ofSurvey survey options))).flatMap Page.elements) := by
  induction groups with
  | nil => exact .nil
  | cons group rest ih =>
    rw [List.flatMap_cons, List.forall_mem_append] at complete
    rw [List.flatMap_cons, List.map_cons, List.flatMap_cons]
    refine List.rel_append ?_ (ih complete.2)
    exact forall₂_map_self fun question asked => element_shows (complete.1 question asked) _

/-- **The texts of a valid survey are shown faithfully.** Behind the choice of language, if there is
one, the elements of the form show the base questions of the survey one for one and in stored order,
with all their answers and rows: no text is missing in the default language, and each of them is shown
in the languages on offer in which it has one. -/
theorem valid_survey_texts_shown (survey : Survey) (options : CompileOptions)
    (valid : survey.validate.isValid = true) :
    ∃ elements, (survey.compile options).elements =
        (survey.languagePicker? options).toList ++ elements ∧
      List.Forall₂ (ElementShows survey) (surveyQuestions survey) elements := by
  have sound : ∀ question ∈ surveyQuestions survey, Complete survey.language question :=
    valid_questions_complete valid
  exact ⟨_, compile_elements survey options, groups_show sound⟩

/-- A matrix with a row that has a text in one language only, and none in another by intention. -/
def scale : Question :=
  { worded 3 "Q1" with
    kind := .matrix
    subquestions := [{ worded 4 "A" with
      wording := (Keyed.empty.insert "en" (some "Row <b>A</b>")).insert "de" none }]
    answers := [⟨"A1", (Keyed.empty.insert "en" (some "Good")).insert "de" (some "Gut")⟩] }

theorem bilingual_scale_shown : (bilingual [scale]).validate.isValid = true ∧
    ∃ elements, ((bilingual [scale]).compile {}).elements =
        ((bilingual [scale]).languagePicker? {}).toList ++ elements ∧
      List.Forall₂ (ElementShows (bilingual [scale])) (surveyQuestions (bilingual [scale]))
        elements := by
  have valid : (bilingual [scale]).validate.isValid = true := by decide +kernel
  exact ⟨valid, valid_survey_texts_shown (bilingual [scale]) {} valid⟩

example : scale.matrixRows (.ofSurvey (bilingual [scale]) {}) =
    [⟨"A", ⟨"Row A", [("en", "Row A")]⟩⟩] := by
  decide +kernel

end Questionnaire.FormTexts
