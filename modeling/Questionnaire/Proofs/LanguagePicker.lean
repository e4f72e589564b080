import Mathlib.Data.Finset.Card
import Mathlib.Data.Finset.Dedup
import Questionnaire.Proofs.ElementNames

/-! The choice of language. It is the one element of a form that shows no question, and the form has it
exactly if it is wanted and the survey has two languages to choose from, however often its list names
each of them. It offers every language once, in the order in which the languages are first listed. -/
namespace Questionnaire.LanguagePicker
open ElementNames Arrangements

/-- The languages of a survey: the default one and the listed ones. -/
def languagesOf (survey : Survey) : Finset String :=
  insert survey.language survey.languages.toFinset

/-- The list of a survey's languages, with the default one in front if the survey does not list it. -/
def listing (survey : Survey) : List String :=
  if survey.language ∈ survey.languages then survey.languages
  else survey.language :: survey.languages

/-- First occurrences stand in the order of their first places in the list. -/
theorem firstOccurrences_ordered {α : Type} [DecidableEq α] (xs : List α) :
    (firstOccurrences xs).Pairwise fun earlier later => xs.idxOf earlier < xs.idxOf later := by
  induction xs with
  | nil => exact .nil
  | cons x rest ih =>
    have behind : ∀ y, y ≠ x → (x :: rest).idxOf y = rest.idxOf y + 1 :=
      fun y other => List.idxOf_cons_ne rest (Ne.symm other)
    apply List.pairwise_cons.mpr
    constructor
    · intro y held
      have other : y ≠ x := by simpa using (List.mem_filter.mp held).2
      rw [List.idxOf_cons_self, behind y other]
      omega
    · refine List.Pairwise.imp_of_mem ?_ (ih.filter _)
      intro earlier later first second less
      have notFirst : earlier ≠ x := by simpa using (List.mem_filter.mp first).2
      have notSecond : later ≠ x := by simpa using (List.mem_filter.mp second).2
      rw [behind earlier notFirst, behind later notSecond]
      omega

/-- The languages on offer are the first occurrences in the list with the default language in it. -/
theorem offeredLanguages_eq (survey : Survey) :
    survey.offeredLanguages = firstOccurrences (listing survey) := by
  unfold Survey.offeredLanguages listing
  by_cases listed : survey.language ∈ survey.languages
  · rw [if_pos listed, if_pos listed]
  · have others : (firstOccurrences survey.languages).filter (· ≠ survey.language) =
        firstOccurrences survey.languages := by
      apply List.filter_eq_self.mpr
      intro language held
      have member := mem_firstOccurrences.mp held
      exact decide_eq_true fun same => listed (same ▸ member)
    rw [if_neg listed, if_neg listed, firstOccurrences, others]

theorem mem_languagesOf {survey : Survey} {language : String} :
    language ∈ languagesOf survey ↔ language ∈ survey.offeredLanguages := by
  simp [languagesOf]

/-- A survey is multilingual if its languages are two at least; repetitions do not count. -/
theorem isMultilingual_iff (survey : Survey) :
    survey.isMultilingual = true ↔ 1 < (languagesOf survey).card := by
  have same : languagesOf survey = survey.offeredLanguages.toFinset := by
    ext language
    rw [mem_languagesOf, List.mem_toFinset]
  rw [same, List.toFinset_card_of_nodup survey.offeredLanguages_nodup]
  exact decide_eq_true_iff

/-- An element is synthetic if it shows no base question of the survey under any condition. -/
def Synthetic (survey : Survey) (options : CompileOptions) (element : Element) : Prop :=
  ∀ question ∈ surveyQuestions survey, ∀ condition,
    element ≠ question.toElement (.ofSurvey survey options) condition

/-- The element of a base question is not synthetic. -/
theorem elementOf_not_synthetic {survey : Survey} {options : CompileOptions} {element : Element}
    (shown : element ∈ (asked survey).map (elementOf survey options)) :
    ¬ Synthetic survey options element := by
  obtain ⟨⟨group, question⟩, listed, rfl⟩ := List.mem_map.mp shown
  obtain ⟨stored, held, paired⟩ := List.mem_flatMap.mp listed
  obtain ⟨base, member, same⟩ := List.mem_map.mp paired
  obtain ⟨rfl, rfl⟩ := Prod.mk.inj same
  intro synthetic
  exact synthetic base (List.mem_flatMap.mpr ⟨stored, held, member⟩) _ rfl

/-- The choice of language is synthetic, whatever a question is called: its number is hidden. -/
theorem languagePicker_synthetic (survey : Survey) (options : CompileOptions) :
    Synthetic survey options (CompileContext.ofSurvey survey options).languagePicker := by
  intro question _ condition same
  have hidden := congrArg Element.hideNumber same
  simp [CompileContext.languagePicker, Question.toElement] at hidden

/-- Every language of a survey once, in the order in which they are first listed. -/
structure Offer (survey : Survey) (offered : List String) : Prop where
  distinct : offered.Nodup
  complete : ∀ language, language ∈ offered ↔ language ∈ languagesOf survey
  ordered : offered.Pairwise fun earlier later =>
    (listing survey).idxOf earlier < (listing survey).idxOf later

/-- An element that lets choose among all languages of a survey by their codes. Its title is in those
languages that have a message for it, in the order of the offer. -/
structure OffersLanguages (survey : Survey) (element : Element) : Prop where
  name : element.name = "language"
  required : element.isRequired = true
  offer : ∃ offered, Offer survey offered ∧
    element.control =
      .radioGroup false (offered.map fun language => ⟨.text language, .plain language⟩) ∧
    element.title.byLanguage = offered.filterMap fun language =>
      (Locale.message? language Locale.languageTitle).map fun title => (language, title)

private theorem offeredLanguages_offer (survey : Survey) : Offer survey survey.offeredLanguages where
  distinct := survey.offeredLanguages_nodup
  complete _ := mem_languagesOf.symm
  ordered := by
    rw [offeredLanguages_eq]
    exact firstOccurrences_ordered (listing survey)

/-- A message is given in the languages that have one, one behind the other. -/
theorem messages_byLanguage (key defaultLanguage : String) (languages : List String) :
    (Locale.messages key defaultLanguage languages).byLanguage = languages.filterMap fun language =>
      (Locale.message? language key).map fun message => (language, message) := by
  have nothing : [] = (LocalizedText.plain (Locale.message defaultLanguage key)).byLanguage := rfl
  rw [Locale.messages, ← List.nil_append (List.filterMap _ languages), nothing]
  -- What is added goes behind what the text has already, so the induction is about any text.
  generalize LocalizedText.plain (Locale.message defaultLanguage key) = text
  induction languages generalizing text with
  | nil => simp
  | cons language rest ih =>
    cases present : Locale.message? language key with
    | none => simp only [List.foldl_cons, List.filterMap_cons, present, Option.map_none, ih]
    | some message =>
      simp only [List.foldl_cons, List.filterMap_cons, present, Option.map_some, ih]
      rw [LocalizedText.add, List.append_assoc, List.singleton_append]

private theorem languagePicker_title (context : CompileContext) :
    context.languagePicker.title =
      Locale.messages Locale.languageTitle context.defaultLanguage context.languages := rfl

private theorem languagePicker_offers (survey : Survey) (options : CompileOptions) :
    OffersLanguages survey (CompileContext.ofSurvey survey options).languagePicker where
  name := rfl
  required := rfl
  offer := by
    refine ⟨survey.offeredLanguages, offeredLanguages_offer survey, rfl, ?_⟩
    rw [languagePicker_title, messages_byLanguage]
    rfl

/-- The choice of language is put in front if it is wanted and the survey has two languages. -/
theorem languagePicker?_eq (survey : Survey) (options : CompileOptions) :
    survey.languagePicker? options =
      if options.languagePage = true ∧ 1 < (languagesOf survey).card then
        some (CompileContext.ofSurvey survey options).languagePicker
      else none := by
  simp only [Survey.languagePicker?, Bool.and_eq_true, isMultilingual_iff]

/-- **When a form has a choice of language, and what it offers.** A survey is multilingual exactly if its
default language and the listed ones are two different ones at least. The form has a synthetic element
exactly if a choice of language is wanted and the survey is multilingual. This element is then the only
one and comes first, on pages alone on the first page, and offers each of the languages once, in the
order in which they are first listed. -/
theorem language_picker_exactly_if_multilingual (survey : Survey) (options : CompileOptions) :
    let elements := (survey.compile options).elements
    (survey.isMultilingual = true ↔ 1 < (languagesOf survey).card) ∧
      ((∃ element ∈ elements, Synthetic survey options element) ↔
        options.languagePage = true ∧ 1 < (languagesOf survey).card) ∧
      ∀ picker ∈ elements, Synthetic survey options picker →
        (∃ others, elements = picker :: others ∧
          ∀ element ∈ others, ¬ Synthetic survey options element) ∧
        (options.layout = .pages →
          (survey.compile options).pages = ⟨"language", [picker]⟩ :: survey.groupPages options) ∧
        OffersLanguages survey picker := by
  intro elements
  let questions := (asked survey).map (elementOf survey options)
  have ofQuestions : ∀ element ∈ questions, ¬ Synthetic survey options element :=
    fun _ => elementOf_not_synthetic
  have all : elements = (survey.languagePicker? options).toList ++ questions :=
    (compile_elements survey options).trans (congrArg _ (groups_elements survey options))
  refine ⟨isMultilingual_iff survey, ?_⟩
  by_cases wanted : options.languagePage = true ∧ 1 < (languagesOf survey).card
  · have shown := languagePicker?_eq survey options
    rw [if_pos wanted] at shown
    have synthetic := languagePicker_synthetic survey options
    rw [shown, Option.toList_some, List.singleton_append] at all
    rw [all]
    refine ⟨iff_of_true ⟨_, List.mem_cons_self, synthetic⟩ wanted, ?_⟩
    intro picker held alone
    rcases List.mem_cons.mp held with rfl | later
    · refine ⟨⟨questions, rfl, ofQuestions⟩, ?_, languagePicker_offers survey options⟩
      intro paged
      simp [Survey.compile, Document.pages, paged, shown, languagePickerName]
    · exact absurd alone (ofQuestions picker later)
  · have hidden := languagePicker?_eq survey options
    rw [if_neg wanted] at hidden
    rw [hidden, Option.toList_none, List.nil_append] at all
    rw [all]
    have absent : ¬ ∃ element ∈ questions, Synthetic survey options element := by
      rintro ⟨element, held, synthetic⟩
      exact ofQuestions element held synthetic
    refine ⟨iff_of_false absent wanted, ?_⟩
    intro picker held synthetic
    exact absurd synthetic (ofQuestions picker held)

/-- A survey that lists its languages repeatedly and without the default one. -/
def repeating : Survey :=
  ⟨1, "en", ["ru-RU", "xx", "de", "xx", "ru-RU"], []⟩

theorem repeated_languages_offered : ∃ picker,
    (repeating.compile {}).pages = [⟨"language", [picker]⟩] ∧ OffersLanguages repeating picker := by
  obtain ⟨-, shown, offers⟩ := language_picker_exactly_if_multilingual repeating {}
  obtain ⟨picker, held, synthetic⟩ := shown.mpr ⟨rfl, by decide +kernel⟩
  obtain ⟨-, paged, offer⟩ := offers picker held synthetic
  exact ⟨picker, paged rfl, offer⟩

example : (repeating.languagePicker? {}).map Element.title =
    some ⟨"What is your preferred language?",
      [("en", "What is your preferred language?"), ("ru-RU", "Какой язык вы предпочитаете?"),
        ("de", "Welche Sprache bevorzugen Sie?")]⟩ := by
  decide +kernel

/-- The default language alone, however often it is listed, is no choice. -/
example : (Survey.mk 1 "en" ["en", "en"] []).languagePicker? {} = none := by
  decide +kernel

end Questionnaire.LanguagePicker
