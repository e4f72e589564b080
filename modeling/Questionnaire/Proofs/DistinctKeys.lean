import Questionnaire.Proofs.DocumentTexts
import Questionnaire.Proofs.FormTexts
import Questionnaire.Proofs.LanguagePicker

/-! The keys of a form's objects. The members of pages, elements, choices, columns and rows have fixed
names, which differ whatever is left out, but a text in several languages has the codes of languages as
keys beside the fixed key of its default text. So the only key that an object can have twice is
`default`, and it has it exactly if this is a language of the survey in which what is shown has a text.
The report on a survey does not look for it. -/
namespace Questionnaire.DistinctKeys
open Json ElementNames LanguagePicker FormTexts

/-- No object of a value, however deep it lies, has two members with the same key. -/
inductive KeysDistinct : Json → Prop
  | null : KeysDistinct .null
  | bool (truth : Bool) : KeysDistinct (.bool truth)
  | number (value : Number) : KeysDistinct (.number value)
  | string (text : String) : KeysDistinct (.string text)
  | array {items : List Json} : (∀ item ∈ items, KeysDistinct item) → KeysDistinct (.array items)
  | object {members : List (String × Json)} : (members.map Prod.fst).Nodup →
    (∀ member ∈ members, KeysDistinct member.2) → KeysDistinct (.object members)

attribute [simp] KeysDistinct.bool KeysDistinct.number KeysDistinct.string

@[simp]
theorem keysDistinct_array {items : List Json} :
    KeysDistinct (.array items) ↔ ∀ item ∈ items, KeysDistinct item := by
  constructor
  · rintro ⟨⟩
    assumption
  · exact .array

@[simp]
theorem keysDistinct_object {members : List (String × Json)} :
    KeysDistinct (.object members) ↔
      (members.map Prod.fst).Nodup ∧ ∀ member ∈ members, KeysDistinct member.2 := by
  constructor
  · rintro ⟨⟩
    exact ⟨by assumption, by assumption⟩
  · rintro ⟨distinct, each⟩
    exact .object distinct each

/-- The value of a member, where of a repeated key the last value is read. -/
def member? (key : String) : Json → Option Json
  | .object members => (Keyed.ofList members).get? key
  | _ => none

/-- The members of a text that give its own text in each language. -/
def languageMembers (text : LocalizedText) : List (String × Json) :=
  text.byLanguage.map fun own => (own.1, .string own.2)

private theorem localized_toJson (text : LocalizedText) :
    text.toJson = .object (("default", .string text.default) :: languageMembers text) := rfl

private theorem languageMembers_keys (text : LocalizedText) :
    (languageMembers text).map Prod.fst = text.byLanguage.map Prod.fst :=
  List.map_map

/-- A text has its languages as keys, and `default` in front of them. -/
theorem localized_distinct_iff {text : LocalizedText} : KeysDistinct text.toJson ↔
    "default" ∉ text.byLanguage.map Prod.fst ∧ (text.byLanguage.map Prod.fst).Nodup := by
  have flat : ∀ member ∈ languageMembers text, KeysDistinct member.2 :=
    List.forall_mem_map.mpr fun _ _ => .string _
  rw [localized_toJson, keysDistinct_object, List.map_cons, languageMembers_keys, List.nodup_cons]
  exact and_iff_left (List.forall_mem_cons.mpr ⟨.string _, flat⟩)

/-- A reader gets the default text under `default` and each language's own text under its code. -/
structure ReadBack (text : LocalizedText) : Prop where
  default : member? "default" text.toJson = some (.string text.default)
  own : ∀ language own, (language, own) ∈ text.byLanguage →
    member? language text.toJson = some (.string own)

variable {text : LocalizedText}

/-- The default text stands in front, so what else has the key is read instead. -/
theorem member?_localized (key : String) (text : LocalizedText) : member? key text.toJson =
    (((languageMembers text).reverse.find? (·.1 == key)).or
      ([("default", .string text.default)].find? (·.1 == key))).map Prod.snd := by
  rw [localized_toJson, member?, Keyed.get?_ofList, List.reverse_cons, List.find?_append]

/-- The default text is read under its key unless a language has this code. -/
theorem member?_default (free : "default" ∉ text.byLanguage.map Prod.fst) :
    member? "default" text.toJson = some (.string text.default) := by
  have absent : (languageMembers text).reverse.find? (·.1 == "default") = none := by
    rw [← languageMembers_keys, List.mem_map] at free
    refine List.find?_eq_none.mpr fun member held => ?_
    simpa using fun same => free ⟨member, List.mem_reverse.mp held, same⟩
  rw [member?_localized, absent]
  rfl

/-- The own text of a language is read under its code. -/
theorem member?_own (distinct : (text.byLanguage.map Prod.fst).Nodup) {language own : String}
    (held : (language, own) ∈ text.byLanguage) :
    member? language text.toJson = some (.string own) := by
  have reversed : ((languageMembers text).reverse.map Prod.fst).Nodup := by
    rw [List.map_reverse, List.nodup_reverse, languageMembers_keys]
    exact distinct
  have found : (languageMembers text).reverse.find? (·.1 == language) =
      some (language, .string own) :=
    find?_of_mem reversed (List.mem_reverse.mpr (List.mem_map_of_mem held))
  rw [member?_localized, found]
  rfl

/-- Only the own text of a language that is called `default` can stand in the way of a reader. -/
theorem readBack_iff (distinct : (text.byLanguage.map Prod.fst).Nodup) :
    ReadBack text ↔ ∀ own, ("default", own) ∈ text.byLanguage → own = text.default := by
  constructor
  · intro read own held
    have other := member?_own distinct held
    rw [read.default] at other
    simpa using other.symm
  · intro same
    refine ⟨?_, fun language own => member?_own distinct⟩
    by_cases free : "default" ∈ text.byLanguage.map Prod.fst
    · obtain ⟨⟨code, own⟩, held, rfl⟩ := List.mem_map.mp free
      rw [member?_own distinct held, same own held]
    · exact member?_default free

/-- The texts in several languages that the label of a choice shows. -/
def labelTexts : ChoiceLabel → List LocalizedText
  | .plain _ => []
  | .localized text => [text]

/-- The texts in several languages that a control shows. -/
def controlTexts : Control → List LocalizedText
  | .radioGroup _ choices | .dropdown choices | .checkbox choices =>
    choices.flatMap fun choice => labelTexts choice.label
  | .text _ _ => []
  | .matrix _ columns rows => columns.map MatrixColumn.text ++ rows.map MatrixRow.text

/-- The texts in several languages that an element shows: its title and those of its control. -/
def elementTexts (element : Element) : List LocalizedText :=
  element.title :: controlTexts element.control

/-- The texts in several languages of a form. -/
def texts (document : Document) : List LocalizedText :=
  document.elements.flatMap elementTexts

/-- In a list of entries only their texts can have a key twice if this is so for each of them. -/
theorem entries_distinct_iff {α : Type} {toJson : α → Json} {textsOf : α → List LocalizedText}
    (each : ∀ entry, KeysDistinct (toJson entry) ↔ ∀ text ∈ textsOf entry, KeysDistinct text.toJson)
    (entries : List α) : KeysDistinct (.array (entries.map toJson)) ↔
      ∀ text ∈ entries.flatMap textsOf, KeysDistinct text.toJson := by
  rw [keysDistinct_array, List.forall_mem_map, List.forall_mem_flatMap]
  exact forall₂_congr fun entry _ => each entry

private theorem choice_distinct_iff (choice : Choice) : KeysDistinct choice.toJson ↔
    ∀ text ∈ labelTexts choice.label, KeysDistinct text.toJson := by
  have value : KeysDistinct choice.value.toJson := by
    cases choice.value with
    | number value => exact .number _
    | text value => exact .string value
  cases label : choice.label with
  | plain text => simp [Choice.toJson, ChoiceLabel.toJson, labelTexts, label, value]
  | localized text => simp [Choice.toJson, ChoiceLabel.toJson, labelTexts, label, value]

private theorem column_distinct_iff (column : MatrixColumn) :
    KeysDistinct column.toJson ↔ KeysDistinct column.text.toJson := by
  simp [MatrixColumn.toJson]

private theorem row_distinct_iff (row : MatrixRow) :
    KeysDistinct row.toJson ↔ KeysDistinct row.text.toJson := by
  simp [MatrixRow.toJson]

/-- The names of the members that controls add to their elements. -/
def controlKeys : List String :=
  ["type", "hasOther", "choices", "inputType", "validators", "columnMinWidth", "columns", "rows"]

private theorem optionalMember_keys (key : String) (value : Option Json) :
    ((optionalMember key value).map Prod.fst).Sublist [key] := by
  cases value with
  | none => exact List.nil_sublist _
  | some present => exact .refl _

private theorem flagMember_keys (key : String) (flag : Bool) :
    ((flagMember key flag).map Prod.fst).Sublist [key] := by
  cases flag with
  | false => exact List.nil_sublist _
  | true => exact .refl _

private theorem optionalMember_distinct (key : String) (text : Option String) :
    ∀ member ∈ optionalMember key (text.map .string), KeysDistinct member.2 := by
  cases text with
  | none => exact List.forall_mem_nil _
  | some text => exact List.forall_mem_singleton.mpr (.string text)

private theorem flagMember_distinct (key : String) (flag : Bool) :
    ∀ member ∈ flagMember key flag, KeysDistinct member.2 := by
  cases flag with
  | false => exact List.forall_mem_nil _
  | true => exact List.forall_mem_singleton.mpr (.bool true)

/-- Each control has some of the names, in this order. -/
theorem control_keys (control : Control) :
    (control.members.map Prod.fst).Sublist controlKeys := by
  refine .cons_cons "type" ?_
  cases control with
  | radioGroup hasOther choices =>
    rw [List.map_append]
    exact ((flagMember_keys "hasOther" hasOther).append (.refl ["choices"])).trans (by decide)
  | dropdown choices => exact List.Sublist.trans (.refl ["choices"]) (by decide)
  | text inputType validators =>
    have checks : ((if validators.isEmpty then []
        else [("validators", Json.array (validators.map Validator.toJson))]).map Prod.fst).Sublist
          ["validators"] := by
      cases validators with
      | nil => exact List.nil_sublist _
      | cons check checks => exact .refl _
    rw [List.map_append]
    exact ((optionalMember_keys "inputType" _).append checks).trans (by decide)
  | matrix columnMinWidth columns rows =>
    exact List.Sublist.trans (.refl ["columnMinWidth", "columns", "rows"]) (by decide)
  | checkbox choices => exact List.Sublist.trans (.refl ["choices"]) (by decide)

/-- What is below the members of a control are the texts that it shows. -/
theorem control_distinct_iff (control : Control) :
    (∀ member ∈ control.members, KeysDistinct member.2) ↔
      ∀ text ∈ controlTexts control, KeysDistinct text.toJson := by
  have list (choices : List Choice) : (∀ member ∈ [("choices", Json.array (choices.map Choice.toJson))],
      KeysDistinct member.2) ↔
        ∀ text ∈ choices.flatMap fun choice => labelTexts choice.label, KeysDistinct text.toJson := by
    rw [List.forall_mem_singleton]
    exact entries_distinct_iff choice_distinct_iff choices
  refine (List.forall_mem_cons.trans (and_iff_right (.string control.kind))).trans ?_
  cases control with
  | radioGroup hasOther choices =>
    have flag : ∀ member ∈ flagMember "hasOther" hasOther, KeysDistinct member.2 :=
      flagMember_distinct "hasOther" hasOther
    rw [List.forall_mem_append, and_iff_right flag]
    exact list choices
  | dropdown choices => exact list choices
  | text inputType validators =>
    refine iff_of_true (List.forall_mem_append.mpr ⟨optionalMember_distinct _ _, ?_⟩)
      (List.forall_mem_nil _)
    cases validators with
    | nil => exact List.forall_mem_nil _
    | cons check checks =>
      refine List.forall_mem_singleton.mpr (.array (List.forall_mem_map.mpr fun validator _ => ?_))
      simp [Validator.toJson]
  | matrix columnMinWidth columns rows =>
    simp [controlTexts, or_imp, forall_and, column_distinct_iff, row_distinct_iff]
  | checkbox choices => exact list choices

/-- The members of an element have different names, whichever of them are left out. -/
theorem element_distinct_iff (element : Element) : KeysDistinct element.toJson ↔
    ∀ text ∈ elementTexts element, KeysDistinct text.toJson := by
  have names : ([("name", .string element.name), ("title", element.title.toJson),
      ("isRequired", Json.bool element.isRequired)].map Prod.fst).Sublist
        ["name", "title", "isRequired"] := .refl _
  have description := optionalMember_keys "description" (element.description.map .string)
  have condition := optionalMember_keys "visibleIf" (element.visibleIf.map .string)
  have number := flagMember_keys "hideNumber" element.hideNumber
  have all := (((names.append description).append condition).append number).append
    (control_keys element.control)
  rw [Element.toJson, keysDistinct_object, elementTexts, List.forall_mem_cons]
  simp only [List.forall_mem_append, control_distinct_iff, List.map_append]
  rw [and_iff_right (all.nodup (by decide)), and_iff_left (flagMember_distinct _ _),
    and_iff_left (optionalMember_distinct _ _), and_iff_left (optionalMember_distinct _ _)]
  simp

private theorem page_distinct_iff (page : Page) : KeysDistinct page.toJson ↔
    ∀ text ∈ page.elements.flatMap elementTexts, KeysDistinct text.toJson := by
  rw [← entries_distinct_iff element_distinct_iff]
  simp [Page.toJson]

/-- Only the texts of a form can have a key twice. -/
theorem document_distinct_iff (document : Document) : KeysDistinct document.toJson ↔
    ∀ text ∈ texts document, KeysDistinct text.toJson := by
  have body : KeysDistinct document.body.member.2 ↔
      ∀ text ∈ texts document, KeysDistinct text.toJson := by
    unfold texts Document.elements
    cases document.body with
    | questions elements => exact entries_distinct_iff element_distinct_iff elements
    | pages pages =>
      rw [List.flatMap_assoc]
      exact entries_distinct_iff page_distinct_iff pages
  have keys : ["locale", "defaultLocale", document.body.member.1].Nodup := by
    cases document.body with
    | pages pages => exact (by decide : ["locale", "defaultLocale", "pages"].Nodup)
    | questions elements => exact (by decide : ["locale", "defaultLocale", "questions"].Nodup)
  rw [← body, Document.toJson, keysDistinct_object]
  simp [keys]

/-- The wordings that the element of a question shows: its own, and those of its answers or rows if its
control has them. -/
def wordingsOf (question : Question) : List Wording :=
  question.wording ::
    match question.kind with
    | .radioList | .flexibleRadioList | .dropdownList => question.answers.map Answer.wording
    | .matrix => question.answers.map Answer.wording ++ question.subquestions.map Question.wording
    | .multipleChoice => question.subquestions.map Question.wording
    | .number | .other _ => []

/-- The wordings of a survey that its form shows. -/
def shownWordings (survey : Survey) : List Wording :=
  (surveyQuestions survey).flatMap wordingsOf

private theorem question_texts (context : CompileContext) (question : Question)
    (condition : Option String) :
    elementTexts (question.toElement context condition) =
      (wordingsOf question).map context.localize := by
  have listed : (question.listChoices context).flatMap (fun choice => labelTexts choice.label) =
      (question.answers.map Answer.wording).map context.localize := by
    rw [Question.listChoices, List.flatMap_map, List.map_map, List.map_eq_flatMap]
    rfl
  have ticked : (question.tickChoices context).flatMap (fun choice => labelTexts choice.label) =
      (question.subquestions.map Question.wording).map context.localize := by
    rw [Question.tickChoices, List.flatMap_map, List.map_map, List.map_eq_flatMap]
    rfl
  unfold elementTexts wordingsOf Question.toElement Question.control
  rw [List.map_cons]
  congr 1
  cases question.kind with
  | radioList | flexibleRadioList | dropdownList => exact listed
  | multipleChoice => exact ticked
  | matrix =>
    simp [controlTexts, Question.matrixColumns, Question.matrixRows, Function.comp_def]
  | number | other code => rfl

/-- The texts of a form are the title of the choice of language, if there is one, and the wordings that
are shown, in the languages on offer. -/
theorem compiled_texts (survey : Survey) (options : CompileOptions) :
    texts (survey.compile options) =
      (survey.languagePicker? options).toList.flatMap elementTexts ++
        (shownWordings survey).map (CompileContext.ofSurvey survey options).localize := by
  have questions : ((survey.groupPages options).flatMap Page.elements).flatMap elementTexts =
      (shownWordings survey).map (CompileContext.ofSurvey survey options).localize := by
    rw [Survey.groupPages, shownWordings, surveyQuestions, List.flatMap_map, List.flatMap_assoc,
      List.flatMap_assoc, List.map_flatMap]
    congr 1
    funext group
    simp only [Group.compile, List.flatMap_map, question_texts, List.map_flatMap]
  rw [texts, compile_elements, List.flatMap_append, questions]

variable {survey : Survey} {options : CompileOptions}

/-- The choice of language shows one text in several languages, its title. -/
theorem languagePicker_text {text : LocalizedText}
    (shown : text ∈ (survey.languagePicker? options).toList.flatMap elementTexts) :
    text = Locale.messages Locale.languageTitle survey.language survey.offeredLanguages := by
  obtain ⟨picker, offered, held⟩ := List.mem_flatMap.mp shown
  have offered := Option.mem_toList.mp offered
  unfold Survey.languagePicker? at offered
  split at offered
  · obtain rfl := Option.some.inj offered
    simpa [elementTexts, controlTexts, labelTexts, CompileContext.languagePicker,
      CompileContext.ofSurvey] using held
  · cases offered

/-- The languages of a message are those that have one. -/
theorem messages_languages (key defaultLanguage : String) (languages : List String) :
    (Locale.messages key defaultLanguage languages).byLanguage.map Prod.fst =
      languages.filter fun language => (Locale.message? language key).isSome := by
  rw [messages_byLanguage]
  exact filterMap_keys (fun language => Locale.message? language key) id languages

/-- A text of the form has no language twice, as the languages on offer have none. -/
theorem languages_nodup {text : LocalizedText} (held : text ∈ texts (survey.compile options)) :
    (text.byLanguage.map Prod.fst).Nodup := by
  rw [compiled_texts] at held
  rcases List.mem_append.mp held with title | shown
  · rw [languagePicker_text title, messages_languages]
    exact survey.offeredLanguages_nodup.filter _
  · obtain ⟨wording, _, rfl⟩ := List.mem_map.mp shown
    rw [localize_languages]
    exact survey.offeredLanguages_nodup.filter _

/-- Among the languages of a text is `default` if it is on offer and what is shown has a text in it;
no message is in this language. -/
theorem default_language_iff (survey : Survey) (options : CompileOptions) :
    (∃ text ∈ texts (survey.compile options), "default" ∈ text.byLanguage.map Prod.fst) ↔
      "default" ∈ languagesOf survey ∧
        ∃ wording ∈ shownWordings survey, ∃ own, wording.get? "default" = some (some own) := by
  rw [compiled_texts, mem_languagesOf]
  constructor
  · rintro ⟨text, held, named⟩
    rcases List.mem_append.mp held with title | shown
    · rw [languagePicker_text title, messages_languages] at named
      have message := (List.mem_filter.mp named).2
      exact absurd message (by decide)
    · obtain ⟨wording, source, rfl⟩ := List.mem_map.mp shown
      obtain ⟨⟨language, own⟩, listed, rfl⟩ := List.mem_map.mp named
      obtain ⟨offered, raw, present, -⟩ := mem_localize.mp listed
      exact ⟨offered, wording, source, raw, present⟩
  · rintro ⟨offered, wording, held, own, present⟩
    refine ⟨_, List.mem_append_right _ (List.mem_map_of_mem held), ?_⟩
    exact List.mem_map.mpr ⟨_, mem_localize.mpr ⟨offered, own, present, rfl⟩, rfl⟩

/-- **When a form repeats a key.** A reader of the text of a form, which keeps repeated keys, gets the
form's value. In it no object has a key twice, whatever the survey and the options, unless `default` is
a language of the survey and something that is shown has a text in it. If no key is repeated, a reader
who keeps the last value of each key gets for every text in several languages the default under
`default` and each language's own text under its code; and in any case he gets this exactly for those
texts of which the default is not hidden by another own text under `default`. -/
theorem keys_distinct_iff (survey : Survey) (options : CompileOptions) :
    let document := survey.compile options
    Json.ofText document.compact = .ok document.toJson ∧
      (KeysDistinct document.toJson ↔ ¬ ("default" ∈ languagesOf survey ∧
        ∃ wording ∈ shownWordings survey, ∃ own, wording.get? "default" = some (some own))) ∧
      (KeysDistinct document.toJson → ∀ text ∈ texts document, ReadBack text) ∧
      ∀ text ∈ texts document,
        ReadBack text ↔ ∀ own, ("default", own) ∈ text.byLanguage → own = text.default := by
  intro document
  have distinct : KeysDistinct document.toJson ↔
      ∀ text ∈ texts document, "default" ∉ text.byLanguage.map Prod.fst := by
    rw [document_distinct_iff]
    refine forall₂_congr fun text held => ?_
    rw [localized_distinct_iff, and_iff_left (languages_nodup held)]
  refine ⟨DocumentTexts.ofText_compact survey options, ?_, ?_, ?_⟩
  · rw [distinct, ← default_language_iff survey options, not_exists]
    exact forall_congr' fun text => not_and.symm
  · intro free text held
    refine (readBack_iff (languages_nodup held)).mpr fun own listed => ?_
    exact absurd (List.mem_map_of_mem listed) (distinct.mp free text held)
  · exact fun text held => readBack_iff (languages_nodup held)

/-- A survey of one question. -/
def asking (language : String) (others : List String) (wording : Wording) : Survey :=
  ⟨1, language, others, [⟨2, "Group", [{ worded 3 "Q1" with wording := wording }]⟩]⟩

/-- A survey of which the language has the name of the key. -/
def inDefault : Survey :=
  asking "default" [] (Keyed.empty.insert "default" (some "One"))

/-- A survey without any issue, the form of which has a key twice. -/
theorem language_named_default : inDefault.validate.issues = [] ∧
    texts (inDefault.compile {}) = [⟨"One", [("default", "One")]⟩] ∧
    ¬ KeysDistinct (inDefault.compile {}).toJson := by
  have shown : texts (inDefault.compile {}) = [⟨"One", [("default", "One")]⟩] := by
    decide +kernel
  refine ⟨by decide +kernel, shown, fun distinct => ?_⟩
  rw [document_distinct_iff, shown, List.forall_mem_singleton] at distinct
  exact (localized_distinct_iff.mp distinct).1 List.mem_cons_self

/-- A survey in which another language has the name of the key, and a text of its own. -/
def besideDefault : Survey :=
  asking "en" ["default"] ((Keyed.empty.insert "en" (some "One")).insert "default" (some "Two"))

/-- There is no issue, but a reader gets the wrong text as the default one. -/
example : besideDefault.validate.issues = [] ∧
    (texts (besideDefault.compile { languagePage := false })).map (fun text =>
      (text.default, (member? "default" text.toJson).map Json.compact)) =
        [("One", some "\"Two\"")] := by
  decide +kernel

end Questionnaire.DistinctKeys
