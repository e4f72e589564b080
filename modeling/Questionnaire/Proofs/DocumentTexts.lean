import Questionnaire.Proofs.ElementNames
import Questionnaire.Proofs.Layout

/-! The texts of a form. The numbers of a form are the values of its choices, and compiling gives them
64 bits at most, so a form is read back from either of its texts with everything that it holds, and its
indented text is the other one with blanks between the tokens. -/
namespace Questionnaire.DocumentTexts
open Json WrittenScalars WrittenValues Layout ElementNames

private theorem optionalMember_integral (key : String) (text : Option String) :
    MembersIntegral (optionalMember key (text.map .string)) := by
  cases text with
  | none => exact membersIntegral_nil
  | some text => exact membersIntegral_single (.string text)

private theorem flagMember_integral (key : String) (flag : Bool) :
    MembersIntegral (flagMember key flag) := by
  cases flag with
  | false => exact membersIntegral_nil
  | true => exact membersIntegral_single (.bool true)

private theorem localized_integral (text : LocalizedText) : Integral text.toJson := by
  refine .object (membersIntegral_cons (.string text.default) ?_)
  exact List.forall_mem_map.mpr fun _ _ => .string _

/-- The value of a choice is a text, or an integer that is read back. -/
def Bounded (choice : Choice) : Prop :=
  ∀ value, choice.value = .number value → Fits value

private theorem choice_integral {choice : Choice} (bounded : Bounded choice) :
    Integral choice.toJson := by
  have value : Integral choice.value.toJson := by
    cases given : choice.value with
    | number value => exact .integer (bounded value given)
    | text value => exact .string value
  have label : Integral choice.label.toJson := by
    cases choice.label with
    | plain text => exact .string text
    | localized text => exact localized_integral text
  exact .object (membersIntegral_cons value (membersIntegral_single label))

private theorem column_integral (column : MatrixColumn) : Integral column.toJson :=
  .object <| membersIntegral_cons (.string column.value) <|
    membersIntegral_cons (localized_integral column.text) <|
      membersIntegral_single (.string column.maxWidth)

private theorem row_integral (row : MatrixRow) : Integral row.toJson :=
  .object <| membersIntegral_cons (.string row.value) <|
    membersIntegral_single (localized_integral row.text)

private theorem validator_integral (validator : Validator) : Integral validator.toJson :=
  .object (membersIntegral_single (.string validator.kind))

/-- The choices among which a control lets choose. -/
def choices : Control → List Choice
  | .radioGroup _ choices | .dropdown choices | .checkbox choices => choices
  | .text _ _ | .matrix _ _ _ => []

private theorem control_integral {control : Control}
    (bounded : ∀ choice ∈ choices control, Bounded choice) : MembersIntegral control.members := by
  have choices : Integral (.array ((choices control).map Choice.toJson)) :=
    integral_array fun choice held => choice_integral (bounded choice held)
  refine membersIntegral_cons (.string control.kind) ?_
  cases control with
  | radioGroup hasOther list =>
    exact (flagMember_integral "hasOther" hasOther).append (membersIntegral_single choices)
  | dropdown list => exact membersIntegral_single choices
  | text inputType validators =>
    refine (optionalMember_integral "inputType" inputType).append ?_
    cases validators with
    | nil => exact membersIntegral_nil
    | cons check checks =>
      exact membersIntegral_single (integral_array fun validator _ => validator_integral validator)
  | matrix columnMinWidth columns rows =>
    have columns : Integral (.array (columns.map MatrixColumn.toJson)) :=
      integral_array fun column _ => column_integral column
    have rows : Integral (.array (rows.map MatrixRow.toJson)) :=
      integral_array fun row _ => row_integral row
    exact membersIntegral_cons (.string columnMinWidth)
      (membersIntegral_cons columns (membersIntegral_single rows))
  | checkbox list => exact membersIntegral_single choices

private theorem element_integral {element : Element}
    (bounded : ∀ choice ∈ choices element.control, Bounded choice) : Integral element.toJson := by
  have fixed : MembersIntegral [("name", .string element.name), ("title", element.title.toJson),
      ("isRequired", .bool element.isRequired)] :=
    membersIntegral_cons (.string _) <| membersIntegral_cons (localized_integral element.title) <|
      membersIntegral_single (.bool _)
  have description := optionalMember_integral "description" element.description
  have condition := optionalMember_integral "visibleIf" element.visibleIf
  have number := flagMember_integral "hideNumber" element.hideNumber
  exact .object ((((fixed.append description).append condition).append number).append
    (control_integral bounded))

/-- Every choice of every element has a value that is read back. -/
def Readable (elements : List Element) : Prop :=
  ∀ element ∈ elements, ∀ choice ∈ choices element.control, Bounded choice

private theorem elements_integral {elements : List Element} (readable : Readable elements) :
    Integral (.array (elements.map Element.toJson)) :=
  integral_array fun element held => element_integral (readable element held)

private theorem page_integral {page : Page} (readable : Readable page.elements) :
    Integral page.toJson :=
  .object <| membersIntegral_cons (.string page.name) <|
    membersIntegral_single (elements_integral readable)

private theorem document_integral {document : Document} (readable : Readable document.elements) :
    Integral document.toJson := by
  have body : Integral document.body.member.2 := by
    unfold Document.elements at readable
    cases shape : document.body with
    | questions elements =>
      rw [shape] at readable
      exact elements_integral readable
    | pages pages =>
      rw [shape] at readable
      refine integral_array fun page paged => page_integral fun element held => ?_
      exact readable element (List.mem_flatMap.mpr ⟨page, paged, held⟩)
  exact .object <| membersIntegral_cons (.string document.locale) <|
    membersIntegral_cons (.string document.defaultLocale) (membersIntegral_single body)

/-- The number that an answer code writes has 64 bits at most, however it is written. -/
theorem integerOf?_fits {literal : Decimal.Literal} {value : Int}
    (found : AnswerCode.integerOf? literal = some value) : Fits value := by
  have least : AnswerCode.minInteger = -(Decimal.twoTo 63 : Int) := rfl
  have greatest : AnswerCode.maxInteger = (Decimal.twoTo 63 : Int) - 1 := rfl
  have positive := Decimal.twoTo_pos 63
  have within : Decimal.twoTo 63 < Decimal.twoTo 64 := by decide
  unfold AnswerCode.integerOf? at found
  unfold Fits
  split at found
  · next plain =>
    obtain rfl := Option.some.inj found
    omega
  · obtain ⟨magnitude, -, found⟩ := Option.bind_eq_some_iff.mp found
    split at found
    · cases found
    · split at found
      · obtain rfl := Option.some.inj found
        omega
      · obtain rfl := Option.some.inj found
        omega

private theorem answer_bounded (code : String) (label : ChoiceLabel) :
    Bounded ⟨AnswerCode.value code, label⟩ := by
  intro value given
  simp only [AnswerCode.value] at given
  split at given
  · next number found =>
    cases given
    obtain ⟨literal, -, read⟩ := Option.bind_eq_some_iff.mp found
    exact integerOf?_fits read
  · cases given

private theorem question_bounded (context : CompileContext) (question : Question) :
    ∀ choice ∈ choices (question.control context), Bounded choice := by
  intro choice held
  have listed : choice ∈ question.listChoices context → Bounded choice := by
    intro held
    obtain ⟨answer, -, rfl⟩ := List.mem_map.mp held
    exact answer_bounded answer.code _
  unfold Question.control at held
  cases kind : question.kind with
  | radioList | flexibleRadioList | dropdownList =>
    rw [kind] at held
    exact listed held
  | multipleChoice =>
    rw [kind] at held
    obtain ⟨row, -, rfl⟩ := List.mem_map.mp held
    intro value given
    cases given
    exact ⟨by decide, by decide⟩
  | number | matrix | other =>
    rw [kind] at held
    cases held

private theorem compile_readable (survey : Survey) (options : CompileOptions) :
    Readable (survey.compile options).elements := by
  intro element held
  rw [compile_elements] at held
  rcases List.mem_append.mp held with picker | grouped
  · have shown := Option.mem_toList.mp picker
    unfold Survey.languagePicker? at shown
    split at shown
    · obtain rfl := Option.some.inj shown
      intro choice held value given
      obtain ⟨language, -, rfl⟩ := List.mem_map.mp held
      cases given
    · cases shown
  · obtain ⟨page, paged, held⟩ := List.mem_flatMap.mp grouped
    obtain ⟨group, -, rfl⟩ := List.mem_map.mp paged
    obtain ⟨question, -, rfl⟩ := List.mem_map.mp held
    exact question_bounded _ question

/-- The text of a compiled form without blanks is read as the form's value, with every member of its
objects. -/
theorem ofText_compact (survey : Survey) (options : CompileOptions) :
    Json.ofText (survey.compile options).compact = .ok (survey.compile options).toJson := by
  have integral := document_integral (compile_readable survey options)
  exact (readText_compact Node.value integral).trans (value_nodeOf _)

/-- **All texts of a form say the same.** A reader of arbitrary JSON accepts both texts of a compiled
form and gets the form's value, where of a repeated key the last value stays; and the text without
blanks is the indented one with the blanks outside of quoted texts left out. -/
theorem compiled_texts_agree (survey : Survey) (options : CompileOptions) :
    let document := survey.compile options
    (Json.ofText document.compact).map Json.normalized = .ok document.value ∧
      (Json.ofText document.pretty).map Json.normalized = .ok document.value ∧
      withoutSpaces .outside document.pretty.toList = document.compact.toList := by
  intro document
  have integral : Integral document.toJson := document_integral (compile_readable survey options)
  have compact : Json.ofText document.compact = .ok document.toJson := ofText_compact survey options
  have pretty : Json.ofText document.pretty = .ok document.toJson :=
    (readText_pretty Node.value integral).trans (value_nodeOf document.toJson)
  rw [compact, pretty]
  exact ⟨rfl, rfl, withoutSpaces_pretty integral⟩

end Questionnaire.DocumentTexts
