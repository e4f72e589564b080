import Questionnaire.Compile.Options
import Questionnaire.Form
import Questionnaire.Locale
import Questionnaire.Relevance.Expression
import Questionnaire.Survey.Basic
import Questionnaire.Text.Character
import Questionnaire.Text.Markup

/-! The compilation of a survey into a form document. Each base question becomes an element, whose
control depends on the kind of question. Every text of a survey is cleaned before it is shown, and an
answer code that writes a whole number of 64 bits becomes a number. -/
namespace Questionnaire
namespace AnswerCode
open Decimal

/-- The least integer of 64 bits. -/
def minInteger : Int := -(twoTo 63 : Int)

/-- The greatest integer of 64 bits. -/
def maxInteger : Int := twoTo 63 - 1

/-- The whole number that a literal writes. Digits alone are taken exactly if they fit; everything
else is rounded to a floating-point number first, which must be an integer of at most 2 ^ 63, and
2 ^ 63 itself becomes the greatest integer. -/
def integerOf? (literal : Literal) : Option Int :=
  if literal.isPlain ∧ minInteger ≤ literal.plainValue ∧ literal.plainValue ≤ maxInteger then
    some literal.plainValue
  else
    literal.toBinary64.toNat?.bind fun magnitude =>
      if twoTo 63 < magnitude then none
      else if literal.negative then some (-(magnitude : Int))
      else some (min magnitude maxInteger)

/-- The value of a code; blanks around a number do not matter. -/
def value (code : String) : ChoiceValue :=
  match (Literal.parse? (Text.trimChars code.toList)).bind integerOf? with
  | some number => .number number
  | none => .text code

end AnswerCode

/-- What all elements of one compilation share. -/
structure CompileContext where
  defaultLanguage : String
  languages : List String
  enableFilters : Bool

namespace CompileContext

/-- The context of a survey. -/
def ofSurvey (survey : Survey) (options : CompileOptions) : CompileContext where
  defaultLanguage := survey.language
  languages := survey.offeredLanguages
  enableFilters := options.enableFilters

/-- The cleaned texts of a wording: the one in the default language, empty if there is none, and
one for each language that has a text. -/
def localize (context : CompileContext) (wording : Wording) : LocalizedText where
  default := ((wording.text? context.defaultLanguage).map Text.Markup.clean).getD ""
  byLanguage := context.languages.filterMap fun language =>
    (wording.text? language).map fun text => (language, Text.Markup.clean text)

end CompileContext

/-- The least width of a matrix column. -/
def columnMinWidth : String := "200px"

/-- The greatest width of a matrix column. -/
def columnMaxWidth : String := "1%"

namespace Question

variable (context : CompileContext) (question : Question)

/-- The choices of a list: its answers. -/
def listChoices : List Choice :=
  question.answers.map fun answer =>
    ⟨AnswerCode.value answer.code, .localized (context.localize answer.wording)⟩

/-- The choices of a multiple choice: its subquestions, each of which can be ticked. -/
def tickChoices : List Choice :=
  question.subquestions.map fun row =>
    ⟨.number 1, .localized (context.localize row.wording)⟩

/-- The columns of a matrix: its answers. -/
def matrixColumns : List MatrixColumn :=
  question.answers.map fun answer =>
    ⟨answer.code, context.localize answer.wording, columnMaxWidth⟩

/-- The rows of a matrix: its subquestions. -/
def matrixRows : List MatrixRow :=
  question.subquestions.map fun row => ⟨row.name, context.localize row.wording⟩

/-- The control of a question. -/
def control : Control :=
  match question.kind with
  | .radioList | .flexibleRadioList => .radioGroup true (question.listChoices context)
  | .dropdownList => .dropdown (question.listChoices context)
  | .number => .text (some "number") [⟨"numeric"⟩]
  | .matrix =>
    .matrix columnMinWidth (question.matrixColumns context) (question.matrixRows context)
  | .multipleChoice => .checkbox (question.tickChoices context)
  | .other _ => .freeText

/-- The element of a question under a condition of the form, which counts only where conditions
are enabled. -/
def toElement (condition : Option String) : Element :=
  let shown := condition.filter fun _ => context.enableFilters
  { name := question.name
    title := context.localize question.wording
    isRequired := question.mandatory
    description := shown
    visibleIf := shown
    hideNumber := false
    control := question.control context }

end Question

/-- The name of the element that offers a choice of language, and of its page. -/
def languagePickerName : String := "language"

/-- The element that offers a choice of language. -/
def CompileContext.languagePicker (context : CompileContext) : Element where
  name := languagePickerName
  title := Locale.messages Locale.languageTitle context.defaultLanguage context.languages
  isRequired := true
  description := none
  visibleIf := none
  hideNumber := true
  control := .radioGroup false <| context.languages.map fun language =>
    ⟨.text language, .plain language⟩

/-- The page of a group: one element for each base question. All conditions of a group are
put into the form by the table of the whole group. -/
def Group.compile (survey : UInt64) (context : CompileContext) (group : Group) : Page :=
  let table := if context.enableFilters then some (Table.ofGroup survey group) else none
  { name := Text.Markup.clean group.name
    elements := group.baseQuestions.map fun question =>
      question.toElement context
        (table.bind fun table => Relevance.formCondition? table question.relevance) }

namespace Survey

/-- The choice of language that goes in front, if it is wanted and there is a choice. -/
def languagePicker? (survey : Survey) (options : CompileOptions) : Option Element :=
  if options.languagePage && survey.isMultilingual
  then some (CompileContext.ofSurvey survey options).languagePicker else none

/-- The pages of the groups. -/
def groupPages (survey : Survey) (options : CompileOptions) : List Page :=
  survey.groups.map (Group.compile survey.id (.ofSurvey survey options))

/-- The form of a survey. -/
def compile (survey : Survey) (options : CompileOptions) : Document where
  locale := survey.language
  defaultLocale := survey.language
  body :=
    let picker := (survey.languagePicker? options).toList
    let pages := survey.groupPages options
    match options.layout with
    | .pages => .pages (picker.map (fun element => ⟨languagePickerName, [element]⟩) ++ pages)
    | .flat => .questions (picker ++ pages.flatMap Page.elements)

end Survey

end Questionnaire
