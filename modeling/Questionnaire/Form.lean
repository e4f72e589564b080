import Questionnaire.Json.Value

/-! Form documents. A form has a locale, and its elements stand on named pages or in one list. All
elements have a name, a title and conditions; the rest depends on the control that is shown. A text is
localized: there is one to fall back on, and one for each of some languages. -/
namespace Questionnaire

/-- A text in several languages. -/
structure LocalizedText where
  /-- The text that is shown in every language that has none of its own. -/
  default : String
  /-- The texts by language code, in the order in which they were added. -/
  byLanguage : List (String × String)
deriving DecidableEq, Repr

namespace LocalizedText

/-- A text that is the same in all languages. -/
def plain (text : String) : LocalizedText where
  default := text
  byLanguage := []

/-- Adds the text of a language behind the others. -/
def add (text : LocalizedText) (language own : String) : LocalizedText :=
  { text with byLanguage := text.byLanguage ++ [(language, own)] }

/-- The first text of a language; the default text belongs to none. -/
def get? (text : LocalizedText) (language : String) : Option String :=
  (text.byLanguage.find? (·.1 == language)).map Prod.snd

/-- A text as an object: the default text, then those of the languages. -/
def toJson (text : LocalizedText) : Json :=
  .object <| ("default", .string text.default) ::
    text.byLanguage.map fun (language, own) => (language, .string own)

end LocalizedText

/-- The value that choosing an entry of a list gives. -/
inductive ChoiceValue where
  | number (value : Int)
  | text (value : String)
deriving DecidableEq, Repr

/-- What is shown for an entry of a list. -/
inductive ChoiceLabel where
  | plain (text : String)
  | localized (text : LocalizedText)
deriving DecidableEq, Repr

/-- An entry of a list. -/
structure Choice where
  value : ChoiceValue
  label : ChoiceLabel
deriving DecidableEq, Repr

/-- A check of what is typed in. -/
structure Validator where
  kind : String
deriving DecidableEq, Repr

/-- A column of a matrix. -/
structure MatrixColumn where
  value : String
  text : LocalizedText
  maxWidth : String
deriving DecidableEq, Repr

/-- A row of a matrix. -/
structure MatrixRow where
  value : String
  text : LocalizedText
deriving DecidableEq, Repr

/-- The control that an element shows. -/
inductive Control where
  | radioGroup (hasOther : Bool) (choices : List Choice)
  | dropdown (choices : List Choice)
  | text (inputType : Option String) (validators : List Validator)
  | matrix (columnMinWidth : String) (columns : List MatrixColumn) (rows : List MatrixRow)
  | checkbox (choices : List Choice)
deriving DecidableEq, Repr

namespace Control

/-- A text field that takes anything. -/
def freeText : Control :=
  .text none []

/-- The word that names a control. -/
def kind : Control → String
  | radioGroup _ _ => "radiogroup"
  | dropdown _ => "dropdown"
  | text _ _ => "text"
  | matrix _ _ _ => "matrix"
  | checkbox _ => "checkbox"

end Control

/-- An element of a form. -/
structure Element where
  name : String
  title : LocalizedText
  isRequired : Bool
  /-- The condition as it is shown. -/
  description : Option String
  /-- The condition under which the element is visible. -/
  visibleIf : Option String
  hideNumber : Bool
  control : Control
deriving DecidableEq, Repr

/-- A member that is left out when there is no value. -/
def optionalMember (key : String) (value : Option Json) : List (String × Json) :=
  value.toList.map fun present => (key, present)

/-- A member that is left out when it is false. -/
def flagMember (key : String) (value : Bool) : List (String × Json) :=
  if value then [(key, .bool true)] else []

/-- A choice's value. -/
def ChoiceValue.toJson : ChoiceValue → Json
  | number value => Json.integer value
  | text value => .string value

/-- A choice's label. -/
def ChoiceLabel.toJson : ChoiceLabel → Json
  | plain text => .string text
  | localized text => text.toJson

/-- A choice as an object. -/
def Choice.toJson (choice : Choice) : Json :=
  .object [("value", choice.value.toJson), ("text", choice.label.toJson)]

/-- A validator as an object. -/
def Validator.toJson (validator : Validator) : Json :=
  .object [("type", .string validator.kind)]

/-- A column as an object. -/
def MatrixColumn.toJson (column : MatrixColumn) : Json :=
  .object [("value", .string column.value), ("text", column.text.toJson),
    ("maxWidth", .string column.maxWidth)]

/-- A row as an object. -/
def MatrixRow.toJson (row : MatrixRow) : Json :=
  .object [("value", .string row.value), ("text", row.text.toJson)]

/-- The members that a control adds to its element. -/
def Control.members (control : Control) : List (String × Json) :=
  ("type", .string control.kind) ::
    match control with
    | radioGroup hasOther choices =>
      flagMember "hasOther" hasOther ++ [("choices", .array (choices.map Choice.toJson))]
    | dropdown choices => [("choices", .array (choices.map Choice.toJson))]
    | text inputType validators =>
      optionalMember "inputType" (inputType.map .string) ++
        if validators.isEmpty then []
        else [("validators", .array (validators.map Validator.toJson))]
    | matrix columnMinWidth columns rows =>
      [("columnMinWidth", .string columnMinWidth),
        ("columns", .array (columns.map MatrixColumn.toJson)),
        ("rows", .array (rows.map MatrixRow.toJson))]
    | checkbox choices => [("choices", .array (choices.map Choice.toJson))]

/-- An element as an object: its own members, then those of its control. -/
def Element.toJson (element : Element) : Json :=
  .object <|
    [("name", .string element.name), ("title", element.title.toJson),
      ("isRequired", .bool element.isRequired)] ++
    optionalMember "description" (element.description.map .string) ++
    optionalMember "visibleIf" (element.visibleIf.map .string) ++
    flagMember "hideNumber" element.hideNumber ++
    element.control.members

/-- A page of a form. -/
structure Page where
  name : String
  elements : List Element
deriving DecidableEq, Repr

/-- The elements of a form, on pages or in one list. -/
inductive Body where
  | pages (pages : List Page)
  | questions (elements : List Element)
deriving DecidableEq, Repr

/-- A form document. -/
structure Document where
  locale : String
  defaultLocale : String
  body : Body
deriving DecidableEq, Repr

/-- A page as an object. -/
def Page.toJson (page : Page) : Json :=
  .object [("name", .string page.name), ("elements", .array (page.elements.map Element.toJson))]

/-- The member that holds a form's elements. -/
def Body.member : Body → String × Json
  | pages list => ("pages", .array (list.map Page.toJson))
  | questions elements => ("questions", .array (elements.map Element.toJson))

namespace Document

/-- The pages of a form; a single list has none. -/
def pages (document : Document) : List Page :=
  match document.body with
  | .pages pages => pages
  | .questions _ => []

/-- Every element of a form in order. -/
def elements (document : Document) : List Element :=
  match document.body with
  | .pages pages => pages.flatMap Page.elements
  | .questions elements => elements

/-- A document as an object. -/
def toJson (document : Document) : Json :=
  .object [("locale", .string document.locale), ("defaultLocale", .string document.defaultLocale),
    document.body.member]

/-- The text of a document without blanks. -/
def compact (document : Document) : String :=
  document.toJson.compact

/-- The indented text of a document. -/
def pretty (document : Document) : String :=
  document.toJson.pretty

/-- A document as a value in normal form. -/
def value (document : Document) : Json :=
  document.toJson.normalized

end Document

end Questionnaire
