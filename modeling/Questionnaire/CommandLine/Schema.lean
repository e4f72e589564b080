import Questionnaire.Json.Value

/-! The JSON Schemas of survey definitions and of compile options. -/
namespace Questionnaire.CommandLine
open Json

/-- The dialect in which the schemas are written. -/
def schemaDialect : String × Json :=
  ("$schema", .string "https://json-schema.org/draft/2020-12/schema")

/-- The type of a value. -/
def typed (name : String) : String × Json :=
  ("type", .string name)

/-- The title of a schema. -/
def titled (text : String) : String × Json :=
  ("title", .string text)

/-- The description of a value. -/
def described (text : String) : String × Json :=
  ("description", .string text)

/-- A value that is defined elsewhere in the schema. -/
def reference (name : String) : String × Json :=
  ("$ref", .string s!"#/$defs/{name}")

/-- The fields that must be given. -/
def required (names : List String) : String × Json :=
  ("required", Json.strings names)

/-- A text. -/
def stringSchema : Json :=
  .object [typed "string"]

/-- The bounds of an id. -/
def idBounds : List (String × Json) :=
  [("format", .string "uint64"), ("minimum", Json.natural 0)]

/-- An id. -/
def idSchema : Json :=
  .object (typed "integer" :: idBounds)

/-- A list of things that are defined elsewhere. -/
def listSchema (name : String) (notes : List (String × Json)) : Json :=
  .object (notes ++ [("items", .object [reference name])])

/-- An empty list as default. -/
def emptyByDefault : String × Json :=
  ("default", .array [])

/-- A switch and its default. -/
def switchSchema (notes : List (String × Json)) (default : Bool) : Json :=
  .object (notes ++ [typed "boolean", ("default", .bool default)])

/-- Texts by language. -/
def wordingSchema : Json :=
  .object [typed "object",
    ("additionalProperties", .object [("type", Json.strings ["string", "null"])]),
    ("default", .object [])]

/-- An answer. -/
def answerSchema : Json :=
  .object [described "One answer option of a list or matrix question.", typed "object",
    ("properties", .object [("code", stringSchema), ("translations", wordingSchema)]),
    required ["code"]]

/-- A question. -/
def questionSchema : Json :=
  .object [
    described ("A question row as loaded from survey storage.\n\n" ++
      "Subquestions are questions themselves; they carry `parent_id` and are\n" ++
      "nested under their parent in `subquestions`."),
    typed "object",
    ("properties", .object [
      ("answers", listSchema "Answer" [typed "array"]),
      ("id", idSchema),
      ("mandatory", switchSchema [] false),
      ("name", stringSchema),
      ("parent_id", .object (("type", Json.strings ["integer", "null"]) :: idBounds)),
      ("relevance", .object [typed "string", ("default", .string "1")]),
      ("subquestions", listSchema "Question" [typed "array"]),
      ("translations", wordingSchema),
      ("type", stringSchema)]),
    required ["id", "name", "type"]]

/-- A group. -/
def groupSchema : Json :=
  .object [described "One page worth of questions.", typed "object",
    ("properties", .object [
      ("id", idSchema),
      ("name", stringSchema),
      ("questions", listSchema "Question" [
        described "Every question row of the group in stored order, subquestion rows included.",
        typed "array", emptyByDefault])]),
    required ["id", "name"]]

/-- The schema of survey definitions. -/
def surveySchema : Json :=
  .object [schemaDialect, titled "SurveyDefinition",
    described "Fully resolved survey handed over by the storage layer.", typed "object",
    ("properties", .object [
      ("groups", listSchema "QuestionGroup" [typed "array", emptyByDefault]),
      ("id", idSchema),
      ("language", .object [described "Default display language.", typed "string"]),
      ("languages", .object [described "Supported languages in display order.", typed "array",
        ("items", stringSchema)])]),
    required ["id", "language"],
    ("$defs", .object [("Answer", answerSchema), ("Question", questionSchema),
      ("QuestionGroup", groupSchema)])]

/-- A layout by name. -/
def layoutSchema (name description : String) : Json :=
  .object [described description, typed "string", ("const", .string name)]

/-- The schema of compile options. -/
def optionsSchema : Json :=
  .object [schemaDialect, titled "CompileOptions",
    described "Compile switches, loadable from TOML.", typed "object",
    ("properties", .object [
      ("enable_filters", switchSchema
        [described "Emit `description`/`visibleIf` from relevance expressions."] false),
      ("language_page", switchSchema
        [described "Prepend a language picker when the survey has several languages."] true),
      ("layout", .object [reference "Layout", ("default", .string "pages")])]),
    ("$defs", .object [
      ("Layout", .object [
        described "How compiled elements are grouped in the output document.",
        ("oneOf", .array [
          layoutSchema "pages" "One page per question group.",
          layoutSchema "flat" "A single `questions` array."])])])]

end Questionnaire.CommandLine
