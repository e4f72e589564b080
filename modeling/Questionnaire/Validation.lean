import Questionnaire.Json.Value
import Questionnaire.Relevance.Table
import Questionnaire.Text.Character

/-! Checks of a survey definition before it is compiled. The compiler makes something of every
survey; the report says where the survey does not say enough. Errors make a survey invalid,
warnings do not. -/
namespace Questionnaire

/-- How serious an issue is. -/
inductive Severity where
  | error
  | warning
deriving DecidableEq, Repr

/-- What is wrong with a part of a survey. -/
inductive Defect where
  | missingLanguage
  | duplicateLanguage (language : String)
  /-- A row whose parent is no base question of its group. -/
  | orphanSubquestion (name : String) (parent : UInt64)
  | emptyName (id : UInt64)
  /-- A name that another part, at the given path, has already. -/
  | duplicateName (name first : String)
  | missingDefaultText (language : String)
  | tokenCollision (collision : Collision)
deriving DecidableEq, Repr

/-- A defect and the part of the survey that has it. -/
structure Issue where
  path : String
  defect : Defect
deriving DecidableEq, Repr

namespace Defect

/-- Repeated languages and colliding variables are only warned of. -/
def severity : Defect → Severity
  | duplicateLanguage _ | tokenCollision _ => .warning
  | _ => .error

/-- The code of a defect. -/
def code : Defect → String
  | missingLanguage => "missing_language"
  | duplicateLanguage _ => "duplicate_language"
  | orphanSubquestion _ _ => "orphan_subquestion"
  | emptyName _ => "empty_name"
  | duplicateName _ _ => "duplicate_name"
  | missingDefaultText _ => "missing_default_text"
  | tokenCollision _ => "token_collision"

/-- The message of a defect. -/
def message : Defect → String
  | missingLanguage => "survey has no default language"
  | duplicateLanguage language => s!"language '{language}' is listed more than once"
  | orphanSubquestion name parent =>
    s!"subquestion '{name}' refers to parent {parent} which is not in the group"
  | emptyName id => s!"question {id} has no name"
  | duplicateName name first => s!"name '{name}' is already used at {first}"
  | missingDefaultText language => s!"no text for default language '{language}'"
  | tokenCollision ⟨word, kept, dropped⟩ =>
    s!"'{word}' names both {kept.label} and {dropped.label}; " ++
      "expressions resolve it to the former"

end Defect

namespace Issue

/-- The severity of an issue. -/
def severity (issue : Issue) : Severity :=
  issue.defect.severity

/-- Whether an issue makes a survey invalid. -/
def isError (issue : Issue) : Bool :=
  issue.severity = .error

end Issue

/-- A part of a survey that has a name, and its path. -/
structure Named where
  path : String
  question : Question

namespace Validation

/-- Warns of every language that is listed once more. -/
def repeatedLanguages : (earlier : List String) → List String → List Issue
  | _, [] => []
  | earlier, language :: rest =>
    (if earlier.contains language
      then [⟨s!"/languages/{language}", .duplicateLanguage language⟩] else []) ++
    repeatedLanguages (language :: earlier) rest

/-- The issues of a survey's languages. -/
def languageIssues (survey : Survey) : List Issue :=
  (if Text.isBlankText survey.language then [⟨"/language", .missingLanguage⟩] else []) ++
    repeatedLanguages [] survey.languages

/-- The first of the earlier parts that has a name. -/
def firstUse? (name : String) (earlier : List Named) : Option Named :=
  earlier.find? fun part => part.question.name == name

/-- The issue of a name: it must not be blank, nor be used by an earlier part. -/
def nameIssues (earlier : List Named) (part : Named) : List Issue :=
  if Text.isBlankText part.question.name then [⟨part.path, .emptyName part.question.id⟩]
  else
    match firstUse? part.question.name earlier with
    | some first => [⟨part.path, .duplicateName part.question.name first.path⟩]
    | none => []

/-- The issue of a text that is missing in the default language. -/
def textIssues (language path : String) (text : Option String) : List Issue :=
  if text.isSome then [] else [⟨path, .missingDefaultText language⟩]

/-- The issues of a name and its text. -/
def partIssues (language : String) (earlier : List Named) (part : Named) : List Issue :=
  nameIssues earlier part ++ textIssues language part.path (part.question.text? language)

/-- The issues of parts among which no name may be repeated. -/
def distinctIssues (issues : List Named → Named → List Issue) :
    (earlier : List Named) → List Named → List Issue
  | _, [] => []
  | earlier, part :: rest =>
    issues earlier part ++ distinctIssues issues (earlier ++ [part]) rest

/-- The subquestions of a question with their paths. -/
def namedSubquestions (question : Named) : List Named :=
  question.question.subquestions.map fun row =>
    ⟨s!"{question.path}/subquestions/{row.name}", row⟩

/-- The issues of a question's answers. -/
def answerIssues (language : String) (question : Named) : List Issue :=
  question.question.answers.flatMap fun answer =>
    textIssues language s!"{question.path}/answers/{answer.code}" (answer.text? language)

/-- The issues of a question, its subquestions and its answers. Subquestions have names of their
own within the question. -/
def questionIssues (language : String) (earlier : List Named) (question : Named) : List Issue :=
  partIssues language earlier question ++
    distinctIssues (partIssues language) [] (namedSubquestions question) ++
    answerIssues language question

/-- The path of a group. -/
def groupPath (group : Group) : String :=
  s!"/groups/{group.id}"

/-- The base questions of a group with their paths. -/
def namedQuestions (group : Group) : List Named :=
  group.baseQuestions.map fun question =>
    ⟨s!"{groupPath group}/questions/{question.name}", question⟩

/-- The rows of a group whose parent is no base question of it. -/
def orphanIssues (group : Group) : List Issue :=
  group.questions.flatMap fun row =>
    match row.parentId with
    | none => []
    | some parent =>
      if group.baseQuestions.any (·.id == parent) then []
      else [⟨s!"{groupPath group}/questions/{row.name}", .orphanSubquestion row.name parent⟩]

/-- The collisions of a group's variables. -/
def collisionIssues (survey : UInt64) (group : Group) : List Issue :=
  (Table.ofGroup survey group).collisions.map fun collision =>
    ⟨s!"{groupPath group}/tokens/{collision.word}", .tokenCollision collision⟩

/-- The issues of a group behind the questions of earlier groups. -/
def groupIssues (survey : Survey) (earlier : List Named) (group : Group) : List Issue :=
  orphanIssues group ++
    distinctIssues (questionIssues survey.language) earlier (namedQuestions group) ++
    collisionIssues survey.id group

/-- The issues of all groups. Base questions have names of their own within the survey. -/
def groupsIssues (survey : Survey) : (earlier : List Named) → List Group → List Issue
  | _, [] => []
  | earlier, group :: rest =>
    groupIssues survey earlier group ++
      groupsIssues survey (earlier ++ namedQuestions group) rest

end Validation

/-- The issues of a survey in the order in which they are met. -/
structure Report where
  issues : List Issue
deriving DecidableEq, Repr

/-- The report on a survey. -/
def Survey.validate (survey : Survey) : Report where
  issues := Validation.languageIssues survey ++ Validation.groupsIssues survey [] survey.groups

namespace Report

/-- The issues that make a survey invalid. -/
def errors (report : Report) : List Issue :=
  report.issues.filter Issue.isError

/-- The issues that do not. -/
def warnings (report : Report) : List Issue :=
  report.issues.filter fun issue => !issue.isError

/-- A survey is valid if there are no errors. -/
def isValid (report : Report) : Bool :=
  report.errors.isEmpty

/-- Whether some issue has a code. -/
def mentions (report : Report) (code : String) : Bool :=
  report.issues.any fun issue => issue.defect.code == code

/-- The name of a severity. -/
def severityName : Severity → String
  | .error => "error"
  | .warning => "warning"

/-- An issue as an object. -/
def issueToJson (issue : Issue) : Json :=
  .object [("severity", .string (severityName issue.severity)),
    ("code", .string issue.defect.code), ("path", .string issue.path),
    ("message", .string issue.defect.message)]

/-- A report as an object. -/
def toJson (report : Report) : Json :=
  .object [("valid", .bool report.isValid), ("issues", .array (report.issues.map issueToJson))]

/-- An issue as a line of text. -/
def issueLine (issue : Issue) : String :=
  s!"{severityName issue.severity}[{issue.defect.code}] {issue.path}: {issue.defect.message}"

/-- A report as text: a line for each issue, and one that says so if the survey is valid. -/
def text (report : Report) : String :=
  let verdict := if report.isValid then [s!"ok ({report.warnings.length} warning(s))"] else []
  "\n".intercalate (report.issues.map issueLine ++ verdict)

end Report
end Questionnaire
