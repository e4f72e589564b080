import Questionnaire.Json.Reader
import Questionnaire.Survey.Basic

/-! Reading survey definitions, and the parts of one, from JSON texts. -/
namespace Questionnaire
open Json

/-- Reads texts by language at a depth. -/
def Wording.read (depth : Nat) : Reader Wording :=
  readKeyed depth (readNullable readString)

/-- An answer of which some fields have been read. -/
structure Answer.Draft where
  code : Option String := none
  wording : Wording := Keyed.empty

/-- How an answer is read. -/
def Answer.record (depth : Nat) : Record Answer.Draft Answer where
  name := "Answer"
  fields := ["code", "translations"]
  blank := {}
  fill field node draft :=
    match field with
    | "code" => do return { draft with code := ← readString node }
    | "translations" => do return { draft with wording := ← Wording.read depth node }
    | _ => .ok draft
  finish draft := do
    let some code := draft.code | .error "code"
    return ⟨code, draft.wording⟩

/-- Reads an answer at a depth. -/
def Answer.read (depth : Nat) : Reader Answer :=
  (Answer.record (depth - 1)).read depth

/-- A question of which some fields have been read. -/
structure Question.Draft where
  id : Option UInt64 := none
  parentId : Option UInt64 := none
  name : Option String := none
  kind : Option QuestionKind := none
  mandatory : Bool := false
  relevance : String := unconditional
  subquestions : List Question := []
  answers : List Answer := []
  wording : Wording := Keyed.empty

/-- How a question is read whose subquestions are read by the given reader. -/
def Question.record (depth : Nat) (subquestions : Reader (List Question)) :
    Record Question.Draft Question where
  name := "Question"
  fields := ["id", "parent_id", "name", "type", "mandatory", "relevance", "subquestions", "answers",
    "translations"]
  blank := {}
  fill field node draft :=
    match field with
    | "id" => do return { draft with id := ← readUInt64 node }
    | "parent_id" => do return { draft with parentId := ← readNullable readUInt64 node }
    | "name" => do return { draft with name := ← readString node }
    | "type" => do return { draft with kind := QuestionKind.ofCode (← readString node) }
    | "mandatory" => do return { draft with mandatory := ← readBool node }
    | "relevance" => do return { draft with relevance := ← readString node }
    | "subquestions" => do return { draft with subquestions := ← subquestions node }
    | "answers" => do
      return { draft with answers := ← readList depth (Answer.read (depth - 1)) node }
    | "translations" => do return { draft with wording := ← Wording.read depth node }
    | _ => .ok draft
  finish draft := do
    let some id := draft.id | .error "id"
    let some name := draft.name | .error "name"
    let some kind := draft.kind | .error "type"
    return {
      id, name, kind
      parentId := draft.parentId
      mandatory := draft.mandatory
      relevance := draft.relevance
      subquestions := draft.subquestions
      answers := draft.answers
      wording := draft.wording }

/-- Reads a question at a depth; its subquestions lie two levels deeper. -/
def Question.read : (depth : Nat) → Reader Question
  | 0 => (Question.record 0 fun _ => .error .tooDeep).read 0
  | 1 => (Question.record 0 (readList 0 fun _ => .error .tooDeep)).read 1
  | depth + 2 =>
    (Question.record (depth + 1) (readList (depth + 1) (Question.read depth))).read (depth + 2)

/-- A group of which some fields have been read. -/
structure Group.Draft where
  id : Option UInt64 := none
  name : Option String := none
  questions : List Question := []

/-- How a group is read. -/
def Group.record (depth : Nat) : Record Group.Draft Group where
  name := "QuestionGroup"
  fields := ["id", "name", "questions"]
  blank := {}
  fill field node draft :=
    match field with
    | "id" => do return { draft with id := ← readUInt64 node }
    | "name" => do return { draft with name := ← readString node }
    | "questions" => do
      return { draft with questions := ← readList depth (Question.read (depth - 1)) node }
    | _ => .ok draft
  finish draft := do
    let some id := draft.id | .error "id"
    let some name := draft.name | .error "name"
    return ⟨id, name, draft.questions⟩

/-- Reads a group at a depth. -/
def Group.read (depth : Nat) : Reader Group :=
  (Group.record (depth - 1)).read depth

/-- A survey of which some fields have been read. -/
structure Survey.Draft where
  id : Option UInt64 := none
  language : Option String := none
  languages : List String := []
  groups : List Group := []

/-- How a survey is read. -/
def Survey.record (depth : Nat) : Record Survey.Draft Survey where
  name := "SurveyDefinition"
  fields := ["id", "language", "languages", "groups"]
  blank := {}
  fill field node draft :=
    match field with
    | "id" => do return { draft with id := ← readUInt64 node }
    | "language" => do return { draft with language := ← readString node }
    | "languages" => do return { draft with languages := ← readList depth readString node }
    | "groups" => do return { draft with groups := ← readList depth (Group.read (depth - 1)) node }
    | _ => .ok draft
  finish draft := do
    let some id := draft.id | .error "id"
    let some language := draft.language | .error "language"
    return ⟨id, language, draft.languages, draft.groups⟩

/-- Reads a survey at a depth. -/
def Survey.read (depth : Nat) : Reader Survey :=
  (Survey.record (depth - 1)).read depth

/-- The survey that a text defines. -/
def Survey.ofText (text : String) : Except ReadError Survey :=
  readText (Survey.read maxDepth) text

/-- The group that a text defines. -/
def Group.ofText (text : String) : Except ReadError Group :=
  readText (Group.read maxDepth) text

/-- The question that a text defines. -/
def Question.ofText (text : String) : Except ReadError Question :=
  readText (Question.read maxDepth) text

/-- The list of questions that a text defines. -/
def Question.listOfText (text : String) : Except ReadError (List Question) :=
  readText (readList maxDepth (Question.read (maxDepth - 1))) text

/-- The answer that a text defines. -/
def Answer.ofText (text : String) : Except ReadError Answer :=
  readText (Answer.read maxDepth) text

/-- The texts by language that a text defines. -/
def Wording.ofText (text : String) : Except ReadError Wording :=
  readText (Wording.read maxDepth) text

end Questionnaire
