import Questionnaire.Json.Value
import Questionnaire.Survey.Basic

/-! Survey definitions as JSON values. Empty languages, subquestions and answers and an absent
parent are left out; every other field is written. -/
namespace Questionnaire

/-- The texts by language as an object. -/
def Wording.toJson (wording : Wording) : Json :=
  .object <| wording.entries.map fun (language, text) =>
    (language, (text.map Json.string).getD .null)

/-- An answer as an object. -/
def Answer.toJson (answer : Answer) : Json :=
  .object [("code", .string answer.code), ("translations", answer.wording.toJson)]

mutual

/-- A question as an object. -/
def Question.toJson : Question → Json
  | { id, parentId, name, kind, mandatory, relevance, subquestions, answers, wording } =>
    .object <|
      [("id", Json.natural id.toNat)] ++
      (parentId.toList.map fun parent => ("parent_id", Json.natural parent.toNat)) ++
      [("name", .string name), ("type", .string kind.code), ("mandatory", .bool mandatory),
        ("relevance", .string relevance)] ++
      (if subquestions.isEmpty then []
        else [("subquestions", .array (questionsToJson subquestions))]) ++
      (if answers.isEmpty then [] else [("answers", .array (answers.map Answer.toJson))]) ++
      [("translations", wording.toJson)]
termination_by structural question => question

/-- Questions as values. -/
def questionsToJson : List Question → List Json
  | [] => []
  | question :: questions => question.toJson :: questionsToJson questions
termination_by structural questions => questions

end

/-- A group as an object. -/
def Group.toJson (group : Group) : Json :=
  .object [("id", Json.natural group.id.toNat), ("name", .string group.name),
    ("questions", .array (group.questions.map Question.toJson))]

/-- A survey as an object. -/
def Survey.toJson (survey : Survey) : Json :=
  .object <|
    [("id", Json.natural survey.id.toNat), ("language", .string survey.language)] ++
    (if survey.languages.isEmpty then []
      else [("languages", Json.strings survey.languages)]) ++
    [("groups", .array (survey.groups.map Group.toJson))]

end Questionnaire
