import Questionnaire.Proofs.ReadSurveys
import Questionnaire.Proofs.WrittenValues
import Questionnaire.Survey.Writing

/-! Surveys as they are written. What is left out of a record when it is written has the value that a
reader takes for a missing field, and every other field is read back as what it was, so a survey is
read back from its text as long as the reader enters all arrays and objects of this text. Kinds of
questions are written by their codes and have to be the kinds of these codes, as those are that a
reader makes. -/
namespace Questionnaire.WrittenSurveys
open Decimal Json ReadSurveys WrittenScalars WrittenValues

mutual

/-- The number of arrays and objects that stand in one another in a value, at its deepest place. -/
def nesting : Json → Nat
  | .null | .bool _ | .number _ | .string _ => 0
  | .array items => itemsNesting items + 1
  | .object members => membersNesting members + 1
termination_by structural value => value

/-- The same number for items. -/
def itemsNesting : List Json → Nat
  | [] => 0
  | item :: items => max (nesting item) (itemsNesting items)
termination_by structural items => items

/-- The same number for members. -/
def membersNesting : List (String × Json) → Nat
  | [] => 0
  | (_, value) :: members => max (nesting value) (membersNesting members)
termination_by structural members => members

end

private theorem itemsNesting_le_iff {items : List Json} {depth : Nat} :
    itemsNesting items ≤ depth ↔ ∀ item ∈ items, nesting item ≤ depth := by
  induction items with
  | nil => simp [itemsNesting]
  | cons item items ih => rw [itemsNesting, Nat.max_le, ih, List.forall_mem_cons]

private theorem membersNesting_le_iff {members : List (String × Json)} {depth : Nat} :
    membersNesting members ≤ depth ↔ ∀ member ∈ members, nesting member.2 ≤ depth := by
  induction members with
  | nil => simp [membersNesting]
  | cons member members ih => rw [membersNesting, Nat.max_le, ih, List.forall_mem_cons]

/-- An array takes one level, and its items what is left. -/
theorem nesting_array_le_iff {items : List Json} {depth : Nat} :
    nesting (.array items) ≤ depth ↔ 0 < depth ∧ ∀ item ∈ items, nesting item ≤ depth - 1 := by
  rw [nesting, ← itemsNesting_le_iff]
  omega

/-- An object takes one level, and its members what is left. -/
theorem nesting_object_le_iff {members : List (String × Json)} {depth : Nat} :
    nesting (.object members) ≤ depth ↔
      0 < depth ∧ ∀ member ∈ members, nesting member.2 ≤ depth - 1 := by
  rw [nesting, ← membersNesting_le_iff]
  omega

private theorem readUInt64_natural (number : UInt64) :
    readUInt64 (nodeOf (Json.natural number.toNat)) = .ok number := by
  have natural : ¬ ((number.toNat : Int) < 0) := by omega
  have same : UInt64.ofNat (number.toNat : Int).toNat = number := by
    rw [Int.toNat_natCast, UInt64.ofNat_toNat]
  have read : readUInt64 (nodeOf (Json.natural number.toNat)) =
      if (number.toNat : Int) < 0 then .error (.negative number.toNat "u64")
      else .ok (UInt64.ofNat (number.toNat : Int).toNat) := rfl
  rw [read, if_neg natural, same]

/-- A list is read back if each of its entries is, one level deeper. -/
theorem readList_array {α : Type} {write : α → Json} {read : Reader α} {depth : Nat}
    {values : List α} (fits : nesting (.array (values.map write)) ≤ depth)
    (each : ∀ value ∈ values, nesting (write value) ≤ depth - 1 →
      read (nodeOf (write value)) = .ok value) :
    readList depth read (nodeOf (.array (values.map write))) = .ok values := by
  obtain ⟨entered, inside⟩ := nesting_array_le_iff.mp fits
  have items : (itemNodes (values.map write)).mapM read = .ok values := by
    clear fits
    induction values with
    | nil => rfl
    | cons value values ih =>
      have first := each value List.mem_cons_self (inside _ List.mem_cons_self)
      have rest := ih (fun value held => each value (List.mem_cons_of_mem _ held))
        (fun item held => inside item (List.mem_cons_of_mem _ held))
      rw [List.map_cons, itemNodes, List.mapM_cons, first, rest]
      rfl
  rw [nodeOf, readList, if_neg (by omega), items]
  rfl

private theorem wording_toJson (wording : Wording) : wording.toJson = .object
    (wording.entries.map fun entry => (entry.1, (entry.2.map Json.string).getD .null)) := rfl

/-- Texts by language are read back: their keys are distinct and in order. -/
theorem wording_read {wording : Wording} {depth : Nat} (fits : nesting wording.toJson ≤ depth) :
    Wording.read depth (nodeOf wording.toJson) = .ok wording := by
  have entered := (nesting_object_le_iff.mp fits).1
  have text : ∀ text : Option String,
      readNullable readString (nodeOf ((text.map Json.string).getD .null)) = .ok text := by
    intro text
    cases text <;> rfl
  have members : ∀ entries : List (String × Option String),
      readMembers (readNullable readString) (memberNodes (entries.map fun entry =>
        (entry.1, (entry.2.map Json.string).getD .null))) = .ok entries := by
    intro entries
    induction entries with
    | nil => rfl
    | cons entry entries ih =>
      rw [List.map_cons, memberNodes, readMembers, text, ih]
      rfl
  rw [Wording.read, wording_toJson, nodeOf, readKeyed, if_neg (by omega), members]
  exact congrArg Except.ok (Keyed.ofList_entries wording)

variable {δ α : Type} {record : Record δ α}

/-- Members under distinct known keys fill their fields one after the other. -/
theorem readFields_eq {members : List (String × Json)} (seen : List String) (draft : δ)
    (known : ∀ member ∈ members, member.1 ∈ record.fields)
    (distinct : (members.map Prod.fst).Nodup) (fresh : ∀ member ∈ members, member.1 ∉ seen) :
    record.readFields seen draft (memberNodes members) =
      members.foldlM (fun draft member => record.fill member.1 (nodeOf member.2) draft) draft := by
  induction members generalizing seen draft with
  | nil => rfl
  | cons member members ih =>
    obtain ⟨key, value⟩ := member
    obtain ⟨here, knownRest⟩ := List.forall_mem_cons.mp known
    obtain ⟨unseen, freshRest⟩ := List.forall_mem_cons.mp fresh
    obtain ⟨apart, distinctRest⟩ := List.nodup_cons.mp distinct
    have stillFresh : ∀ member ∈ members, member.1 ∉ key :: seen := by
      intro member held seenNow
      rcases List.mem_cons.mp seenNow with same | before
      · exact apart (List.mem_map.mpr ⟨member, held, same⟩)
      · exact freshRest member held before
    have field : record.fields.contains key = true := List.contains_iff_mem.mpr here
    have new : ¬ seen.contains key = true := fun held => unseen (List.contains_iff_mem.mp held)
    have next := fun draft => ih (key :: seen) draft knownRest distinctRest stillFresh
    rw [memberNodes, Record.readFields, List.foldlM_cons]
    show (if record.fields.contains key = true then _ else _) = _
    rw [if_pos field, if_neg new]
    simp only [next]

/-- Members of an object take a draft of a record to another one by filling some of its fields, each
once and in the record's order, if they are nested no deeper than the reader goes. -/
structure Fills (record : Record δ α) (depth : Nat) (fields : List String)
    (members : List (String × Json)) (draft next : δ) : Prop where
  inOrder : (members.map Prod.fst).Sublist fields
  filled : (∀ member ∈ members, nesting member.2 ≤ depth) →
    members.foldlM (fun draft member => record.fill member.1 (nodeOf member.2) draft) draft = .ok next

namespace Fills

variable {depth : Nat} {fields others : List String} {members more : List (String × Json)}
  {draft next last : δ}

/-- A member that fills its field. -/
theorem one {field : String} {value : Json}
    (fill : nesting value ≤ depth → record.fill field (nodeOf value) draft = .ok next) :
    Fills record depth [field] [(field, value)] draft next where
  inOrder := List.Sublist.refl [field]
  filled fits := by
    rw [List.foldlM_cons, fill (fits _ List.mem_cons_self)]
    rfl

/-- A field that is left out. -/
theorem none (field : String) (draft : δ) : Fills record depth [field] [] draft draft where
  inOrder := List.nil_sublist [field]
  filled _ := rfl

private theorem append (first : Fills record depth fields members draft next)
    (second : Fills record depth others more next last) :
    Fills record depth (fields ++ others) (members ++ more) draft last where
  inOrder := by
    rw [List.map_append]
    exact first.inOrder.append second.inOrder
  filled fits := by
    obtain ⟨front, behind⟩ := List.forall_mem_append.mp fits
    rw [List.foldlM_append, first.filled front]
    exact second.filled behind

/-- A list that is left out if it is empty, which is what a draft has for it. -/
theorem list {β : Type} {field : String} {write : β → Json} {values : List β} (put : List β → δ)
    (fill : nesting (.array (values.map write)) ≤ depth →
      record.fill field (nodeOf (.array (values.map write))) (put []) = .ok (put values)) :
    Fills record depth [field]
      (if values.isEmpty then [] else [(field, .array (values.map write))]) (put []) (put values) := by
  cases values with
  | nil => exact none field (put [])
  | cons value values => exact one fill

/-- A record is read back from an object whose members fill all fields that it has not by default. -/
theorem read {value : α} (distinct : record.fields.Nodup)
    (fills : Fills record (depth - 1) record.fields members record.blank next)
    (finished : record.finish next = .ok value) (fits : nesting (.object members) ≤ depth) :
    record.read depth (nodeOf (.object members)) = .ok value := by
  obtain ⟨entered, inside⟩ := nesting_object_le_iff.mp fits
  have known : ∀ member ∈ members, member.1 ∈ record.fields := fun member held =>
    fills.inOrder.subset (List.mem_map.mpr ⟨member, held, rfl⟩)
  have fields : record.readFields [] record.blank (memberNodes members) = .ok next := by
    rw [readFields_eq [] _ known (fills.inOrder.nodup distinct) (by simp)]
    exact fills.filled inside
  rw [nodeOf, Record.read, if_neg (by omega), fields]
  show (record.finish next).mapError _ = _
  rw [finished]
  rfl

end Fills

/-- A field takes the value that is read for it. -/
theorem fill_of_read {β : Type} {read : Except ReadError β} {value : β} {put : β → δ}
    (found : read = .ok value) : (do return put (← read)) = .ok (put value) := by
  rw [found]
  rfl

private theorem answer_read {answer : Answer} {depth : Nat} (fits : nesting answer.toJson ≤ depth) :
    Answer.read depth (nodeOf answer.toJson) = .ok answer := by
  have code : Fills (Answer.record (depth - 1)) (depth - 1) ["code"]
      [("code", .string answer.code)] {} { code := answer.code } :=
    .one fun _ => rfl
  have wording : Fills (Answer.record (depth - 1)) (depth - 1) ["translations"]
      [("translations", answer.wording.toJson)] { code := answer.code }
      { code := answer.code, wording := answer.wording } :=
    .one fun shallow => fill_of_read (wording_read shallow)
  exact (code.append wording).read (by simp [Answer.record]) rfl fits

private theorem kind_read {kind : QuestionKind} (canonical : ∃ code, kind = .ofCode code) :
    QuestionKind.ofCode kind.code = kind := by
  obtain ⟨code, rfl⟩ := canonical
  rw [QuestionKind.code_ofCode]

private theorem questionsToJson_eq (questions : List Question) :
    questionsToJson questions = questions.map Question.toJson := by
  induction questions with
  | nil => rfl
  | cons question questions ih => rw [questionsToJson, ih, List.map_cons]

/-- The members of a question's object. -/
def questionMembers (question : Question) : List (String × Json) :=
  [("id", Json.natural question.id.toNat)] ++
    (question.parentId.toList.map fun parent => ("parent_id", Json.natural parent.toNat)) ++
    [("name", .string question.name), ("type", .string question.kind.code),
      ("mandatory", .bool question.mandatory), ("relevance", .string question.relevance)] ++
    (if question.subquestions.isEmpty then []
      else [("subquestions", .array (question.subquestions.map Question.toJson))]) ++
    (if question.answers.isEmpty then []
      else [("answers", .array (question.answers.map Answer.toJson))]) ++
    [("translations", question.wording.toJson)]

private theorem question_toJson (question : Question) :
    question.toJson = .object (questionMembers question) := by
  cases question
  rw [Question.toJson, questionsToJson_eq]
  rfl

/-- The texts of a question stand two levels deep. -/
theorem two_le_nesting (question : Question) : 2 ≤ nesting question.toJson := by
  have held : ("translations", question.wording.toJson) ∈ questionMembers question :=
    List.mem_append_right _ List.mem_cons_self
  have least : 1 ≤ nesting question.wording.toJson := (nesting_object_le_iff.mp (Nat.le_refl _)).1
  obtain ⟨-, inside⟩ :=
    nesting_object_le_iff.mp (Nat.le_refl (nesting (.object (questionMembers question))))
  have shallow : nesting question.wording.toJson ≤ _ := inside _ held
  rw [question_toJson]
  omega

/-- The members of a question fill a blank draft, if its rows are read back. -/
theorem question_fills {question : Question} {depth : Nat} {rows : Reader (List Question)}
    (readRows : nesting (.array (question.subquestions.map Question.toJson)) ≤ depth →
      rows (nodeOf (.array (question.subquestions.map Question.toJson))) =
        .ok question.subquestions) :
    Fills (Question.record depth rows) depth (Question.record depth rows).fields
      (questionMembers question) {}
      { id := question.id
        parentId := question.parentId
        name := question.name
        kind := QuestionKind.ofCode question.kind.code
        mandatory := question.mandatory
        relevance := question.relevance
        subquestions := question.subquestions
        answers := question.answers
        wording := question.wording } := by
  let record := Question.record depth rows
  let start : Question.Draft := { id := question.id }
  let placed : Question.Draft := { start with parentId := question.parentId }
  let named : Question.Draft := { placed with name := question.name }
  let sorted : Question.Draft := { named with kind := QuestionKind.ofCode question.kind.code }
  let asked : Question.Draft := { sorted with mandatory := question.mandatory }
  let related : Question.Draft := { asked with relevance := question.relevance }
  let nested : Question.Draft := { related with subquestions := question.subquestions }
  let answered : Question.Draft := { nested with answers := question.answers }
  have id : Fills record depth ["id"] [("id", Json.natural question.id.toNat)] {} start :=
    .one fun _ => fill_of_read (readUInt64_natural question.id)
  have parent : ∀ parent : Option UInt64, Fills record depth ["parent_id"]
      (parent.toList.map fun parent => ("parent_id", Json.natural parent.toNat))
      start { start with parentId := parent } := by
    intro parent
    cases parent with
    | none => exact .none "parent_id" start
    | some parent =>
      exact .one fun _ => fill_of_read (congrArg (Except.map some) (readUInt64_natural parent))
  have name : Fills record depth ["name"] [("name", .string question.name)] placed named :=
    .one fun _ => rfl
  have kind : Fills record depth ["type"] [("type", .string question.kind.code)] named sorted :=
    .one fun _ => rfl
  have mandatory : Fills record depth ["mandatory"] [("mandatory", .bool question.mandatory)]
      sorted asked := .one fun _ => rfl
  have relevance : Fills record depth ["relevance"] [("relevance", .string question.relevance)]
      asked related := .one fun _ => rfl
  have rows : Fills record depth ["subquestions"] (if question.subquestions.isEmpty then []
      else [("subquestions", .array (question.subquestions.map Question.toJson))]) related nested :=
    .list (fun rows => { related with subquestions := rows })
      fun shallow => fill_of_read (readRows shallow)
  have answers : Fills record depth ["answers"] (if question.answers.isEmpty then []
      else [("answers", .array (question.answers.map Answer.toJson))]) nested answered :=
    .list (fun answers => { nested with answers })
      fun shallow => fill_of_read (readList_array shallow fun answer _ fits => answer_read fits)
  have wording : Fills record depth ["translations"] [("translations", question.wording.toJson)]
      answered { answered with wording := question.wording } :=
    .one fun shallow => fill_of_read (wording_read shallow)
  have fixed := ((name.append kind).append mandatory).append relevance
  have lead := (id.append (parent question.parentId)).append fixed
  exact ((lead.append rows).append answers).append wording

/-- A canonical question is read back at every depth that it does not exceed. The induction follows the
reader: its rows are read two levels deeper. -/
theorem question_read (depth : Nat) {question : Question} (canonical : Canonical question)
    (fits : nesting question.toJson ≤ depth) :
    Question.read depth (nodeOf question.toJson) = .ok question := by
  have deep := two_le_nesting question
  induction depth using Question.read.induct generalizing question with
  | case1 => omega
  | case2 => omega
  | case3 depth ih =>
    obtain ⟨kind, rows⟩ := canonical
    have nested : ∀ row ∈ question.subquestions, nesting row.toJson ≤ depth →
        Question.read depth (nodeOf row.toJson) = .ok row :=
      fun row held shallow => ih (rows row held) shallow (two_le_nesting row)
    have finished : (Question.record (depth + 1) (readList (depth + 1) (Question.read depth))).finish
        { id := question.id
          parentId := question.parentId
          name := question.name
          kind := QuestionKind.ofCode question.kind.code
          mandatory := question.mandatory
          relevance := question.relevance
          subquestions := question.subquestions
          answers := question.answers
          wording := question.wording } = .ok question := by
      rw [kind_read kind]
      cases question
      rfl
    have readRows : nesting (.array (question.subquestions.map Question.toJson)) ≤ depth + 1 →
        readList (depth + 1) (Question.read depth)
          (nodeOf (.array (question.subquestions.map Question.toJson))) = .ok question.subquestions :=
      fun shallow => readList_array shallow nested
    rw [question_toJson] at fits ⊢
    rw [Question.read]
    exact (question_fills readRows).read (by simp [Question.record]) finished fits

private theorem group_read {group : Group} {depth : Nat}
    (canonical : ∀ question ∈ group.questions, Canonical question)
    (fits : nesting group.toJson ≤ depth) :
    Group.read depth (nodeOf group.toJson) = .ok group := by
  let record := Group.record (depth - 1)
  have id : Fills record (depth - 1) ["id"] [("id", Json.natural group.id.toNat)] {}
      { id := group.id } :=
    .one fun _ => fill_of_read (readUInt64_natural group.id)
  have name : Fills record (depth - 1) ["name"] [("name", .string group.name)]
      { id := group.id } { id := group.id, name := group.name } := .one fun _ => rfl
  have questions : Fills record (depth - 1) ["questions"]
      [("questions", .array (group.questions.map Question.toJson))]
      { id := group.id, name := group.name }
      { id := group.id, name := group.name, questions := group.questions } :=
    .one fun shallow => fill_of_read <| readList_array shallow fun question held =>
      question_read _ (canonical question held)
  exact ((id.append name).append questions).read (by simp [Group.record]) rfl fits

private theorem survey_read {survey : Survey} {depth : Nat}
    (canonical : CanonicalSurvey survey) (fits : nesting survey.toJson ≤ depth) :
    Survey.read depth (nodeOf survey.toJson) = .ok survey := by
  let record := Survey.record (depth - 1)
  let named : Survey.Draft := { id := survey.id, language := survey.language }
  let listed : Survey.Draft := { named with languages := survey.languages }
  have id : Fills record (depth - 1) ["id"] [("id", Json.natural survey.id.toNat)] {}
      { id := survey.id } :=
    .one fun _ => fill_of_read (readUInt64_natural survey.id)
  have language : Fills record (depth - 1) ["language"] [("language", .string survey.language)]
      { id := survey.id } named := .one fun _ => rfl
  have languages : Fills record (depth - 1) ["languages"] (if survey.languages.isEmpty then []
      else [("languages", Json.strings survey.languages)]) named listed :=
    .list (fun languages => { named with languages })
      fun shallow => fill_of_read (readList_array shallow fun _ _ _ => rfl)
  have groups : Fills record (depth - 1) ["groups"]
      [("groups", .array (survey.groups.map Group.toJson))] listed
      { listed with groups := survey.groups } :=
    .one fun shallow => fill_of_read <| readList_array shallow fun group held =>
      group_read (canonical group held)
  exact (((id.append language).append languages).append groups).read
    (by simp [Survey.record]) rfl fits

private theorem natural_integral (number : UInt64) : Integral (Json.natural number.toNat) := by
  have bounded : number.toNat < twoTo 64 := number.toNat_lt
  exact .integer ⟨by omega, by omega⟩

private theorem wording_integral (wording : Wording) : Integral wording.toJson := by
  refine .object (List.forall_mem_map.mpr fun entry _ => ?_)
  obtain ⟨language, text⟩ := entry
  cases text with
  | none => exact .null
  | some text => exact .string text

private theorem answer_integral (answer : Answer) : Integral answer.toJson :=
  .object (membersIntegral_cons (.string _) (membersIntegral_single (wording_integral _)))

private theorem listMember_integral {β : Type} {field : String} {write : β → Json} {values : List β}
    (each : ∀ value ∈ values, Integral (write value)) :
    MembersIntegral (if values.isEmpty then [] else [(field, .array (values.map write))]) := by
  cases values with
  | nil => exact membersIntegral_nil
  | cons value values => exact membersIntegral_single (integral_array each)

mutual

theorem question_integral : (question : Question) → Integral question.toJson
  | { id, parentId, name, kind, mandatory, relevance, subquestions, answers, wording } => by
    have parent : MembersIntegral
        (parentId.toList.map fun parent => ("parent_id", Json.natural parent.toNat)) :=
      List.forall_mem_map.mpr fun parent _ => natural_integral parent
    have fixed : MembersIntegral [("name", .string name), ("type", .string kind.code),
        ("mandatory", .bool mandatory), ("relevance", .string relevance)] :=
      membersIntegral_cons (.string _) <| membersIntegral_cons (.string _) <|
        membersIntegral_cons (.bool _) (membersIntegral_single (.string _))
    have rows : MembersIntegral (if subquestions.isEmpty then []
        else [("subquestions", .array (subquestions.map Question.toJson))]) :=
      listMember_integral (questions_integral subquestions)
    have choices : MembersIntegral (if answers.isEmpty then []
        else [("answers", .array (answers.map Answer.toJson))]) :=
      listMember_integral fun answer _ => answer_integral answer
    have texts : MembersIntegral [("translations", wording.toJson)] :=
      membersIntegral_single (wording_integral wording)
    have number : MembersIntegral [("id", Json.natural id.toNat)] :=
      membersIntegral_single (natural_integral id)
    rw [question_toJson]
    exact .object (((((number.append parent).append fixed).append rows).append choices).append texts)
termination_by structural question => question

private theorem questions_integral :
    (questions : List Question) → ∀ question ∈ questions, Integral question.toJson
  | [] => List.forall_mem_nil _
  | question :: questions =>
    List.forall_mem_cons.mpr ⟨question_integral question, questions_integral questions⟩
termination_by structural questions => questions

end

private theorem group_integral (group : Group) : Integral group.toJson :=
  .object <| membersIntegral_cons (natural_integral group.id) <|
    membersIntegral_cons (.string _) <|
      membersIntegral_single (integral_array (questions_integral group.questions))

private theorem survey_integral (survey : Survey) : Integral survey.toJson := by
  have languages : MembersIntegral (if survey.languages.isEmpty then []
      else [("languages", Json.strings survey.languages)]) :=
    listMember_integral fun _ _ => .string _
  have fixed : MembersIntegral
      [("id", Json.natural survey.id.toNat), ("language", .string survey.language)] :=
    membersIntegral_cons (natural_integral survey.id) (membersIntegral_single (.string _))
  have groups : Integral (.array (survey.groups.map Group.toJson)) :=
    integral_array fun group _ => group_integral group
  exact .object ((fixed.append languages).append (membersIntegral_single groups))

/-- **A survey is read back from its text.** If the kinds of all questions are those of their codes and
the text nests arrays and objects no deeper than the reader goes, which is 127 levels, then reading
the text that is written for a survey gives this survey, with lines or without. Surveys that come from
texts have no other kinds. -/
theorem written_survey_read_back (survey : Survey) (canonical : CanonicalSurvey survey)
    (shallow : nesting survey.toJson ≤ 127) :
    Survey.ofText survey.toJson.compact = .ok survey ∧
      Survey.ofText survey.toJson.pretty = .ok survey ∧
      ∀ text read, Survey.ofText text = .ok read → CanonicalSurvey read := by
  have read : Survey.read maxDepth (nodeOf survey.toJson) = .ok survey :=
    survey_read canonical shallow
  refine ⟨?_, ?_, fun _ _ => ofText_canonical⟩
  · exact (readText_compact (Survey.read maxDepth) (survey_integral survey)).trans read
  · exact (readText_pretty (Survey.read maxDepth) (survey_integral survey)).trans read

/-- A question of the kind of a code with other questions in it and texts of all sorts. -/
def questionOf (parent : Option UInt64) (code : String) (rows : List Question) : Question :=
  let texts := (Keyed.empty.insert "et" none).insert "\u00e9\"" (some "\x00 a\\b")
  ⟨3, parent, "Q1", .ofCode code, false, "x == \"1\"", rows, [⟨"A1", texts⟩], Keyed.empty⟩

/-- A row with a row in it. -/
def nestedRow : Question :=
  questionOf (some 3) "L" [questionOf (some 18446744073709551615) "LZ" []]

/-- A survey with the greatest id, no listed languages, a group without questions, and rows in rows. -/
def nestedSurvey : Survey :=
  ⟨18446744073709551615, "et", [],
    [⟨0, "", []⟩, ⟨2, "Group\n", [questionOf none "" [nestedRow], nestedRow]⟩]⟩

theorem nestedSurvey_read_back :
    CanonicalSurvey nestedSurvey ∧ nesting nestedSurvey.toJson ≤ 127 ∧
      Survey.ofText nestedSurvey.toJson.compact = .ok nestedSurvey := by
  have ofCode : ∀ parent code rows, (∀ row ∈ rows, Canonical row) →
      Canonical (questionOf parent code rows) :=
    fun _ code _ canonical => .question ⟨code, rfl⟩ canonical
  have row : Canonical nestedRow :=
    ofCode _ _ _ (List.forall_mem_singleton.mpr (ofCode _ _ _ (List.forall_mem_nil _)))
  have question : Canonical (questionOf none "" [nestedRow]) :=
    ofCode _ _ _ (List.forall_mem_singleton.mpr row)
  have canonical : CanonicalSurvey nestedSurvey := by
    simp [CanonicalSurvey, nestedSurvey, row, question]
  have shallow : nesting nestedSurvey.toJson ≤ 127 := by decide +kernel
  exact ⟨canonical, shallow, (written_survey_read_back nestedSurvey canonical shallow).1⟩

end Questionnaire.WrittenSurveys
