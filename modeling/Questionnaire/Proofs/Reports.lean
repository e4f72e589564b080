import Questionnaire.Validation

/-! How the report on a survey is put together. Each group adds issues of its own behind those of
the groups before it. Whatever is said of rows, names and texts is an error, so the warnings of a
group's table can be told apart from all the rest. -/
namespace Questionnaire.Reports
open Validation

/-- The issues of groups are those of the first ones and then those of the others, which know the
questions of the first ones. -/
theorem groups_issues_append (survey : Survey) (earlier : List Named) (front back : List Group) :
    groupsIssues survey earlier (front ++ back) = groupsIssues survey earlier front ++
      groupsIssues survey (earlier ++ front.flatMap namedQuestions) back := by
  induction front generalizing earlier with
  | nil => simp [groupsIssues]
  | cons group rest ih => simp [groupsIssues, ih]

/-- Of the survey itself only its id and its default language matter to the issues of groups. -/
theorem groups_issues_of_survey (survey : Survey) (held groups : List Group)
    (earlier : List Named) :
    groupsIssues { survey with groups := held } earlier groups =
      groupsIssues survey earlier groups := by
  induction groups generalizing earlier with
  | nil => rfl
  | cons group rest ih =>
    rw [groupsIssues, groupsIssues, ih]
    rfl

/-- The issues that a group adds to the report on the groups before it. -/
def ownIssues (survey : Survey) (before : List Group) (group : Group) : List Issue :=
  groupIssues survey (before.flatMap namedQuestions) group

/-- A report on groups is the report on the first of them with the issues of the others behind. -/
theorem report_append (survey : Survey) (front back : List Group) :
    ({ survey with groups := front ++ back } : Survey).validate.issues =
      ({ survey with groups := front } : Survey).validate.issues ++
        groupsIssues survey (front.flatMap namedQuestions) back := by
  simp only [Survey.validate, groups_issues_of_survey, groups_issues_append, List.nil_append,
    List.append_assoc]
  rfl

theorem report_snoc (survey : Survey) (before : List Group) (group : Group) :
    ({ survey with groups := before ++ [group] } : Survey).validate.issues =
      ({ survey with groups := before } : Survey).validate.issues ++
        ownIssues survey before group := by
  simp [report_append, groupsIssues, ownIssues]

/-- In a report the issues of a group stand right behind the report on the groups before it. -/
theorem report_at_group {survey : Survey} {before after : List Group} {group : Group}
    (groups : survey.groups = before ++ group :: after) :
    ∃ later, survey.validate.issues =
      ({ survey with groups := before } : Survey).validate.issues ++
        ownIssues survey before group ++ later := by
  refine ⟨groupsIssues survey ((before ++ [group]).flatMap namedQuestions) after, ?_⟩
  rw [← report_snoc, ← report_append, List.append_assoc, List.singleton_append, ← groups]

/-- The code of an issue is that of colliding variables. -/
def OfCollision (issue : Issue) : Prop :=
  issue.defect.code = "token_collision"

private theorem of_collision_iff {issue : Issue} :
    OfCollision issue ↔ ∃ collision, issue.defect = .tokenCollision collision := by
  obtain ⟨path, defect⟩ := issue
  cases defect <;> simp [OfCollision, Defect.code]

theorem collision_is_warning {issue : Issue} (code : OfCollision issue) :
    issue.severity = .warning := by
  obtain ⟨collision, defect⟩ := of_collision_iff.mp code
  simp [Issue.severity, defect, Defect.severity]

private theorem orphan_issue_is_error {group : Group} {issue : Issue}
    (member : issue ∈ orphanIssues group) :
    issue.severity = .error := by
  obtain ⟨row, _, member⟩ := List.mem_flatMap.mp member
  cases parent : row.parentId with
  | none => simp [parent] at member
  | some id =>
    simp only [parent] at member
    split at member
    · cases member
    · obtain rfl := List.mem_singleton.mp member
      rfl

private theorem name_issue_is_error {earlier : List Named} {part : Named} {issue : Issue}
    (member : issue ∈ nameIssues earlier part) : issue.severity = .error := by
  unfold nameIssues at member
  split at member
  · obtain rfl := List.mem_singleton.mp member
    rfl
  · split at member
    · obtain rfl := List.mem_singleton.mp member
      rfl
    · cases member

private theorem text_issue_is_error {language path : String} {text : Option String} {issue : Issue}
    (member : issue ∈ textIssues language path text) : issue.severity = .error := by
  unfold textIssues at member
  split at member
  · cases member
  · obtain rfl := List.mem_singleton.mp member
    rfl

private theorem part_issue_is_error {language : String} {earlier : List Named} {part : Named}
    {issue : Issue}
    (member : issue ∈ partIssues language earlier part) : issue.severity = .error := by
  rcases List.mem_append.mp member with ofName | ofText
  · exact name_issue_is_error ofName
  · exact text_issue_is_error ofText

/-- What is said about a list of parts is said about one of them behind those before it. -/
theorem mem_distinctIssues {issues : List Named → Named → List Issue} {earlier parts : List Named}
    {issue : Issue} :
    issue ∈ distinctIssues issues earlier parts ↔ ∃ front part back,
      parts = front ++ part :: back ∧ issue ∈ issues (earlier ++ front) part := by
  induction parts generalizing earlier with
  | nil => simp [distinctIssues]
  | cons first rest ih =>
    rw [distinctIssues, List.mem_append, ih]
    constructor
    · rintro (here | ⟨front, part, back, rfl, later⟩)
      · exact ⟨[], first, rest, rfl, by simpa using here⟩
      · exact ⟨first :: front, part, back, rfl, by simpa using later⟩
    · rintro ⟨front, part, back, split, member⟩
      cases front with
      | nil =>
        obtain ⟨rfl, rfl⟩ := List.cons.inj split
        exact .inl (by simpa using member)
      | cons head front =>
        obtain ⟨rfl, rfl⟩ := List.cons.inj split
        exact .inr ⟨front, part, back, rfl, by simpa using member⟩

private theorem question_issue_is_error {language : String} {earlier : List Named} {question : Named}
    {issue : Issue} (member : issue ∈ questionIssues language earlier question) :
    issue.severity = .error := by
  rcases List.mem_append.mp member with ofQuestion | ofAnswer
  · rcases List.mem_append.mp ofQuestion with ofPart | ofRow
    · exact part_issue_is_error ofPart
    · obtain ⟨_, _, _, _, ofPart⟩ := mem_distinctIssues.mp ofRow
      exact part_issue_is_error ofPart
  · obtain ⟨answer, _, ofText⟩ := List.mem_flatMap.mp ofAnswer
    exact text_issue_is_error ofText

/-- Whatever is said of the rows and questions of a group, it is not the code of a collision. -/
theorem not_of_collision {issues : List Issue} (errors : ∀ issue ∈ issues, issue.severity = .error) :
    issues.filter (fun issue => issue.defect.code == "token_collision") = [] := by
  refine List.filter_eq_nil_iff.mpr fun issue member code => ?_
  have warning := collision_is_warning (beq_iff_eq.mp code)
  simp [errors issue member] at warning

/-- Among the issues of a group those with the code of a collision are those of its table, one for
each record and in the order of the records. -/
theorem own_collisions (survey : Survey) (before : List Group) (group : Group) :
    (ownIssues survey before group).filter (fun issue => issue.defect.code == "token_collision") =
      collisionIssues survey.id group := by
  have rows := not_of_collision fun issue (member : issue ∈ orphanIssues group) =>
    orphan_issue_is_error member
  have questions := not_of_collision fun issue
      (member : issue ∈ distinctIssues (questionIssues survey.language)
        (before.flatMap namedQuestions) (namedQuestions group)) => by
    obtain ⟨_, _, _, _, ofQuestion⟩ := mem_distinctIssues.mp member
    exact question_issue_is_error ofQuestion
  have ofTable : (collisionIssues survey.id group).filter
      (fun issue => issue.defect.code == "token_collision") = collisionIssues survey.id group := by
    refine List.filter_eq_self.mpr fun issue member => ?_
    obtain ⟨collision, _, rfl⟩ := List.mem_map.mp member
    rfl
  rw [ownIssues, groupIssues, List.filter_append, List.filter_append, rows, questions, ofTable,
    List.nil_append, List.nil_append]

/-- Among the issues of a group those of its table are exactly the ones with the code of a
collision. -/
theorem own_collision_iff {survey : Survey} {before : List Group} {group : Group} {issue : Issue} :
    (issue ∈ ownIssues survey before group ∧ OfCollision issue) ↔
      issue ∈ collisionIssues survey.id group := by
  rw [← own_collisions survey before, List.mem_filter, beq_iff_eq, OfCollision]

private theorem distinctIssues_append (issues : List Named → Named → List Issue)
    (earlier front back : List Named) :
    distinctIssues issues earlier (front ++ back) =
      distinctIssues issues earlier front ++ distinctIssues issues (earlier ++ front) back := by
  induction front generalizing earlier with
  | nil => simp [distinctIssues]
  | cons part rest ih => simp [distinctIssues, ih]

/-- A survey is valid exactly if nothing in its report is an error. -/
theorem isValid_iff {report : Report} :
    report.isValid = true ↔ ∀ issue ∈ report.issues, issue.severity ≠ .error := by
  simp [Report.isValid, Report.errors, Issue.isError]

/-- Where only errors are said, there is none exactly if nothing is said. -/
theorem no_error_iff {issues : List Issue} (errors : ∀ issue ∈ issues, issue.severity = .error) :
    (∀ issue ∈ issues, issue.severity ≠ .error) ↔ issues = [] := by
  constructor
  · intro none
    exact List.eq_nil_iff_forall_not_mem.mpr
      fun issue member => none issue member (errors issue member)
  · rintro rfl
    simp

private theorem repeated_language_is_warning {earlier languages : List String} {issue : Issue}
    (member : issue ∈ repeatedLanguages earlier languages) : issue.severity = .warning := by
  induction languages generalizing earlier with
  | nil => cases member
  | cons language rest ih =>
    rcases List.mem_append.mp member with here | later
    · split at here
      · obtain rfl := List.mem_singleton.mp here
        rfl
      · cases here
    · exact ih later

private theorem languages_without_errors_iff (survey : Survey) :
    (∀ issue ∈ languageIssues survey, issue.severity ≠ .error) ↔
      Text.isBlankText survey.language = false := by
  have repetitions : ∀ issue ∈ repeatedLanguages [] survey.languages, issue.severity ≠ .error := by
    intro issue member
    simp [repeated_language_is_warning member]
  rw [languageIssues, List.forall_mem_append, and_iff_left repetitions]
  by_cases blank : Text.isBlankText survey.language = true
  · simp [blank, Issue.severity, Defect.severity]
  · simp [blank]

/-- The groups of a survey have no errors exactly if nothing is said about their rows and, going
through the questions of all of them, about these. -/
theorem groups_without_errors_iff (survey : Survey) (earlier : List Named) (groups : List Group) :
    (∀ issue ∈ groupsIssues survey earlier groups, issue.severity ≠ .error) ↔
      (∀ group ∈ groups, orphanIssues group = []) ∧
        distinctIssues (questionIssues survey.language) earlier (groups.flatMap namedQuestions) =
          [] := by
  induction groups generalizing earlier with
  | nil => simp [groupsIssues, distinctIssues]
  | cons group rest ih =>
    have orphans := no_error_iff fun issue (member : issue ∈ orphanIssues group) =>
      orphan_issue_is_error member
    have questions := no_error_iff fun issue
        (member : issue ∈ distinctIssues (questionIssues survey.language) earlier
          (namedQuestions group)) => by
      obtain ⟨_, _, _, _, ofQuestion⟩ := mem_distinctIssues.mp member
      exact question_issue_is_error ofQuestion
    have collisions : ∀ issue ∈ collisionIssues survey.id group, issue.severity ≠ .error := by
      intro issue member
      obtain ⟨collision, _, rfl⟩ := List.mem_map.mp member
      simp [Issue.severity, Defect.severity]
    rw [groupsIssues, groupIssues, List.forall_mem_append, List.forall_mem_append,
      List.forall_mem_append, and_iff_left collisions, orphans, questions, ih, List.forall_mem_cons,
      List.flatMap_cons, distinctIssues_append, List.append_eq_nil_iff]
    exact and_and_and_comm

/-- A survey is valid exactly if it has a default language and nothing is said about rows and
questions. -/
theorem survey_isValid_iff (survey : Survey) :
    survey.validate.isValid = true ↔ Text.isBlankText survey.language = false ∧
      (∀ group ∈ survey.groups, orphanIssues group = []) ∧
      distinctIssues (questionIssues survey.language) []
        (survey.groups.flatMap namedQuestions) = [] := by
  rw [isValid_iff, Survey.validate, List.forall_mem_append, languages_without_errors_iff,
    groups_without_errors_iff]

theorem partIssues_eq (language : String) (earlier : List Named) (part : Named) :
    partIssues language earlier part =
      nameIssues earlier part ++ textIssues language part.path (part.question.text? language) := rfl

/-- What is said about a question is said about its name or about what it holds. -/
theorem questionIssues_eq (language : String) (earlier : List Named) (question : Named) :
    questionIssues language earlier question = nameIssues earlier question ++
      (textIssues language question.path (question.question.text? language) ++
        (distinctIssues (partIssues language) [] (namedSubquestions question) ++
          answerIssues language question)) := by
  simp [questionIssues, partIssues]

/-- Nothing is said about parts exactly if nothing is said about their names and, of each part by
itself, about the rest. -/
theorem distinctIssues_eq_nil_iff {issues names : List Named → Named → List Issue}
    {others : Named → List Issue}
    (split : ∀ earlier part, issues earlier part = names earlier part ++ others part)
    {earlier parts : List Named} :
    distinctIssues issues earlier parts = [] ↔
      distinctIssues names earlier parts = [] ∧ ∀ part ∈ parts, others part = [] := by
  induction parts generalizing earlier with
  | nil => simp [distinctIssues]
  | cons part rest ih =>
    rw [distinctIssues, distinctIssues, split, List.append_eq_nil_iff, List.append_eq_nil_iff,
      List.append_eq_nil_iff, ih, List.forall_mem_cons]
    exact and_and_and_comm

private theorem nameIssues_eq_nil_iff {earlier : List Named} {part : Named} :
    nameIssues earlier part = [] ↔ Text.isBlankText part.question.name = false ∧
      ∀ first ∈ earlier, first.question.name ≠ part.question.name := by
  unfold nameIssues firstUse?
  split
  · next blank => simp [blank]
  · next filled =>
    split
    · next first found =>
      have held := List.mem_of_find?_eq_some found
      have same : first.question.name = part.question.name := by
        simpa using List.find?_some found
      simpa using fun _ => ⟨first, held, same⟩
    · next absent =>
      have distinct := List.find?_eq_none.mp absent
      simpa [filled] using distinct

/-- Nothing is to be said about the names of parts exactly if none is blank and none is used twice,
or once more than before. -/
theorem distinctIssues_nameIssues_eq_nil_iff {earlier parts : List Named} :
    distinctIssues nameIssues earlier parts = [] ↔
      (∀ part ∈ parts, Text.isBlankText part.question.name = false) ∧
      (parts.map (·.question.name)).Nodup ∧
      ∀ part ∈ parts, ∀ first ∈ earlier, first.question.name ≠ part.question.name := by
  induction parts generalizing earlier with
  | nil => simp [distinctIssues]
  | cons part rest ih =>
    rw [distinctIssues, List.append_eq_nil_iff, nameIssues_eq_nil_iff, ih, List.map_cons,
      List.nodup_cons]
    constructor
    · rintro ⟨⟨filled, new⟩, allFilled, distinct, allNew⟩
      refine ⟨by simpa using ⟨filled, allFilled⟩, ⟨fun member => ?_, distinct⟩, ?_⟩
      · obtain ⟨later, held, same⟩ := List.mem_map.mp member
        exact allNew later held part (by simp) same.symm
      · intro later held first before
        rcases List.mem_cons.mp held with rfl | held
        · exact new first before
        · exact allNew later held first (List.mem_append_left _ before)
    · rintro ⟨allFilled, ⟨own, distinct⟩, allNew⟩
      refine ⟨⟨allFilled part (by simp), allNew part (by simp)⟩,
        fun later held => allFilled later (by simp [held]), distinct, ?_⟩
      intro later held first before
      rcases List.mem_append.mp before with before | last
      · exact allNew later (by simp [held]) first before
      · obtain rfl := List.mem_singleton.mp last
        exact fun same => own (List.mem_map.mpr ⟨later, held, same.symm⟩)

end Questionnaire.Reports
