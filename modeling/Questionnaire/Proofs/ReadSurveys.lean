import Questionnaire.Survey.Reading

/-! What reading a survey can give. A record is made of a draft that its fields have been read into, so
what every field keeps holds of all records that are read, however their text is written. In
particular the kind of a question is always that of a code. -/
namespace Questionnaire.ReadSurveys
open Json

private theorem bind_eq_ok {ε β γ : Type} {first : Except ε β} {next : β → Except ε γ} {result : γ}
    (found : (first >>= next) = .ok result) : ∃ value, first = .ok value ∧ next value = .ok result := by
  cases first with
  | error cause => cases found
  | ok value => exact ⟨value, rfl, found⟩

private theorem mismatch_ne_ok {β : Type} (node : Node) (wanted : String) (value : β) :
    node.mismatch wanted ≠ .ok value := by
  intro found
  unfold Node.mismatch at found
  cases kind : node.found with
  | error cause => simp [kind] at found
  | ok other => simp [kind] at found

/-- Every entry of a list that is read has been read from an item. -/
theorem readList_each {β : Type} {read : Reader β} {depth : Nat} {node : Node} {values : List β}
    (found : readList depth read node = .ok values) :
    ∀ value ∈ values, ∃ item, read item = .ok value := by
  have each : ∀ (items : List Node) (values : List β), items.mapM read = .ok values →
      ∀ value ∈ values, ∃ item, read item = .ok value := by
    intro items
    induction items with
    | nil =>
      intro values found
      cases found
      exact List.forall_mem_nil _
    | cons item items ih =>
      intro values found
      rw [List.mapM_cons] at found
      obtain ⟨first, here, found⟩ := bind_eq_ok found
      obtain ⟨others, there, found⟩ := bind_eq_ok found
      cases found
      exact List.forall_mem_cons.mpr ⟨⟨item, here⟩, ih others there⟩
  unfold readList at found
  split at found
  · split at found
    · cases found
    · obtain ⟨others, inside, found⟩ := bind_eq_ok found
      obtain ⟨_, _, found⟩ := bind_eq_ok found
      cases found
      exact each _ values inside
  · exact absurd found (mismatch_ne_ok _ _ _)

section
variable {δ α : Type} {record : Record δ α} {holds : δ → Prop}

/-- Whatever is read into a field of a draft, the draft keeps a property. -/
def Keeps (record : Record δ α) (holds : δ → Prop) : Prop :=
  ∀ field node draft next, holds draft → record.fill field node draft = .ok next → holds next

/-- What is kept whenever a field is filled is kept by all members of an object. -/
theorem readFields_keeps (kept : Keeps record holds) {members : List (Lexeme String × Node)}
    {seen : List String} {draft next : δ} (held : holds draft)
    (found : record.readFields seen draft members = .ok next) : holds next := by
  induction members generalizing seen draft with
  | nil =>
    cases found
    exact held
  | cons member members ih =>
    rw [Record.readFields] at found
    obtain ⟨name, _, found⟩ := bind_eq_ok found
    split at found
    · split at found
      · cases found
      · obtain ⟨filled, here, found⟩ := bind_eq_ok found
        exact ih (kept _ _ draft filled held here) found
    · obtain ⟨_, _, found⟩ := bind_eq_ok found
      exact ih held found

/-- It is kept by all items of an array as well. -/
theorem readItems_keeps (kept : Keeps record holds) {fields : List String} {items : List Node}
    {draft next : δ} (held : holds draft)
    (found : record.readItems fields draft items = .ok next) : holds next := by
  induction fields generalizing items draft with
  | nil =>
    cases found
    exact held
  | cons field fields ih =>
    cases items with
    | nil =>
      cases found
      exact held
    | cons item items =>
      obtain ⟨filled, here, found⟩ := bind_eq_ok found
      exact ih (kept field item draft filled held here) found

/-- What holds of a blank draft and is kept when a field is filled holds of the draft that a record is
made of. -/
theorem read_keeps (kept : Keeps record holds) {depth : Nat} {node : Node} {value : α}
    (blank : holds record.blank) (found : record.read depth node = .ok value) :
    ∃ draft, holds draft ∧ record.finish draft = .ok value := by
  have finished : ∀ (complain : String → ReadError) draft,
      (record.finish draft).mapError complain = .ok value → record.finish draft = .ok value := by
    intro complain draft found
    cases last : record.finish draft with
    | error field =>
      rw [last] at found
      cases found
    | ok made =>
      rw [last] at found
      cases found
      rfl
  unfold Record.read at found
  split at found
  · split at found
    · cases found
    · obtain ⟨draft, fields, found⟩ := bind_eq_ok found
      obtain ⟨_, _, found⟩ := bind_eq_ok found
      exact ⟨draft, readFields_keeps kept blank fields, finished _ draft found⟩
  · split at found
    · cases found
    · obtain ⟨draft, items, found⟩ := bind_eq_ok found
      obtain ⟨_, _, found⟩ := bind_eq_ok found
      exact ⟨draft, readItems_keeps kept blank items, finished _ draft found⟩
  · exact absurd found (mismatch_ne_ok _ _ _)

end

/-- A question whose kind is that of a code, and so are the kinds of all rows nested in it. -/
inductive Canonical : Question → Prop
  | question {question : Question} (kind : ∃ code, question.kind = .ofCode code)
      (rows : ∀ row ∈ question.subquestions, Canonical row) : Canonical question

/-- A survey all of whose questions are canonical. -/
def CanonicalSurvey (survey : Survey) : Prop :=
  ∀ group ∈ survey.groups, ∀ question ∈ group.questions, Canonical question

/-- What has been read of a question so far is canonical. -/
structure CanonicalDraft (draft : Question.Draft) : Prop where
  kind : ∀ kind, draft.kind = some kind → ∃ code, kind = .ofCode code
  rows : ∀ row ∈ draft.subquestions, Canonical row

/-- Only two fields matter for a canonical draft. -/
theorem CanonicalDraft.of_same {draft next : Question.Draft} (canonical : CanonicalDraft draft)
    (kind : next.kind = draft.kind) (rows : next.subquestions = draft.subquestions) :
    CanonicalDraft next where
  kind := kind ▸ canonical.kind
  rows := rows ▸ canonical.rows

private theorem question_fill_keeps {depth : Nat} {rows : Reader (List Question)}
    (canonicalRows : ∀ node questions, rows node = .ok questions →
      ∀ row ∈ questions, Canonical row) : Keeps (Question.record depth rows) CanonicalDraft := by
  intro field node draft next canonical found
  simp only [Question.record] at found
  split at found
  case h_4 =>
    obtain ⟨code, _, found⟩ := bind_eq_ok found
    cases found
    exact ⟨fun kind same => ⟨code, (Option.some.inj same).symm⟩, canonical.rows⟩
  case h_7 =>
    obtain ⟨questions, read, found⟩ := bind_eq_ok found
    cases found
    exact ⟨canonical.kind, canonicalRows node questions read⟩
  case h_10 =>
    cases found
    exact canonical
  all_goals
    obtain ⟨_, _, found⟩ := bind_eq_ok found
    cases found
    exact canonical.of_same rfl rfl

private theorem question_record_canonical {depth level : Nat} {rows : Reader (List Question)}
    {node : Node}
    {question : Question}
    (canonicalRows : ∀ node questions, rows node = .ok questions →
      ∀ row ∈ questions, Canonical row)
    (found : (Question.record depth rows).read level node = .ok question) : Canonical question := by
  have blank : CanonicalDraft {} := by
    constructor
    · intro kind same
      cases same
    · exact List.forall_mem_nil _
  obtain ⟨draft, canonical, made⟩ :=
    read_keeps (question_fill_keeps canonicalRows) blank found
  obtain ⟨id, parent, name, kind, mandatory, relevance, nested, answers, wording⟩ := draft
  cases id with
  | none => cases made
  | some id =>
    cases name with
    | none => cases made
    | some name =>
      cases kind with
      | none => cases made
      | some kind =>
        cases made
        exact .question (canonical.kind kind rfl) canonical.rows

/-- A question that is read is canonical: so are its rows, which are read two levels deeper. -/
theorem question_read_canonical (depth : Nat) {node : Node} {question : Question}
    (found : Question.read depth node = .ok question) : Canonical question := by
  induction depth using Question.read.induct generalizing node question with
  | case1 =>
    refine question_record_canonical ?_ found
    intro node questions read
    cases read
  | case2 =>
    refine question_record_canonical ?_ found
    intro node questions read row held
    obtain ⟨item, none⟩ := readList_each read row held
    cases none
  | case3 depth ih =>
    refine question_record_canonical ?_ found
    intro node questions read row held
    obtain ⟨item, nested⟩ := readList_each read row held
    exact ih nested

private theorem group_read_canonical {depth : Nat} {node : Node} {group : Group}
    (found : Group.read depth node = .ok group) : ∀ question ∈ group.questions, Canonical question := by
  have kept : Keeps (Group.record (depth - 1)) fun draft =>
      ∀ question ∈ draft.questions, Canonical question := by
    intro field node draft next canonical found
    simp only [Group.record] at found
    split at found
    case h_3 =>
      obtain ⟨questions, read, found⟩ := bind_eq_ok found
      cases found
      intro question held
      obtain ⟨item, here⟩ := readList_each read question held
      exact question_read_canonical _ here
    case h_4 =>
      cases found
      exact canonical
    all_goals
      obtain ⟨_, _, found⟩ := bind_eq_ok found
      cases found
      exact canonical
  obtain ⟨draft, canonical, made⟩ := read_keeps kept (List.forall_mem_nil _) found
  obtain ⟨id, name, questions⟩ := draft
  cases id with
  | none => cases made
  | some id =>
    cases name with
    | none => cases made
    | some name =>
      cases made
      exact canonical

private theorem survey_read_canonical {depth : Nat} {node : Node} {survey : Survey}
    (found : Survey.read depth node = .ok survey) : CanonicalSurvey survey := by
  have kept : Keeps (Survey.record (depth - 1)) fun draft =>
      ∀ group ∈ draft.groups, ∀ question ∈ group.questions, Canonical question := by
    intro field node draft next canonical found
    simp only [Survey.record] at found
    split at found
    case h_4 =>
      obtain ⟨groups, read, found⟩ := bind_eq_ok found
      cases found
      intro group held
      obtain ⟨item, here⟩ := readList_each read group held
      exact group_read_canonical here
    case h_5 =>
      cases found
      exact canonical
    all_goals
      obtain ⟨_, _, found⟩ := bind_eq_ok found
      cases found
      exact canonical
  obtain ⟨draft, canonical, made⟩ := read_keeps kept (List.forall_mem_nil _) found
  obtain ⟨id, language, languages, groups⟩ := draft
  cases id with
  | none => cases made
  | some id =>
    cases language with
    | none => cases made
    | some language =>
      cases made
      exact canonical

/-- A survey that is read from a text is canonical. -/
theorem ofText_canonical {text : String} {survey : Survey}
    (found : Survey.ofText text = .ok survey) : CanonicalSurvey survey := by
  obtain ⟨whole, read, found⟩ := bind_eq_ok found
  split at found
  · cases found
  · cases found
    exact survey_read_canonical read

end Questionnaire.ReadSurveys
