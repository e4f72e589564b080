import Questionnaire.Proofs.Reports
import Questionnaire.Proofs.TableContents

/-! No variable is read as another origin than its author may mean without a word about it. Every
spelling is either read as its own origin or recorded as a collision, and the report on a survey
warns of a group exactly if there is such a record. -/
namespace Questionnaire.CollisionWarnings
open TableOrder TableContents Reports

/-- Two different origins of a group are spelled alike. -/
def Ambiguous (survey : UInt64) (group : Group) (word : String) : Prop :=
  ∃ first second, first ≠ second ∧ Spells survey group.id group.baseQuestions word first ∧
    Spells survey group.id group.baseQuestions word second

/-- A collision warning of a group is about a word of it that is ambiguous. -/
theorem own_collision_path {survey : Survey} {before : List Group} {group : Group} {issue : Issue}
    (own : issue ∈ ownIssues survey before group) (code : OfCollision issue) :
    issue.severity = .warning ∧ ∃ word, Ambiguous survey.id group word ∧
      issue.path = s!"/groups/{group.id}/tokens/{word}" := by
  refine ⟨collision_is_warning code, ?_⟩
  obtain ⟨collision, recorded, rfl⟩ := List.mem_map.mp (own_collision_iff.mp ⟨own, code⟩)
  have collected := of_questions_collected survey.id group.id group.baseQuestions
  obtain ⟨different, kept, dropped, _⟩ := collected.collision_meaning recorded
  exact ⟨collision.word, ⟨_, _, different, kept, dropped⟩, rfl⟩

/-- A group is warned of exactly if it spells two origins alike. -/
theorem own_collision_exists_iff (survey : Survey) (before : List Group) (group : Group) :
    (∃ issue ∈ ownIssues survey before group, OfCollision issue) ↔
      ∃ word, Ambiguous survey.id group word := by
  have collected := of_questions_collected survey.id group.id group.baseQuestions
  constructor
  · rintro ⟨issue, own, code⟩
    obtain ⟨_, word, ambiguous, _⟩ := own_collision_path own code
    exact ⟨word, ambiguous⟩
  · rintro ⟨word, first, second, different, spellsFirst, spellsSecond⟩
    obtain ⟨collision, recorded⟩ :=
      collected.collides_iff.mpr ⟨word, first, second, different, spellsFirst, spellsSecond⟩
    exact ⟨_, own_collision_iff.mpr (List.mem_map.mpr ⟨collision, recorded, rfl⟩)⟩

/-- Questions as a group, and as the last group of a survey. -/
def groupOf (questions : List Question) : Group :=
  ⟨2, "Group", questions⟩

def surveyOf (questions : List Question) : Survey :=
  ⟨1, "en", [], [groupOf [], groupOf questions]⟩

/-- **No silent misreading.** A spelling of a group is read as its own origin, by the token of that
origin, or there is a collision record of it; every record names two origins that are spelled alike,
of which the table has the first. In the report on a survey the issues that the group adds contain a
collision warning exactly if two of its origins are spelled alike. Without collisions different
origins have different tokens. -/
theorem no_silent_misreading (survey : UInt64) (group : Group) :
    let table := Table.ofGroup survey group
    let spells := Spells survey group.id group.baseQuestions
    (∀ word origin, word ≠ "" → spells word origin → ∃ entry, table.find? word = some entry ∧
      (entry.origin = origin ∧ table.token? word = some (braced origin.tag) ∨
        ⟨word, entry.origin, origin⟩ ∈ table.collisions)) ∧
    (∀ collision ∈ table.collisions, collision.kept ≠ collision.dropped ∧
      spells collision.word collision.kept ∧ spells collision.word collision.dropped ∧
      ∃ entry, table.find? collision.word = some entry ∧ entry.origin = collision.kept) ∧
    (∀ (whole : Survey) (before after : List Group), whole.id = survey →
      whole.groups = before ++ group :: after → ∃ own later,
        ({ whole with groups := before ++ [group] } : Survey).validate.issues =
          ({ whole with groups := before } : Survey).validate.issues ++ own ∧
        whole.validate.issues =
          ({ whole with groups := before } : Survey).validate.issues ++ own ++ later ∧
        ((∃ issue ∈ own, issue.defect.code = "token_collision") ↔
          ∃ word, Ambiguous survey group word) ∧
        ∀ issue ∈ own, issue.defect.code = "token_collision" → issue.severity = .warning ∧
          ∃ word, Ambiguous survey group word ∧
            issue.path = s!"/groups/{group.id}/tokens/{word}") ∧
    (table.collisions = [] → ∀ first ∈ table.entries, ∀ second ∈ table.entries,
      first.origin ≠ second.origin → table.token? first.word ≠ table.token? second.word) := by
  intro table spells
  have collected : Collected _ table := of_questions_collected survey group.id group.baseQuestions
  refine ⟨?_, ?_, ?_, ?_⟩
  · intro word origin nonempty spelled
    obtain ⟨entry, found, own | recorded⟩ := collected.read_or_recorded nonempty spelled
    · have held : entry ∈ table.entries := List.mem_of_find?_eq_some found
      refine ⟨entry, found, .inl ⟨own, ?_⟩⟩
      rw [Table.token?, found, Option.map_some, collected.token_eq held, own]
    · exact ⟨entry, found, .inr recorded⟩
  · exact fun collision recorded => collected.collision_meaning recorded
  · rintro whole before after rfl groups
    obtain ⟨later, report⟩ := report_at_group groups
    refine ⟨ownIssues whole before group, later, report_snoc whole before group, report, ?_, ?_⟩
    · exact own_collision_exists_iff whole before group
    · exact fun issue own code => own_collision_path own code
  · exact fun clear first firstHeld second secondHeld different =>
      collected.tokens_differ clear firstHeld secondHeld different

/-- The row of the overlapping group is not read as itself; this is on record, and its group is
warned of. With another name of the second question there is nothing to warn of. -/
theorem overlapping_row_is_reported :
    (∃ entry, (Table.ofGroup 1 (groupOf overlapping)).find? "Q1_A" = some entry ∧
      (entry.origin = .subquestion "Q1" "A" ∧
          (Table.ofGroup 1 (groupOf overlapping)).token? "Q1_A" =
            some (braced (Origin.subquestion "Q1" "A").tag) ∨
        ⟨"Q1_A", entry.origin, .subquestion "Q1" "A"⟩ ∈
          (Table.ofGroup 1 (groupOf overlapping)).collisions)) ∧
    (∃ entry, (Table.ofGroup 1 (groupOf overlapping)).find? "Q1_A" = some entry ∧
      entry.origin = .question "Q1_A") ∧
    (∃ own later, (surveyOf overlapping).validate.issues =
        ({ surveyOf overlapping with groups := [groupOf []] } : Survey).validate.issues ++
          own ++ later ∧
      ∃ issue ∈ own, issue.defect.code = "token_collision") ∧
    (Table.ofGroup 1 (groupOf [questionWithRow, bareQuestion 34 "Q10"])).token? "Q1" ≠
      (Table.ofGroup 1 (groupOf [questionWithRow, bareQuestion 34 "Q10"])).token? "Q10" := by
  have asked : questionWithRow ∈ (groupOf overlapping).baseQuestions := List.mem_cons_self
  have nested : bareQuestion 4 "A" ∈ questionWithRow.subquestions := List.mem_cons_self
  have spelled : Spells 1 2 (groupOf overlapping).baseQuestions "Q1_A" (.subquestion "Q1" "A") :=
    .rowTag asked nested
  have recorded : ⟨"Q1_A", .question "Q1_A", .subquestion "Q1" "A"⟩ ∈
      (Table.ofGroup 1 (groupOf overlapping)).collisions := by
    change _ ∈ (Table.ofQuestions 1 2 overlapping).collisions
    rw [overlapping_table]
    decide
  obtain ⟨read, meaning, warned, _⟩ := no_silent_misreading 1 (groupOf overlapping)
  obtain ⟨different, kept, dropped, entry⟩ := meaning _ recorded
  refine ⟨read _ _ (by decide) spelled, entry, ?_, ?_⟩
  · obtain ⟨own, later, _, report, exactly, _⟩ :=
      warned (surveyOf overlapping) [groupOf []] [] rfl rfl
    exact ⟨own, later, report, exactly.mpr ⟨_, _, _, different, kept, dropped⟩⟩
  · have clear : Table.ofGroup 1 (groupOf [questionWithRow, bareQuestion 34 "Q10"]) =
        ⟨[.of "Q10" (.question "Q10"), .of "Q1_A" (.subquestion "Q1" "A"),
          .of "1X2X4" (.subquestion "Q1" "A"), .of "1X2X34" (.question "Q10"),
          .of "Q1" (.question "Q1"), .of "1X2X3" (.question "Q1")], []⟩ := by
      decide +kernel
    obtain ⟨_, _, _, apart⟩ :=
      no_silent_misreading 1 (groupOf [questionWithRow, bareQuestion 34 "Q10"])
    exact apart (by rw [clear]) (.of "Q1" (.question "Q1")) (by rw [clear]; decide)
      (.of "Q10" (.question "Q10")) (by rw [clear]; decide) (by decide)

end Questionnaire.CollisionWarnings
