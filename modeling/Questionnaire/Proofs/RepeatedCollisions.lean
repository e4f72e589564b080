import Mathlib.Data.List.Perm.Basic
import Questionnaire.Proofs.CollisionWarnings
import Questionnaire.Proofs.Separators

/-! How often a collision is recorded. The records of a table are, in order, the spellings that came
to be collected while another origin had their word, so one of them is repeated if its spelling is
brought in twice. Rows and answers bring in their spellings once. A question does so again at the turn
of every question whose name or identifier its own contains, and such a repetition leaves no trace
only where the question itself keeps the word. -/
namespace Questionnaire.RepeatedCollisions
open Occurrences TableBuilding TableOrder TableContents Reports CollisionWarnings Separators

/-- The entities of a group can be told apart: its base questions by their names and by their ids,
and within each of them the rows by names and by ids and the answers by codes. -/
structure Distinguished (questions : List Question) : Prop where
  names : (questions.map Question.name).Nodup
  ids : (questions.map Question.id).Nodup
  rowNames : ∀ question ∈ questions, (question.subquestions.map Question.name).Nodup
  rowIds : ∀ question ∈ questions, (question.subquestions.map Question.id).Nodup
  answerCodes : ∀ question ∈ questions, (question.answers.map Answer.code).Nodup

/-- A question is brought in more than once by a word: by a name that is its identifier as well, or
because the word contains the name or the identifier of some question that it is compared with. -/
def BroughtAgain (survey group : UInt64) (questions : List Question) (question : Question)
    (word : String) : Prop :=
  (word = question.name ∧ word = positionalId survey group question.id) ∨
    (word = question.name ∧ ∃ other ∈ questions, ProperPart other.name word) ∨
    (word = positionalId survey group question.id ∧
      ∃ other ∈ questions, ProperPart (positionalId survey group other.id) word)

instance (survey group : UInt64) (questions : List Question) (question : Question)
    (word : String) : Decidable (BroughtAgain survey group questions question word) :=
  inferInstanceAs (Decidable ((_ ∧ _) ∨ (_ ∧ ∃ other ∈ questions, ProperPart other.name word) ∨
    (_ ∧ ∃ other ∈ questions, ProperPart (positionalId survey group other.id) word)))

/-- The table has the word of a spelling for another origin. -/
def Dropped (table : Table) (spelling : Spelling) : Prop :=
  ∃ entry ∈ table.entries, entry.word = spelling.word ∧ entry.origin ≠ spelling.origin

instance (table : Table) : DecidablePred (Dropped table) :=
  fun _ => List.decidableBEx _ _

/-- The spelling whose loss a record reports. -/
def lost (collision : Collision) : Spelling :=
  .of collision.word collision.dropped

/-- Once there is an entry for a word it stays, so what is dropped by now is dropped for good. -/
theorem dropped_entered_iff {seen : List Spelling} {table : Table} {spelling other : Spelling}
    (collected : Collected seen table) (member : other ∈ seen) (nonempty : spelling.word ≠ "")
    (new : ∀ entry ∈ table.entries, entry.word ≠ spelling.word) :
    Dropped { table with entries := table.entries ++ [spelling] } other ↔ Dropped table other := by
  constructor
  · rintro ⟨entry, held, same, different⟩
    rcases List.mem_append.mp held with before | last
    · exact ⟨entry, before, same, different⟩
    · obtain rfl := List.mem_singleton.mp last
      obtain ⟨kept, before, word, _⟩ := collected.settled other member (same ▸ nonempty)
      exact absurd (word.trans same.symm) (new kept before)
  · rintro ⟨entry, held, same, different⟩
    exact ⟨entry, List.mem_append_left _ held, same, different⟩

/-- The records of a table are the spellings that it has dropped so far, in the order in which they
came. -/
def Recorded (seen : List Spelling) (table : Table) : Prop :=
  table.collisions.map lost = seen.filter (Dropped table)

namespace Recorded

variable {seen : List Spelling} {table : Table}

private theorem kept (recorded : Recorded seen table) {spelling : Spelling}
    (kept : ¬ Dropped table spelling) : Recorded (seen ++ [spelling]) table := by
  have nothing : [spelling].filter (Dropped table) = [] := by simp [kept]
  rw [Recorded, List.filter_append, nothing, List.append_nil]
  exact recorded

private theorem add (recorded : Recorded seen table) (collected : Collected seen table)
    {spelling : Spelling} (ofOrigin : spelling = .of spelling.word spelling.origin) :
    Recorded (seen ++ [spelling]) (table.add spelling) := by
  rcases add_cases table spelling with ⟨empty, added⟩ | ⟨nonempty, new, added⟩ |
    ⟨entry, held, same, ⟨own, added⟩ | ⟨different, added⟩⟩ <;> rw [added]
  · refine recorded.kept ?_
    rintro ⟨entry, held, same, _⟩
    exact (collected.given entry held).1 (same.trans empty)
  · have before : Recorded seen { table with entries := table.entries ++ [spelling] } := by
      refine Eq.trans recorded (List.filter_congr fun other member => ?_)
      rw [decide_eq_decide, dropped_entered_iff collected member nonempty new]
    refine before.kept ?_
    rintro ⟨entry, held, same, different⟩
    rcases List.mem_append.mp held with earlier | last
    · exact new entry earlier same
    · exact different (congrArg Spelling.origin (List.mem_singleton.mp last))
  · refine recorded.kept ?_
    rintro ⟨other, otherHeld, alike, different⟩
    have unique : other = entry :=
      List.inj_on_of_nodup_map collected.distinct otherHeld held (alike.trans same.symm)
    exact different (unique ▸ own)
  · have dropped : Dropped table spelling := ⟨entry, held, same, different⟩
    have last : [spelling].filter (Dropped table) = [spelling] := by simp [dropped]
    change (table.collisions ++ [Collision.mk spelling.word entry.origin spelling.origin]).map lost =
      (seen ++ [spelling]).filter (Dropped table)
    rw [List.map_append, List.filter_append, last, show table.collisions.map lost = _ from recorded]
    exact congrArg (fun again => seen.filter (Dropped table) ++ [again]) ofOrigin.symm

private theorem foldl_add (recorded : Recorded seen table) (collected : Collected seen table)
    {more : List Spelling}
    (ofOrigins : ∀ spelling ∈ more, spelling = .of spelling.word spelling.origin) :
    Recorded (seen ++ more) (more.foldl Table.add table) := by
  induction more generalizing seen table with
  | nil => simpa using recorded
  | cons spelling rest ih =>
    obtain ⟨first, others⟩ := List.forall_mem_cons.mp ofOrigins
    simpa using ih (recorded.add collected first) (collected.add spelling) others

end Recorded

/-- Each record of a group's table is a spelling that the table has for another origin, and each
attempt to collect such a spelling is recorded. -/
theorem of_questions_recorded (survey group : UInt64) (questions : List Question) :
    Recorded (Table.spellings survey group questions)
      (Table.ofQuestions survey group questions) := by
  have started : Recorded [] Table.empty := rfl
  have recorded := started.foldl_add Collected.empty fun spelling
    (member : spelling ∈ Table.spellings survey group questions) => (mem_spellings.mp member).1
  rw [ofQuestions_eq]
  refine Eq.trans recorded (List.filter_congr fun spelling _ => ?_)
  rw [decide_eq_decide]
  exact exists_congr fun entry => and_congr_left fun _ => (arrange_perm _).mem_iff.symm

variable {survey group : UInt64} {questions : List Question}

/-- A record is repeated exactly if its spelling is collected repeatedly: the origin that has the word
is one and the same. -/
theorem collisions_nodup_iff_dropped {seen : List Spelling} {table : Table}
    (collected : Collected seen table) (recorded : Recorded seen table) :
    table.collisions.Nodup ↔ (seen.filter (Dropped table)).Nodup := by
  rw [← recorded]
  refine ⟨fun distinct => (List.nodup_map_iff_inj_on distinct).mpr ?_, List.Nodup.of_map lost⟩
  intro first firstHeld second secondHeld same
  obtain ⟨word, dropped⟩ := Spelling.of_inj.mp same
  obtain ⟨_, ⟨entry, held, ofFirst, firstKept⟩, _⟩ := collected.recorded first firstHeld
  obtain ⟨_, ⟨other, otherHeld, ofSecond, secondKept⟩, _⟩ := collected.recorded second secondHeld
  have alike : entry.word = other.word := by rw [ofFirst, ofSecond, word]
  have unique := List.inj_on_of_nodup_map collected.distinct held otherHeld alike
  have kept : first.kept = second.kept := by rw [← firstKept, ← secondKept, unique]
  cases first
  cases second
  simp_all

/-- What a question brings in of itself. -/
def ownSpellings (survey group : UInt64) (question : Question) : List Spelling :=
  (Table.subquestionSpellings survey group question ++ Table.answerSpellings question) ++
    [Table.nameSpelling question, Table.idSpelling survey group question]

/-- What a question brings in of other questions. -/
def earlySpellings (survey group : UInt64) (questions : List Question) (question : Question) :
    List Spelling :=
  let idOf := fun other : Question => positionalId survey group other.id
  (Table.containing question.name Question.name questions).map Table.nameSpelling ++
    (Table.containing (idOf question) idOf questions).map (Table.idSpelling survey group)

private theorem spellingsOf_perm (question : Question) :
    (Table.spellingsOf survey group questions question).Perm
      (ownSpellings survey group question ++ earlySpellings survey group questions question) := by
  classical
  rw [List.perm_iff_count]
  intro spelling
  simp only [Table.spellingsOf, ownSpellings, earlySpellings, List.count_append]
  omega

/-- The spellings that are collected are those that the questions bring in of themselves and those
that they bring in of other questions. -/
theorem spellings_perm : (Table.spellings survey group questions).Perm
    (questions.flatMap (ownSpellings survey group) ++
      questions.flatMap (earlySpellings survey group questions)) :=
  (List.Perm.flatMap_left questions fun question _ => spellingsOf_perm question).trans
    (List.flatMap_append_perm questions _ _).symm

/-- A question is brought in early at the turn of those whose name or identifier its own contains. -/
theorem mem_earlySpellings {spelling : Spelling} :
    spelling ∈ questions.flatMap (earlySpellings survey group questions) ↔
      ∃ question ∈ questions,
        (spelling = Table.nameSpelling question ∧
          ∃ other ∈ questions, ProperPart other.name spelling.word) ∨
        (spelling = Table.idSpelling survey group question ∧
          ∃ other ∈ questions, ProperPart (positionalId survey group other.id) spelling.word) := by
  simp only [earlySpellings, List.mem_flatMap, List.mem_append, List.mem_map, mem_containing]
  constructor
  · rintro ⟨other, asked, ⟨question, ⟨held, part⟩, rfl⟩ | ⟨question, ⟨held, part⟩, rfl⟩⟩
    · exact ⟨question, held, .inl ⟨rfl, other, asked, part⟩⟩
    · exact ⟨question, held, .inr ⟨rfl, other, asked, part⟩⟩
  · rintro ⟨question, held, ⟨rfl, other, asked, part⟩ | ⟨rfl, other, asked, part⟩⟩
    · exact ⟨other, asked, .inl ⟨question, ⟨held, part⟩, rfl⟩⟩
    · exact ⟨other, asked, .inr ⟨question, ⟨held, part⟩, rfl⟩⟩

/-- What is brought in of other questions is brought in by these as well. -/
theorem own_of_early {spelling : Spelling}
    (early : spelling ∈ questions.flatMap (earlySpellings survey group questions)) :
    spelling ∈ questions.flatMap (ownSpellings survey group) := by
  obtain ⟨question, asked, ⟨rfl, _⟩ | ⟨rfl, _⟩⟩ := mem_earlySpellings.mp early
  · exact List.mem_flatMap.mpr ⟨question, asked, by simp [ownSpellings]⟩
  · exact List.mem_flatMap.mpr ⟨question, asked, by simp [ownSpellings]⟩

/-- The name of the base question that an origin is or belongs to. -/
def owner : Origin → String
  | .question name => name
  | .subquestion parent _ => parent
  | .answer parent _ => parent

private theorem owner_of_own {question : Question} {spelling : Spelling}
    (own : spelling ∈ ownSpellings survey group question) :
    owner spelling.origin = question.name := by
  simp only [ownSpellings, List.mem_append, mem_subquestionSpellings, mem_answerSpellings,
    List.mem_cons, List.not_mem_nil, or_false] at own
  rcases own with (⟨row, _, rfl | rfl⟩ | ⟨answer, _, rfl⟩) | rfl | rfl <;> rfl

private theorem memberTag_ne_positionalId (parent child : String) (survey group question : UInt64) :
    memberTag parent child ≠ positionalId survey group question := by
  intro same
  have mark : '_' ∈ (memberTag parent child).toList := by simp [memberTag]
  rw [same] at mark
  exact absurd (mem_positionalId mark) (by decide)

/-- Rows with different names bring in different spellings. -/
theorem rows_nodup {question : Question}
    (names : (question.subquestions.map Question.name).Nodup) :
    (Table.subquestionSpellings survey group question).Nodup := by
  refine List.nodup_flatMap.mpr ⟨fun row _ => ?_, ?_⟩
  · have different := memberTag_ne_positionalId question.name row.name survey group row.id
    simp [Origin.tag, different]
  · rw [List.Nodup, List.pairwise_map] at names
    refine names.imp fun {first second} different spelling ofFirst ofSecond => different ?_
    simp only [List.mem_cons, List.not_mem_nil, or_false] at ofFirst ofSecond
    have origin : Origin.subquestion question.name first.name =
        .subquestion question.name second.name := by
      rcases ofFirst with rfl | rfl <;> rcases ofSecond with same | same <;>
        exact congrArg Spelling.origin same
    exact (Origin.subquestion.inj origin).2

/-- Answers with different codes bring in different spellings. -/
theorem answers_nodup {question : Question}
    (codes : (question.answers.map Answer.code).Nodup) :
    (Table.answerSpellings question).Nodup := by
  rw [List.Nodup, List.pairwise_map] at codes
  rw [Table.answerSpellings, List.Nodup, List.pairwise_map]
  refine codes.imp fun {first second} different same => different ?_
  exact (Origin.answer.inj (congrArg Spelling.origin same)).2

private theorem pair_filter_nodup_iff {α : Type} {p : α → Bool} {first second : α} :
    ([first, second].filter p).Nodup ↔ (first = second → p first = false) := by
  by_cases same : first = second
  · subst same
    cases kept : p first <;> simp [kept]
  · have distinct : [first, second].Nodup := by simp [same]
    exact iff_of_true (distinct.filter p) fun alike => absurd alike same

/-- Of what a question brings in of itself only its name can be repeated, by its identifier. -/
theorem own_filter_nodup_iff {question : Question} {table : Table}
    (names : (question.subquestions.map Question.name).Nodup)
    (codes : (question.answers.map Answer.code).Nodup) :
    ((ownSpellings survey group question).filter (Dropped table)).Nodup ↔
      (question.name = positionalId survey group question.id →
        ¬ Dropped table (Table.nameSpelling question)) := by
  have members : (Table.subquestionSpellings survey group question ++
      Table.answerSpellings question).Nodup := by
    refine List.nodup_append.mpr ⟨rows_nodup names, answers_nodup codes, ?_⟩
    rintro spelling ofRow _ ofAnswer rfl
    obtain ⟨row, _, rfl | rfl⟩ := mem_subquestionSpellings.mp ofRow <;>
      obtain ⟨answer, _, same⟩ := mem_answerSpellings.mp ofAnswer <;> simp at same
  have apart : ∀ spelling ∈ Table.subquestionSpellings survey group question ++
      Table.answerSpellings question, ∀ other ∈ [Table.nameSpelling question,
        Table.idSpelling survey group question], spelling ≠ other := by
    rintro spelling ofMember other ofQuestion rfl
    rcases List.mem_append.mp ofMember with ofRow | ofAnswer
    · obtain ⟨row, _, rfl | rfl⟩ := mem_subquestionSpellings.mp ofRow <;>
        simp [Table.nameSpelling, Table.idSpelling] at ofQuestion
    · obtain ⟨answer, _, rfl⟩ := mem_answerSpellings.mp ofAnswer
      simp [Table.nameSpelling, Table.idSpelling] at ofQuestion
  have alike : Table.nameSpelling question = Table.idSpelling survey group question ↔
      question.name = positionalId survey group question.id := by
    simp [Table.nameSpelling, Table.idSpelling]
  rw [ownSpellings, List.filter_append, List.nodup_append, and_iff_right (members.filter _),
    pair_filter_nodup_iff, alike, decide_eq_false_iff_not]
  refine and_iff_left fun spelling first other second => ?_
  exact apart spelling (List.mem_filter.mp first).1 other (List.mem_filter.mp second).1

private theorem nodup_append_of_subset_iff {α : Type} {front back : List α} (again : back ⊆ front) :
    (front ++ back).Nodup ↔ front.Nodup ∧ ∀ x, x ∉ back := by
  rw [List.nodup_append]
  constructor
  · rintro ⟨distinct, _, apart⟩
    exact ⟨distinct, fun x held => apart x (again held) x held rfl⟩
  · rintro ⟨distinct, none⟩
    obtain rfl := List.eq_nil_iff_forall_not_mem.mpr none
    simpa using distinct

/-- What has to be dropped for a record to be repeated: a question by a word that is its name and
its identifier, or one that was brought in early. -/
theorem dropped_nodup_iff (distinguished : Distinguished questions) {table : Table} :
    ((Table.spellings survey group questions).filter (Dropped table)).Nodup ↔
      (∀ question ∈ questions, question.name = positionalId survey group question.id →
        ¬ Dropped table (Table.nameSpelling question)) ∧
      ∀ spelling ∈ questions.flatMap (earlySpellings survey group questions),
        ¬ Dropped table spelling := by
  have again : (questions.flatMap (earlySpellings survey group questions)).filter
      (Dropped table) ⊆ (questions.flatMap (ownSpellings survey group)).filter (Dropped table) := by
    intro spelling member
    obtain ⟨early, dropped⟩ := List.mem_filter.mp member
    exact List.mem_filter.mpr ⟨own_of_early early, dropped⟩
  have apart : questions.Pairwise (Function.onFun List.Disjoint
      fun question => (ownSpellings survey group question).filter (Dropped table)) := by
    have names := distinguished.names
    rw [List.Nodup, List.pairwise_map] at names
    refine names.imp fun {first second} different spelling ofFirst ofSecond => different ?_
    rw [← owner_of_own (List.mem_filter.mp ofFirst).1,
      ← owner_of_own (List.mem_filter.mp ofSecond).1]
  rw [(spellings_perm.filter _).nodup_iff, List.filter_append, nodup_append_of_subset_iff again,
    List.filter_flatMap, List.nodup_flatMap, and_iff_left apart]
  refine and_congr (forall₂_congr fun question asked => ?_) ?_
  · exact own_filter_nodup_iff (distinguished.rowNames question asked)
      (distinguished.answerCodes question asked)
  · simp [List.mem_filter]

private theorem dropped_iff {table : Table}
    (recorded : Recorded (Table.spellings survey group questions) table) {word : String}
    {origin : Origin} (spelled : Spells survey group questions word origin) :
    Dropped table (.of word origin) ↔
      ∃ collision ∈ table.collisions, lost collision = .of word origin := by
  rw [← List.mem_map, recorded, List.mem_filter, decide_eq_true_iff,
    and_iff_right (mem_spellings_of_spells spelled)]

/-- No record is repeated exactly if no question is dropped that is brought in more than once. -/
theorem collisions_nodup_iff (distinguished : Distinguished questions) {table : Table}
    (collected : Collected (Table.spellings survey group questions) table)
    (recorded : Recorded (Table.spellings survey group questions) table) :
    table.collisions.Nodup ↔ ∀ collision ∈ table.collisions, ∀ question ∈ questions,
      collision.dropped = .question question.name →
        ¬ BroughtAgain survey group questions question collision.word := by
  rw [collisions_nodup_iff_dropped collected recorded, dropped_nodup_iff distinguished]
  constructor
  · rintro ⟨byBoth, early⟩ ⟨word, kept, _⟩ held question asked rfl again
    obtain ⟨_, _, spelled, _⟩ := collected.collision_meaning held
    have dropped := (dropped_iff recorded spelled).mpr ⟨_, held, rfl⟩
    rcases again with ⟨rfl, identified⟩ | ⟨rfl, part⟩ | ⟨rfl, part⟩
    · exact byBoth question asked identified dropped
    · exact early _ (mem_earlySpellings.mpr ⟨question, asked, .inl ⟨rfl, part⟩⟩) dropped
    · exact early _ (mem_earlySpellings.mpr ⟨question, asked, .inr ⟨rfl, part⟩⟩) dropped
  · intro once
    -- what is dropped is on record, and `once` says that it is not brought in again
    have single : ∀ word, ∀ question ∈ questions,
        Spells survey group questions word (.question question.name) →
        Dropped table (.of word (.question question.name)) →
        ¬ BroughtAgain survey group questions question word := by
      intro word question asked spelled dropped
      obtain ⟨collision, held, same⟩ := (dropped_iff recorded spelled).mp dropped
      obtain rfl : collision.word = word := congrArg Spelling.word same
      exact once collision held question asked (congrArg Spelling.origin same)
    constructor
    · intro question asked both dropped
      exact single _ question asked (.name asked) dropped (.inl ⟨rfl, both⟩)
    · intro spelling early dropped
      obtain ⟨question, asked, ⟨rfl, part⟩ | ⟨rfl, part⟩⟩ := mem_earlySpellings.mp early
      · exact single _ question asked (.name asked) dropped (.inr (.inl ⟨rfl, part⟩))
      · exact single _ question asked (.id asked) dropped (.inr (.inr ⟨rfl, part⟩))

/-- **When a collision is recorded once.** In a group whose entities can be told apart no two records
of its table are the same exactly if no record drops a question by a word by which it is brought in
more than once. In the report on a survey the collision warnings that the group adds are its records,
one for one and in order, so no two of these issues are the same exactly then. Issues are compared with
the origins that they name; names are not escaped where a message is written out, so two issues with
different origins may still be written alike. -/
theorem collisions_recorded_once_iff (survey : UInt64) (group : Group)
    (distinguished : Distinguished group.baseQuestions) :
    let table := Table.ofGroup survey group
    let once := ∀ collision ∈ table.collisions, ∀ question ∈ group.baseQuestions,
      collision.dropped = .question question.name →
        ¬ BroughtAgain survey group.id group.baseQuestions question collision.word
    (table.collisions.Nodup ↔ once) ∧
      ∀ (whole : Survey) (before after : List Group), whole.id = survey →
        whole.groups = before ++ group :: after → ∃ own later,
          ({ whole with groups := before ++ [group] } : Survey).validate.issues =
            ({ whole with groups := before } : Survey).validate.issues ++ own ∧
          whole.validate.issues =
            ({ whole with groups := before } : Survey).validate.issues ++ own ++ later ∧
          (own.filter fun issue => issue.defect.code == "token_collision") =
            table.collisions.map (fun collision =>
              ⟨s!"/groups/{group.id}/tokens/{collision.word}", .tokenCollision collision⟩) ∧
          ((own.filter fun issue => issue.defect.code == "token_collision").Nodup ↔ once) := by
  intro table once
  have exactly : table.collisions.Nodup ↔ once :=
    collisions_nodup_iff distinguished
      (of_questions_collected survey group.id group.baseQuestions)
      (of_questions_recorded survey group.id group.baseQuestions)
  refine ⟨exactly, ?_⟩
  rintro whole before after rfl groups
  obtain ⟨later, report⟩ := report_at_group groups
  have warnings := own_collisions whole before group
  refine ⟨ownIssues whole before group, later, report_snoc whole before group, report, warnings, ?_⟩
  have injective : Function.Injective fun collision : Collision =>
      (⟨s!"/groups/{group.id}/tokens/{collision.word}", .tokenCollision collision⟩ : Issue) :=
    fun first second same => Defect.tokenCollision.inj (congrArg Issue.defect same)
  rw [warnings]
  exact (List.nodup_map_iff injective).trans exactly

/-- Two rows that a message does not tell apart. -/
example : (Origin.subquestion "C" "A' of 'B").label = (Origin.subquestion "B' of 'C" "A").label := by
  decide

/-- A question whose row has the identifier of another base question. -/
def sharing : Question :=
  { bareQuestion 3 "Q1" with subquestions := [bareQuestion 51 "A"] }

/-- The row keeps the identifier, and the question that loses it is recorded once. -/
theorem shared_identifier_recorded_once :
    Distinguished (groupOf [sharing, bareQuestion 51 "Q3"]).baseQuestions ∧
      (Table.ofGroup 1 (groupOf [sharing, bareQuestion 51 "Q3"])).collisions.length = 1 ∧
      (Table.ofGroup 1 (groupOf [sharing, bareQuestion 51 "Q3"])).collisions.Nodup := by
  have distinguished : Distinguished (groupOf [sharing, bareQuestion 51 "Q3"]).baseQuestions := by
    constructor <;> decide +kernel
  have once := collisions_recorded_once_iff 1 (groupOf [sharing, bareQuestion 51 "Q3"]) distinguished
  exact ⟨distinguished, by decide +kernel, once.1.mpr (by decide +kernel)⟩

/-- With a question whose identifier begins the shared one, the same record is made twice. -/
theorem shared_identifier_recorded_twice :
    Distinguished (groupOf [sharing, bareQuestion 5 "Q2", bareQuestion 51 "Q3"]).baseQuestions ∧
      (Table.ofGroup 1 (groupOf [sharing, bareQuestion 5 "Q2", bareQuestion 51 "Q3"])).collisions =
        [⟨"1X2X51", .subquestion "Q1" "A", .question "Q3"⟩,
          ⟨"1X2X51", .subquestion "Q1" "A", .question "Q3"⟩] ∧
      ¬ (Table.ofGroup 1
        (groupOf [sharing, bareQuestion 5 "Q2", bareQuestion 51 "Q3"])).collisions.Nodup := by
  refine ⟨by constructor <;> decide +kernel, by decide +kernel, by decide +kernel⟩

end Questionnaire.RepeatedCollisions
