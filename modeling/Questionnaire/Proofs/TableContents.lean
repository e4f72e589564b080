import Mathlib.Data.List.Nodup
import Questionnaire.Proofs.TableBuilding
import Questionnaire.Proofs.TableOrder

/-! What a table holds. Its variables are exactly the spellings of the group, each once, and every
attempt to spell another origin alike is on record as a collision. `Spells` says which spellings
there are without looking at the order in which they are collected; the invariant of collecting
ties every attempt to an entry and to the record. -/
namespace Questionnaire.TableContents
open Occurrences TableBuilding TableOrder

/-- The ways to write an origin in the conditions of a group: a question by its name or positional
identifier, a subquestion by its tag or positional identifier, an answer by its tag. -/
inductive Spells (survey group : UInt64) (questions : List Question) : String → Origin → Prop where
  | name {question : Question} (asked : question ∈ questions) :
      Spells survey group questions question.name (.question question.name)
  | id {question : Question} (asked : question ∈ questions) :
      Spells survey group questions (positionalId survey group question.id)
        (.question question.name)
  | rowTag {question row : Question} (asked : question ∈ questions)
      (nested : row ∈ question.subquestions) :
      Spells survey group questions (memberTag question.name row.name)
        (.subquestion question.name row.name)
  | rowId {question row : Question} (asked : question ∈ questions)
      (nested : row ∈ question.subquestions) :
      Spells survey group questions (positionalId survey group row.id)
        (.subquestion question.name row.name)
  | answerTag {question : Question} {answer : Answer} (asked : question ∈ questions)
      (offered : answer ∈ question.answers) :
      Spells survey group questions (memberTag question.name answer.code)
        (.answer question.name answer.code)

variable {survey group : UInt64} {questions : List Question} {question : Question}

theorem mem_containing {word : String} {wordOf : Question → String} {other : Question} :
    other ∈ Table.containing word wordOf questions ↔
      other ∈ questions ∧ ProperPart word (wordOf other) := by
  simp [Table.containing, occurs_properly_iff]

theorem mem_subquestionSpellings {spelling : Spelling} :
    spelling ∈ Table.subquestionSpellings survey group question ↔
      ∃ row ∈ question.subquestions,
        spelling = .of (memberTag question.name row.name) (.subquestion question.name row.name) ∨
        spelling = .of (positionalId survey group row.id) (.subquestion question.name row.name) := by
  simp [Table.subquestionSpellings, Origin.tag]

theorem mem_answerSpellings {spelling : Spelling} :
    spelling ∈ Table.answerSpellings question ↔
      ∃ answer ∈ question.answers,
        spelling = .of (memberTag question.name answer.code) (.answer question.name answer.code) := by
  simp [Table.answerSpellings, Origin.tag, eq_comm]

/-- What a question brings in spells an entity of the group, by the token that names it. The spellings
of other questions that it brings in early are their own. -/
theorem spells_of_mem_spellingsOf {spelling : Spelling} (asked : question ∈ questions)
    (member : spelling ∈ Table.spellingsOf survey group questions question) :
    ∃ word origin, spelling = .of word origin ∧ Spells survey group questions word origin := by
  simp only [Table.spellingsOf, List.mem_append, List.mem_cons, List.not_mem_nil, or_false]
    at member
  rcases member with (((early | row) | answer) | early) | (rfl | rfl)
  · obtain ⟨other, contains, rfl⟩ := List.mem_map.mp early
    exact ⟨_, _, rfl, .name (mem_containing.mp contains).1⟩
  · obtain ⟨row, nested, rfl | rfl⟩ := mem_subquestionSpellings.mp row
    · exact ⟨_, _, rfl, .rowTag asked nested⟩
    · exact ⟨_, _, rfl, .rowId asked nested⟩
  · obtain ⟨answer, offered, rfl⟩ := mem_answerSpellings.mp answer
    exact ⟨_, _, rfl, .answerTag asked offered⟩
  · obtain ⟨other, contains, rfl⟩ := List.mem_map.mp early
    exact ⟨_, _, rfl, .id (mem_containing.mp contains).1⟩
  · exact ⟨_, _, rfl, .name asked⟩
  · exact ⟨_, _, rfl, .id asked⟩

/-- Every spelling of an entity is brought in by the question that the entity belongs to. -/
theorem mem_spellings_of_spells {word : String} {origin : Origin}
    (spells : Spells survey group questions word origin) :
    .of word origin ∈ Table.spellings survey group questions := by
  cases spells with
  | name asked =>
    refine List.mem_flatMap.mpr ⟨_, asked, ?_⟩
    simp [Table.spellingsOf, Table.nameSpelling]
  | id asked =>
    refine List.mem_flatMap.mpr ⟨_, asked, ?_⟩
    simp [Table.spellingsOf, Table.idSpelling]
  | @rowTag question row asked nested =>
    refine List.mem_flatMap.mpr ⟨question, asked, ?_⟩
    have own : .of (memberTag question.name row.name) (.subquestion question.name row.name) ∈
        Table.subquestionSpellings survey group question :=
      mem_subquestionSpellings.mpr ⟨row, nested, .inl rfl⟩
    simp [Table.spellingsOf, own]
  | @rowId question row asked nested =>
    refine List.mem_flatMap.mpr ⟨question, asked, ?_⟩
    have own : .of (positionalId survey group row.id) (.subquestion question.name row.name) ∈
        Table.subquestionSpellings survey group question :=
      mem_subquestionSpellings.mpr ⟨row, nested, .inr rfl⟩
    simp [Table.spellingsOf, own]
  | @answerTag question answer asked offered =>
    refine List.mem_flatMap.mpr ⟨question, asked, ?_⟩
    have own : .of (memberTag question.name answer.code) (.answer question.name answer.code) ∈
        Table.answerSpellings question :=
      mem_answerSpellings.mpr ⟨answer, offered, rfl⟩
    simp [Table.spellingsOf, own]

theorem mem_spellings {spelling : Spelling} :
    spelling ∈ Table.spellings survey group questions ↔
      spelling = .of spelling.word spelling.origin ∧
        Spells survey group questions spelling.word spelling.origin := by
  constructor
  · intro member
    obtain ⟨question, asked, member⟩ := List.mem_flatMap.mp member
    obtain ⟨word, origin, rfl, spells⟩ := spells_of_mem_spellingsOf asked member
    exact ⟨rfl, spells⟩
  · rintro ⟨own, spells⟩
    rw [own]
    exact mem_spellings_of_spells spells

/-- What taking in a spelling does. An empty one is passed over, a new variable becomes an entry,
and a variable that is there keeps its entry: the attempt is recorded unless it is a repetition. -/
theorem add_cases (table : Table) (spelling : Spelling) :
    (spelling.word = "" ∧ table.add spelling = table) ∨
    (spelling.word ≠ "" ∧ (∀ entry ∈ table.entries, entry.word ≠ spelling.word) ∧
      table.add spelling = { table with entries := table.entries ++ [spelling] }) ∨
    ∃ entry ∈ table.entries, entry.word = spelling.word ∧
      ((entry.origin = spelling.origin ∧ table.add spelling = table) ∨
        (entry.origin ≠ spelling.origin ∧
          table.add spelling = { table with collisions :=
            table.collisions ++ [⟨spelling.word, entry.origin, spelling.origin⟩] })) := by
  by_cases empty : spelling.word = ""
  · exact .inl ⟨empty, by simp [Table.add, empty]⟩
  · right
    cases found : table.find? spelling.word with
    | none =>
      have absent : ∀ entry ∈ table.entries, entry.word ≠ spelling.word := by
        simpa [Table.find?] using found
      exact .inl ⟨empty, absent, by simp [Table.add, empty, found]⟩
    | some entry =>
      have held : entry ∈ table.entries := List.mem_of_find?_eq_some found
      have same : entry.word = spelling.word := by simpa using List.find?_some found
      refine .inr ⟨entry, held, same, ?_⟩
      by_cases repeated : entry.origin = spelling.origin
      · exact .inl ⟨repeated, by simp [Table.add, empty, found, repeated]⟩
      · exact .inr ⟨repeated, by simp [Table.add, empty, found, repeated]⟩

/-- What a table knows of the spellings it was given: each of them has an entry, either its own or
that of the origin it collided with, and there is nothing else in it. -/
structure Collected (seen : List Spelling) (table : Table) : Prop where
  distinct : (table.entries.map Spelling.word).Nodup
  given : ∀ entry ∈ table.entries, entry.word ≠ "" ∧ entry ∈ seen
  settled : ∀ spelling ∈ seen, spelling.word ≠ "" →
    ∃ entry ∈ table.entries, entry.word = spelling.word ∧
      (entry.origin = spelling.origin ∨
        ⟨spelling.word, entry.origin, spelling.origin⟩ ∈ table.collisions)
  recorded : ∀ collision ∈ table.collisions, collision.kept ≠ collision.dropped ∧
    (∃ entry ∈ table.entries, entry.word = collision.word ∧ entry.origin = collision.kept) ∧
    ∃ spelling ∈ seen, spelling.word = collision.word ∧ spelling.origin = collision.dropped

namespace Collected

variable {seen : List Spelling} {table : Table}

theorem empty : Collected [] Table.empty where
  distinct := List.nodup_nil
  given := by simp [Table.empty]
  settled := by simp
  recorded := by simp [Table.empty]

/-- A spelling that is settled by what is there already leaves the table as it is. -/
theorem seen_again (collected : Collected seen table) {spelling : Spelling}
    (known : spelling.word ≠ "" → ∃ entry ∈ table.entries, entry.word = spelling.word ∧
      entry.origin = spelling.origin) : Collected (seen ++ [spelling]) table where
  distinct := collected.distinct
  given entry held := by
    obtain ⟨nonempty, before⟩ := collected.given entry held
    exact ⟨nonempty, List.mem_append_left _ before⟩
  settled other member nonempty := by
    rcases List.mem_append.mp member with before | last
    · exact collected.settled other before nonempty
    · obtain rfl := List.mem_singleton.mp last
      obtain ⟨entry, held, same, own⟩ := known nonempty
      exact ⟨entry, held, same, .inl own⟩
  recorded collision held := by
    obtain ⟨different, kept, other, before, dropped⟩ := collected.recorded collision held
    exact ⟨different, kept, other, List.mem_append_left _ before, dropped⟩

private theorem entered (collected : Collected seen table) {spelling : Spelling}
    (nonempty : spelling.word ≠ "") (new : ∀ entry ∈ table.entries, entry.word ≠ spelling.word) :
    Collected (seen ++ [spelling]) { table with entries := table.entries ++ [spelling] } where
  distinct := by
    rw [List.map_append, List.map_singleton, List.nodup_append]
    refine ⟨collected.distinct, List.nodup_singleton _, ?_⟩
    intro word member other last
    obtain ⟨entry, held, rfl⟩ := List.mem_map.mp member
    obtain rfl := List.mem_singleton.mp last
    exact new entry held
  given entry held := by
    rcases List.mem_append.mp held with before | last
    · obtain ⟨nonempty, before⟩ := collected.given entry before
      exact ⟨nonempty, List.mem_append_left _ before⟩
    · obtain rfl := List.mem_singleton.mp last
      exact ⟨nonempty, by simp⟩
  settled other member filled := by
    rcases List.mem_append.mp member with before | last
    · obtain ⟨entry, held, same, outcome⟩ := collected.settled other before filled
      exact ⟨entry, List.mem_append_left _ held, same, outcome⟩
    · obtain rfl := List.mem_singleton.mp last
      exact ⟨other, by simp, rfl, .inl rfl⟩
  recorded collision held := by
    obtain ⟨different, ⟨entry, here, kept⟩, other, before, dropped⟩ :=
      collected.recorded collision held
    exact ⟨different, ⟨entry, List.mem_append_left _ here, kept⟩, other,
      List.mem_append_left _ before, dropped⟩

private theorem collided (collected : Collected seen table) {spelling entry : Spelling}
    (held : entry ∈ table.entries) (same : entry.word = spelling.word)
    (different : entry.origin ≠ spelling.origin) :
    Collected (seen ++ [spelling]) { table with collisions :=
      table.collisions ++ [⟨spelling.word, entry.origin, spelling.origin⟩] } where
  distinct := collected.distinct
  given entry held := by
    obtain ⟨nonempty, before⟩ := collected.given entry held
    exact ⟨nonempty, List.mem_append_left _ before⟩
  settled other member nonempty := by
    rcases List.mem_append.mp member with before | last
    · obtain ⟨entry, held, same, outcome⟩ := collected.settled other before nonempty
      exact ⟨entry, held, same, outcome.imp id (List.mem_append_left _)⟩
    · obtain rfl := List.mem_singleton.mp last
      exact ⟨entry, held, same, .inr (by simp)⟩
  recorded collision member := by
    rcases List.mem_append.mp member with before | last
    · obtain ⟨different, kept, other, before, dropped⟩ := collected.recorded collision before
      exact ⟨different, kept, other, List.mem_append_left _ before, dropped⟩
    · obtain rfl := List.mem_singleton.mp last
      exact ⟨different, ⟨entry, held, same, rfl⟩, spelling, by simp⟩

theorem add (collected : Collected seen table) (spelling : Spelling) :
    Collected (seen ++ [spelling]) (table.add spelling) := by
  rcases add_cases table spelling with ⟨empty, added⟩ | ⟨nonempty, new, added⟩ |
    ⟨entry, held, same, ⟨own, added⟩ | ⟨different, added⟩⟩ <;> rw [added]
  · exact collected.seen_again fun nonempty => absurd empty nonempty
  · exact collected.entered nonempty new
  · exact collected.seen_again fun _ => ⟨entry, held, same, own⟩
  · exact collected.collided held same different

private theorem foldl_add (collected : Collected seen table) (more : List Spelling) :
    Collected (seen ++ more) (more.foldl Table.add table) := by
  induction more generalizing seen table with
  | nil => simpa using collected
  | cons spelling rest ih => simpa using ih (collected.add spelling)

/-- Reordering the entries changes nothing of what a table knows. -/
theorem reordered (collected : Collected seen table) {entries : List Spelling}
    (reordered : entries.Perm table.entries) : Collected seen { table with entries } where
  distinct := (reordered.map Spelling.word).nodup_iff.mpr collected.distinct
  given entry held := collected.given entry (reordered.mem_iff.mp held)
  settled spelling member nonempty := by
    obtain ⟨entry, held, outcome⟩ := collected.settled spelling member nonempty
    exact ⟨entry, reordered.mem_iff.mpr held, outcome⟩
  recorded collision held := by
    obtain ⟨different, ⟨entry, here, kept⟩, dropped⟩ := collected.recorded collision held
    exact ⟨different, ⟨entry, reordered.mem_iff.mpr here, kept⟩, dropped⟩

theorem find?_of_mem (collected : Collected seen table) {entry : Spelling}
    (held : entry ∈ table.entries) : table.find? entry.word = some entry := by
  cases found : table.find? entry.word with
  | none =>
    have absent := List.find?_eq_none.mp found entry held
    simp at absent
  | some other =>
    have otherHeld : other ∈ table.entries := List.mem_of_find?_eq_some found
    have same : other.word = entry.word := by simpa using List.find?_some found
    rw [List.inj_on_of_nodup_map collected.distinct otherHeld held same]

theorem token?_of_mem (collected : Collected seen table) {entry : Spelling}
    (held : entry ∈ table.entries) : table.token? entry.word = some entry.token := by
  rw [Table.token?, collected.find?_of_mem held]
  rfl

end Collected

/-- The table of a list of base questions settles every spelling of the group. -/
theorem of_questions_collected (survey group : UInt64) (questions : List Question) :
    Collected (Table.spellings survey group questions)
      (Table.ofQuestions survey group questions) := by
  have collected := Collected.empty.foldl_add (Table.spellings survey group questions)
  rw [ofQuestions_eq]
  exact collected.reordered (arrange_perm _)

/-- The variables that a base question brings into the conditions of its group. -/
def Brings (survey group : UInt64) (question : Question) (word : String) : Prop :=
  (word = question.name ∧ word ≠ "") ∨ word = positionalId survey group question.id ∨
    (∃ row ∈ question.subquestions,
      word = memberTag question.name row.name ∨ word = positionalId survey group row.id) ∨
    ∃ answer ∈ question.answers, word = memberTag question.name answer.code

/-- What an origin of a group may be, and the name under which the form knows it. -/
inductive Entity (questions : List Question) : Origin → String → Prop where
  | question {question : Question} (asked : question ∈ questions) :
      Entity questions (.question question.name) question.name
  | subquestion {question row : Question} (asked : question ∈ questions)
      (nested : row ∈ question.subquestions) :
      Entity questions (.subquestion question.name row.name) (question.name ++ "_" ++ row.name)
  | answer {question : Question} {answer : Answer} (asked : question ∈ questions)
      (offered : answer ∈ question.answers) :
      Entity questions (.answer question.name answer.code) (question.name ++ "_" ++ answer.code)

private theorem memberTag_ne_empty (parent child : String) : memberTag parent child ≠ "" := by
  simp [memberTag]

private theorem positionalId_ne_empty (survey group question : UInt64) :
    positionalId survey group question ≠ "" := by
  intro empty
  simp only [positionalId, String.append_eq_empty_iff] at empty
  exact absurd empty.1.2 (by decide)

private theorem Spells.entity {word : String} {origin : Origin}
    (spells : Spells survey group questions word origin) : Entity questions origin origin.tag := by
  cases spells with
  | name asked => exact .question asked
  | id asked => exact .question asked
  | rowTag asked nested => exact .subquestion asked nested
  | rowId asked nested => exact .subquestion asked nested
  | answerTag asked offered => exact .answer asked offered

/-- The non-empty spellings are the variables that the questions bring in. -/
theorem spelled_iff_brought {word : String} :
    (word ≠ "" ∧ ∃ origin, Spells survey group questions word origin) ↔
      ∃ question ∈ questions, Brings survey group question word := by
  constructor
  · rintro ⟨nonempty, origin, spells⟩
    cases spells with
    | name asked => exact ⟨_, asked, .inl ⟨rfl, nonempty⟩⟩
    | id asked => exact ⟨_, asked, .inr (.inl rfl)⟩
    | rowTag asked nested => exact ⟨_, asked, .inr (.inr (.inl ⟨_, nested, .inl rfl⟩))⟩
    | rowId asked nested => exact ⟨_, asked, .inr (.inr (.inl ⟨_, nested, .inr rfl⟩))⟩
    | answerTag asked offered => exact ⟨_, asked, .inr (.inr (.inr ⟨_, offered, rfl⟩))⟩
  · rintro ⟨question, asked, ⟨rfl, nonempty⟩ | rfl | ⟨row, nested, rfl | rfl⟩ |
      ⟨answer, offered, rfl⟩⟩
    · exact ⟨nonempty, _, .name asked⟩
    · exact ⟨positionalId_ne_empty _ _ _, _, .id asked⟩
    · exact ⟨memberTag_ne_empty _ _, _, .rowTag asked nested⟩
    · exact ⟨positionalId_ne_empty _ _ _, _, .rowId asked nested⟩
    · exact ⟨memberTag_ne_empty _ _, _, .answerTag asked offered⟩

theorem Collected.spells
    {table : Table} (collected : Collected (Table.spellings survey group questions) table)
    {entry : Spelling} (held : entry ∈ table.entries) :
    Spells survey group questions entry.word entry.origin :=
  (mem_spellings.mp (collected.given entry held).2).2

/-- The token of an entry is the name of its origin between braces. -/
theorem Collected.token_eq
    {table : Table} (collected : Collected (Table.spellings survey group questions) table)
    {entry : Spelling} (held : entry ∈ table.entries) : entry.token = braced entry.origin.tag :=
  congrArg Spelling.token (mem_spellings.mp (collected.given entry held).2).1

theorem Collected.token_opened
    {table : Table} (collected : Collected (Table.spellings survey group questions) table) :
    ∀ entry ∈ table.entries, '\x7b' ∈ entry.token.toList := by
  intro entry held
  simp [collected.token_eq held, braced]

/-- The empty word is no spelling but that of a question without a name. -/
theorem Spells.origin_of_empty {origin : Origin} (spells : Spells survey group questions "" origin) :
    origin = .question "" := by
  generalize written : "" = word at spells
  cases spells with
  | name asked => rw [← written]
  | id asked => exact absurd written.symm (positionalId_ne_empty _ _ _)
  | rowTag asked nested => exact absurd written.symm (memberTag_ne_empty _ _)
  | rowId asked nested => exact absurd written.symm (positionalId_ne_empty _ _ _)
  | answerTag asked offered => exact absurd written.symm (memberTag_ne_empty _ _)

/-- What is spelled at all is spelled by the name under which the form knows it. -/
theorem Spells.by_tag {word : String} {origin : Origin}
    (spells : Spells survey group questions word origin) :
    Spells survey group questions origin.tag origin := by
  cases spells with
  | name asked => exact .name asked
  | id asked => exact .name asked
  | rowTag asked nested => exact .rowTag asked nested
  | rowId asked nested => exact .rowTag asked nested
  | answerTag asked offered => exact .answerTag asked offered

private theorem braced_inj {first second : String} (same : braced first = braced second) :
    first = second :=
  (String.append_right_inj _).mp ((String.append_left_inj _).mp same)

/-- **A table holds the spellings of its group, each once.** Its variables are distinct and not
empty; they are exactly what the questions bring in; and each stands for an entity of the group that
is spelled so, with the name of this entity between braces as its token. -/
theorem variables_are_the_spellings (survey group : UInt64) (questions : List Question) :
    let table := Table.ofQuestions survey group questions
    (table.entries.map Spelling.word).Nodup ∧ "" ∉ table.entries.map Spelling.word ∧
      (∀ word, word ∈ table.entries.map Spelling.word ↔
        ∃ question ∈ questions, Brings survey group question word) ∧
      ∀ entry ∈ table.entries, Spells survey group questions entry.word entry.origin ∧
        ∃ name, Entity questions entry.origin name ∧
          table.token? entry.word = some ("\x7b" ++ name ++ "\x7d") := by
  intro table
  have collected : Collected _ table := of_questions_collected survey group questions
  refine ⟨collected.distinct, ?_, ?_, ?_⟩
  · intro member
    obtain ⟨entry, held, empty⟩ := List.mem_map.mp member
    exact (collected.given entry held).1 empty
  · intro word
    rw [← spelled_iff_brought]
    constructor
    · intro member
      obtain ⟨entry, held, rfl⟩ := List.mem_map.mp member
      exact ⟨(collected.given entry held).1, _, collected.spells held⟩
    · rintro ⟨nonempty, origin, spells⟩
      obtain ⟨entry, held, same, _⟩ :=
        collected.settled (.of word origin) (mem_spellings_of_spells spells) nonempty
      exact List.mem_map.mpr ⟨entry, held, same⟩
  · intro entry held
    have spells := collected.spells held
    refine ⟨spells, entry.origin.tag, spells.entity, ?_⟩
    rw [collected.token?_of_mem held, collected.token_eq held]
    rfl

/-- In the overlapping group the tag of the row is a variable, and it is read as a question. -/
theorem overlapping_row_tag_is_variable :
    (∃ question ∈ overlapping, Brings 1 2 question "Q1_A") ∧
      ∃ name, Entity overlapping (.question "Q1_A") name ∧
        (Table.ofQuestions 1 2 overlapping).token? "Q1_A" =
          some ("\x7b" ++ name ++ "\x7d") := by
  have held : .of "Q1_A" (.question "Q1_A") ∈ (Table.ofQuestions 1 2 overlapping).entries := by
    rw [overlapping_table]
    decide
  obtain ⟨_, _, words, tokens⟩ := variables_are_the_spellings 1 2 overlapping
  exact ⟨(words "Q1_A").mp (List.mem_map_of_mem held), (tokens _ held).2⟩

/-- A spelling of the group is read as its own origin or is on record as a collision. -/
theorem Collected.read_or_recorded {table : Table}
    (collected : Collected (Table.spellings survey group questions) table) {word : String}
    {origin : Origin} (nonempty : word ≠ "") (spells : Spells survey group questions word origin) :
    ∃ entry, table.find? word = some entry ∧
      (entry.origin = origin ∨ ⟨word, entry.origin, origin⟩ ∈ table.collisions) := by
  obtain ⟨entry, held, rfl, outcome⟩ :=
    collected.settled (.of word origin) (mem_spellings_of_spells spells) nonempty
  exact ⟨entry, collected.find?_of_mem held, outcome⟩

/-- A recorded collision is one: both origins spell the word, and the first one is that of the
entry. -/
theorem Collected.collision_meaning {table : Table}
    (collected : Collected (Table.spellings survey group questions) table) {collision : Collision}
    (recorded : collision ∈ table.collisions) :
    collision.kept ≠ collision.dropped ∧
      Spells survey group questions collision.word collision.kept ∧
      Spells survey group questions collision.word collision.dropped ∧
      ∃ entry, table.find? collision.word = some entry ∧ entry.origin = collision.kept := by
  obtain ⟨different, ⟨entry, held, word, kept⟩, spelling, seen, lost, dropped⟩ :=
    collected.recorded collision recorded
  rw [← kept, ← dropped, ← word]
  refine ⟨by rwa [kept, dropped], collected.spells held, ?_, entry, collected.find?_of_mem held, rfl⟩
  rw [word, ← lost]
  exact (mem_spellings.mp seen).2

/-- There is a collision exactly if two origins are spelled alike. -/
theorem Collected.collides_iff {table : Table}
    (collected : Collected (Table.spellings survey group questions) table) :
    (∃ collision, collision ∈ table.collisions) ↔
      ∃ word first second, first ≠ second ∧ Spells survey group questions word first ∧
        Spells survey group questions word second := by
  constructor
  · rintro ⟨collision, recorded⟩
    obtain ⟨different, kept, dropped, _⟩ := collected.collision_meaning recorded
    exact ⟨collision.word, _, _, different, kept, dropped⟩
  · rintro ⟨word, first, second, different, spellsFirst, spellsSecond⟩
    have nonempty : word ≠ "" := by
      rintro rfl
      exact different (spellsFirst.origin_of_empty.trans spellsSecond.origin_of_empty.symm)
    obtain ⟨entry, found, readFirst⟩ := collected.read_or_recorded nonempty spellsFirst
    obtain ⟨other, foundOther, readSecond⟩ := collected.read_or_recorded nonempty spellsSecond
    obtain rfl := Option.some.inj (found.symm.trans foundOther)
    rcases readFirst with own | recorded
    · rcases readSecond with alike | recorded
      · exact absurd (own.symm.trans alike) different
      · exact ⟨_, recorded⟩
    · exact ⟨_, recorded⟩

/-- Without collisions no two origins of a table have one token. Each is spelled by its own tag, so
two of them with one tag would be spelled alike. -/
theorem Collected.tokens_differ {table : Table}
    (collected : Collected (Table.spellings survey group questions) table)
    (clear : table.collisions = []) {first second : Spelling} (firstHeld : first ∈ table.entries)
    (secondHeld : second ∈ table.entries) (different : first.origin ≠ second.origin) :
    table.token? first.word ≠ table.token? second.word := by
  rw [collected.token?_of_mem firstHeld, collected.token?_of_mem secondHeld,
    collected.token_eq firstHeld, collected.token_eq secondHeld]
  intro same
  have tags := braced_inj (Option.some.inj same)
  have byTag := (collected.spells firstHeld).by_tag
  rw [tags] at byTag
  obtain ⟨collision, recorded⟩ := collected.collides_iff.mpr
    ⟨_, _, _, different, byTag, (collected.spells secondHeld).by_tag⟩
  simp [clear] at recorded

end Questionnaire.TableContents
