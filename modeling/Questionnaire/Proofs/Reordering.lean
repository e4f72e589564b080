import Questionnaire.Proofs.MarkedConditions

/-! Questions in another order. The order decides which of two origins keeps a spelling that they
share, and where the variables stand in the table. It does not decide whether there is such a
spelling, and where there is none the same variables have the same tokens: what a condition means
that can be read in one way only is left to the questions, and not to their order. -/
namespace Questionnaire.Reordering
open Relevance TableOrder TableContents MarkedConditions

variable {survey group : UInt64} {questions reordered : List Question}

private theorem spells_of_perm (perm : questions.Perm reordered) {word : String} {origin : Origin}
    (spells : Spells survey group questions word origin) :
    Spells survey group reordered word origin := by
  cases spells with
  | name asked => exact .name (perm.mem_iff.mp asked)
  | id asked => exact .id (perm.mem_iff.mp asked)
  | rowTag asked nested => exact .rowTag (perm.mem_iff.mp asked) nested
  | rowId asked nested => exact .rowId (perm.mem_iff.mp asked) nested
  | answerTag asked offered => exact .answerTag (perm.mem_iff.mp asked) offered

/-- Which origins a word spells does not depend on the order of the questions. -/
theorem spells_perm_iff (perm : questions.Perm reordered) {word : String} {origin : Origin} :
    Spells survey group questions word origin ↔ Spells survey group reordered word origin :=
  ⟨spells_of_perm perm, spells_of_perm perm.symm⟩

/-- Two origins that are spelled alike stay so in every order, though it may be the other one that
keeps the spelling. -/
theorem collides_perm_iff (perm : questions.Perm reordered) :
    (∃ collision, collision ∈ (Table.ofQuestions survey group questions).collisions) ↔
      ∃ collision, collision ∈ (Table.ofQuestions survey group reordered).collisions := by
  rw [(of_questions_collected survey group questions).collides_iff,
    (of_questions_collected survey group reordered).collides_iff]
  simp only [spells_perm_iff perm]

/-- Without collisions the entries of a table are the non-empty spellings of its group. -/
theorem mem_entries_iff {table : Table}
    (collected : Collected (Table.spellings survey group questions) table)
    (clear : table.collisions = []) {spelling : Spelling} :
    spelling ∈ table.entries ↔
      spelling.word ≠ "" ∧ spelling = .of spelling.word spelling.origin ∧
        Spells survey group questions spelling.word spelling.origin := by
  constructor
  · intro held
    obtain ⟨nonempty, seen⟩ := collected.given spelling held
    exact ⟨nonempty, mem_spellings.mp seen⟩
  · rintro ⟨nonempty, aimed, spells⟩
    obtain ⟨entry, held, word, own | recorded⟩ :=
      collected.settled spelling (mem_spellings.mpr ⟨aimed, spells⟩) nonempty
    · obtain rfl : entry = spelling := by
        rw [aimed, (mem_spellings.mp (collected.given entry held).2).1, word, own]
      exact held
    · simp [clear] at recorded

/-- Tables with the same entries have the same tokens, wherever the entries stand. -/
theorem token?_congr {seen others : List Spelling} {table other : Table}
    (collected : Collected seen table) (otherCollected : Collected others other)
    (same : ∀ spelling, spelling ∈ table.entries ↔ spelling ∈ other.entries) (word : String) :
    table.token? word = other.token? word := by
  unfold Table.token?
  cases found : table.find? word with
  | some entry =>
    have held : entry ∈ table.entries := List.mem_of_find?_eq_some found
    obtain rfl : entry.word = word := by simpa using List.find?_some found
    rw [otherCollected.find?_of_mem ((same entry).mp held)]
  | none =>
    cases otherFound : other.find? word with
    | none => rfl
    | some entry =>
      have held : entry ∈ other.entries := List.mem_of_find?_eq_some otherFound
      obtain rfl : entry.word = word := by simpa using List.find?_some otherFound
      rw [collected.find?_of_mem ((same entry).mpr held)] at found
      cases found

/-- Where only the places of the entries differ, the same conditions can be read in one way only. -/
theorem unambiguous_congr {table other : Table} {parts : List Part}
    (same : ∀ spelling, spelling ∈ table.entries ↔ spelling ∈ other.entries)
    (tokens : ∀ word, table.token? word = other.token? word)
    (unambiguous : Unambiguous table parts) : Unambiguous other parts where
  known word token marked := (tokens word).symm.trans (unambiguous.known word token marked)
  covered entry held := unambiguous.covered entry ((same entry).mpr held)

/-- **Reordering questions does not change what conditions mean.** The table of a list of questions
has a collision exactly if that of the questions in another order has one. If there is none, both
have the same entries and the same token for every word, and both replace the variables of a
condition that can be read in one way only by the same tokens. -/
theorem reordered_questions_read_alike (survey group : UInt64)
    {questions reordered : List Question} (perm : questions.Perm reordered) :
    let table := Table.ofQuestions survey group questions
    let other := Table.ofQuestions survey group reordered
    ((∃ collision, collision ∈ table.collisions) ↔ ∃ collision, collision ∈ other.collisions) ∧
      (table.collisions = [] → other.collisions = [] →
        (∀ spelling, spelling ∈ table.entries ↔ spelling ∈ other.entries) ∧
        (∀ word, table.token? word = other.token? word) ∧
        ∀ parts, '\x7b' ∉ (written parts).toList → Unambiguous table parts →
          replaceVariables table (written parts) = translated parts ∧
          replaceVariables other (written parts) = translated parts) := by
  intro table other
  have collected := of_questions_collected survey group questions
  have otherCollected := of_questions_collected survey group reordered
  refine ⟨collides_perm_iff perm, fun clear otherClear => ?_⟩
  have same : ∀ spelling, spelling ∈ table.entries ↔ spelling ∈ other.entries := by
    intro spelling
    rw [mem_entries_iff collected clear, mem_entries_iff otherCollected otherClear,
      spells_perm_iff perm]
  have tokens := token?_congr collected otherCollected same
  refine ⟨same, tokens, fun parts braceless unambiguous => ⟨?_, ?_⟩⟩
  · exact replaceVariables_unambiguous collected (arrange_arranged _) braceless unambiguous
  · exact replaceVariables_unambiguous otherCollected (arrange_arranged _) braceless
      (unambiguous_congr same tokens unambiguous)

/-- A question with a row, and one whose name and identifier contain its own. -/
def nested : List Question :=
  [questionWithRow, bareQuestion 34 "Q10"]

private theorem nested_table : Table.ofQuestions 1 2 nested =
    ⟨[.of "Q10" (.question "Q10"), .of "Q1_A" (.subquestion "Q1" "A"),
      .of "1X2X4" (.subquestion "Q1" "A"), .of "1X2X34" (.question "Q10"), .of "Q1" (.question "Q1"),
      .of "1X2X3" (.question "Q1")], []⟩ := by
  decide +kernel

/-- The other way round the table has another order, and conditions are read as before. -/
theorem nested_questions_swapped :
    (Table.ofQuestions 1 2 nested.reverse).entries ≠ (Table.ofQuestions 1 2 nested).entries ∧
      replaceVariables (Table.ofQuestions 1 2 nested) "1X2X34 > Q1 and Q1_A = 'Q'" =
        "\x7bQ10\x7d > \x7bQ1\x7d and \x7bQ1_A\x7d = 'Q'" ∧
      replaceVariables (Table.ofQuestions 1 2 nested.reverse) "1X2X34 > Q1 and Q1_A = 'Q'" =
        "\x7bQ10\x7d > \x7bQ1\x7d and \x7bQ1_A\x7d = 'Q'" := by
  let parts : List Part := [.marked "1X2X34" "\x7bQ10\x7d", .plain " > ",
    .marked "Q1" "\x7bQ1\x7d", .plain " and ", .marked "Q1_A" "\x7bQ1_A\x7d", .plain " = 'Q'"]
  have swapped : nested.Perm nested.reverse := (List.reverse_perm nested).symm
  obtain ⟨collides, alike⟩ := reordered_questions_read_alike 1 2 swapped
  have clear : (Table.ofQuestions 1 2 nested).collisions = [] := by rw [nested_table]
  have otherClear : (Table.ofQuestions 1 2 nested.reverse).collisions = [] := by
    refine List.eq_nil_iff_forall_not_mem.mpr fun collision recorded => ?_
    obtain ⟨other, held⟩ := collides.mpr ⟨collision, recorded⟩
    simp [clear] at held
  have unambiguous : Unambiguous (Table.ofQuestions 1 2 nested) parts := by
    rw [nested_table]
    refine ⟨fun word token member => ?_, by decide +kernel⟩
    simp only [parts, List.mem_cons, Part.marked.injEq, reduceCtorEq, List.not_mem_nil, or_false,
      false_or] at member
    rcases member with ⟨rfl, rfl⟩ | ⟨rfl, rfl⟩ | ⟨rfl, rfl⟩ <;> decide
  exact ⟨by decide +kernel, (alike clear otherClear).2.2 parts (by decide +kernel) unambiguous⟩

end Questionnaire.Reordering
