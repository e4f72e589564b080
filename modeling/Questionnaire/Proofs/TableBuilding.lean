import Questionnaire.Relevance.Table

/-! How a table is built, without the builder. The questions bring in spellings, one after the other;
each of them is compared with the entries themselves, so the builder's map of origins need not be
followed, and its token is always the name of its own origin between braces. -/
namespace Questionnaire

/-- An origin by a word, with its own name as the token. -/
def Spelling.of (word : String) (origin : Origin) : Spelling :=
  ⟨word, braced origin.tag, origin⟩

@[simp] theorem Spelling.of_inj {word other : String} {first second : Origin} :
    Spelling.of word first = .of other second ↔ word = other ∧ first = second := by
  constructor
  · exact fun same => ⟨congrArg Spelling.word same, congrArg Spelling.origin same⟩
  · rintro ⟨rfl, rfl⟩
    rfl

namespace Table

/-- A question by its name. -/
def nameSpelling (question : Question) : Spelling :=
  .of question.name (.question question.name)

/-- A question by its positional identifier. -/
def idSpelling (survey group : UInt64) (question : Question) : Spelling :=
  .of (positionalId survey group question.id) (.question question.name)

/-- The spellings of a question's subquestions. -/
def subquestionSpellings (survey group : UInt64) (question : Question) : List Spelling :=
  question.subquestions.flatMap fun row =>
    let origin := Origin.subquestion question.name row.name
    [.of origin.tag origin, .of (positionalId survey group row.id) origin]

/-- The spellings of a question's answers. -/
def answerSpellings (question : Question) : List Spelling :=
  question.answers.map fun answer =>
    let origin := Origin.answer question.name answer.code
    .of origin.tag origin

/-- The spellings that a question brings in, in order. The spellings of other questions that
contain its own come before its own. -/
def spellingsOf (survey group : UInt64) (questions : List Question) (question : Question) :
    List Spelling :=
  let idOf := fun other : Question => positionalId survey group other.id
  (containing question.name Question.name questions).map nameSpelling ++
    subquestionSpellings survey group question ++
    answerSpellings question ++
    (containing (idOf question) idOf questions).map (idSpelling survey group) ++
    [nameSpelling question, idSpelling survey group question]

/-- The spellings that all questions bring in, in order and with repetitions. -/
def spellings (survey group : UInt64) (questions : List Question) : List Spelling :=
  questions.flatMap (spellingsOf survey group questions)

/-- Takes in one spelling. The empty one is passed over; the first origin of a variable keeps it,
and every other one is recorded as a collision. -/
def add (table : Table) (spelling : Spelling) : Table :=
  if spelling.word = "" then table
  else
    match table.find? spelling.word with
    | none => { table with entries := table.entries ++ [spelling] }
    | some entry =>
      if entry.origin = spelling.origin then table
      else { table with collisions :=
              table.collisions ++ [⟨spelling.word, entry.origin, spelling.origin⟩] }

end Table

namespace TableBuilding
open Table Table.Builder

/-- A builder is as far as a table, and its map holds the origin of each entry. -/
structure Follows (builder : Builder) (table : Table) : Prop where
  entries : builder.entries = table.entries
  collisions : builder.collisions = table.collisions
  origins : ∀ word, builder.origins.get? word = (table.find? word).map Spelling.origin

variable {survey group : UInt64} {questions : List Question}

private theorem empty_follows : Follows Builder.empty Table.empty where
  entries := rfl
  collisions := rfl
  origins _ := rfl

private theorem find?_entered_self {table : Table} {word : String} (new : table.find? word = none)
    (origin : Origin) :
    Table.find? { table with entries := table.entries ++ [.of word origin] } word =
      some (.of word origin) := by
  rw [Table.find?, List.find?_append, show table.entries.find? (·.word == word) = none from new]
  simp [Spelling.of]

private theorem find?_entered_of_ne (table : Table) {word other : String} (different : other ≠ word)
    (origin : Origin) :
    Table.find? { table with entries := table.entries ++ [.of word origin] } other =
      table.find? other := by
  rw [Table.find?, List.find?_append]
  simp [Table.find?, Spelling.of, different.symm]

/-- One step: the map answers as the entries do, and what is entered is entered in both. -/
theorem Follows.insert {builder : Builder} {table : Table} (follows : Follows builder table)
    (word : String) (origin : Origin) :
    Follows (builder.insert word origin.tag origin) (table.add (.of word origin)) := by
  have known := follows.origins word
  by_cases blank : word = ""
  · simpa [Builder.insert, Table.add, Spelling.of, blank] using follows
  · cases found : table.find? word with
    | none =>
      rw [found, Option.map_none] at known
      have inserted : builder.insert word origin.tag origin =
          { builder with
            entries := builder.entries ++ [.of word origin]
            origins := builder.origins.insert word origin } := by
        simp [Builder.insert, blank, known, Spelling.of]
      have added : table.add (.of word origin) =
          { table with entries := table.entries ++ [.of word origin] } := by
        simp [Table.add, Spelling.of, blank, found]
      rw [inserted, added]
      refine ⟨by rw [follows.entries], follows.collisions, fun other => ?_⟩
      by_cases same : other = word
      · rw [same, Keyed.get?_insert_self, find?_entered_self found]
        rfl
      · rw [Keyed.get?_insert_of_ne _ _ same, find?_entered_of_ne table same, follows.origins other]
    | some entry =>
      rw [found, Option.map_some] at known
      by_cases repeated : entry.origin = origin
      · simpa [Builder.insert, Table.add, Spelling.of, blank, known, found, repeated] using follows
      · have inserted : builder.insert word origin.tag origin =
            { builder with collisions := builder.collisions ++ [⟨word, entry.origin, origin⟩] } := by
          simp [Builder.insert, blank, known, repeated]
        have added : table.add (.of word origin) =
            { table with collisions := table.collisions ++ [⟨word, entry.origin, origin⟩] } := by
          simp [Table.add, Spelling.of, blank, found, repeated]
        rw [inserted, added]
        exact ⟨follows.entries, by rw [follows.collisions], follows.origins⟩

/-- A loop follows if each of its rounds does: a round takes in the spellings that its item brings. -/
theorem Follows.foldl {α : Type} {step : Builder → α → Builder} {brought : α → List Spelling}
    (round : ∀ {builder table} (item : α), Follows builder table →
      Follows (step builder item) ((brought item).foldl Table.add table))
    (items : List α) {builder : Builder} {table : Table} (follows : Follows builder table) :
    Follows (items.foldl step builder) ((items.flatMap brought).foldl Table.add table) := by
  induction items generalizing builder table with
  | nil => exact follows
  | cons item rest ih =>
    rw [List.foldl_cons, List.flatMap_cons, List.foldl_append]
    exact ih (round item follows)

/-- Taking in questions by one of their words follows taking in these spellings. -/
theorem Follows.insertBy {builder : Builder} {table : Table} (follows : Follows builder table)
    (wordOf : Question → String) (others : List Question) :
    Follows (others.foldl (Builder.insertBy wordOf) builder)
      ((others.map fun other => .of (wordOf other) (.question other.name)).foldl Table.add table) := by
  rw [List.map_eq_flatMap]
  exact follows.foldl (fun other follows => follows.insert (wordOf other) (.question other.name)) others

private theorem Follows.insertRows {builder : Builder} {table : Table}
    (follows : Follows builder table)
    (survey group : UInt64) (parent : Question) :
    Follows (parent.subquestions.foldl (Builder.insertRow survey group parent) builder)
      ((subquestionSpellings survey group parent).foldl Table.add table) := by
  rw [subquestionSpellings]
  refine follows.foldl (fun row follows => ?_) parent.subquestions
  exact (follows.insert _ (.subquestion parent.name row.name)).insert _ _

private theorem Follows.insertAnswers {builder : Builder} {table : Table}
    (follows : Follows builder table)
    (parent : Question) :
    Follows (parent.answers.foldl (Builder.insertAnswer parent) builder)
      ((answerSpellings parent).foldl Table.add table) := by
  rw [answerSpellings, List.map_eq_flatMap]
  refine follows.foldl (fun answer follows => ?_) parent.answers
  exact follows.insert _ (.answer parent.name answer.code)

/-- The turn of a question follows taking in what it brings in. -/
theorem Follows.insertQuestion {builder : Builder} {table : Table} (follows : Follows builder table)
    (question : Question) :
    Follows (Builder.insertQuestion survey group questions builder question)
      ((spellingsOf survey group questions question).foldl Table.add table) := by
  let idOf := fun other : Question => positionalId survey group other.id
  have named := follows.insertBy Question.name (containing question.name Question.name questions)
  have withMembers := (named.insertRows survey group question).insertAnswers question
  have identified := withMembers.insertBy idOf (containing (idOf question) idOf questions)
  have own := (identified.insertBy Question.name [question]).insertBy idOf [question]
  simp only [spellingsOf, List.foldl_append]
  exact own

/-- A builder that has taken in all questions follows the table that collects their spellings. -/
theorem insertQuestions_follows (survey group : UInt64) (questions : List Question) :
    Follows (questions.foldl (Builder.insertQuestion survey group questions) .empty)
      ((spellings survey group questions).foldl Table.add .empty) :=
  empty_follows.foldl (fun question follows => follows.insertQuestion question) questions

/-- The table of a list of questions holds the spellings that they bring in, one taken in after the
other and then put in order. -/
theorem ofQuestions_eq (survey group : UInt64) (questions : List Question) :
    Table.ofQuestions survey group questions =
      let collected := (spellings survey group questions).foldl Table.add .empty
      { collected with entries := arrange collected.entries } := by
  have follows := insertQuestions_follows survey group questions
  rw [Table.ofQuestions, Builder.finish, follows.entries, follows.collisions]

end TableBuilding
end Questionnaire
