import Questionnaire.Survey.Basic
import Questionnaire.Text.Occurrence

/-! The variables that the conditions of a group may use, and the names under which the form knows
what they stand for. A base question is spelled by its name or its positional identifier, a
subquestion by its tag or its positional identifier, an answer by its tag. The table holds every
spelling once, and a spelling that occurs in another one behind it, so that going through the table
in order never splits a longer spelling by a shorter one. -/
namespace Questionnaire

/-- What a variable stands for. -/
inductive Origin where
  | question (name : String)
  | subquestion (parent name : String)
  | answer (parent code : String)
deriving DecidableEq, Repr

/-- A name between braces, the form's own notation for a variable. -/
def braced (name : String) : String :=
  "\x7b" ++ name ++ "\x7d"

/-- The tag of a subquestion or answer: its own name behind that of its parent. -/
def memberTag (parent child : String) : String :=
  parent ++ "_" ++ child

namespace Origin

/-- The name under which the form knows an origin. -/
def tag : Origin → String
  | question name => name
  | subquestion parent name => memberTag parent name
  | answer parent code => memberTag parent code

/-- An origin as it is shown in messages. -/
def label : Origin → String
  | question name => s!"question '{name}'"
  | subquestion parent name => s!"subquestion '{name}' of '{parent}'"
  | answer parent code => s!"answer '{code}' of '{parent}'"

end Origin

/-- A way to write an origin in a condition, and the token that it is replaced by. -/
structure Spelling where
  word : String
  token : String
  origin : Origin
deriving DecidableEq, Repr

/-- Two origins with one spelling; the first of them keeps it. -/
structure Collision where
  word : String
  kept : Origin
  dropped : Origin
deriving DecidableEq, Repr

/-- The variables of a group in the order in which they are replaced, and the collisions in the
order in which they were found. -/
structure Table where
  entries : List Spelling
  collisions : List Collision
deriving DecidableEq, Repr

namespace Table

/-- No variables. -/
def empty : Table where
  entries := []
  collisions := []

/-- The entry of a variable. -/
def find? (table : Table) (word : String) : Option Spelling :=
  table.entries.find? (·.word == word)

/-- The token of a variable. -/
def token? (table : Table) (word : String) : Option String :=
  (table.find? word).map Spelling.token

/-- The position of a variable. -/
def position? (table : Table) (word : String) : Option Nat :=
  table.entries.findIdx? (·.word == word)

/-- Puts an entry in front of the first one whose variable properly occurs in its own. -/
def place (ordered : List Spelling) (entry : Spelling) : List Spelling :=
  let chars := entry.word.toList
  let free := fun placed : Spelling => !Text.occursProperly placed.word.toList chars
  ordered.takeWhile free ++ entry :: ordered.dropWhile free

/-- Orders entries so that each comes before those whose variable properly occurs in its own. -/
def arrange (entries : List Spelling) : List Spelling :=
  entries.foldl place []

/-- The questions in whose word a given one properly occurs, the longest word in bytes first, and
equally long ones in the given order. -/
def containing (word : String) (wordOf : Question → String) (questions : List Question) :
    List Question :=
  let chars := word.toList
  (questions.filter fun question =>
    Text.occursProperly chars (wordOf question).toList).mergeSort fun left right =>
      (wordOf right).utf8ByteSize ≤ (wordOf left).utf8ByteSize

/-- A table that is being built: its entries and collisions so far, and the origin that each
variable has. -/
structure Builder where
  entries : List Spelling
  origins : Keyed Origin
  collisions : List Collision

namespace Builder

/-- Nothing is built yet. -/
def empty : Builder where
  entries := []
  origins := .empty
  collisions := []

/-- Takes in a variable with the target that its token names. The empty word is passed over; the first
origin of a variable keeps it, and every other one is recorded as a collision. -/
def insert (builder : Builder) (word target : String) (origin : Origin) : Builder :=
  if word = "" then builder
  else
    match builder.origins.get? word with
    | some kept =>
      if kept = origin then builder
      else { builder with collisions := builder.collisions ++ [⟨word, kept, origin⟩] }
    | none =>
      { builder with
        entries := builder.entries ++ [⟨word, braced target, origin⟩]
        origins := builder.origins.insert word origin }

/-- Takes in a question by one of its words. -/
def insertBy (wordOf : Question → String) (builder : Builder) (question : Question) : Builder :=
  builder.insert (wordOf question) question.name (.question question.name)

/-- Takes in a subquestion by its tag and by its identifier. -/
def insertRow (survey group : UInt64) (parent : Question) (builder : Builder) (row : Question) :
    Builder :=
  let tag := memberTag parent.name row.name
  let origin := Origin.subquestion parent.name row.name
  (builder.insert tag tag origin).insert (positionalId survey group row.id) tag origin

/-- Takes in an answer by its tag. -/
def insertAnswer (parent : Question) (builder : Builder) (answer : Answer) : Builder :=
  let tag := memberTag parent.name answer.code
  builder.insert tag tag (.answer parent.name answer.code)

/-- Takes in what one question brings in. Questions whose name or identifier contains its own come
before it. -/
def insertQuestion (survey group : UInt64) (questions : List Question) (builder : Builder)
    (question : Question) : Builder :=
  let idOf := fun other : Question => positionalId survey group other.id
  let named := (containing question.name Question.name questions).foldl (insertBy Question.name) builder
  let withRows := question.subquestions.foldl (insertRow survey group question) named
  let withAnswers := question.answers.foldl (insertAnswer question) withRows
  let identified := (containing (idOf question) idOf questions).foldl (insertBy idOf) withAnswers
  insertBy idOf (insertBy Question.name identified question) question

/-- The table of what was taken in. -/
def finish (builder : Builder) : Table where
  entries := arrange builder.entries
  collisions := builder.collisions

end Builder

/-- The table of a list of base questions. -/
def ofQuestions (survey group : UInt64) (questions : List Question) : Table :=
  (questions.foldl (Builder.insertQuestion survey group questions) .empty).finish

/-- The table of a group. -/
def ofGroup (survey : UInt64) (group : Group) : Table :=
  ofQuestions survey group.id group.baseQuestions

end Table
end Questionnaire
