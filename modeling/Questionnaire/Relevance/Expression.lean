import Questionnaire.Relevance.Table

/-! Conditions in the form's own notation. The operators of a condition are respelled first;
then every variable of the group's table is replaced by its token. Text between braces, written
so by the author or put in by an earlier variable, is not looked at again. -/
namespace Questionnaire.Relevance

/-- The respellings of operators, in the order in which they are applied. -/
def operatorSpellings : List (String × String) :=
  [("==", "="), ("!==", "!="), (".NAOK", ""), ("&&", "and"), ("!is_empty(", "("),
    ("is_empty(", "("), ("\"", "'")]

/-- Respells the operators of a condition. -/
def respellChars (condition : List Char) : List Char :=
  operatorSpellings.foldl
    (fun text spelling => Text.replaceAll spelling.1.toList spelling.2.toList text) condition

/-- Respells the operators of a condition. -/
def respellOperators (condition : String) : String :=
  String.ofList (respellChars condition.toList)

/-- A run of a condition: free text, or a token that stays as it is. -/
inductive Segment where
  | text (chars : List Char)
  | token (chars : List Char)
deriving DecidableEq, Repr

/-- The characters of a segment. -/
def Segment.chars : Segment → List Char
  | text chars => chars
  | token chars => chars

/-- Free text as segments; empty text is none. -/
def Segment.ofText : List Char → List Segment
  | [] => []
  | c :: rest => [.text (c :: rest)]

/-- The first bracketed run of a text, from an opening brace to the next closing one, with what
comes before and behind it. -/
def firstBracketed? (text : List Char) : Option (List Char × List Char × List Char) :=
  let before := text.takeWhile (· != '\x7b')
  match text.dropWhile (· != '\x7b') with
  | [] => none
  | opening :: rest =>
    let inside := rest.takeWhile (· != '\x7d')
    match rest.dropWhile (· != '\x7d') with
    | [] => none
    | closing :: behind => some (before, opening :: inside ++ [closing], behind)

/-- A bracketed run takes at least one character. -/
theorem firstBracketed?_length {text before token behind : List Char}
    (found : firstBracketed? text = some (before, token, behind)) :
    behind.length < text.length := by
  have outer := (List.dropWhile_sublist (l := text) (· != '\x7b')).length_le
  unfold firstBracketed? at found
  split at found
  · simp at found
  · next opening rest eq =>
    have inner := (List.dropWhile_sublist (l := rest) (· != '\x7d')).length_le
    split at found
    · simp at found
    · next closing last eqInner =>
      simp only [Option.some.injEq, Prod.mk.injEq] at found
      obtain ⟨_, _, rfl⟩ := found
      rw [eq] at outer
      rw [eqInner] at inner
      simp only [List.length_cons] at outer inner
      omega

/-- Cuts a condition at its bracketed runs. -/
def segmentsOf (text : List Char) : List Segment :=
  match _found : firstBracketed? text with
  | none => Segment.ofText text
  | some (before, token, behind) =>
    Segment.ofText before ++ .token token :: segmentsOf behind
termination_by text.length
decreasing_by exact firstBracketed?_length _found

/-- Marks the occurrences of a variable in a segment of free text by its token. -/
def Segment.mark (word token : List Char) : Segment → List Segment
  | .token chars => [.token chars]
  | .text chars =>
    [Segment.token token].intercalate ((Text.cuts word chars).map Segment.ofText)

/-- Marks the occurrences of a table entry in all segments. -/
def markEntry (segments : List Segment) (entry : Spelling) : List Segment :=
  segments.flatMap (Segment.mark entry.word.toList entry.token.toList)

/-- Replaces the variables of a table in the table's order. -/
def replaceChars (table : Table) (condition : List Char) : List Char :=
  (table.entries.foldl markEntry (segmentsOf condition)).flatMap Segment.chars

/-- Replaces the variables of a table in the table's order. -/
def replaceVariables (table : Table) (condition : String) : String :=
  String.ofList (replaceChars table condition.toList)

/-- The condition in the form's notation; none if it always holds. -/
def formCondition? (table : Table) (condition : String) : Option String :=
  if condition = unconditional then none
  else some (replaceVariables table (respellOperators condition))

end Questionnaire.Relevance
