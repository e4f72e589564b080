import Questionnaire.Decimal.Shortest
import Questionnaire.Keyed

/-! Values of the JSON data format and the two texts of each, one without blanks and one indented by two
spaces. An object keeps its members in the order in which they were put, and may hold a key more than
once; in the normal form it holds every key once and in order. -/
namespace Questionnaire
open Decimal

/-- A number: an integer, or else a signed binary floating-point magnitude. -/
inductive Json.Number where
  | integer (value : Int)
  | float (negative : Bool) (magnitude : Binary64)
deriving DecidableEq, Repr

/-- A JSON value. -/
inductive Json where
  | null
  | bool (value : Bool)
  | number (value : Json.Number)
  | string (text : String)
  | array (items : List Json)
  | object (members : List (String × Json))

namespace Json

/-- The integer as a value. -/
def integer (value : Int) : Json :=
  .number (.integer value)

/-- A natural number as a value. -/
def natural (value : Nat) : Json :=
  .number (.integer value)

/-- A list of texts as a value. -/
def strings (texts : List String) : Json :=
  .array (texts.map .string)

/-- Numbers have the fewest digits that read back, an even one last if two are equally near; the
first digit's power of ten decides between the two notations. -/
def floatFormat : FloatFormat where
  tie := .even
  positionalRange := some (-5, 15)

/-- The text of a number. -/
def Number.text : Number → String
  | .integer value => toString value
  | .float negative magnitude => floatFormat.text negative magnitude

/-- A control character by its code in four hexadecimal digits. -/
def escapeControl (c : Char) : List Char :=
  let digits := Nat.toDigits 16 c.toNat
  ['\\', 'u'] ++ List.replicate (4 - digits.length) '0' ++ digits

/-- One character inside a string. Only quotes, backslashes and the first 32 characters are
escaped. -/
def escape (c : Char) : List Char :=
  match c with
  | '"' => ['\\', '"']
  | '\\' => ['\\', '\\']
  | '\x08' => ['\\', 'b']
  | '\x0c' => ['\\', 'f']
  | '\n' => ['\\', 'n']
  | '\r' => ['\\', 'r']
  | '\t' => ['\\', 't']
  | c => if c.toNat < 0x20 then escapeControl c else [c]

/-- A text as a string. -/
def quote (text : String) : List Char :=
  '"' :: text.toList.flatMap escape ++ ['"']

/-- The text of a value that is neither an array nor an object. -/
def scalarChars : Json → List Char
  | .bool true => ['t', 'r', 'u', 'e']
  | .bool false => ['f', 'a', 'l', 's', 'e']
  | .number value => value.text.toList
  | .string text => quote text
  | _ => ['n', 'u', 'l', 'l']

mutual

/-- The text of a value without blanks. -/
def compactChars : Json → List Char
  | .array items => '[' :: compactItems items ++ [']']
  | .object members => '\x7b' :: compactMembers members ++ ['\x7d']
  | scalar => scalarChars scalar
termination_by structural value => value

/-- Items with commas between them. -/
def compactItems : List Json → List Char
  | [] => []
  | [item] => compactChars item
  | item :: items => compactChars item ++ ',' :: compactItems items
termination_by structural items => items

/-- Members with commas between them. -/
def compactMembers : List (String × Json) → List Char
  | [] => []
  | [(key, value)] => quote key ++ ':' :: compactChars value
  | (key, value) :: members =>
    quote key ++ ':' :: compactChars value ++ ',' :: compactMembers members
termination_by structural members => members

end

/-- The text of a value without blanks. -/
def compact (value : Json) : String :=
  String.ofList (compactChars value)

/-- The beginning of a line at a depth. -/
def newLine (depth : Nat) : List Char :=
  '\n' :: List.replicate (2 * depth) ' '

mutual

/-- The indented text of a value at a depth. An empty array or object takes no lines. -/
def prettyChars (depth : Nat) : Json → List Char
  | .array [] => ['[', ']']
  | .array items => '[' :: prettyItems (depth + 1) items ++ newLine depth ++ [']']
  | .object [] => ['\x7b', '\x7d']
  | .object members => '\x7b' :: prettyMembers (depth + 1) members ++ newLine depth ++ ['\x7d']
  | scalar => scalarChars scalar
termination_by structural value => value

/-- Items on lines of their own. -/
def prettyItems (depth : Nat) : List Json → List Char
  | [] => []
  | [item] => newLine depth ++ prettyChars depth item
  | item :: items => newLine depth ++ prettyChars depth item ++ ',' :: prettyItems depth items
termination_by structural items => items

/-- Members on lines of their own. -/
def prettyMembers (depth : Nat) : List (String × Json) → List Char
  | [] => []
  | [(key, value)] => newLine depth ++ quote key ++ ':' :: ' ' :: prettyChars depth value
  | (key, value) :: members =>
    newLine depth ++ quote key ++ ':' :: ' ' :: prettyChars depth value ++
      ',' :: prettyMembers depth members
termination_by structural members => members

end

/-- The indented text of a value. -/
def pretty (value : Json) : String :=
  String.ofList (prettyChars 0 value)

/-- The beginning of the line on which a list is closed; an empty list stays on its line. -/
def lastLine {α : Type} (depth : Nat) : List α → List Char
  | [] => []
  | _ :: _ => newLine depth

/-- What writes its entries one behind the other, each but the last with a comma behind it. -/
theorem eq_intercalate {α : Type} {write : α → List Char} {writeAll : List α → List Char}
    (none : writeAll [] = []) (last : ∀ entry, writeAll [entry] = write entry)
    (more : ∀ entry next entries, writeAll (entry :: next :: entries) =
      write entry ++ ',' :: writeAll (next :: entries)) (entries : List α) :
    writeAll entries = [','].intercalate (entries.map write) := by
  induction entries with
  | nil => exact none
  | cons entry entries ih =>
    cases entries with
    | nil => rw [last, List.map_singleton, List.intercalate_singleton]
    | cons next entries =>
      have parted : [','].intercalate ((entry :: next :: entries).map write) =
          write entry ++ [','] ++ [','].intercalate ((next :: entries).map write) :=
        List.intercalate_cons_cons
      rw [more, ih, parted, List.append_assoc, List.singleton_append]

private theorem compactItems_eq (items : List Json) :
    compactItems items = [','].intercalate (items.map compactChars) :=
  eq_intercalate rfl (fun _ => rfl) (fun _ _ _ => rfl) items

private theorem compactMembers_eq (members : List (String × Json)) :
    compactMembers members = [','].intercalate
      (members.map fun member => quote member.1 ++ ':' :: compactChars member.2) :=
  eq_intercalate rfl (fun _ => rfl) (fun _ _ _ => by simp [compactMembers]) members

private theorem prettyItems_eq (depth : Nat) (items : List Json) :
    prettyItems depth items =
      [','].intercalate (items.map fun item => newLine depth ++ prettyChars depth item) :=
  eq_intercalate rfl (fun _ => rfl) (fun _ _ _ => rfl) items

private theorem prettyMembers_eq (depth : Nat) (members : List (String × Json)) :
    prettyMembers depth members = [','].intercalate (members.map fun member =>
      newLine depth ++ (quote member.1 ++ ':' :: ' ' :: prettyChars depth member.2)) :=
  eq_intercalate rfl (fun _ => by simp [prettyMembers]) (fun _ _ _ => by simp [prettyMembers]) members

theorem compactChars_array (items : List Json) :
    compactChars (.array items) =
      '[' :: ([','].intercalate (items.map compactChars) ++ [']']) := by
  rw [compactChars, compactItems_eq, List.cons_append]

theorem compactChars_object (members : List (String × Json)) :
    compactChars (.object members) = '\x7b' :: ([','].intercalate
      (members.map fun member => quote member.1 ++ ':' :: compactChars member.2) ++
        ['\x7d']) := by
  rw [compactChars, compactMembers_eq, List.cons_append]

theorem prettyChars_array (depth : Nat) (items : List Json) :
    prettyChars depth (.array items) = '[' :: ([','].intercalate
      (items.map fun item => newLine (depth + 1) ++ prettyChars (depth + 1) item) ++
        (lastLine depth items ++ [']'])) := by
  cases items with
  | nil => rfl
  | cons item items =>
    simp [prettyChars, prettyItems_eq, lastLine]

theorem prettyChars_object (depth : Nat) (members : List (String × Json)) :
    prettyChars depth (.object members) = '\x7b' :: ([','].intercalate
      (members.map fun member => newLine (depth + 1) ++
        (quote member.1 ++ ':' :: ' ' :: prettyChars (depth + 1) member.2)) ++
          (lastLine depth members ++ ['\x7d'])) := by
  cases members with
  | nil => rfl
  | cons member members => simp [prettyChars, prettyMembers_eq, lastLine]

mutual

/-- The value with every object's keys once and in order; of a repeated key the last value
stays. -/
def normalized : Json → Json
  | .array items => .array (normalizedItems items)
  | .object members => .object (Keyed.ofList (normalizedMembers members)).entries
  | scalar => scalar
termination_by structural value => value

/-- The items in normal form. -/
def normalizedItems : List Json → List Json
  | [] => []
  | item :: items => normalized item :: normalizedItems items
termination_by structural items => items

/-- The members with their values in normal form. -/
def normalizedMembers : List (String × Json) → List (String × Json)
  | [] => []
  | (key, value) :: members => (key, normalized value) :: normalizedMembers members
termination_by structural members => members

end

end Json
end Questionnaire
