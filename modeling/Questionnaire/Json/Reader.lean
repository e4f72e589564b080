import Questionnaire.Json.Node
import Questionnaire.Keyed

/-! Reading values from the shape of a JSON text. Readers of known kinds go through a text from left to
right and stop at the first complaint; they enter arrays and objects down to a given depth. A text can
also be read whatever it holds, and its blanks can be left out. -/
namespace Questionnaire.Json

/-- Reads a value from a node. -/
abbrev Reader (α : Type) := Node → Except ReadError α

/-- The number of arrays and objects that may be nested in one another. -/
def maxDepth : Nat := 127

/-- Complains if there is a complaint. -/
def raise? : Option ReadError → Except ReadError Unit
  | none => .ok ()
  | some error => .error error

/-- Reads a text. -/
def readString : Reader String
  | .string lexeme => lexeme.read
  | node => node.mismatch "a string"

/-- Reads a truth value. -/
def readBool : Reader Bool
  | .bool value => .ok value
  | node => node.mismatch "a boolean"

/-- Reads a natural number of 64 bits. -/
def readUInt64 : Reader UInt64
  | .number lexeme => do
    match ← lexeme.read with
    | .integer value =>
      if value < 0 then .error (.negative value "u64") else .ok (UInt64.ofNat value.toNat)
    | value => .error (.wrongKind (.number value) "u64")
  | node => node.mismatch "u64"

/-- Reads a value that may be null. -/
def readNullable {α : Type} (reader : Reader α) : Reader (Option α)
  | .null => .ok none
  | node => (reader node).map some

/-- Reads a list at a depth; `item` reads one level deeper. -/
def readList {α : Type} (depth : Nat) (item : Reader α) : Reader (List α)
  | .array items ending =>
    if depth = 0 then .error .tooDeep
    else do
      let values ← items.mapM item
      raise? ending.itemsError?
      return values
  | node => node.mismatch "a sequence"

/-- Reads the members of an object in their order. -/
def readMembers {α : Type} (value : Reader α) :
    List (Lexeme String × Node) → Except ReadError (List (String × α))
  | [] => .ok []
  | (key, node) :: members => do
    let name ← key.read
    let first ← value node
    return (name, first) :: (← readMembers value members)

/-- Reads values under arbitrary keys at a depth; of a repeated key the last value stays. -/
def readKeyed {α : Type} (depth : Nat) (value : Reader α) : Reader (Keyed α)
  | .object members ending =>
    if depth = 0 then .error .tooDeep
    else do
      let pairs ← readMembers value members
      raise? ending.membersError?
      return Keyed.ofList pairs
  | node => node.mismatch "a map"

/-- How a record is read. A record is written as an object of its fields in any order, or as an
array of its fields in their own order. -/
structure Record (δ α : Type) where
  /-- The name by which complaints speak of the record. -/
  name : String
  /-- The fields in order. -/
  fields : List String
  /-- A draft in which no field has been read. -/
  blank : δ
  /-- Reads one field into a draft. -/
  fill : String → Node → δ → Except ReadError δ
  /-- The record of a draft, or the first field that it lacks. -/
  finish : δ → Except String α

namespace Record

variable {δ α : Type}

/-- Reads the members of an object: unknown fields are skipped, known ones may come once. -/
def readFields (record : Record δ α) :
    (seen : List String) → δ → List (Lexeme String × Node) → Except ReadError δ
  | _, draft, [] => .ok draft
  | seen, draft, (key, node) :: members => do
    let name ← key.read
    if record.fields.contains name then
      if seen.contains name then .error (.repeatedField name)
      else record.readFields (name :: seen) (← record.fill name node draft) members
    else
      raise? node.skipError?
      record.readFields seen draft members

/-- Reads the items of an array as the fields in order, as far as both go. -/
def readItems (record : Record δ α) : List String → δ → List Node → Except ReadError δ
  | field :: fields, draft, item :: items => do
    record.readItems fields (← record.fill field item draft) items
  | _, draft, _ => .ok draft

/-- The complaint about how an array of fields ends. -/
def arrayError? (record : Record δ α) (items : List Node) (ending : Ending) : Option ReadError :=
  if record.fields.length < items.length then some .trailingCharacters
  else if record.fields.length = items.length then ending.recordError?
  else ending.itemsError?

/-- Reads a record at a depth. -/
def read (record : Record δ α) (depth : Nat) : Reader α
  | .object members ending =>
    if depth = 0 then .error .tooDeep
    else do
      let draft ← record.readFields [] record.blank members
      raise? ending.membersError?
      (record.finish draft).mapError .missingField
  | .array items ending =>
    if depth = 0 then .error .tooDeep
    else do
      let draft ← record.readItems record.fields record.blank items
      raise? (record.arrayError? items ending)
      (record.finish draft).mapError fun field =>
        .wrongLength (record.fields.idxOf field) record.name record.fields.length
  | node => node.mismatch s!"struct {record.name}"

end Record

/-- Reads a whole text; nothing but blanks may follow the value. -/
def readText {α : Type} (reader : Reader α) (text : String) : Except ReadError α := do
  let shape := Shape.ofText text
  let value ← reader shape.root
  if shape.trailing then .error .trailingCharacters else .ok value

mutual

/-- The value of a node. An object keeps all its members in their order. -/
def Node.value : Node → Except ReadError Json
  | .null => .ok .null
  | .bool truth => .ok (.bool truth)
  | .number lexeme => lexeme.read.map .number
  | .string lexeme => lexeme.read.map .string
  | .invalid error => .error error
  | .array items ending => do
    let values ← itemValues items
    raise? ending.itemsError?
    return .array values
  | .object members ending => do
    let values ← memberValues members
    raise? ending.membersError?
    return .object values
termination_by structural node => node

/-- The values of items in their order. -/
def itemValues : List Node → Except ReadError (List Json)
  | [] => .ok []
  | item :: items => do
    let first ← item.value
    return first :: (← itemValues items)
termination_by structural items => items

/-- The values of members under their keys. -/
def memberValues : List (Lexeme String × Node) → Except ReadError (List (String × Json))
  | [] => .ok []
  | (key, node) :: members => do
    let name ← key.read
    let first ← node.value
    return (name, first) :: (← memberValues members)
termination_by structural members => members

end

/-- The value that a text writes, however deeply it is nested. -/
def ofText (text : String) : Except ReadError Json :=
  readText Node.value text

/-- Where in a text a character stands. -/
inductive Place where
  | outside
  | inString
  /-- In a string, directly behind the backslash of an escape. -/
  | behindBackslash
deriving DecidableEq, Repr

/-- The place behind a character. -/
def Place.behind (c : Char) : Place → Place
  | outside => if c = '"' then inString else outside
  | inString => if c = '"' then outside else if c = '\\' then behindBackslash else inString
  | behindBackslash => inString

/-- Leaves out the blanks of a text that do not stand in strings. -/
def withoutSpaces : Place → List Char → List Char
  | _, [] => []
  | place, c :: rest =>
    if place = .outside ∧ isSpace c then withoutSpaces .outside rest
    else c :: withoutSpaces (place.behind c) rest

end Questionnaire.Json
