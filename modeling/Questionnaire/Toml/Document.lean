import Questionnaire.Text.Character
import Questionnaire.Toml.Value

/-! TOML documents, which are lines that give keys values and headers that say in which table. Blanks,
comments, keys, strings and values without parts are taken one by one off the front of a text: what
takes one gives the rest as well, or nothing if there is no such word. -/
namespace Questionnaire.Toml
open Decimal

/-- The blanks inside a line. -/
def isLineBlank (c : Char) : Bool :=
  c == ' ' || c == '\t'

/-- The text behind the blanks of a line. -/
def skipBlanks (text : List Char) : List Char :=
  text.dropWhile isLineBlank

/-- A character that may stand in a comment or a string: no control character but the tab. -/
def isTextChar (c : Char) : Bool :=
  c == '\t' || (0x20 ≤ c.toNat && c.toNat != 0x7F)

/-- The text behind the end of a line. -/
def newLine? : List Char → Option (List Char)
  | '\n' :: rest => some rest
  | '\r' :: '\n' :: rest => some rest
  | _ => none

/-- The text behind the rest of a line that holds only blanks and a comment. -/
def lineEnd? (text : List Char) : Option (List Char) :=
  let behind := match skipBlanks text with
    | '#' :: rest => rest.dropWhile isTextChar
    | rest => rest
  if behind.isEmpty then some [] else newLine? behind

/-- The text behind blanks, comments and line ends; a character that is not allowed in a comment
ends it and begins nothing. -/
def skipGaps : (comment : Bool) → List Char → List Char
  | _, [] => []
  | comment, c :: rest =>
    if c = '\n' then skipGaps false rest
    else if c = '\r' then
      if rest.head? = some '\n' then skipGaps false rest else c :: rest
    else if comment then
      if isTextChar c then skipGaps true rest else c :: rest
    else if isLineBlank c then skipGaps false rest
    else if c = '#' then skipGaps true rest
    else c :: rest

/-- The character that a given number of hexadecimal digits name, with the width of an escape by
them. -/
def escapeByCode? (digits : Nat) (text : List Char) : Option (Char × Nat) := do
  let code ← Text.hexNumber? (text.take digits)
  if text.length < digits ∨ ¬ code.isValidChar then none
  else return (Char.ofNat code, digits + 1)

/-- The character of the escape behind a backslash, and the width of the escape. -/
def escape? : List Char → Option (Char × Nat)
  | 'b' :: _ => some ('\x08', 1)
  | 't' :: _ => some ('\t', 1)
  | 'n' :: _ => some ('\n', 1)
  | 'f' :: _ => some ('\x0c', 1)
  | 'r' :: _ => some ('\r', 1)
  | 'e' :: _ => some ('\x1b', 1)
  | '"' :: _ => some ('"', 1)
  | '\\' :: _ => some ('\\', 1)
  | 'x' :: rest => escapeByCode? 2 rest
  | 'u' :: rest => escapeByCode? 4 rest
  | 'U' :: rest => escapeByCode? 8 rest
  | _ => none

/-- Puts a character in front of what has been taken. -/
def consTaken (c : Char) (taken : Option (List Char × List Char)) :
    Option (List Char × List Char) :=
  taken.map fun (chars, rest) => (c :: chars, rest)

/-- The inside of a string of one line between quotes; `skip` characters belong to an escape. -/
def takeBasic : (skip : Nat) → List Char → Option (List Char × List Char)
  | _, [] => none
  | skip + 1, _ :: rest => takeBasic skip rest
  | 0, c :: rest =>
    if c = '"' then some ([], rest)
    else if c = '\\' then
      match escape? rest with
      | some (escaped, width) => consTaken escaped (takeBasic width rest)
      | none => none
    else if isTextChar c then consTaken c (takeBasic 0 rest)
    else none

/-- The inside of a string of one line between apostrophes, where nothing is escaped. -/
def takeLiteral : List Char → Option (List Char × List Char)
  | [] => none
  | c :: rest =>
    if c = '\'' then some ([], rest)
    else if isTextChar c then consTaken c (takeLiteral rest)
    else none

/-- The number of blanks and line ends at the front of a text. -/
def gapWidth : List Char → Nat
  | '\r' :: '\n' :: rest => gapWidth rest + 2
  | c :: rest => if isLineBlank c || c == '\n' then gapWidth rest + 1 else 0
  | [] => 0

/-- The width of a line end that is taken out of a string, with the blanks and line ends behind
it; the backslash has been taken. -/
def continuationWidth? (text : List Char) : Option Nat :=
  if (newLine? (skipBlanks text)).isSome then some (gapWidth text) else none

/-- What a run of quotes in a string of several lines is: up to two are part of it, three end it,
and up to two more in front of these are part of it. -/
def closingRun? (quote : Char) (text : List Char) : Option (List Char × List Char) :=
  let run := text.takeWhile (· == quote)
  if run.length < 3 then none
  else some (List.replicate (min (run.length - 3) 2) quote, text.drop (min run.length 5))

/-- The inside of a string of several lines between triple quotes. -/
def takeLongBasic : (skip : Nat) → List Char → Option (List Char × List Char)
  | _, [] => none
  | skip + 1, _ :: rest => takeLongBasic skip rest
  | 0, c :: rest =>
    if c = '"' then
      match closingRun? '"' (c :: rest) with
      | some taken => some taken
      | none => consTaken c (takeLongBasic 0 rest)
    else if c = '\\' then
      match continuationWidth? rest with
      | some width => takeLongBasic width rest
      | none =>
        match escape? rest with
        | some (escaped, width) => consTaken escaped (takeLongBasic width rest)
        | none => none
    else if isTextChar c || c == '\n' || (c == '\r' && rest.head? == some '\n') then
      consTaken c (takeLongBasic 0 rest)
    else none

/-- The inside of a string of several lines between triple apostrophes. -/
def takeLongLiteral : List Char → Option (List Char × List Char)
  | [] => none
  | c :: rest =>
    if c = '\'' then
      match closingRun? '\'' (c :: rest) with
      | some taken => some taken
      | none => consTaken c (takeLongLiteral rest)
    else if isTextChar c || c == '\n' || (c == '\r' && rest.head? == some '\n') then
      consTaken c (takeLongLiteral rest)
    else none

/-- The text behind a line end directly behind the opening of a long string. -/
def skipFirstLineEnd (text : List Char) : List Char :=
  (newLine? text).getD text

/-- A string of one line. -/
def takeShortString : List Char → Option (String × List Char)
  | '"' :: rest => (takeBasic 0 rest).map fun (chars, rest) => (String.ofList chars, rest)
  | '\'' :: rest => (takeLiteral rest).map fun (chars, rest) => (String.ofList chars, rest)
  | _ => none

/-- A string. -/
def takeString : List Char → Option (String × List Char)
  | '"' :: '"' :: '"' :: rest =>
    (takeLongBasic 0 (skipFirstLineEnd rest)).map fun (chars, rest) => (String.ofList chars, rest)
  | '\'' :: '\'' :: '\'' :: rest =>
    (takeLongLiteral (skipFirstLineEnd rest)).map fun (chars, rest) => (String.ofList chars, rest)
  | text => takeShortString text

/-- A character of a key without quotes. -/
def isBareKeyChar (c : Char) : Bool :=
  c.isAlphanum || c == '_' || c == '-'

/-- A key without dots. -/
def takeSimpleKey (text : List Char) : Option (String × List Char) :=
  let bare := text.takeWhile isBareKeyChar
  if bare.isEmpty then takeShortString text
  else some (String.ofList bare, text.drop bare.length)

/-- The number of parts that the dots of a key may separate. -/
def maxKeyParts : Nat := 80

/-- A key of at most so many parts. -/
def takeKeyParts : (parts : Nat) → List Char → Option (List String × List Char)
  | 0, _ => none
  | parts + 1, text => do
    let (key, rest) ← takeSimpleKey (skipBlanks text)
    match skipBlanks rest with
    | '.' :: behind => do
      let (keys, rest) ← takeKeyParts parts behind
      return (key :: keys, rest)
    | rest => return ([key], rest)

/-- A key with its dots, and the blanks around it. -/
def takeKey (text : List Char) : Option (List String × List Char) :=
  takeKeyParts maxKeyParts text

/-- Digits without the underscores that may stand between two of them. -/
def digits? (isDigit : Char → Bool) : List Char → Option (List Char)
  | [] => none
  | [c] => if isDigit c then some [c] else none
  | c :: '_' :: rest => if isDigit c then (digits? isDigit rest).map (c :: ·) else none
  | c :: next :: rest =>
    if isDigit c then (digits? isDigit (next :: rest)).map (c :: ·) else none

/-- Decimal digits without a needless zero in front. -/
def wholeDigits? (text : List Char) : Option (List Char) := do
  let digits ← digits? Char.isDigit text
  if digits.head? = some '0' ∧ 1 < digits.length then none else return digits

/-- The value of a digit in bases up to sixteen. -/
def baseDigit (c : Char) : Nat :=
  if c.isDigit then digitValue c else c.toLower.toNat - 'a'.toNat + 10

/-- A number in a base that is named in front of it. -/
def basedInteger? (base : Nat) (text : List Char) : Option Scalar := do
  let isDigit := fun c : Char =>
    (c.isDigit || ('a' ≤ c.toLower && c.toLower ≤ 'f')) && baseDigit c < base
  let digits ← digits? isDigit text
  return .integer (digits.foldl (fun number c => base * number + baseDigit c) 0 : Nat)

/-- A power of ten that takes up a whole text behind its letter. -/
def exponent? (text : List Char) : Option Exponent := do
  let (negative, unsigned) := splitSign text
  return ⟨negative, ← digits? Char.isDigit unsigned⟩

/-- A decimal number behind its sign. -/
def decimal? (negative : Bool) (text : List Char) : Option Scalar := do
  let isMark := fun c : Char => c == '.' || c == 'e' || c == 'E'
  let whole ← wholeDigits? (text.takeWhile fun c => !isMark c)
  match text.dropWhile (fun c => !isMark c) with
  | [] =>
    let value : Int := ofDigits whole
    return .integer (if negative then -value else value)
  | '.' :: rest =>
    let isLetter := fun c : Char => c == 'e' || c == 'E'
    let fraction ← digits? Char.isDigit (rest.takeWhile fun c => !isLetter c)
    let exponent ← match rest.dropWhile (fun c => !isLetter c) with
      | [] => pure none
      | _ :: rest => (exponent? rest).map some
    let literal : Literal := ⟨negative, whole, some fraction, exponent⟩
    return .float (.number negative literal.toBinary64)
  | _ :: rest =>
    let literal : Literal := ⟨negative, whole, none, some (← exponent? rest)⟩
    return .float (.number negative literal.toBinary64)

/-- A number. Only decimal numbers have a sign. -/
def number? (text : List Char) : Option Scalar :=
  match text with
  | '0' :: 'x' :: rest => basedInteger? 16 rest
  | '0' :: 'o' :: rest => basedInteger? 8 rest
  | '0' :: 'b' :: rest => basedInteger? 2 rest
  | _ =>
    let (negative, unsigned) := splitSign text
    if unsigned = ['i', 'n', 'f'] then some (.float (.infinity negative))
    else if unsigned = ['n', 'a', 'n'] then some (.float .nan)
    else decimal? negative unsigned

/-- A number of exactly so many digits, within bounds. -/
def takeField (width least greatest : Nat) (text : List Char) : Option (Nat × List Char) :=
  let digits := text.take width
  let value := ofDigits digits
  if digits.length = width ∧ digits.all Char.isDigit ∧ least ≤ value ∧ value ≤ greatest
  then some (value, text.drop width) else none

/-- The text behind a character. -/
def expect? (c : Char) : List Char → Option (List Char)
  | first :: rest => if first = c then some rest else none
  | [] => none

/-- The number of days of a month. -/
def daysInMonth (year month : Nat) : Nat :=
  if month = 2 then
    if year % 4 = 0 ∧ (year % 100 ≠ 0 ∨ year % 400 = 0) then 29 else 28
  else if month = 4 ∨ month = 6 ∨ month = 9 ∨ month = 11 then 30
  else 31

/-- The text behind a date. -/
def date? (text : List Char) : Option (List Char) := do
  let (year, rest) ← takeField 4 0 9999 text
  let (month, rest) ← takeField 2 1 12 (← expect? '-' rest)
  let (_, rest) ← takeField 2 1 (daysInMonth year month) (← expect? '-' rest)
  return rest

/-- The text behind the fraction of a second, if there is one. -/
def secondFraction? : List Char → Option (List Char)
  | '.' :: rest =>
    let (digits, behind) := splitDigits rest
    if digits.isEmpty then none else some behind
  | rest => some rest

/-- The text behind a time of day; the seconds may be left out. -/
def time? (text : List Char) : Option (List Char) := do
  let (_, rest) ← takeField 2 0 23 text
  let (_, rest) ← takeField 2 0 59 (← expect? ':' rest)
  match rest with
  | ':' :: rest => do
    let (_, rest) ← takeField 2 0 60 rest
    secondFraction? rest
  | rest => return rest

/-- Whether a text is a distance from universal time, or empty. -/
def isOffset (text : List Char) : Bool :=
  match text with
  | [] => true
  | ['Z'] | ['z'] => true
  | c :: rest =>
    (c == '+' || c == '-') &&
      (do
        let (_, rest) ← takeField 2 0 23 rest
        let (_, rest) ← takeField 2 0 59 (← expect? ':' rest)
        return rest) == some []

/-- Whether a text is a date, a time, or both with perhaps a distance from universal time. -/
def isDateTime (text : List Char) : Bool :=
  time? text == some [] ||
    match date? text with
    | some [] => true
    | some (c :: rest) => (c == 'T' || c == 't' || c == ' ') && (time? rest).any isOffset
    | none => false

/-- A character of a value without quotes. -/
def isScalarChar (c : Char) : Bool :=
  c.isAlphanum || c == '+' || c == '-' || c == '_' || c == '.' || c == ':'

/-- The word at the front of a text. A date may be followed by a blank and a time. -/
def takeWord (text : List Char) : List Char × List Char :=
  let word := text.takeWhile isScalarChar
  let rest := text.drop word.length
  match rest with
  | ' ' :: c :: behind =>
    if date? word == some [] && c.isDigit then
      let time := (c :: behind).takeWhile isScalarChar
      (word ++ ' ' :: time, (c :: behind).drop time.length)
    else (word, rest)
  | _ => (word, rest)

/-- The value that a word writes. -/
def scalar? (word : List Char) : Option Scalar :=
  if word = ['t', 'r', 'u', 'e'] then some (.boolean true)
  else if word = ['f', 'a', 'l', 's', 'e'] then some (.boolean false)
  else if isDateTime word then some .dateTime
  else number? word

/-- A value without parts. -/
def takeScalar (text : List Char) : Option (Scalar × List Char) :=
  match takeString text with
  | some (string, rest) => some (.string string, rest)
  | none =>
    let (word, rest) := takeWord text
    (scalar? word).map fun value => (value, rest)

/-- The number of arrays and tables that may be nested in a value. -/
def maxDepth : Nat := 80

/-- Items with commas between them and perhaps one behind the last, up to a closing bracket; the
opening one has been taken. Every item takes a character, so the length of the text is budget
enough. -/
def takeItems {α : Type} (item : List Char → Option (α × List Char)) (closing : Char) :
    (budget : Nat) → List Char → Option (List α × List Char)
  | 0, _ => none
  | budget + 1, text =>
    let start := skipGaps false text
    if start.head? = some closing then some ([], start.tail)
    else do
      let (first, rest) ← item start
      match skipGaps false rest with
      | ',' :: rest => do
        let (others, rest) ← takeItems item closing budget rest
        return (first :: others, rest)
      | c :: rest => if c = closing then return ([first], rest) else none
      | [] => none

/-- A key and its value. What may stand on both sides of the equals sign is skipped. -/
def takeAssignment (skip : List Char → List Char)
    (value : List Char → Option (Item × List Char)) (text : List Char) :
    Option ((List String × Item) × List Char) := do
  let (key, rest) ← takeKey text
  let (item, rest) ← value (skip (← expect? '=' (skip rest)))
  return ((key, item), rest)

/-- The members of a table between braces. -/
def inlineMembers? (assignments : List (List String × Item)) : Option Members :=
  assignments.foldlM (fun members (path, item) => Members.assign path item .inline members) []

/-- A value in which arrays and tables are nested at most to a depth. -/
def takeValue : (depth : Nat) → List Char → Option (Item × List Char)
  | 0, text => (takeScalar text).map fun (value, rest) => (.scalar value, rest)
  | depth + 1, text =>
    match text with
    | '[' :: rest => do
      let (items, rest) ← takeItems (takeValue depth) ']' (rest.length + 1) rest
      return (.array items, rest)
    | '\x7b' :: rest => do
      let (assignments, rest) ←
        takeItems (takeAssignment (skipGaps false) (takeValue depth)) '\x7d' (rest.length + 1) rest
      return (.table .inline (← inlineMembers? assignments), rest)
    | text => (takeScalar text).map fun (value, rest) => (.scalar value, rest)

/-- A statement of a document. -/
inductive Statement where
  | assignment (key : List String) (item : Item)
  | header (path : List String)
  /-- The header of one more table in a list. -/
  | listHeader (path : List String)

/-- The statement at the front of a text. -/
def takeStatement : List Char → Option (Statement × List Char)
  | '[' :: '[' :: rest => do
    let (path, rest) ← takeKey rest
    return (.listHeader path, ← expect? ']' (← expect? ']' rest))
  | '[' :: rest => do
    let (path, rest) ← takeKey rest
    return (.header path, ← expect? ']' rest)
  | text => do
    let ((key, item), rest) ← takeAssignment skipBlanks (takeValue maxDepth) text
    return (.assignment key item, rest)

/-- The statements of a text, one a line. Every line takes a character, so the length of the text
is budget enough. -/
def statements? : (budget : Nat) → List Char → Option (List Statement)
  | _, [] => some []
  | 0, _ => none
  | budget + 1, text =>
    match lineEnd? text with
    | some rest => statements? budget rest
    | none => do
      let (statement, rest) ← takeStatement (skipBlanks text)
      return statement :: (← statements? budget (← lineEnd? rest))

/-- A document while it is read: its root table, and the path of the table that assignments go
into. -/
structure Draft where
  root : Members
  current : List String

/-- Carries out a statement. -/
def Draft.run (draft : Draft) : Statement → Option Draft
  | .assignment key item => do
    let root ← Members.updateAt false (Members.assign key item) draft.current .defined draft.root
    return { draft with root }
  | .header path => do
    let opened := Members.openTable (← path.getLast?)
    let root ← Members.updateAt false opened path.dropLast .defined draft.root
    return ⟨root, path⟩
  | .listHeader path => do
    let opened := Members.openListed (← path.getLast?)
    let root ← Members.updateAt false opened path.dropLast .defined draft.root
    return ⟨root, path⟩

/-- The text behind a byte order mark. -/
def skipMark : List Char → List Char
  | '\ufeff' :: rest => rest
  | text => text

/-- The root table of a document; none if the text is no document. -/
def parse? (text : String) : Option Members := do
  let chars := skipMark text.toList
  let draft ← (← statements? (chars.length + 1) chars).foldlM Draft.run ⟨[], []⟩
  return draft.root

end Questionnaire.Toml
