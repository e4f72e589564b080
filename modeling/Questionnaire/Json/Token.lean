import Questionnaire.Json.Value
import Questionnaire.Text.Character
import Questionnaire.Text.Quoted

/-! The tokens of a JSON text, and what can be wrong with a text that should hold a known kind of value.
A string or number that is written wrongly is still a token: it carries the complaint that reading it
raises, and the complaint, if any, that skipping it raises, since a skipped string may hold half a
surrogate pair and a skipped number may be of any size. The tokens end behind one that cannot even be
skipped. -/
namespace Questionnaire.Json
open Decimal

/-- What a text was in the middle of when it ended. -/
inductive Unfinished where
  | value
  | object
  | list
  | string
deriving DecidableEq, Repr

/-- The kind of value that was found where another was wanted. -/
inductive Found where
  | null
  | bool (value : Bool)
  | number (value : Number)
  | string (text : String)
  | sequence
  | map
deriving DecidableEq, Repr

/-- A reason why a text cannot be read. -/
inductive ReadError where
  /-- The text ends too early. -/
  | endOfText (inside : Unfinished)
  /-- No value begins here. -/
  | expectedValue
  /-- A word that is not `true`, `false` or `null`. -/
  | expectedWord
  /-- A number with a leading zero, or without a digit where one must be. -/
  | invalidNumber
  /-- A number that is too large for a floating-point magnitude. -/
  | numberOutOfRange
  | expectedColon
  | expectedMemberSeparator
  | expectedItemSeparator
  | keyNotString
  | trailingComma
  | trailingCharacters
  | invalidEscape
  /-- Half of a surrogate pair stands alone. -/
  | loneSurrogate
  /-- The first half of a surrogate pair is not followed by an escape. -/
  | unfinishedSurrogate
  | controlCharacter
  /-- More arrays and objects are nested than a reader enters. -/
  | tooDeep
  | wrongKind (found : Found) (wanted : String)
  /-- A negative integer where only natural numbers are taken. -/
  | negative (value : Int) (wanted : String)
  | wrongLength (length : Nat) (record : String) (fields : Nat)
  | repeatedField (name : String)
  | missingField (name : String)
deriving DecidableEq, Repr

/-- The classes into which read errors fall. -/
inductive ReadError.Category where
  | syntactic
  | endOfText
  | data
deriving DecidableEq, Repr

/-- The name of a kind of value, with the value where it is short. -/
def Found.text : Found → String
  | .null => "null"
  | .bool value => s!"boolean `{value}`"
  | .number (.integer value) => s!"integer `{value}`"
  | .number value => s!"floating point `{value.text}`"
  | .string text => s!"string {Text.Quoted.encode text}"
  | .sequence => "sequence"
  | .map => "map"

namespace ReadError

/-- The class of an error. -/
def category : ReadError → Category
  | .endOfText _ => .endOfText
  | .wrongKind _ _ | .negative _ _ | .wrongLength _ _ _ | .repeatedField _ | .missingField _ =>
    .data
  | _ => .syntactic

/-- The message of an error. -/
def message : ReadError → String
  | .endOfText .value => "EOF while parsing a value"
  | .endOfText .object => "EOF while parsing an object"
  | .endOfText .list => "EOF while parsing a list"
  | .endOfText .string => "EOF while parsing a string"
  | .expectedValue => "expected value"
  | .expectedWord => "expected ident"
  | .invalidNumber => "invalid number"
  | .numberOutOfRange => "number out of range"
  | .expectedColon => "expected `:`"
  | .expectedMemberSeparator => "expected `,` or `\x7d`"
  | .expectedItemSeparator => "expected `,` or `]`"
  | .keyNotString => "key must be a string"
  | .trailingComma => "trailing comma"
  | .trailingCharacters => "trailing characters"
  | .invalidEscape => "invalid escape"
  | .loneSurrogate => "lone leading surrogate in hex escape"
  | .unfinishedSurrogate => "unexpected end of hex escape"
  | .controlCharacter => "control character (\\u0000-\\u001F) found while parsing a string"
  | .tooDeep => "recursion limit exceeded"
  | .wrongKind found wanted => s!"invalid type: {found.text}, expected {wanted}"
  | .negative value wanted => s!"invalid value: integer `{value}`, expected {wanted}"
  | .wrongLength length record fields =>
    s!"invalid length {length}, expected struct {record} with {fields} elements"
  | .repeatedField name => s!"duplicate field `{name}`"
  | .missingField name => s!"missing field `{name}`"

end ReadError

/-- A written string or number. -/
structure Lexeme (α : Type) where
  /-- The value, or why it cannot be read. -/
  read : Except ReadError α
  /-- Why it cannot be skipped, if it cannot. -/
  skip : Option ReadError

/-- A token of a JSON text. -/
inductive Token where
  | openArray
  | closeArray
  | openObject
  | closeObject
  | colon
  | comma
  | null
  | bool (value : Bool)
  | number (number : Lexeme Number)
  | string (text : Lexeme String)
  /-- Something that is no token, with the complaint it raises where a value should be. -/
  | invalid (error : ReadError)

/-- The four characters that may stand between tokens. -/
def isSpace (c : Char) : Bool :=
  c == ' ' || c == '\t' || c == '\n' || c == '\r'

/-- One unit of a string's inside. -/
inductive Piece where
  /-- A character that stands for itself or is written by a short escape. -/
  | char (c : Char)
  /-- A code unit of sixteen bits, written by four hexadecimal digits. -/
  | unit (code : Nat)
deriving DecidableEq, Repr

/-- Why the inside of a string stops before a closing quote. -/
inductive Break where
  | endOfText
  | badEscape
  | badDigits
  | control
deriving DecidableEq, Repr

/-- The inside of a string up to its closing quote or up to a break. -/
structure Inside where
  pieces : List Piece
  stop : Option Break
  /-- What follows the closing quote; nothing behind a break. -/
  rest : List Char

/-- Puts a piece in front. -/
def Inside.cons (piece : Piece) (inside : Inside) : Inside :=
  ⟨piece :: inside.pieces, inside.stop, inside.rest⟩

/-- The inside that a break ends at once. -/
def Inside.broken (stop : Break) : Inside :=
  ⟨[], some stop, []⟩

/-- The break of an escape that lacks four digits: the text ends if it has not even four bytes. -/
def shortDigitsBreak (rest : List Char) : Break :=
  if (String.ofList rest).utf8ByteSize < 4 then .endOfText else .badDigits

/-- The character that a short escape writes. -/
def shortEscape? : Char → Option Char
  | '"' => some '"'
  | '\\' => some '\\'
  | '/' => some '/'
  | 'b' => some '\x08'
  | 'f' => some '\x0c'
  | 'n' => some '\n'
  | 'r' => some '\r'
  | 't' => some '\t'
  | _ => none

/-- Scans the inside of a string; the opening quote has been taken. -/
def scanInside : List Char → Inside
  | [] => .broken .endOfText
  | c :: rest =>
    if c = '"' then ⟨[], none, rest⟩
    else if c = '\\' then
      match rest with
      | [] => .broken .endOfText
      | 'u' :: a :: b :: c :: d :: rest =>
        match Text.hexNumber? [a, b, c, d] with
        | some code => (scanInside rest).cons (.unit code)
        | none => .broken .badDigits
      | 'u' :: rest => .broken (shortDigitsBreak rest)
      | letter :: rest =>
        match shortEscape? letter with
        | some c => (scanInside rest).cons (.char c)
        | none => .broken .badEscape
    else if c.toNat < 0x20 then .broken .control
    else (scanInside rest).cons (.char c)

/-- What is left behind a string is no longer than what it was scanned from. -/
theorem scanInside_rest_length (text : List Char) :
    (scanInside text).rest.length ≤ text.length := by
  fun_induction scanInside text <;>
    simp_all [Inside.broken, Inside.cons] <;> omega

/-- The complaint of a break. -/
def Break.error : Break → ReadError
  | .endOfText => .endOfText .string
  | .badEscape | .badDigits => .invalidEscape
  | .control => .controlCharacter

/-- The complaint of a break directly behind the first half of a surrogate pair. -/
def Break.errorBehindHalf : Break → ReadError
  | .endOfText => .endOfText .string
  | .badDigits => .invalidEscape
  | .badEscape | .control => .unfinishedSurrogate

/-- The first halves of surrogate pairs. -/
def isFirstHalf (code : Nat) : Bool :=
  0xD800 ≤ code && code ≤ 0xDBFF

/-- The second halves of surrogate pairs. -/
def isSecondHalf (code : Nat) : Bool :=
  0xDC00 ≤ code && code ≤ 0xDFFF

/-- The character of a surrogate pair. -/
def joinHalves (first second : Nat) : Char :=
  Char.ofNat (0x10000 + (first - 0xD800) * 0x400 + (second - 0xDC00))

/-- The characters of a string's inside. Code units must be characters or pairs of halves. -/
def readPieces (stop : Option Break) : List Piece → Except ReadError (List Char)
  | [] =>
    match stop with
    | none => .ok []
    | some stop => .error stop.error
  | .char c :: pieces => (readPieces stop pieces).map (c :: ·)
  | [.unit code] =>
    if isSecondHalf code then .error .loneSurrogate
    else if isFirstHalf code then
      match stop with
      | none => .error .unfinishedSurrogate
      | some stop => .error stop.errorBehindHalf
    else
      match stop with
      | none => .ok [Char.ofNat code]
      | some stop => .error stop.error
  | .unit code :: next :: pieces =>
    if isSecondHalf code then .error .loneSurrogate
    else if isFirstHalf code then
      match next with
      | .unit second =>
        if isSecondHalf second then (readPieces stop pieces).map (joinHalves code second :: ·)
        else .error .loneSurrogate
      | .char _ => .error .unfinishedSurrogate
    else (readPieces stop (next :: pieces)).map (Char.ofNat code :: ·)

/-- The string that an inside writes. -/
def Inside.lexeme (inside : Inside) : Lexeme String where
  read := (readPieces inside.stop inside.pieces).map String.ofList
  skip := inside.stop.map Break.error

/-- The complaint where a digit should be: reading tells the end of the text from a wrong
character, skipping does not. -/
def missingDigit (rest : List Char) : Lexeme Number where
  read := .error (if rest.isEmpty then .endOfText .value else .invalidNumber)
  skip := some .invalidNumber

/-- Takes digits into a significand as long as it fits into 64 bits; the others stay. -/
def gather (significand : Nat) : List Char → Nat × List Char
  | [] => (significand, [])
  | c :: rest =>
    if appendDigit significand c < twoTo 64 then gather (appendDigit significand c) rest
    else (significand, c :: rest)

/-- A power of ten as a magnitude. -/
def powerOfTen (exponent : Nat) : Binary64 :=
  Binary64.ofNat (tenTo exponent)

/-- A significand times a power of ten. Each step is rounded; a power beyond the range of
magnitudes is divided out in two steps, and beyond that nothing is left. -/
def scaled (significand : Nat) (exponent : Int) : Except ReadError Binary64 :=
  let start := Binary64.ofNat significand
  let power := exponent.natAbs
  if significand = 0 then .ok Binary64.zero
  else if 0 ≤ exponent then
    if 308 < power then .error .numberOutOfRange
    else
      match start.mul (powerOfTen power) with
      | .infinite => .error .numberOutOfRange
      | magnitude => .ok magnitude
  else if power ≤ 308 then .ok (start.div (powerOfTen power))
  else if power ≤ 616 then .ok ((start.div (powerOfTen 308)).div (powerOfTen (power - 308)))
  else .ok Binary64.zero

/-- The greatest power of ten that is computed with. -/
def maxWrittenExponent : Nat := 2147483647

/-- The number that a literal writes. Without a point and a power of ten it is an integer if it
fits into 64 bits, with or without a sign; minus zero and everything else is a magnitude. -/
def numberOf (l : Literal) : Except ReadError Number :=
  let (wholePart, wholeLeft) := gather 0 l.whole
  let fraction := l.fraction.getD []
  let (significand, fractionLeft) := gather wholePart fraction
  let shift : Int := wholeLeft.length - (fraction.length - fractionLeft.length : Nat)
  if l.isPlain && wholeLeft.isEmpty && !(l.negative && (significand = 0 || twoTo 63 < significand))
  then .ok (.integer (if l.negative then -(significand : Int) else significand))
  else
    let exponent := l.exponent.getD ⟨false, []⟩
    let power := ofDigits exponent.digits
    let magnitude :=
      if maxWrittenExponent < power then
        if significand ≠ 0 ∧ exponent.negative = false then .error .numberOutOfRange
        else .ok Binary64.zero
      else scaled significand (shift + exponent.value)
    magnitude.map (Number.float l.negative)

/-- A number that is written correctly: any size may be skipped. -/
def numberLexeme (l : Literal) : Lexeme Number where
  read := numberOf l
  skip := none

/-- Scans the power of ten of a number. -/
def scanExponent (negative : Bool) (whole : List Char) (fraction : Option (List Char)) :
    List Char → Lexeme Number × List Char
  | [] => (numberLexeme ⟨negative, whole, fraction, none⟩, [])
  | c :: rest =>
    if c = 'e' ∨ c = 'E' then
      let (minus, unsigned) := splitSign rest
      let (digits, behind) := splitDigits unsigned
      if digits.isEmpty then (missingDigit unsigned, [])
      else (numberLexeme ⟨negative, whole, fraction, some ⟨minus, digits⟩⟩, behind)
    else (numberLexeme ⟨negative, whole, fraction, none⟩, c :: rest)

/-- Scans the fraction of a number and what follows it. -/
def scanFraction (negative : Bool) (whole : List Char) (text : List Char) :
    Lexeme Number × List Char :=
  match splitFraction text with
  | (some [], rest) => (missingDigit rest, [])
  | (fraction, rest) => scanExponent negative whole fraction rest

/-- Scans a number behind its sign. -/
def scanUnsigned (negative : Bool) (text : List Char) : Lexeme Number × List Char :=
  match splitDigits text with
  | ([], rest) => (missingDigit rest, [])
  | ('0' :: _ :: _, _) => (⟨.error .invalidNumber, some .invalidNumber⟩, [])
  | (whole, rest) => scanFraction negative whole rest

private theorem splitSign_length (text : List Char) :
    (splitSign text).2.length ≤ text.length := by
  unfold splitSign
  split <;> simp

private theorem splitDigits_length (text : List Char) :
    (splitDigits text).2.length ≤ text.length := by
  simpa [splitDigits] using (List.dropWhile_sublist Char.isDigit).length_le

private theorem splitFraction_length (text : List Char) :
    (splitFraction text).2.length ≤ text.length := by
  unfold splitFraction
  split
  · next rest => have := splitDigits_length rest; simp; omega
  · simp

private theorem scanExponent_length (negative : Bool) (whole : List Char)
    (fraction : Option (List Char)) (text : List Char) :
    (scanExponent negative whole fraction text).2.length ≤ text.length := by
  cases text with
  | nil => simp [scanExponent]
  | cons c rest =>
    have sign := splitSign_length rest
    have digits := splitDigits_length (splitSign rest).2
    simp only [scanExponent]
    split
    · split
      · simp
      · simp only [List.length_cons]
        omega
    · simp

private theorem scanFraction_length (negative : Bool) (whole text : List Char) :
    (scanFraction negative whole text).2.length ≤ text.length := by
  have left := splitFraction_length text
  unfold scanFraction
  split
  · simp
  · next fraction rest _ eq =>
    have := scanExponent_length negative whole fraction rest
    rw [eq] at left
    simp only at left
    omega

/-- A number takes at least the digits it begins with. -/
theorem scanUnsigned_length (negative : Bool) (text : List Char) :
    (scanUnsigned negative text).2.length ≤ (splitDigits text).2.length := by
  unfold scanUnsigned
  split
  · simp
  · simp
  · next whole rest _ _ eq => simpa [eq] using scanFraction_length negative whole rest

/-- Scans the rest of a word whose first letter has been taken. -/
def scanWord (token : Token) : (letters text : List Char) → Token × List Char
  | [], text => (token, text)
  | _ :: _, [] => (.invalid (.endOfText .value), [])
  | letter :: letters, c :: text =>
    if letter = c then scanWord token letters text else (.invalid .expectedWord, [])

private theorem scanWord_length (token : Token) (letters text : List Char) :
    (scanWord token letters text).2.length ≤ text.length := by
  induction letters generalizing text with
  | nil => simp [scanWord]
  | cons letter letters ih =>
    cases text with
    | nil => simp [scanWord]
    | cons c text =>
      have := ih text
      simp only [scanWord]
      split <;> simp
      omega

/-- Scans the token that begins with a character. -/
def scanToken (c : Char) (rest : List Char) : Token × List Char :=
  match c with
  | '[' => (.openArray, rest)
  | ']' => (.closeArray, rest)
  | '\x7b' => (.openObject, rest)
  | '\x7d' => (.closeObject, rest)
  | ':' => (.colon, rest)
  | ',' => (.comma, rest)
  | 'n' => scanWord .null ['u', 'l', 'l'] rest
  | 't' => scanWord (.bool true) ['r', 'u', 'e'] rest
  | 'f' => scanWord (.bool false) ['a', 'l', 's', 'e'] rest
  | '"' =>
    let inside := scanInside rest
    (.string inside.lexeme, inside.rest)
  | '-' =>
    let scanned := scanUnsigned true rest
    (.number scanned.1, scanned.2)
  | c =>
    if c.isDigit then
      let scanned := scanUnsigned false (c :: rest)
      (.number scanned.1, scanned.2)
    else (.invalid .expectedValue, [])

/-- A token takes at least its first character. -/
theorem scanToken_length (c : Char) (rest : List Char) :
    (scanToken c rest).2.length < (c :: rest).length := by
  have inside := scanInside_rest_length rest
  have negative := scanUnsigned_length true rest
  have digits := splitDigits_length rest
  unfold scanToken
  split <;> simp only [List.length_cons] <;> try omega
  · have := scanWord_length .null ['u', 'l', 'l'] rest; omega
  · have := scanWord_length (.bool true) ['r', 'u', 'e'] rest; omega
  · have := scanWord_length (.bool false) ['a', 'l', 's', 'e'] rest; omega
  · split
    · next digit =>
      have positive := scanUnsigned_length false (c :: rest)
      have shorter : (splitDigits (c :: rest)).2 = (splitDigits rest).2 := by
        simp [splitDigits, digit]
      rw [shorter] at positive
      simp only
      omega
    · simp

/-- The tokens of a text. -/
def scan : List Char → List Token
  | [] => []
  | c :: rest =>
    if isSpace c then scan rest
    else (scanToken c rest).1 :: scan (scanToken c rest).2
termination_by text => text.length
decreasing_by
  · simp
  · exact scanToken_length c rest

end Questionnaire.Json
