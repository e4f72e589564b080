import Questionnaire.Text.Character

/-! Cleaning of free text before it is shown: script blocks go first, bodies included, then tags,
then the ASCII control characters. Each of the three passes runs once, from left to right, and
deletes the leftmost matches that do not overlap. -/
namespace Questionnaire.Text.Markup

/-- Deletes the matches that a rule finds. The rule gives the width of the match at the front of a
text, zero if there is none; the first `skip` characters belong to the match met last. -/
def deleteFrom (width : List Char → Nat) : (skip : Nat) → List Char → List Char
  | _, [] => []
  | skip + 1, _ :: rest => deleteFrom width skip rest
  | 0, c :: rest =>
    match width (c :: rest) with
    | 0 => c :: deleteFrom width 0 rest
    | matched + 1 => deleteFrom width matched rest

/-- Deletes the leftmost matches of a rule that do not overlap. -/
def delete (width : List Char → Nat) (text : List Char) : List Char :=
  deleteFrom width 0 text

/-- Whether a character spells a lower-case letter in either case. The long s is a case of `s`. -/
def spells (letter c : Char) : Bool :=
  c.toLower == letter || (letter == 's' && c == 'ſ')

/-- Whether a text begins with the word `script` in any case. -/
def beginsWithScript : List Char → Bool
  | c₁ :: c₂ :: c₃ :: c₄ :: c₅ :: c₆ :: _ =>
    spells 's' c₁ && spells 'c' c₂ && spells 'r' c₃ && spells 'i' c₄ && spells 'p' c₅ &&
      spells 't' c₆
  | _ => false

/-- The number of letters in the word `script`. -/
def scriptLength : Nat := 6

/-- The width of the tag that opens a script block at the front of a text: the word ends there,
and everything up to the next `>` belongs to the tag. -/
def openingWidth? : List Char → Option Nat
  | '<' :: rest =>
    let behind := rest.drop scriptLength
    let attributes := behind.takeWhile (· != '>')
    if beginsWithScript rest && !(behind.head?.any isWordChar) && attributes.length < behind.length
    then some (1 + scriptLength + attributes.length + 1)
    else none
  | _ => none

/-- The width of the tag that closes a script block at the front of a text: only blanks may stand
between the word and the `>`. -/
def closingWidth? : List Char → Option Nat
  | '<' :: '/' :: rest =>
    let behind := rest.drop scriptLength
    let blanks := behind.takeWhile isBlank
    if beginsWithScript rest && (behind.drop blanks.length).head? == some '>'
    then some (2 + scriptLength + blanks.length + 1)
    else none
  | _ => none

/-- How many characters a text has up to the end of its first closing tag. -/
def throughClosing? : List Char → Option Nat
  | [] => none
  | c :: rest =>
    match closingWidth? (c :: rest) with
    | some width => some width
    | none => (throughClosing? rest).map (· + 1)

/-- The width of the script block at the front of a text, from its opening tag to the first
closing tag behind it; zero if there is none. -/
def scriptWidth (text : List Char) : Nat :=
  match openingWidth? text with
  | none => 0
  | some opening => ((throughClosing? (text.drop opening)).map (opening + ·)).getD 0

/-- The width of a tag's inside and its end: no angle bracket comes before the `>`. -/
def tagBodyWidth? (text : List Char) : Option Nat :=
  let inside := text.takeWhile fun c => c != '<' && c != '>'
  if (text.drop inside.length).head? == some '>' then some (inside.length + 1) else none

/-- The width of the tag at the front of a text: `<` or `</`, then an ASCII letter; zero if there
is none. -/
def tagWidth : List Char → Nat
  | '<' :: '/' :: c :: rest => if c.isAlpha then ((tagBodyWidth? rest).map (3 + ·)).getD 0 else 0
  | '<' :: c :: rest => if c.isAlpha then ((tagBodyWidth? rest).map (2 + ·)).getD 0 else 0
  | _ => 0

/-- The control characters of ASCII. -/
def isControl (c : Char) : Bool :=
  c.toNat < 0x20 || c.toNat == 0x7F

/-- Removes script blocks, then tags, then control characters. -/
def cleanChars (text : List Char) : List Char :=
  (delete tagWidth (delete scriptWidth text)).filter fun c => !isControl c

/-- The text without script blocks, tags and control characters. -/
def clean (text : String) : String :=
  String.ofList (cleanChars text.toList)

end Questionnaire.Text.Markup
