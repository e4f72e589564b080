import Questionnaire.Form
import Questionnaire.Text.Character

/-! Language tags, and the messages that a compiled form contains of itself in the languages for which
there is a catalog. A survey's language codes are brought into the canonical form of a tag where they are
one, whatever the format of tags. The format in use is a grammar of its own here: a tag is a language,
then perhaps a script, a region and variants, joined by hyphens. -/
namespace Questionnaire.Locale

/-- A text in lower case, as far as it is ASCII. -/
def lower (text : List Char) : List Char :=
  text.map Char.toLower

/-- How language tags are read from texts and written as texts. -/
structure TagFormat (Tag : Type) where
  read : List Char → Option Tag
  write : Tag → List Char

namespace TagFormat

variable {Tag : Type} (format : TagFormat Tag)

/-- The canonical form of a language code: the text of the tag that it is read as. A code that is not
read as a tag is put into lower case. -/
def canonicalChars (code : List Char) : List Char :=
  let cleaned := (Text.trimChars code).map fun c => if c = '_' then '-' else c
  match format.read cleaned with
  | some tag => format.write tag
  | none => lower cleaned

/-- The canonical form of a language code. -/
def canonical (code : String) : String :=
  String.ofList (format.canonicalChars code.toList)

end TagFormat

/-- A language tag in canonical case, its variants in order and each once. -/
structure LanguageTag where
  language : List Char
  script : Option (List Char)
  region : Option (List Char)
  variants : List (List Char)
deriving DecidableEq, Repr

/-- A text in upper case, as far as it is ASCII. -/
def upper (text : List Char) : List Char :=
  text.map Char.toUpper

/-- A text with a capital first letter, as far as it is ASCII. -/
def capitalized : List Char → List Char
  | [] => []
  | c :: rest => c.toUpper :: lower rest

/-- A language has two to eight letters, but not four. -/
def language? (subtag : List Char) : Option (List Char) :=
  if 2 ≤ subtag.length ∧ subtag.length ≤ 8 ∧ subtag.length ≠ 4 ∧ subtag.all Char.isAlpha
  then some (lower subtag) else none

/-- A script has four letters. -/
def script? (subtag : List Char) : Option (List Char) :=
  if subtag.length = 4 ∧ subtag.all Char.isAlpha then some (capitalized subtag) else none

/-- A region has two letters or three digits. -/
def region? (subtag : List Char) : Option (List Char) :=
  if subtag.length = 2 ∧ subtag.all Char.isAlpha then some (upper subtag)
  else if subtag.length = 3 ∧ subtag.all Char.isDigit then some subtag
  else none

/-- An ASCII character other than the null character. -/
def isPlainAscii (c : Char) : Bool :=
  0 < c.toNat && c.toNat < 128

/-- A variant has five to eight letters and digits, or four of them, or a digit and three more
characters of ASCII. -/
def variant? (subtag : List Char) : Option (List Char) :=
  let long := 5 ≤ subtag.length ∧ subtag.length ≤ 8 ∧ subtag.all Char.isAlphanum
  let short := subtag.length = 4 ∧
    (subtag.all Char.isAlphanum ∨ (subtag.head?.any Char.isDigit ∧ subtag.all isPlainAscii))
  if long ∨ short then some (lower subtag) else none

/-- The subtags between the hyphens of a text. -/
def subtags (text : List Char) : List (List Char) :=
  text.splitOn '-'

/-- Puts a variant into an ordered list; one that is there already is not repeated. -/
def insertVariant (entry : List Char) : List (List Char) → List (List Char)
  | [] => [entry]
  | first :: rest =>
    if entry < first then entry :: first :: rest
    else if entry = first then first :: rest
    else first :: insertVariant entry rest

/-- Variants in order, each once. -/
def orderVariants (variants : List (List Char)) : List (List Char) :=
  variants.foldl (fun ordered entry => insertVariant entry ordered) []

namespace LanguageTag

/-- Reads the rest of a tag behind its region: variants only. -/
def withVariants? (tag : LanguageTag) (rest : List (List Char)) : Option LanguageTag :=
  (rest.mapM variant?).map fun variants => { tag with variants := orderVariants variants }

/-- Reads the rest of a tag behind its script. -/
def withRegion? (tag : LanguageTag) : List (List Char) → Option LanguageTag
  | [] => some tag
  | subtag :: rest =>
    match region? subtag with
    | some region => { tag with region := some region }.withVariants? rest
    | none => tag.withVariants? (subtag :: rest)

/-- Reads the rest of a tag behind its language. -/
def withScript? (tag : LanguageTag) : List (List Char) → Option LanguageTag
  | [] => some tag
  | subtag :: rest =>
    match script? subtag with
    | some script => { tag with script := some script }.withRegion? rest
    | none => tag.withRegion? (subtag :: rest)

/-- Reads a language tag. -/
def parse? (text : List Char) : Option LanguageTag :=
  match subtags text with
  | [] => none
  | first :: rest => do
    let language ← language? first
    withScript? ⟨language, none, none, []⟩ rest

/-- The text of a tag. -/
def chars (tag : LanguageTag) : List Char :=
  ['-'].intercalate ([tag.language] ++ tag.script.toList ++ tag.region.toList ++ tag.variants)

/-- The format of tags without extensions. -/
def format : TagFormat LanguageTag where
  read := parse?
  write := chars

end LanguageTag

/-- The canonical form of a language code. -/
def canonical (code : String) : String :=
  LanguageTag.format.canonical code

/-- Messages by key. -/
abbrev Catalog := List (String × String)

/-- The key of the title that asks for a language. -/
def languageTitle : String := "language.title"

/-- The catalogs by language. -/
def catalogs : List (String × Catalog) := [
  ("en", [(languageTitle, "What is your preferred language?")]),
  ("de", [(languageTitle, "Welche Sprache bevorzugen Sie?")]),
  ("et", [(languageTitle, "Millist keelt eelistate?")]),
  ("fr", [(languageTitle, "Quelle langue préférez-vous ?")]),
  ("ru", [(languageTitle, "Какой язык вы предпочитаете?")])]

/-- The language whose messages are used where there are no others. -/
def fallbackLanguage : String := "en"

/-- The primary subtag of a canonical language code. -/
def primarySubtag (code : String) : String :=
  String.ofList (lower (code.toList.takeWhile (· != '-')))

/-- The catalog for a language code: that of the whole code, or else of its primary subtag. -/
def TagFormat.catalog? {Tag : Type} (format : TagFormat Tag) (code : String) : Option Catalog :=
  let tag := format.canonical code
  (catalogs.lookup tag).or (catalogs.lookup (primarySubtag tag))

/-- A message in a language, if its catalog has one. -/
def TagFormat.message? {Tag : Type} (format : TagFormat Tag) (code key : String) : Option String :=
  (format.catalog? code).bind (·.lookup key)

/-- A message in a language, if its catalog has one. -/
def message? (code key : String) : Option String :=
  LanguageTag.format.message? code key

/-- A message in a language, or in the fallback language, or else its key. -/
def message (code key : String) : String :=
  ((message? code key).or (message? fallbackLanguage key)).getD key

/-- A message in a default language and in every listed language that has one. -/
def messages (key defaultLanguage : String) (languages : List String) : LocalizedText :=
  languages.foldl
    (fun text language =>
      match message? language key with
      | some message => text.add language message
      | none => text)
    (.plain (message defaultLanguage key))

end Questionnaire.Locale
