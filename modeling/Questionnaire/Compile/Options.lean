import Questionnaire.Decimal.Shortest
import Questionnaire.Json.Value
import Questionnaire.Keyed
import Questionnaire.Text.Quoted
import Questionnaire.Toml.Document

/-! The switches of a compilation, and how they are read from a TOML document. The document's keys are
taken in their order as texts, not in its own, and the first one with a wrong value is reported.
Unknown keys do not matter, but a text whose numbers are too large is no document. -/
namespace Questionnaire
open Decimal Toml

/-- How the elements of a form are arranged. -/
inductive Layout where
  /-- One page for each group. -/
  | pages
  /-- One list of elements. -/
  | flat
deriving DecidableEq, Repr

/-- The name of a layout in options files. -/
def Layout.name : Layout → String
  | pages => "pages"
  | flat => "flat"

/-- The layout of a name. -/
def Layout.ofName? (name : String) : Option Layout :=
  if name = "pages" then some pages else if name = "flat" then some flat else none

/-- The switches of a compilation. What is not said has its default. -/
structure CompileOptions where
  /-- Whether the form takes over the conditions. -/
  enableFilters : Bool := false
  layout : Layout := .pages
  /-- Whether a survey with several languages begins with a choice of language. -/
  languagePage : Bool := true
deriving DecidableEq, Repr

/-- Why a text holds no compile options. -/
inductive OptionsError where
  /-- The text is no TOML document. -/
  | malformed
  /-- Something else than a truth value, as it is described in messages. -/
  | notBoolean (found : String)
  | unknownLayout (name : String)
  /-- A layout that is neither a text nor a table. -/
  | layoutKind
  /-- A table that names no layout. -/
  | noLayout
  /-- A table that names several layouts. -/
  | severalLayouts
  /-- A layout's own table holds something. -/
  | layoutTableFilled
  /-- A list in the place of a layout's own table holds something. -/
  | layoutListFilled
  /-- Something else in the place of a layout's own table. -/
  | layoutNotTable (found : String)
deriving DecidableEq, Repr

namespace OptionsError

/-- The message of an error; a text that is no document has none of its own. -/
def message : OptionsError → String
  | malformed => ""
  | notBoolean found => s!"invalid type: {found}, expected a boolean"
  | unknownLayout name => s!"unknown variant `{name}`, expected `pages` or `flat`"
  | layoutKind => "wanted string or table"
  | noLayout => "wanted exactly 1 element, found 0 elements"
  | severalLayouts => "wanted exactly 1 element, more than 1 element"
  | layoutTableFilled => "expected empty table"
  | layoutListFilled => "expected empty array"
  | layoutNotTable found => s!"expected table, found {found}"

end OptionsError

namespace OptionsFile

/-- Numbers have the fewest digits that read back, the greater one if two are equally near, and
are always written positionally. -/
def floatFormat : FloatFormat where
  tie := .up
  positionalRange := none

/-- The text of a floating-point number. -/
def floatText : Toml.Float → String
  | .nan => "NaN"
  | .infinity negative => if negative then "-inf" else "inf"
  | .number negative magnitude => floatFormat.text negative magnitude

/-- An item as it is described in messages; dates count as maps. -/
def describe : Item → String
  | .scalar (.boolean value) => s!"boolean `{value}`"
  | .scalar (.integer value) => s!"integer `{value}`"
  | .scalar (.float value) => s!"floating point `{floatText value}`"
  | .scalar (.string text) => s!"string {Text.Quoted.encode text}"
  | .scalar .dateTime | .table _ _ => "map"
  | .array _ | .tables _ => "sequence"

/-- A truth value. -/
def readFlag : Item → Except OptionsError Bool
  | .scalar (.boolean value) => .ok value
  | item => .error (.notBoolean (describe item))

/-- The kind of a value in the place of a layout's own table. -/
def kindName : Scalar → String
  | .boolean _ => "boolean"
  | .integer _ => "integer"
  | .float _ => "float"
  | .string _ => "string"
  | .dateTime => "datetime"

/-- The layout of a name. -/
def readLayoutName (name : String) : Except OptionsError Layout :=
  match Layout.ofName? name with
  | some layout => .ok layout
  | none => .error (.unknownLayout name)

/-- A layout: its name, or a table that holds nothing but an empty table under the name. -/
def readLayout : Item → Except OptionsError Layout
  | .scalar (.string name) => readLayoutName name
  | .table _ [] => .error .noLayout
  | .table _ [(name, content)] => do
    let layout ← readLayoutName name
    match content with
    | .table _ [] | .array [] => return layout
    | .table _ _ => .error .layoutTableFilled
    | .array _ | .tables _ => .error .layoutListFilled
    | .scalar value => .error (.layoutNotTable (kindName value))
  | .table _ _ => .error .severalLayouts
  | _ => .error .layoutKind

/-- Whether a number can be represented: an integer from `least` to below `bound`, or a
floating-point number that is not too large. -/
def isRepresentable (least bound : Int) : Scalar → Bool
  | .integer value => least ≤ value && value < bound
  | .float (.number _ .infinite) => false
  | _ => true

/-- Integers may have 128 bits, with or without a sign. -/
def isWide (value : Scalar) : Bool :=
  isRepresentable (-(twoTo 127 : Int)) (twoTo 128) value

/-- Integers may have 64 bits with a sign. -/
def isNarrow (value : Scalar) : Bool :=
  isRepresentable (-(twoTo 63 : Int)) (twoTo 63) value

/-- Takes one key of a document into the options. -/
def readMember (options : CompileOptions) (member : String × Item) :
    Except OptionsError CompileOptions :=
  match member with
  | ("enable_filters", item) => do
    return { options with enableFilters := ← readFlag item }
  | ("language_page", item) => do
    return { options with languagePage := ← readFlag item }
  | ("layout", item) => do return { options with layout := ← readLayout item }
  | _ => .ok options

end OptionsFile

/-- The compile options that a text sets; what it does not mention has its default. Integers of
keys that do not matter may have up to 128 bits, but beside a wrong value they are too large for
a document if they have more than 64. -/
def CompileOptions.ofText (text : String) : Except OptionsError CompileOptions :=
  match Toml.parse? text with
  | none => .error .malformed
  | some members =>
    if !members.all OptionsFile.isWide then .error .malformed
    else
      match (Keyed.ofList members).entries.foldlM OptionsFile.readMember {} with
      | .ok options => .ok options
      | .error error => .error (if members.all OptionsFile.isNarrow then error else .malformed)

end Questionnaire
