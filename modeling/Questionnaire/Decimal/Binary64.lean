/-! Binary floating-point magnitudes of 64 bits, and the decimal literals that are rounded to them. A
literal stands for an exact number, a coefficient times a power of ten. A magnitude is a mantissa of at
most 53 bits times a power of two, or infinite. Every operation computes the exact result as a quotient
and rounds it once, to the nearest magnitude and a tie to the even mantissa. -/
namespace Questionnaire.Decimal

/-- A power of two. -/
def twoTo (exponent : Nat) : Nat :=
  Nat.pow 2 exponent

/-- A power of ten. -/
def tenTo (exponent : Nat) : Nat :=
  Nat.pow 10 exponent

/-- Powers of two are not zero. -/
theorem twoTo_pos (exponent : Nat) : 0 < twoTo exponent :=
  Nat.pow_pos (by decide)

/-- Powers of ten are not zero. -/
theorem tenTo_pos (exponent : Nat) : 0 < tenTo exponent :=
  Nat.pow_pos (by decide)

/-- The value of a decimal digit. -/
def digitValue (c : Char) : Nat :=
  c.toNat - '0'.toNat

/-- Reads one more digit behind a number. -/
def appendDigit (n : Nat) (c : Char) : Nat :=
  10 * n + digitValue c

/-- The number that a run of digits writes, the most significant first. -/
def ofDigits (digits : List Char) : Nat :=
  digits.foldl appendDigit 0

/-- The power of ten at the end of a literal. -/
structure Exponent where
  negative : Bool
  digits : List Char
deriving DecidableEq, Repr

namespace Exponent

/-- The value of the power of ten. -/
def value (e : Exponent) : Int :=
  if e.negative then -(ofDigits e.digits : Int) else ofDigits e.digits

end Exponent

/-- A decimal literal by its parts. A fraction without digits is a point at the end. -/
structure Literal where
  negative : Bool
  whole : List Char
  fraction : Option (List Char)
  exponent : Option Exponent
deriving DecidableEq, Repr

namespace Literal

/-- The digits on both sides of the point as one number. -/
def coefficient (l : Literal) : Nat :=
  ofDigits (l.whole ++ l.fraction.getD [])

/-- The power of ten by which the coefficient is multiplied. -/
def scale (l : Literal) : Int :=
  (l.exponent.map Exponent.value).getD 0 - (l.fraction.getD []).length

/-- A plain literal is written with digits alone. -/
def isPlain (l : Literal) : Bool :=
  l.fraction.isNone && l.exponent.isNone

/-- The integer that a plain literal writes. -/
def plainValue (l : Literal) : Int :=
  if l.negative then -(ofDigits l.whole : Int) else ofDigits l.whole

end Literal

/-- Takes a sign off a text. -/
def splitSign : List Char → Bool × List Char
  | '-' :: rest => (true, rest)
  | '+' :: rest => (false, rest)
  | text => (false, text)

/-- Takes the longest run of digits off a text. -/
def splitDigits (text : List Char) : List Char × List Char :=
  (text.takeWhile Char.isDigit, text.dropWhile Char.isDigit)

/-- Takes a point and the digits behind it off a text. -/
def splitFraction : List Char → Option (List Char) × List Char
  | '.' :: rest => (some (splitDigits rest).1, (splitDigits rest).2)
  | text => (none, text)

/-- Reads a power of ten that takes up a whole text, or the empty text; `none` if the text is
neither. -/
def wholeExponent? : List Char → Option (Option Exponent)
  | [] => some none
  | c :: rest =>
    let (negative, digits) := splitSign rest
    if (c == 'e' || c == 'E') && digits != [] && digits.all Char.isDigit
    then some (some ⟨negative, digits⟩)
    else none

/-- Reads a text that is a decimal literal from end to end: an optional sign, digits on at least
one side of an optional point, and an optional power of ten. -/
def Literal.parse? (text : List Char) : Option Literal :=
  let (negative, unsigned) := splitSign text
  let (whole, behindWhole) := splitDigits unsigned
  let (fraction, behindFraction) := splitFraction behindWhole
  if whole ++ fraction.getD [] = [] then none
  else (wholeExponent? behindFraction).map fun exponent => ⟨negative, whole, fraction, exponent⟩

/-- The magnitude of a binary floating-point number of 64 bits. -/
inductive Binary64 where
  | finite (mantissa : Nat) (exponent : Int)
  | infinite
deriving DecidableEq, Repr

namespace Binary64

/-- The least power of two that a mantissa is multiplied by. -/
def minExponent : Int := -1074

/-- The greatest power of two that a mantissa is multiplied by. -/
def maxExponent : Int := 971

/-- The number of bits of a mantissa. -/
def precision : Nat := 53

/-- The magnitude zero. -/
def zero : Binary64 := finite 0 minExponent

/-- A quotient rounded to the nearest integer, a tie to the even one. -/
def roundQuotient (num den : Nat) : Nat :=
  let floor := num / den
  let doubled := 2 * (num % den)
  if doubled < den then floor
  else if den < doubled then floor + 1
  else floor + floor % 2

/-- The quotient `num / den` divided by a power of two, as a pair again. -/
def overPower (num den : Nat) (exponent : Int) : Nat × Nat :=
  if exponent < 0 then (num * twoTo exponent.natAbs, den) else (num, den * twoTo exponent.natAbs)

/-- The power of two at which a quotient has a mantissa of full precision, or the least power. -/
def exponentFor (num den : Nat) : Int :=
  let estimate := (Nat.log2 num : Int) - Nat.log2 den - (precision - 1 : Nat)
  let (scaledNum, scaledDen) := overPower num den estimate
  let exact := if scaledNum / scaledDen < twoTo (precision - 1) then estimate - 1 else estimate
  max exact minExponent

/-- The magnitude of a mantissa that may have grown by one bit when it was rounded. -/
def normalized (mantissa : Nat) (exponent : Int) : Binary64 :=
  let (m, q) :=
    if mantissa = twoTo precision then (twoTo (precision - 1), exponent + 1)
    else (mantissa, exponent)
  if maxExponent < q then infinite else finite m q

/-- The magnitude nearest to the quotient `num / den`. -/
def nearest (num den : Nat) : Binary64 :=
  if num = 0 then zero
  else
    let q := exponentFor num den
    let (scaledNum, scaledDen) := overPower num den q
    normalized (roundQuotient scaledNum scaledDen) q

/-- The magnitude nearest to a natural number. -/
def ofNat (n : Nat) : Binary64 :=
  nearest n 1

/-- A finite magnitude as an exact quotient of natural numbers. -/
def quotient (mantissa : Nat) (exponent : Int) : Nat × Nat :=
  overPower mantissa 1 (-exponent)

/-- The product of two magnitudes, rounded once; zero times infinite does not occur. -/
def mul : Binary64 → Binary64 → Binary64
  | finite m₁ q₁, finite m₂ q₂ =>
    let (num, den) := quotient (m₁ * m₂) (q₁ + q₂)
    nearest num den
  | _, _ => infinite

/-- The quotient of two magnitudes, rounded once; the divisor is finite and not zero. -/
def div : Binary64 → Binary64 → Binary64
  | finite m₁ q₁, finite m₂ q₂ =>
    let (num, den) := quotient m₁ (q₁ - q₂)
    nearest num (den * m₂)
  | infinite, _ => infinite
  | _, infinite => zero

/-- The natural number that a magnitude is, if it is one. -/
def toNat? : Binary64 → Option Nat
  | finite m q =>
    let (num, den) := quotient m q
    if num % den = 0 then some (num / den) else none
  | infinite => none

/-- The magnitude nearest to a coefficient times a power of ten. Beyond the range of the format
the answer is known from the number of digits alone. -/
def ofScaled (coefficient : Nat) (scale : Int) : Binary64 :=
  let order := ((Nat.toDigits 10 coefficient).length : Int) + scale
  if coefficient = 0 ∨ order < -330 then zero
  else if 310 < order then infinite
  else if scale < 0 then nearest coefficient (tenTo scale.natAbs)
  else nearest (coefficient * tenTo scale.natAbs) 1

end Binary64

/-- The magnitude nearest to the number that a literal writes, without its sign. -/
def Literal.toBinary64 (l : Literal) : Binary64 :=
  Binary64.ofScaled l.coefficient l.scale

end Questionnaire.Decimal
