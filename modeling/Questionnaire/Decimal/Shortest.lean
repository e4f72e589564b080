import Questionnaire.Decimal.Binary64

/-! The shortest decimal text of a binary floating-point magnitude. Among the decimals that round
to the magnitude the digits are those on the coarsest grid of powers of ten, and of two such
decimals the nearer one. How the digits are laid out is decided by the format that shows them. -/
namespace Questionnaire.Decimal

/-- A decimal number: digits without trailing zeros times a power of ten. -/
structure Digits where
  digits : Nat
  exponent : Int
deriving DecidableEq, Repr

/-- Which decimal is taken when two of one grid are equally near. -/
inductive Tie where
  | even
  | up
deriving DecidableEq, Repr

/-- The reals that round to a magnitude, as an interval around four times the mantissa in quarters
of the last place. -/
structure Interval where
  lower : Nat
  middle : Nat
  upper : Nat
  closed : Bool

/-- The interval of a mantissa: the gap below a power of two is half as wide, except at the end of
the range, and the ends belong to an even mantissa. -/
def Interval.of (mantissa : Nat) (exponent : Int) : Interval where
  lower :=
    if mantissa = twoTo (Binary64.precision - 1) ∧ Binary64.minExponent < exponent
    then 4 * mantissa - 1 else 4 * mantissa - 2
  middle := 4 * mantissa
  upper := 4 * mantissa + 2
  closed := mantissa % 2 = 0

/-- The point of the grid of a power of ten that the shortest text takes, if the interval holds
one. `num / den` is the factor from quarters to units of the grid. -/
def gridPoint? (tie : Tie) (i : Interval) (num den : Nat) : Option Nat :=
  let inside := fun (n : Nat) =>
    if i.closed then decide (i.lower * num ≤ n * den ∧ n * den ≤ i.upper * num)
    else decide (i.lower * num < n * den ∧ n * den < i.upper * num)
  let below := i.middle * num / den
  let above := if i.middle * num % den = 0 then below else below + 1
  let nearer :=
    let gap := 2 * (i.middle * num % den)
    if gap < den then below
    else if den < gap then above
    else match tie with
      | .even => if below % 2 = 0 then below else above
      | .up => above
  if inside below && inside above then some nearer
  else if inside below then some below
  else if inside above then some above
  else none

/-- The factor from quarters of the last binary place to units of a power of ten. -/
def gridFactor (binary decimal : Int) : Nat × Nat :=
  let twos := binary - 2
  let num := (if twos < 0 then 1 else twoTo twos.natAbs) *
    (if decimal < 0 then tenTo decimal.natAbs else 1)
  let den := (if twos < 0 then twoTo twos.natAbs else 1) *
    (if decimal < 0 then 1 else tenTo decimal.natAbs)
  (num, den)

/-- The power of ten of the coarsest grid that is tried. -/
def coarsest : Int := 309

/-- The number of grids that are tried; the finest has the power of ten of the least magnitude. -/
def gridCount : Nat := 634

/-- Moves the trailing zeros of the digits into the exponent. -/
def Digits.stripped (d : Digits) : (zeros : Nat) → Digits
  | 0 => d
  | zeros + 1 =>
    if d.digits ≠ 0 ∧ d.digits % 10 = 0
    then Digits.stripped ⟨d.digits / 10, d.exponent + 1⟩ zeros
    else d

/-- The shortest digits that read back as a finite magnitude. -/
def shortest (tie : Tie) (mantissa : Nat) (exponent : Int) : Digits :=
  if mantissa = 0 then ⟨0, 0⟩
  else
    let interval := Interval.of mantissa exponent
    let found := (List.range gridCount).findSome? fun (step : Nat) =>
      let grid := coarsest - step
      let (num, den) := gridFactor exponent grid
      match gridPoint? tie interval num den with
      | some (point + 1) => some (Digits.mk (point + 1) grid)
      | _ => none
    (found.getD ⟨0, 0⟩).stripped 20

/-- The digits of a decimal number as characters. -/
def Digits.chars (d : Digits) : List Char :=
  Nat.toDigits 10 d.digits

/-- The power of ten of the first digit. -/
def Digits.leading (d : Digits) : Int :=
  (d.chars.length : Int) - 1 + d.exponent

/-- Positional notation, with at least one digit on each side of the point. -/
def Digits.positional (d : Digits) : List Char :=
  let chars := d.chars
  if 0 ≤ d.exponent then chars ++ List.replicate d.exponent.natAbs '0' ++ ['.', '0']
  else
    let places := d.exponent.natAbs
    if places < chars.length then
      chars.take (chars.length - places) ++ '.' :: chars.drop (chars.length - places)
    else ['0', '.'] ++ List.replicate (places - chars.length) '0' ++ chars

/-- Notation with one digit before the point and a signed power of ten. -/
def Digits.scientific (d : Digits) : List Char :=
  let mantissa := match d.chars with
    | [] => []
    | [c] => [c]
    | c :: rest => c :: '.' :: rest
  let sign := if d.leading < 0 then '-' else '+'
  mantissa ++ 'e' :: sign :: Nat.toDigits 10 d.leading.natAbs

/-- The decisions of a format that shows floating-point numbers. -/
structure FloatFormat where
  /-- Which decimal is taken when two are equally near. -/
  tie : Tie
  /-- The powers of ten of the first digit that are written positionally, if not all are. -/
  positionalRange : Option (Int × Int)

/-- The text of a signed magnitude. -/
def FloatFormat.text (format : FloatFormat) (negative : Bool) (magnitude : Binary64) : String :=
  let unsigned := match magnitude with
    | .infinite => ['i', 'n', 'f']
    | .finite m q =>
      let d := shortest format.tie m q
      match format.positionalRange with
      | none => d.positional
      | some (least, greatest) =>
        if m = 0 ∨ (least ≤ d.leading ∧ d.leading ≤ greatest) then d.positional else d.scientific
  String.ofList (if negative then '-' :: unsigned else unsigned)

end Questionnaire.Decimal
