import BuildGraph.Decimal.Binary
set_option autoImplicit false

/-!
# Shortest decimals

A message shows a binary number by the fewest decimal digits that read back as the same number, and
of those the nearest. The digits are found in exact arithmetic: for one, two, … digits the two
neighbours of the number on that decimal grid are tried, and the first grid with a neighbour inside
the interval of numbers that round to it wins.
-/

namespace BuildGraph.Decimal

/-- The interval of ratios that round to one binary number, over a common denominator: the number
itself, the bounds around it, and whether the bounds belong to it. -/
structure Interval where
  low : Nat
  value : Nat
  high : Nat
  den : Nat
  closed : Bool
  deriving DecidableEq, Repr, Inhabited

/-- The interval of `mantissa * 2 ^ exponent`. Below a power of two the next number is half as far
away, unless the exponent is already the least. -/
def Interval.around (mantissa : Nat) (exponent : Int) : Interval :=
  let (unit, den) := scaleTwo 1 4 exponent
  let below := if mantissa = Nat.pow 2 (Binary.precision - 1) ∧ exponent ≠ Binary.leastExponent
    then 1 else 2
  { low := (4 * mantissa - below) * unit
    value := 4 * mantissa * unit
    high := (4 * mantissa + 2) * unit
    den := den
    closed := mantissa % 2 = 0 }

/-- Whether `num / den` lies in the interval. -/
def Interval.has (i : Interval) (num den : Nat) : Bool :=
  if i.closed then
    i.low * den ≤ num * i.den && num * i.den ≤ i.high * den
  else
    i.low * den < num * i.den && num * i.den < i.high * den

/-- A multiple of a power of ten as a ratio. -/
def gridPoint (digits : Nat) (exponent : Int) : Nat × Nat :=
  if 0 ≤ exponent then (digits * Nat.pow 10 exponent.toNat, 1)
  else (digits, Nat.pow 10 (-exponent).toNat)

/-- The neighbour of the number on the grid of multiples of `10 ^ exponent` that lies in the
interval and is nearest to the number, if there is one. -/
def Interval.onGrid? (i : Interval) (exponent : Int) : Option Nat :=
  let (n, d) := if 0 ≤ exponent then (i.value, i.den * Nat.pow 10 exponent.toNat)
    else (i.value * Nat.pow 10 (-exponent).toNat, i.den)
  let down := n / d
  let up := down + 1
  let fits (k : Nat) : Bool := let (a, b) := gridPoint k exponent; i.has a b
  match fits down && down != 0, fits up with
  | true, true => if 2 * (n % d) < d ∨ (2 * (n % d) = d ∧ down % 2 = 0) then some down else some up
  | true, false => some down
  | false, true => some up
  | false, false => none

/-- The least `p` with `num / den < 10 ^ p`, searched upwards from `p`. -/
def pointFrom (num den : Nat) : Nat → Int → Int
  | 0, p => p
  | fuel + 1, p =>
    let (a, b) := gridPoint 1 p
    if num * b < a * den then p else pointFrom num den fuel (p + 1)

/-- The first grid, from `count` digits on, that has a point in the interval. -/
def Interval.search (i : Interval) (point : Int) : Nat → Nat → Option (Nat × Int)
  | 0, _ => none
  | fuel + 1, count =>
    match i.onGrid? (point - count) with
    | some k => some (k, point - count)
    | none => i.search point fuel (count + 1)

/-- The shortest decimal of a positive binary number: digits and the power of ten of the last. -/
def shortest (mantissa : Nat) (exponent : Int) : Nat × Int :=
  let i := Interval.around mantissa exponent
  (i.search (pointFrom i.value i.den 700 (-330)) 18 1).getD (0, 0)

/-- Digits written out in full, without an exponent. -/
def positional (digits : Nat) (exponent : Int) : String :=
  let cs := Nat.toDigits 10 digits
  if 0 ≤ exponent then String.ofList (cs ++ List.replicate exponent.toNat '0')
  else
    let places := (-exponent).toNat
    let padded := List.replicate (places + 1 - cs.length) '0' ++ cs
    let whole := padded.length - places
    String.ofList (padded.take whole ++ '.' :: padded.drop whole)

/-- The decimal without zeros at its end. -/
def withoutTrailingZeros : Nat → Nat → Int → Nat × Int
  | 0, digits, exponent => (digits, exponent)
  | fuel + 1, digits, exponent =>
    if digits ≠ 0 ∧ digits % 10 = 0 then withoutTrailingZeros fuel (digits / 10) (exponent + 1)
    else (digits, exponent)

/-- A binary number as a message shows it: always with a decimal point when it is finite. -/
def Binary.text : Binary → String
  | .finite negative m e =>
    let sign := if negative then "-" else ""
    if m = 0 then sign ++ "0.0"
    else
      let (k, x) := shortest m e
      let (k, x) := withoutTrailingZeros 20 k x
      let body := positional k x
      sign ++ (if 0 ≤ x then body ++ ".0" else body)
  | .infinite negative => if negative then "-inf" else "inf"
  | .undefined => "NaN"

end BuildGraph.Decimal
