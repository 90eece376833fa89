set_option autoImplicit false

/-!
# Binary floating-point numbers

A number with a fraction is kept as the nearest binary number with 53 significant bits, as
documents promise it to their readers. It is held exactly, as a whole number times a power of two,
and `ofDecimal?` rounds a decimal to it in exact arithmetic: to the nearest one, and of two equally
near ones to the one whose whole number is even.
-/

namespace BuildGraph.Decimal

/-- A binary number: `mantissa * 2 ^ exponent` up to sign, one of the two infinities, or no
number at all. -/
inductive Binary
  | finite (negative : Bool) (mantissa : Nat) (exponent : Int)
  | infinite (negative : Bool)
  | undefined
  deriving DecidableEq, Repr, Inhabited

namespace Binary

/-- The number of significant bits. -/
def precision : Nat := 53

/-- The exponent of the smallest positive number. -/
def leastExponent : Int := -1074

/-- The largest exponent of a finite number. -/
def greatestExponent : Int := 971

end Binary

/-- The quotient of two natural numbers, rounded to the nearest; a tie goes to the even one. -/
def roundDiv (num den : Nat) : Nat :=
  let q := num / den
  let r := num % den
  if 2 * r < den then q
  else if den < 2 * r then q + 1
  else if q % 2 = 0 then q else q + 1

/-- A number and its denominator, multiplied by a power of two. -/
def scaleTwo (num den : Nat) (e : Int) : Nat × Nat :=
  if 0 ≤ e then (num * Nat.pow 2 e.toNat, den) else (num, den * Nat.pow 2 (-e).toNat)

/-- The greatest `e` with `2 ^ e ≤ num / den`, for positive arguments. -/
def log2Ratio (num den : Nat) : Int :=
  let e : Int := (num.log2 : Int) - (den.log2 : Int)
  let (n, d) := scaleTwo num den (-e)
  if d ≤ n then e else e - 1

namespace Binary

/-- The binary number nearest to `num / den`; `none` when it lies beyond the finite ones. -/
def ofRatio? (negative : Bool) (num den : Nat) : Option Binary :=
  if num = 0 then some (finite negative 0 leastExponent)
  else
    let e := max (log2Ratio num den - (precision - 1 : Nat)) leastExponent
    let (n, d) := scaleTwo num den (-e)
    let m := roundDiv n d
    let (m, e) := if m = Nat.pow 2 precision then (Nat.pow 2 (precision - 1), e + 1) else (m, e)
    if greatestExponent < e then none else some (finite negative m e)

/-- The binary number nearest to `digits * 10 ^ exponent`; `none` when it lies beyond the finite
ones. The number of digits tells at once that a very small number is zero and a very large one
beyond reach, so that no huge power is formed. -/
def ofDecimal? (negative : Bool) (digits : Nat) (exponent : Int) : Option Binary :=
  let size : Int := (Nat.toDigits 10 digits).length + exponent
  if digits = 0 ∨ size < -400 then some (finite negative 0 leastExponent)
  else if 400 < size then none
  else if 0 ≤ exponent then ofRatio? negative (digits * Nat.pow 10 exponent.toNat) 1
  else ofRatio? negative digits (Nat.pow 10 (-exponent).toNat)

end Binary

end BuildGraph.Decimal
