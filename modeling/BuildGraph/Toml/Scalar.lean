import BuildGraph.Toml.Value
set_option autoImplicit false

/-!
# Unquoted values

Numbers, truth values and moments are written without quotes. An integer must fit into 128 bits,
with a sign if it is negative; a float is rounded to the nearest binary number and must not be
larger than the largest. An underscore may stand between two digits, and a decimal has no
needless zero in front.
-/

namespace BuildGraph.Toml

open BuildGraph.Decimal (Binary)

/-- Digits without the underscores between them; `none` when an underscore does not stand between
two digits, or there is no digit. -/
def plainDigits? (isDigit : Char → Bool) : List Char → Option (List Char)
  | [] => none
  | [c] => if isDigit c then some [c] else none
  | c :: '_' :: cs => if isDigit c then (plainDigits? isDigit cs).map (c :: ·) else none
  | c :: cs => if isDigit c then (plainDigits? isDigit cs).map (c :: ·) else none

/-- The value of a digit in any base up to sixteen. -/
def digitValue (c : Char) : Nat :=
  if c.isDigit then c.toNat - 48
  else if 'a' ≤ c ∧ c ≤ 'f' then c.toNat - 87
  else c.toNat - 55

/-- The number that digits spell in a base. -/
def ofDigits (base : Nat) (cs : List Char) : Nat :=
  cs.foldl (fun n c => base * n + digitValue c) 0

/-- The plain digits of a decimal whole number, which starts with zero only when it is zero. -/
def wholeDigits? (cs : List Char) : Option (List Char) :=
  match plainDigits? Char.isDigit cs with
  | some ['0'] => some ['0']
  | some ('0' :: _) => none
  | digits => digits

/-- A sign, which is optional, and the rest: `true` for a minus. -/
def splitSign : List Char → Bool × List Char
  | '-' :: cs => (true, cs)
  | '+' :: cs => (false, cs)
  | cs => (false, cs)

/-- The whole number that the characters spell, if they have the form of one. -/
def integer? : List Char → Option Int
  | '0' :: 'x' :: cs =>
    (plainDigits? (fun c => c.isDigit || ('a' ≤ c && c ≤ 'f') || ('A' ≤ c && c ≤ 'F')) cs).map
      fun ds => ofDigits 16 ds
  | '0' :: 'o' :: cs => (plainDigits? (fun c => '0' ≤ c && c ≤ '7') cs).map fun ds => ofDigits 8 ds
  | '0' :: 'b' :: cs =>
    (plainDigits? (fun c => c == '0' || c == '1') cs).map fun ds => ofDigits 2 ds
  | cs =>
    let (negative, cs) := splitSign cs
    (wholeDigits? cs).map fun ds =>
      let n : Int := ofDigits 10 ds
      if negative then -n else n

/-- Whether a whole number can be written: one below zero must fit into 128 bits with a sign, any
other into 128 bits without one. -/
def isWritable (n : Int) : Bool :=
  -0x80000000000000000000000000000000 ≤ n && n < 0x100000000000000000000000000000000

/-- The exponent after `e`, if the characters have the form of one. -/
def exponent? : List Char → Option Int
  | [] => some 0
  | e :: cs =>
    if e == 'e' || e == 'E' then
      let (negative, cs) := splitSign cs
      (plainDigits? Char.isDigit cs).map fun ds =>
        let n : Int := ofDigits 10 ds
        if negative then -n else n
    else none

/-- The parts of a float: sign, digits before and after the point, exponent. -/
structure FloatParts where
  negative : Bool
  whole : List Char
  fraction : List Char
  exponent : Int
  deriving DecidableEq, Repr, Inhabited

/-- The parts of the float that the characters spell, if they have the form of one. -/
def floatParts? (cs : List Char) : Option FloatParts :=
  let (negative, cs) := splitSign cs
  let body (c : Char) : Bool := c.isDigit || c == '_'
  match wholeDigits? (cs.takeWhile body), cs.dropWhile body with
  | some whole, '.' :: rest => do
    let fraction ← plainDigits? Char.isDigit (rest.takeWhile body)
    let exponent ← exponent? (rest.dropWhile body)
    some ⟨negative, whole, fraction, exponent⟩
  | some whole, e :: rest => do
    let exponent ← exponent? (e :: rest)
    some ⟨negative, whole, [], exponent⟩
  | _, _ => none

/-- The value of an unquoted run of characters. -/
def scalar (cs : List Char) : Except Fault Value :=
  let written := String.ofList cs
  if written = "true" then .ok (.boolean true)
  else if written = "false" then .ok (.boolean false)
  else if (splitSign cs).2 = "inf".toList then .ok (.float (.infinite (splitSign cs).1))
  else if (splitSign cs).2 = "nan".toList then .ok (.float .undefined)
  else match integer? cs with
  | some n => if isWritable n then .ok (.integer n) else .error (.integerOutOfRange written)
  | none =>
    match floatParts? cs with
    | some p =>
      match Binary.ofDecimal? p.negative (ofDigits 10 (p.whole ++ p.fraction))
          (p.exponent - p.fraction.length) with
      | some x => .ok (.float x)
      | none => .error (.floatOutOfRange written)
    | none =>
      match readMoment? cs with
      | some m => .ok (.moment m)
      | none => .error (.invalidScalar written)

end BuildGraph.Toml
