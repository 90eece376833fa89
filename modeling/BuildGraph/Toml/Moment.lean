set_option autoImplicit false

/-!
# Dates and times of a document

A document writes a calendar date, a time of day, or both joined by `T` or one space, and a full
date-time may carry its offset from universal time. Only real days are accepted; a minute may have
a sixty-first second, and seconds that are left out are zero. A moment is shown in one form whatever
spelling it was read from: joined by `T`, with all its seconds, without a fraction that is zero and
without zeros at the end of one, and with a plus before an offset of zero minutes.
-/

namespace BuildGraph.Toml

/-- A day of the calendar. -/
structure Date where
  year : Nat
  month : Nat
  day : Nat
  deriving DecidableEq, Repr, Inhabited

/-- A time of day, with the fraction of its second in nanoseconds. -/
structure Time where
  hour : Nat
  minute : Nat
  second : Nat
  nanosecond : Nat
  deriving DecidableEq, Repr, Inhabited

/-- The distance of a local time from universal time: none by name, or minutes to the east. -/
inductive Offset
  | universal
  | east (minutes : Int)
  deriving DecidableEq, Repr, Inhabited

/-- A date, a time, or a date-time with or without an offset. -/
inductive Moment
  | date (day : Date)
  | time (clock : Time)
  | local (day : Date) (clock : Time)
  | instant (day : Date) (clock : Time) (offset : Offset)
  deriving DecidableEq, Repr, Inhabited

/-! ## Calendar -/

/-- Whether the year has a twenty-ninth of February. -/
def isLeap (year : Nat) : Bool :=
  (year % 4 == 0 && year % 100 != 0) || year % 400 == 0

/-- The number of days of a month; zero when there is no such month. -/
def daysInMonth (year month : Nat) : Nat :=
  if month = 2 then (if isLeap year then 29 else 28)
  else if month = 4 ∨ month = 6 ∨ month = 9 ∨ month = 11 then 30
  else if 1 ≤ month ∧ month ≤ 12 then 31
  else 0

/-- Whether the day exists. -/
def Date.isReal (d : Date) : Bool :=
  1 ≤ d.day && d.day ≤ daysInMonth d.year d.month

/-! ## Reading -/

/-- The number that some digits spell; `none` when another character is among them. -/
def digitsToNat? (cs : List Char) : Option Nat :=
  if cs.all Char.isDigit then some (cs.foldl (fun n c => 10 * n + (c.toNat - 48)) 0) else none

/-- `YYYY-MM-DD`, and what follows it. -/
def readDate? : List Char → Option (Date × List Char)
  | a :: b :: c :: d :: '-' :: e :: f :: '-' :: g :: h :: rest => do
    let day : Date := ⟨← digitsToNat? [a, b, c, d], ← digitsToNat? [e, f], ← digitsToNat? [g, h]⟩
    if day.isReal then some (day, rest) else none
  | _ => none

/-- The fraction of a second, cut after nine digits, and what follows it. -/
def readFraction? : List Char → Option (Nat × List Char)
  | '.' :: cs =>
    let digits := cs.takeWhile Char.isDigit
    if digits.isEmpty then none
    else do
      let nine := (digits ++ List.replicate 9 '0').take 9
      some (← digitsToNat? nine, cs.dropWhile Char.isDigit)
  | cs => some (0, cs)

/-- `HH:MM`, `HH:MM:SS` or `HH:MM:SS.F`, and what follows it. -/
def readTime? : List Char → Option (Time × List Char)
  | a :: b :: ':' :: c :: d :: rest => do
    let hour ← digitsToNat? [a, b]
    let minute ← digitsToNat? [c, d]
    if 23 < hour ∨ 59 < minute then none
    else match rest with
      | ':' :: e :: f :: rest => do
        let second ← digitsToNat? [e, f]
        if 60 < second then none
        else
          let (nanosecond, rest) ← readFraction? rest
          some (⟨hour, minute, second, nanosecond⟩, rest)
      | rest => some (⟨hour, minute, 0, 0⟩, rest)
  | _ => none

/-- `Z`, `+HH:MM` or `-HH:MM`, and nothing after it. -/
def readOffset? : List Char → Option Offset
  | ['Z'] | ['z'] => some .universal
  | [s, a, b, ':', c, d] => do
    let hours ← digitsToNat? [a, b]
    let minutes ← digitsToNat? [c, d]
    if 23 < hours ∨ 59 < minutes then none
    else if s = '+' then some (.east (60 * hours + minutes))
    else if s = '-' then some (.east (-(60 * hours + minutes)))
    else none
  | _ => none

/-- Whether the character may stand between a date and a time. -/
def isDateTimeMark (c : Char) : Bool :=
  c == 'T' || c == 't' || c == ' '

/-- The moment that the whole list spells. -/
def readMoment? (cs : List Char) : Option Moment :=
  match readDate? cs with
  | some (day, []) => some (.date day)
  | some (day, mark :: rest) =>
    if isDateTimeMark mark then
      match readTime? rest with
      | some (clock, []) => some (.local day clock)
      | some (clock, rest) => (readOffset? rest).map (.instant day clock)
      | none => none
    else none
  | none =>
    match readTime? cs with
    | some (clock, []) => some (.time clock)
    | _ => none

/-! ## Showing -/

/-- A number in decimal, filled up with zeros in front. -/
def padded (size n : Nat) : String :=
  let cs := Nat.toDigits 10 n
  String.ofList (List.replicate (size - cs.length) '0' ++ cs)

/-- `YYYY-MM-DD`. -/
def Date.text (d : Date) : String :=
  padded 4 d.year ++ "-" ++ padded 2 d.month ++ "-" ++ padded 2 d.day

/-- The point and the nine digits of a fraction without the zeros at the end; nothing when all of
them are zero. -/
def fractionText (nanosecond : Nat) : String :=
  match ((padded 9 nanosecond).toList.reverse.dropWhile (· == '0')).reverse with
  | [] => ""
  | cs => String.ofList ('.' :: cs)

/-- `HH:MM:SS` and the fraction. -/
def Time.text (t : Time) : String :=
  padded 2 t.hour ++ ":" ++ padded 2 t.minute ++ ":" ++ padded 2 t.second ++
    fractionText t.nanosecond

/-- `Z` or the signed hours and minutes. -/
def Offset.text : Offset → String
  | .universal => "Z"
  | .east m =>
    (if m < 0 then "-" else "+") ++ padded 2 (m.natAbs / 60) ++ ":" ++ padded 2 (m.natAbs % 60)

/-- The one form in which a moment is shown. -/
def Moment.text : Moment → String
  | .date d => d.text
  | .time t => t.text
  | .local d t => d.text ++ "T" ++ t.text
  | .instant d t o => d.text ++ "T" ++ t.text ++ o.text

end BuildGraph.Toml
