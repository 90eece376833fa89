import BuildGraph.Event
import BuildGraph.Text.Lines
set_option autoImplicit false

/-!
# The log

Events as lines for a reader at a terminal: the level and the text. Characters that could control
the terminal are written as escape sequences, except tabs and line breaks. Warnings are always in
the log, everything else only on request.
-/

namespace BuildGraph.Log

/-- The digits of a number to the base sixteen, two at least. -/
def hexDigits (n : Nat) : List Char :=
  match Nat.toDigits 16 n with
  | [d] => ['0', d]
  | ds => ds

/-- A character as it stands in the log. -/
def shownChar (c : Char) : List Char :=
  let n := c.toNat
  if n = 0x07 ∨ n = 0x08 ∨ n = 0x0C ∨ n = 0x1B ∨ n = 0x7F then '\\' :: 'x' :: hexDigits n
  else if 0x80 ≤ n ∧ n ≤ 0x9F then ['\\', 'u', '\x7b'] ++ hexDigits n ++ ['\x7d']
  else [c]

/-- A text as it stands in the log. -/
def shown (s : String) : String :=
  String.ofList (s.toList.flatMap shownChar)

/-- The line of an event. -/
def line (e : Event) : String :=
  e.level.label ++ " " ++ shown e.message

/-- Whether an event is in the log. -/
def includes (verbose : Bool) (e : Event) : Bool :=
  verbose || e.level == .warning

/-- The log of some events. -/
def text (verbose : Bool) (events : List Event) : String :=
  Text.ofLines ((events.filter (includes verbose)).map line)

end BuildGraph.Log
