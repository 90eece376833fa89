import BuildGraph.Toml.Value
set_option autoImplicit false

/-!
# Quoted text of a document

Text stands between double quotes, where a backslash starts an escape, or between single quotes,
where every character stands for itself. Three quotes open text that may run over several lines;
a line break right after them is not part of it, and up to two quotes may stand before the three
that close it. Control characters other than the tab stand in no text.

Each reader starts after the opening quotes and returns the text and what follows the closing ones.
-/

namespace BuildGraph.Toml

/-- Characters that a document may not hold, line breaks apart. -/
def isForbidden (c : Char) : Bool :=
  (c.toNat < 0x20 && c != '\t') || c.toNat == 0x7F

/-- Space and tab. -/
def isGap (c : Char) : Bool :=
  c == ' ' || c == '\t'

/-- The value of a hexadecimal digit. -/
def hexValue? (c : Char) : Option Nat :=
  if c.isDigit then some (c.toNat - 48)
  else if 'a' ≤ c ∧ c ≤ 'f' then some (c.toNat - 87)
  else if 'A' ≤ c ∧ c ≤ 'F' then some (c.toNat - 55)
  else none

/-- The character with the code point that the first `count` characters spell, and what follows. -/
def hexChar (count : Nat) (cs : List Char) : Except Fault (Char × List Char) :=
  let digits := (cs.take count).filterMap hexValue?
  let n := digits.foldl (fun n d => 16 * n + d) 0
  if digits.length = count ∧ n.isValidChar then .ok (Char.ofNat n, cs.drop count)
  else .error .invalidEscape

/-- The character of an escape, after its backslash, and what follows. -/
def escaped : List Char → Except Fault (Char × List Char)
  | 'b' :: cs => .ok ('\x08', cs)
  | 't' :: cs => .ok ('\t', cs)
  | 'n' :: cs => .ok ('\n', cs)
  | 'f' :: cs => .ok ('\x0c', cs)
  | 'r' :: cs => .ok ('\r', cs)
  | 'e' :: cs => .ok ('\x1b', cs)
  | '"' :: cs => .ok ('"', cs)
  | '\\' :: cs => .ok ('\\', cs)
  | 'x' :: cs => hexChar 2 cs
  | 'u' :: cs => hexChar 4 cs
  | 'U' :: cs => hexChar 8 cs
  | [] => .error .unexpectedEnd
  | _ => .error .invalidEscape

/-- A text read in full, from its characters in reverse. -/
def gathered (acc rest : List Char) : Except Fault (String × List Char) :=
  .ok (String.ofList acc.reverse, rest)

/-- Text between double quotes on one line. -/
def basicText : Nat → List Char → List Char → Except Fault (String × List Char)
  | 0, _, _ => .error .unexpectedEnd
  | _, _, [] => .error .unexpectedEnd
  | _, acc, '"' :: cs => gathered acc cs
  | fuel + 1, acc, '\\' :: cs => do
    let (c, cs) ← escaped cs
    basicText fuel (c :: acc) cs
  | fuel + 1, acc, c :: cs =>
    if isForbidden c then .error (.unexpected c) else basicText fuel (c :: acc) cs

/-- Text between single quotes on one line. -/
def literalText : List Char → List Char → Except Fault (String × List Char)
  | _, [] => .error .unexpectedEnd
  | acc, '\'' :: cs => gathered acc cs
  | acc, c :: cs => if isForbidden c then .error (.unexpected c) else literalText (c :: acc) cs

/-- The rest without a line break at its start. -/
def dropLineBreak : List Char → List Char
  | '\n' :: cs => cs
  | '\r' :: '\n' :: cs => cs
  | cs => cs

/-- Whether the rest starts with a line break. -/
def startsLine : List Char → Bool
  | '\n' :: _ => true
  | '\r' :: '\n' :: _ => true
  | _ => false

/-- The rest without the gaps and line breaks at its start. -/
def dropMargin : List Char → List Char
  | '\r' :: '\n' :: cs => dropMargin cs
  | c :: cs => if isGap c || c == '\n' then dropMargin cs else c :: cs
  | [] => []

/-- A run of quotes inside text over several lines: at least three of them close it, and of these
up to two more are its last characters. Otherwise the run is part of the text. -/
def closing? (quote : Char) (cs : List Char) : Option (List Char × List Char) :=
  let size := min 5 (cs.takeWhile (· == quote)).length
  if 3 ≤ size then some (List.replicate (size - 3) quote, cs.drop size) else none

/-- Text between three double quotes. A backslash at the end of a line joins the line with the
next text. -/
def longBasicText : Nat → List Char → List Char → Except Fault (String × List Char)
  | 0, _, _ => .error .unexpectedEnd
  | _, _, [] => .error .unexpectedEnd
  | fuel + 1, acc, '"' :: cs =>
    match closing? '"' ('"' :: cs) with
    | some (quotes, rest) => gathered (quotes ++ acc) rest
    | none => longBasicText fuel ('"' :: acc) cs
  | fuel + 1, acc, '\\' :: cs =>
    if startsLine (cs.dropWhile isGap) then longBasicText fuel acc (dropMargin cs)
    else do
      let (c, cs) ← escaped cs
      longBasicText fuel (c :: acc) cs
  | fuel + 1, acc, '\r' :: '\n' :: cs => longBasicText fuel ('\n' :: '\r' :: acc) cs
  | fuel + 1, acc, c :: cs =>
    if isForbidden c && c != '\n' then .error (.unexpected c)
    else longBasicText fuel (c :: acc) cs

/-- Text between three single quotes. -/
def longLiteralText : List Char → List Char → Except Fault (String × List Char)
  | _, [] => .error .unexpectedEnd
  | acc, '\r' :: '\n' :: cs => longLiteralText ('\n' :: '\r' :: acc) cs
  | acc, c :: cs =>
    if c == '\'' then
      match closing? '\'' (c :: cs) with
      | some (quotes, rest) => gathered (quotes ++ acc) rest
      | none => longLiteralText (c :: acc) cs
    else if isForbidden c && c != '\n' then .error (.unexpected c)
    else longLiteralText (c :: acc) cs

/-- Text in any of the four forms, from its opening quotes on; `none` when there is no quote. -/
def quotedText? (cs : List Char) : Option (Except Fault (String × List Char)) :=
  match cs with
  | '"' :: '"' :: '"' :: cs => some (longBasicText (cs.length + 1) [] (dropLineBreak cs))
  | '"' :: cs => some (basicText (cs.length + 1) [] cs)
  | '\'' :: '\'' :: '\'' :: cs => some (longLiteralText [] (dropLineBreak cs))
  | '\'' :: cs => some (literalText [] cs)
  | _ => none

end BuildGraph.Toml
