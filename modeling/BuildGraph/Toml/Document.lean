import BuildGraph.Toml.Draft
import BuildGraph.Toml.Quotation
import BuildGraph.Toml.Scalar
set_option autoImplicit false

/-!
# Documents

A document is a list of lines: keys with values, and headers that open a table or one more table of
an array. Reading has two steps: `statements` reads the lines, and `assemble` puts their values in
place. Main definition: `parse`, the table that a text describes.
-/

namespace BuildGraph.Toml

/-! ## Space between the parts -/

/-- Skips gaps, line breaks and comments; the flag tells whether a comment has been opened. -/
def skipVoid : Bool → List Char → Except Fault (List Char)
  | _, [] => .ok []
  | _, '\n' :: cs => skipVoid false cs
  | _, '\r' :: '\n' :: cs => skipVoid false cs
  | true, c :: cs => if isForbidden c then .error (.unexpected c) else skipVoid true cs
  | false, '#' :: cs => skipVoid true cs
  | false, c :: cs => if isGap c then skipVoid false cs else .ok (c :: cs)

/-- Skips gaps and a comment up to the end of the line, and the line break. -/
def endLine : Bool → List Char → Except Fault (List Char)
  | _, [] => .ok []
  | _, '\n' :: cs => .ok cs
  | _, '\r' :: '\n' :: cs => .ok cs
  | true, c :: cs => if isForbidden c then .error (.unexpected c) else endLine true cs
  | false, '#' :: cs => endLine true cs
  | false, c :: cs => if isGap c then endLine false cs else .error (.unexpected c)

/-- The fault of a rest that does not go on as it must. -/
def stray {α : Type} : List Char → Except Fault α
  | [] => .error .unexpectedEnd
  | c :: _ => .error (.unexpected c)

/-! ## Keys -/

/-- The characters of a key without quotes. -/
def isBare (c : Char) : Bool :=
  c.isAlphanum || c == '_' || c == '-'

/-- One part of a key, and what follows. -/
def keyPart (cs : List Char) : Except Fault (String × List Char) :=
  match cs with
  | '"' :: cs => basicText (cs.length + 1) [] cs
  | '\'' :: cs => literalText [] cs
  | cs =>
    match cs.takeWhile isBare with
    | [] => stray cs
    | bare => .ok (String.ofList bare, cs.dropWhile isBare)

/-- The greatest number of parts of a key, and the greatest depth to which values nest. -/
def nestingLimit : Nat := 80

/-- A key of at most so many parts joined by dots, with gaps around the dots, and what follows. -/
def dottedKey : Nat → List Char → Except Fault (DottedKey × List Char)
  | 0, _ => .error .tooDeep
  | parts + 1, cs => do
    let (name, cs) ← keyPart (cs.dropWhile isGap)
    match cs.dropWhile isGap with
    | '.' :: cs =>
      let (key, cs) ← dottedKey parts cs
      return (⟨name :: key.path, key.name⟩, cs)
    | cs => return (⟨[], name⟩, cs)

/-! ## Values -/

/-- The characters of a value without quotes. -/
def isScalarChar (c : Char) : Bool :=
  c.isAlphanum || c == '_' || c == '-' || c == '+' || c == '.' || c == ':'

/-- A value without quotes, and what follows. A date and a time may be parted by one space. -/
def bareValue (cs : List Char) : Except Fault (Value × List Char) :=
  match cs.takeWhile isScalarChar, cs.dropWhile isScalarChar with
  | [], rest => stray rest
  | run, rest =>
    match (readDate? run).map (·.2), rest with
    | some [], ' ' :: d :: more =>
      if d.isDigit then do
        let v ← scalar (run ++ ' ' :: (d :: more).takeWhile isScalarChar)
        return (v, (d :: more).dropWhile isScalarChar)
      else return (← scalar run, rest)
    | _, _ => return (← scalar run, rest)

/-- The items of an array, after its opening bracket or a comma. -/
def items (value : List Char → Except Fault (Value × List Char)) :
    Nat → List Value → List Char → Except Fault (List Value × List Char)
  | 0, _, _ => .error .unexpectedEnd
  | fuel + 1, acc, cs => do
    match ← skipVoid false cs with
    | ']' :: cs => return (acc.reverse, cs)
    | cs =>
      let (v, cs) ← value cs
      match ← skipVoid false cs with
      | ',' :: cs => items value fuel (v :: acc) cs
      | ']' :: cs => return ((v :: acc).reverse, cs)
      | cs => stray cs

/-- The entries of a table in braces, after the opening brace or a comma. -/
def entries (value : List Char → Except Fault (Value × List Char)) :
    Nat → DraftTable → List Char → Except Fault (DraftTable × List Char)
  | 0, _, _ => .error .unexpectedEnd
  | fuel + 1, acc, cs => do
    match ← skipVoid false cs with
    | '\x7d' :: cs => return (acc, cs)
    | cs =>
      let (key, cs) ← dottedKey nestingLimit cs
      match ← skipVoid false cs with
      | '=' :: cs =>
        let (v, cs) ← value (← skipVoid false cs)
        let acc ← acc.assign key v
        match ← skipVoid false cs with
        | ',' :: cs => entries value fuel acc cs
        | '\x7d' :: cs => return (acc, cs)
        | cs => stray cs
      | cs => stray cs

/-- A value, and what follows; arrays and tables in braces nest at most as deep as the first
argument tells. -/
def value : Nat → List Char → Except Fault (Value × List Char)
  | depth, cs =>
    match quotedText? cs with
    | some r => r.map fun (s, cs) => (.text s, cs)
    | none =>
      match depth, cs with
      | 0, '[' :: _ => .error .tooDeep
      | 0, '\x7b' :: _ => .error .tooDeep
      | depth + 1, '[' :: cs => do
        let (vs, cs) ← items (value depth) (cs.length + 1) [] cs
        return (.array vs, cs)
      | depth + 1, '\x7b' :: cs => do
        let (t, cs) ← entries (value depth) (cs.length + 1) [] cs
        return (.table (finish t), cs)
      | _, cs => bareValue cs

/-! ## Lines -/

/-- One line of a document that is not empty. -/
inductive Statement
  | assign (key : DottedKey) (v : Value)
  | open (key : DottedKey)
  | extend (key : DottedKey)
  deriving Repr, Inhabited

/-- One line from its first character on, and what follows its end. -/
def statement (cs : List Char) : Except Fault (Statement × List Char) :=
  match cs with
  | '[' :: '[' :: cs => do
    match ← dottedKey nestingLimit cs with
    | (key, ']' :: ']' :: cs) => return (.extend key, ← endLine false cs)
    | (_, cs) => stray cs
  | '[' :: cs => do
    match ← dottedKey nestingLimit cs with
    | (key, ']' :: cs) => return (.open key, ← endLine false cs)
    | (_, cs) => stray cs
  | cs => do
    match ← dottedKey nestingLimit cs with
    | (key, '=' :: cs) =>
      let (v, cs) ← value nestingLimit (cs.dropWhile isGap)
      return (.assign key v, ← endLine false cs)
    | (_, cs) => stray cs

/-- All lines of a document. -/
def statements : Nat → List Char → Except Fault (List Statement)
  | 0, _ => .error .unexpectedEnd
  | fuel + 1, cs => do
    match ← skipVoid false cs with
    | [] => return []
    | cs =>
      let (s, cs) ← statement cs
      return s :: (← statements fuel cs)

/-! ## Assembly -/

/-- The table that the last header opened: the outermost one, a table, or one of an array. -/
inductive Section
  | root
  | single (key : DottedKey)
  | element (key : DottedKey)
  deriving DecidableEq, Repr, Inhabited

/-- Puts the entries gathered for a section into the document. -/
def Section.close (s : Section) (root body : DraftTable) : Except Fault DraftTable :=
  match s with
  | .root => .ok body
  | .single key => root.close key body
  | .element key => root.push key body

/-- Puts the values of all lines in place, section by section. -/
def assemble (sec : Section) (root body : DraftTable) : List Statement → Except Fault DraftTable
  | [] => sec.close root body
  | .assign key v :: rest => do
    assemble sec root (← body.assign key v) rest
  | .open key :: rest => do
    let root ← sec.close root body
    let (root, body) ← root.opened key
    assemble (.single key) root body rest
  | .extend key :: rest => do
    let root ← sec.close root body
    assemble (.element key) root [] rest

/-- The text without a byte-order mark at its start. -/
def withoutMark : List Char → List Char
  | '\ufeff' :: cs => cs
  | cs => cs

/-- The table that a text describes. -/
def parse (source : String) : Except Fault Table := do
  let cs := withoutMark source.toList
  return finish (← assemble .root [] [] (← statements (cs.length + 1) cs))

end BuildGraph.Toml
