set_option autoImplicit false

/-!
# Terminal sequences

A text may hold sequences that a terminal obeys instead of showing, such as a change of colour or
the address of a link. A sequence starts with one of two escape characters. Then come brackets and
signs, numbers parted by semicolons, and one last character; of the possible ends the last one
counts. Or a whole string follows, which reaches to its terminator or, without one, to the end of
the text. `Segment.ofText` cuts a text into what is shown and the sequences between.
-/

namespace BuildGraph.Text

/-- Where a reader stands inside a sequence. -/
inductive EscapeState
  | opened
  | parenthesis
  | charset
  | lead
  | digits (count : Nat)
  | separator
  | closed
  deriving DecidableEq, Repr, Inhabited

namespace EscapeState

/-- Whether a sequence may end here. -/
def mayEnd : EscapeState → Bool
  | charset | closed | digits _ => true
  | opened | parenthesis | lead | separator => false

/-- The letters and signs that close a sequence. -/
def closes (c : Char) : Bool :=
  ('A' ≤ c && c ≤ 'P') || c == 'R' || c == 'Z' || c == 'c' || ('f' ≤ c && c ≤ 'n') ||
    c == 'q' || c == 'r' || c == 'y' || c == '=' || c == '>' || c == '<'

/-- The state after one more character; none when it cannot be part of the sequence. A number has
at most four digits, and a fifth one closes the sequence. -/
def next (state : EscapeState) (c : Char) : Option EscapeState :=
  let leads := state == opened || state == parenthesis || state == lead
  let inNumber := match state with
    | digits count => count < 5
    | _ => false
  if c == '(' || c == ')' then
    if state == opened then some parenthesis else if leads then some lead else none
  else if c == ';' then
    if leads then some lead else if inNumber || state == separator then some separator else none
  else if c == '[' || c == '#' || c == '?' then
    if leads then some lead else none
  else if c.isDigit then
    match state with
    | parenthesis => if c ≤ '2' then some charset else some (digits 1)
    | digits count => if count < 5 then some (digits (count + 1)) else none
    | opened | lead | separator => some (digits 1)
    | charset | closed => none
  else if closes c then
    if leads || inNumber || state == separator then some closed else none
  else none

end EscapeState

/-- The length of the longest sequence that the characters continue, with the number of characters
read and the longest end met so far. -/
def sequenceEnd (state : EscapeState) (count : Nat) (longest : Option Nat) :
    List Char → Option Nat
  | [] => longest
  | c :: cs =>
    match state.next c with
    | none => longest
    | some state =>
      sequenceEnd state (count + 1) (if state.mayEnd then some (count + 1) else longest) cs

/-- Whether a sequence may start with the character. -/
def isEscape (c : Char) : Bool :=
  c == '\x1b' || c == '\u009b'

/-- The kinds of strings that a terminal obeys: commands to its operating system, such as a title or
a link, and commands to the device itself. -/
inductive StringKind
  | system
  | device
  deriving DecidableEq, Repr, Inhabited

/-- Whether the character alone ends a string. A bell ends only those for the operating system. -/
def StringKind.isTerminator (kind : StringKind) (c : Char) : Bool :=
  c == '\u009c' || (kind == .system && c == '\x07')

/-- The length of a string with its terminator, or of all characters when it has none. -/
def stringLength (kind : StringKind) : List Char → Nat
  | [] => 0
  | '\x1b' :: '\\' :: _ => 2
  | c :: cs => if kind.isTerminator c then 1 else stringLength kind cs + 1

/-- The length of the sequence at the start of a text, if there is one. -/
def sequenceLength? : List Char → Option Nat
  | [] => none
  | '\x1b' :: ']' :: cs => some (stringLength .system cs + 2)
  | '\x1b' :: 'P' :: cs => some (stringLength .device cs + 2)
  | c :: cs => if isEscape c then sequenceEnd .opened 1 none cs else none

theorem sequenceLength?_of_no_escape {c : Char} (h : isEscape c = false) (cs : List Char) :
    sequenceLength? (c :: cs) = none := by
  unfold sequenceLength?
  split
  · rfl
  · rename_i heq
    rw [(List.cons.inj heq).1] at h
    exact absurd h (by decide)
  · rename_i heq
    rw [(List.cons.inj heq).1] at h
    exact absurd h (by decide)
  · rename_i heq
    rw [← (List.cons.inj heq).1, h]
    rfl

/-- A string is at most as long as what follows its start. -/
theorem stringLength_le (kind : StringKind) (cs : List Char) :
    stringLength kind cs ≤ cs.length := by
  fun_induction stringLength kind cs with
  | case1 => simp
  | case2 => simp
  | case3 => simp
  | case4 c cs _ _ ih => simpa using ih

/-- A piece of a text: characters that are shown, or a sequence. -/
inductive Segment
  | shown (cs : List Char)
  | sequence (cs : List Char)
  deriving DecidableEq, Repr, Inhabited

namespace Segment

/-- The pieces of a text, with the characters to be shown that have been gathered in reverse. -/
def scan : Nat → List Char → List Char → List Segment
  | 0, acc, _ => [shown acc.reverse]
  | _, acc, [] => [shown acc.reverse]
  | fuel + 1, acc, c :: cs =>
    match sequenceLength? (c :: cs) with
    | some n =>
      shown acc.reverse :: sequence ((c :: cs).take n) :: scan fuel [] ((c :: cs).drop n)
    | none => scan fuel (c :: acc) cs

/-- The pieces of a text, which put together give the text again. -/
def ofText (cs : List Char) : List Segment :=
  scan cs.length [] cs

/-- The characters of a piece that are shown. -/
def shownChars : Segment → List Char
  | shown cs => cs
  | sequence _ => []

theorem scan_of_no_escape (n : Nat) (acc cs : List Char) (hn : cs.length ≤ n)
    (h : ∀ c ∈ cs, isEscape c = false) : scan n acc cs = [shown (acc.reverse ++ cs)] := by
  induction cs generalizing n acc with
  | nil => cases n <;> simp [scan]
  | cons c cs ih =>
    cases n with
    | zero => simp at hn
    | succ n =>
      have hc : sequenceLength? (c :: cs) = none :=
        sequenceLength?_of_no_escape (h c List.mem_cons_self) cs
      unfold scan
      rw [hc]
      have := ih n (c :: acc) (by simpa using hn) fun d hd => h d (List.mem_cons_of_mem c hd)
      simpa using this

/-- A text without escape characters is one piece. -/
theorem ofText_of_no_escape {cs : List Char} (h : ∀ c ∈ cs, isEscape c = false) :
    ofText cs = [shown cs] := by
  simpa [ofText] using scan_of_no_escape cs.length [] cs (Nat.le_refl _) h

end Segment

end BuildGraph.Text
