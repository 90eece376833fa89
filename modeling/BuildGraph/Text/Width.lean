import BuildGraph.Text.Emoji
import BuildGraph.Text.Ligature
set_option autoImplicit false

/-!
# Widths of texts

The columns of a text are the columns of its characters, except where a terminal draws several
characters as one sign. What is drawn as one is known only at its last character, so a text is
measured from its end: the characters to the right leave behind a `Neighbour`, and each character
adds its columns, or takes back a column that its neighbour has counted already. Main definitions:
`Right.before`, the step over one character, and `width`. Main statement: a text of printable ASCII
characters has the width of its length (`width_of_ascii`).
-/

namespace BuildGraph.Text

/-- What a text begins with, as far as it matters to a character before it. A joined picture is one
with a joiner in front, and a joined letter has met a joiner on the way. -/
inductive Neighbour
  | plain
  | lineFeed
  | skinTone
  | flagLetter
  | flagLetters
  | picture
  | joinedPicture
  | joinedKeycap
  | joinedFlagLetter
  | joinedFlag
  | joinedFlagAndLetter
  | joinedTagLetters (count : Nat)
  | joinedTagDigits (count : Nat)
  | kiratVowelE
  | kiratVowelAi
  | alef
  | lamed (joined : Bool)
  | bugineseYa (joined : Bool)
  | bugineseVowelYa
  | tifinagh (joined : Bool)
  | tifinaghJoiner
  | secondTone
  | orkhonI (joined : Bool)
  | coengLetter
  deriving DecidableEq, Repr, Inhabited

namespace Neighbour

/-- Whether the letter may be the end of a ligature of a script other than Arabic, inside which
marks that are not drawn may stand. -/
def isSupple : Neighbour → Bool
  | lamed _ | bugineseYa _ | bugineseVowelYa | tifinagh _ | tifinaghJoiner | secondTone | orkhonI _
  | coengLetter => true
  | _ => false

/-- Whether the letter may be the end of a ligature. -/
def isLetter (n : Neighbour) : Bool :=
  n == alef || n.isSupple

/-- Whether a joiner stands in front of a picture or of the keycap of one. -/
def isJoinedPicture : Neighbour → Bool
  | joinedPicture | joinedKeycap => true
  | _ => false

/-- The letter with a joiner in front. -/
def join : Neighbour → Neighbour
  | lamed _ => lamed true
  | bugineseYa _ => bugineseYa true
  | tifinagh _ => tifinagh true
  | orkhonI _ => orkhonI true
  | n => n

end Neighbour

/-- The right side of a character: its neighbour, and the selectors in front of that. -/
structure Right where
  neighbour : Neighbour
  emojiStyle : Bool
  textStyle : Bool
  wideStyle : Bool
  deriving DecidableEq, Repr, Inhabited

namespace Right

/-- A neighbour without selectors. -/
def of (n : Neighbour) : Right := ⟨n, false, false, false⟩

/-- The end of a text, and all that has no influence to the left. -/
def nothing : Right := of .plain

/-- The right side of a selector for the style of emoji, which only letters of ligatures and joined
pictures outlast. -/
def withEmojiStyle (r : Right) : Right :=
  if r.neighbour.isLetter then { r with emojiStyle := true }
  else ⟨if r.neighbour.isJoinedPicture then r.neighbour else .plain, true, false, false⟩

/-- The right side once the selector for the style of emoji has met no picture. -/
def withoutEmojiStyle (r : Right) : Right :=
  if r.neighbour.isLetter then { r with emojiStyle := false } else nothing

/-- The right side of a selector for the style of text. -/
def withTextStyle (r : Right) : Right :=
  if r.neighbour.isLetter then { r with textStyle := true } else ⟨.plain, false, true, false⟩

/-- The right side of a selector for wide quotation marks. -/
def withWideStyle (r : Right) : Right :=
  if r.neighbour.isLetter then { r with wideStyle := true } else ⟨.plain, false, false, true⟩

end Right

/-- The selector behind a quotation mark that is to be drawn over two columns. -/
def wideSelector : Char := '\ufe01'

/-- The quotation marks that a selector makes wide. -/
def isQuotationMark (c : Char) : Bool :=
  c == '\u2018' || c == '\u2019' || c == '\u201c' || c == '\u201d'

/-- What a character leaves to the character before it when nothing to its right matters. -/
def opening (c : Char) : Right :=
  if c = Emoji.emojiSelector then Right.nothing.withEmojiStyle
  else if c = Emoji.textSelector then Right.nothing.withTextStyle
  else if c = wideSelector then Right.nothing.withWideStyle
  else .of <|
    if c = '\u05dc' then .lamed false
    else if Ligature.isAlef c then .alef
    else if Ligature.isCoengLetter c then .coengLetter
    else if c = '\u1a10' then .bugineseYa false
    else if Ligature.isTifinagh c then .tifinagh false
    else if Ligature.isSecondTone c then .secondTone
    else if c.toNat = 0x10C03 then .orkhonI false
    else if c.toNat = 0x16D67 then .kiratVowelE
    else if c.toNat = 0x16D68 then .kiratVowelAi
    else if Emoji.isSkinTone c then .skinTone
    else if Emoji.isFlagLetter c then .flagLetter
    else if Emoji.isPicture c then .picture
    else .plain

/-- The columns that a character adds in front of a neighbour with which it is drawn as one sign,
and the new neighbour; `none` when the two have nothing to do with each other. -/
def merge? (c : Char) : Neighbour → Option (Int × Neighbour)
  | .alef =>
    if Ligature.isLam c then some (0, .plain)
    else if Ligature.isTransparent c then some (0, .alef)
    else none
  | .lamed joined => if joined ∧ c = '\u05d0' then some (0, .plain) else none
  | .coengLetter => if c = '\u17d2' then some (-1, .plain) else none
  | .bugineseYa joined => if joined ∧ c = '\u1a17' then some (0, .bugineseVowelYa) else none
  | .bugineseVowelYa => if c = '\u1a15' then some (0, .plain) else none
  | .tifinagh joined =>
    if c = '\u2d7f' then some (1, .tifinaghJoiner)
    else if joined ∧ Ligature.isTifinagh c then some (0, .plain)
    else none
  | .tifinaghJoiner => if Ligature.isTifinagh c then some (-1, .plain) else none
  | .secondTone => if Ligature.isFirstTone c then some (0, .plain) else none
  | .orkhonI joined => if joined ∧ c.toNat = 0x10C32 then some (0, .plain) else none
  | .skinTone =>
    if Emoji.isBody c then some (0, .picture)
    else if c = Emoji.joiner then some (0, .joinedPicture)
    else none
  | .flagLetter => if Emoji.isFlagLetter c then some (1, .flagLetters) else none
  | .flagLetters =>
    if Emoji.isFlagLetter c then some (1, .flagLetters)
    else if c = Emoji.joiner then some (0, .joinedPicture)
    else none
  | .picture => if c = Emoji.joiner then some (0, .joinedPicture) else none
  | .joinedPicture =>
    if c = Emoji.keycap then some (0, .joinedKeycap)
    else if Emoji.isFlagLetter c then some (1, .joinedFlagLetter)
    else if Emoji.isSkinTone c then some (0, .skinTone)
    else if Emoji.isTagEnd c then some (0, .joinedTagLetters 0)
    else if Emoji.isPicture c then some (0, .picture)
    else none
  | .joinedFlagLetter => if Emoji.isFlagLetter c then some (-1, .joinedFlag) else none
  | .joinedFlag =>
    if Emoji.isFlagLetter c then some (3, .joinedFlagAndLetter)
    else if c = Emoji.joiner then some (0, .joinedPicture)
    else none
  | .joinedFlagAndLetter =>
    if Emoji.isFlagLetter c then some (-1, .joinedFlag)
    else if c = Emoji.joiner then some (0, .joinedPicture)
    else none
  | .joinedTagLetters n =>
    if n < 6 ∧ Emoji.isTagLetter c then some (0, .joinedTagLetters (n + 1))
    else if n < 5 ∧ Emoji.isTagDigit c then some (0, .joinedTagDigits 1)
    else if 3 ≤ n ∧ Emoji.isBlackFlag c then some (0, .picture)
    else none
  | .joinedTagDigits n =>
    if n < 3 ∧ Emoji.isTagDigit c then some (0, .joinedTagDigits (n + 1))
    else if n = 3 ∧ Emoji.isBlackFlag c then some (0, .picture)
    else none
  | .kiratVowelE =>
    if c.toNat = 0x16D63 ∨ c.toNat = 0x16D69 then some (0, .plain)
    else if c.toNat = 0x16D67 then some (0, .kiratVowelAi)
    else if c.toNat = 0x16D68 then some (1, .kiratVowelE)
    else none
  | .kiratVowelAi => if c.toNat = 0x16D63 then some (0, .plain) else none
  | .plain | .lineFeed | .joinedKeycap => none

/-- The columns that a character adds in front of a neighbour without selectors, and the new right
side. -/
def meet (c : Char) (n : Neighbour) : Int × Right :=
  if n.isSupple ∧ c = Emoji.joiner then (0, .of n.join)
  else if n.isSupple ∧ Ligature.isUndrawnMark c then (0, .of n)
  else match merge? c n with
    | some (w, n) => (w, .of n)
    | none => (columns c, opening c)

namespace Right

/-- The columns that a character of the first 160 adds, and the new right side. A control takes one
column, and a carriage return none before a line feed. -/
def beforeLatin (r : Right) (c : Char) : Int × Right :=
  if c = '\n' then (1, of .lineFeed)
  else if c = '\r' ∧ r = of .lineFeed then (0, nothing)
  else (1, nothing)

/-- The columns that a character adds in front of what is to its right, and the new right side. -/
def before (r : Right) (c : Char) : Int × Right :=
  if r.emojiStyle ∧ Emoji.takesStyle c then
    (if r.neighbour.isJoinedPicture then 0 else 2, of .picture)
  else
    let r := if r.emojiStyle then r.withoutEmojiStyle else r
    if c.toNat ≤ 0xA0 then r.beforeLatin c
    else if r = nothing then (columns c, opening c)
    else if c = Emoji.emojiSelector then (0, r.withEmojiStyle)
    else if c = Emoji.textSelector then (0, r.withTextStyle)
    else if c = wideSelector then (0, r.withWideStyle)
    else if r.textStyle ∧ Emoji.isSign c then (1, nothing)
    else if r.wideStyle ∧ isQuotationMark c then (2, nothing)
    else meet c r.neighbour

end Right

/-- The columns that a list of characters takes, and what it leaves to a character before it. -/
def measure : List Char → Int × Right
  | [] => (0, .nothing)
  | c :: cs =>
    let (w, r) := measure cs
    let (d, r) := r.before c
    (w + d, r)

/-- The columns that a list of characters takes. -/
def width (cs : List Char) : Nat :=
  (measure cs).1.toNat

/-- How columns are counted: those of single characters, and those of texts. -/
structure Ruler where
  char : Char → Nat
  text : List Char → Nat

namespace Ruler

/-- The ruler of a terminal. A control counts as one column in a text and as none on its own. -/
def terminal : Ruler := ⟨fun c => if isControl c then 0 else columns c, width⟩

/-- The ruler by which a text has the columns of its characters. -/
def sum (char : Char → Nat) : Ruler := ⟨char, fun cs => cs.foldl (fun n c => n + char c) 0⟩

end Ruler

/-! ## Small laws -/

@[simp] theorem measure_nil : measure [] = (0, .nothing) := rfl

theorem measure_cons (c : Char) (cs : List Char) :
    measure (c :: cs) =
      ((measure cs).1 + ((measure cs).2.before c).1, ((measure cs).2.before c).2) := rfl

@[simp] theorem width_nil : width [] = 0 := rfl

/-- A printable ASCII character takes one column in front of nothing. -/
theorem before_nothing_of_ascii {c : Char} (hlow : 0x20 ≤ c.toNat) (hhigh : c.toNat < 0x7F) :
    Right.nothing.before c = (1, .nothing) := by
  have hn : c ≠ '\n' := by rintro rfl; revert hlow; decide
  have hr : c ≠ '\r' := by rintro rfl; revert hlow; decide
  have h : c.toNat ≤ 0xA0 := by omega
  simp [Right.before, Right.beforeLatin, Right.nothing, Right.of, hn, hr, h]

theorem measure_of_ascii {cs : List Char} (h : ∀ c ∈ cs, 0x20 ≤ c.toNat ∧ c.toNat < 0x7F) :
    measure cs = ((cs.length : Int), Right.nothing) := by
  induction cs with
  | nil => rfl
  | cons c cs ih =>
    have hc := h c List.mem_cons_self
    rw [measure_cons, ih fun d hd => h d (List.mem_cons_of_mem c hd)]
    simp [before_nothing_of_ascii hc.1 hc.2]

/-- A text of printable ASCII characters takes one column for each of them. -/
theorem width_of_ascii {cs : List Char} (h : ∀ c ∈ cs, 0x20 ≤ c.toNat ∧ c.toNat < 0x7F) :
    width cs = cs.length := by
  simp [width, measure_of_ascii h]

end BuildGraph.Text
