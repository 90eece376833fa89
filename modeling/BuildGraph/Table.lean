import BuildGraph.Text.Escape
import BuildGraph.Text.Width
set_option autoImplicit false

/-!
# Tables

A table with a line of headers, drawn with strokes on a terminal. A column is as wide as the widest
of its texts. When the table is too wide, its widest column gives up one character at a time, of
equally wide ones the last, and no column is cut below eight; a text that no longer fits ends in
three dots. A line break or tab in a cell is drawn as a space.
-/

namespace BuildGraph

/-- A table. -/
structure Table where
  headers : List String
  rows : List (List String)
  /-- Every row has as many cells as there are headers. -/
  filled : ∀ row ∈ rows, row.length = headers.length
  deriving DecidableEq, Repr

namespace Table

open Text (Ruler)

/-- A table without rows. -/
def ofHeaders (headers : List String) : Table := ⟨headers, [], nofun⟩

instance : Inhabited Table := ⟨ofHeaders []⟩

/-- The table with one more row. A row with another number of cells is ignored. -/
def addRow (t : Table) (row : List String) : Table :=
  if h : row.length = t.headers.length then
    { t with
      rows := t.rows ++ [row]
      filled := by
        intro r hr
        rcases List.mem_append.1 hr with hr | hr
        · exact t.filled r hr
        · rw [List.mem_singleton.1 hr]
          exact h }
  else t

/-- The number of rows. -/
def size (t : Table) : Nat := t.rows.length

/-! ## Texts in cells -/

/-- The characters of a cell on one line. -/
def flatten (cell : String) : List Char :=
  cell.toList.map fun c => if c == '\n' || c == '\r' || c == '\t' then ' ' else c

/-- The columns that a text takes, sequences for the terminal left out. -/
def displayWidth (r : Ruler) (cs : List Char) : Nat :=
  (Text.Segment.ofText cs).foldl (fun n s => n + r.text s.shownChars) 0

/-- The start of a text that takes at most a number of columns. It ends with the character that
fills them. -/
def cut (r : Ruler) (columns : Nat) : List Char → List Char
  | [] => []
  | c :: cs =>
    if columns < r.char c then []
    else if columns = r.char c then [c]
    else c :: cut r (columns - r.char c) cs

/-- What stands at the end of a text that has been cut. -/
def ellipsis : List Char := ['.', '.', '.']

/-- The pieces of a text, cut after a number of columns; sequences behind the cut are kept. -/
def truncateSegments (r : Ruler) (limit : Nat) : List Text.Segment → List Char
  | [] => []
  | .sequence cs :: rest => cs ++ truncateSegments r limit rest
  | .shown cs :: rest =>
    if limit < r.text cs then
      cut r limit cs ++ ellipsis ++ rest.flatMap fun
        | .sequence cs => cs
        | .shown _ => []
    else cs ++ truncateSegments r (limit - r.text cs) rest

/-- A text that takes at most a number of columns: the text itself, or its start and three dots. -/
def truncate (r : Ruler) (columns : Nat) (cs : List Char) : List Char :=
  if displayWidth r cs ≤ columns then cs
  else truncateSegments r (columns - ellipsis.length) (Text.Segment.ofText cs)

/-! ## Widths of columns -/

/-- No column is cut below this width. -/
def leastColumn : Nat := 8

/-- The widths in which the first `widest` is one smaller. -/
def narrowFirst (widest : Nat) : List Nat → List Nat
  | [] => []
  | w :: ws => if w = widest then (w - 1) :: ws else w :: narrowFirst widest ws

/-- The greatest of some widths. -/
def widest (ws : List Nat) : Nat :=
  ws.foldr max 0

/-- The widths in which the last of the widest columns is one narrower, unless it is as narrow as
a column may be cut. -/
def narrow (ws : List Nat) : List Nat :=
  if widest ws ≤ leastColumn then ws else (narrowFirst (widest ws) ws.reverse).reverse

/-- The widths of the widest texts of the columns. -/
def naturalWidths (t : Table) (r : Ruler) : List Nat :=
  t.rows.foldl (fun ws row => ws.zipWith (fun w cell => max w (displayWidth r (flatten cell))) row)
    (t.headers.map fun h => displayWidth r h.toList)

/-- What is left of a width for the texts of a number of columns. -/
def available (columns width : Nat) : Nat :=
  width - (3 + 3 * columns)

/-- The sum of some widths. -/
def total (ws : List Nat) : Nat :=
  ws.foldr (fun w n => w + n) 0

/-- The widths of the columns in a table of at most the given width, as far as that is possible:
one step of `narrow` for each column that there is too much. -/
def fitWidths (t : Table) (r : Ruler) (width : Nat) : List Nat :=
  let ws := t.naturalWidths r
  Nat.repeat narrow (total ws - available ws.length width) ws

/-! ## Drawing -/

/-- The sequence that turns bold letters on. -/
def boldOn : List Char := "\x1b[1m".toList

/-- The sequence that takes all decoration back. -/
def reset : List Char := "\x1b[0m".toList

/-- A text in which bold letters are turned on again wherever it takes all decoration back. -/
def keepBold : List Char → List Char
  | '\x1b' :: '[' :: '0' :: 'm' :: cs => reset ++ boldOn ++ keepBold cs
  | c :: cs => c :: keepBold cs
  | [] => []

/-- How headers are drawn. -/
def decorate (bold header : Bool) (cs : List Char) : List Char :=
  if bold && header then boldOn ++ keepBold cs ++ reset else cs

/-- A cell, filled up to its width. -/
def drawCell (r : Ruler) (bold header : Bool) (cell : String) (width : Nat) : List Char :=
  let cs := truncate r width (flatten cell)
  [' '] ++ decorate bold header cs ++ List.replicate (width - displayWidth r cs) ' ' ++ [' ', '│']

/-- A line of cells. -/
def drawRow (r : Ruler) (bold header : Bool) (widths : List Nat) (row : List String) : List Char :=
  [' ', ' ', '│'] ++ (List.zipWith (drawCell r bold header) row widths).flatten ++ ['\n']

/-- A line of strokes with its two ends and the marks between the columns. -/
def drawBorder (left middle right : Char) (widths : List Nat) : List Char :=
  [' ', ' ', left] ++
    [middle].intercalate (widths.map fun w => List.replicate (w + 2) '─') ++ [right, '\n']

/-- The drawing of a table of at most the given width by a ruler, with headers in bold on request. A
table without headers is not drawn. -/
def draw (t : Table) (r : Ruler) (bold : Bool) (width : Nat) : String :=
  if t.headers = [] then ""
  else
    let ws := t.fitWidths r width
    String.ofList
      (drawBorder '┌' '┬' '┐' ws ++ drawRow r bold true ws t.headers ++
        drawBorder '├' '┼' '┤' ws ++ (t.rows.map (drawRow r bold false ws)).flatten ++
        drawBorder '└' '┴' '┘' ws)

/-- The drawing of a table on a terminal. -/
def render (t : Table) (bold : Bool) (width : Nat) : String :=
  t.draw .terminal bold width

/-! ## Small laws -/

@[simp] theorem headers_addRow (t : Table) (row : List String) :
    (t.addRow row).headers = t.headers := by
  unfold addRow
  split <;> rfl

theorem rows_addRow (t : Table) (row : List String) :
    (t.addRow row).rows = t.rows ++ [row].filter (·.length = t.headers.length) := by
  unfold addRow
  by_cases hrow : row.length = t.headers.length
  · simp [hrow]
  · simp [hrow]

@[simp] theorem headers_foldl_addRow (t : Table) (rows : List (List String)) :
    (rows.foldl addRow t).headers = t.headers := by
  induction rows generalizing t with
  | nil => rfl
  | cons row rows ih => rw [List.foldl_cons, ih, headers_addRow]

/-- Of some rows a table takes those with a cell for each header. -/
theorem rows_foldl_addRow (t : Table) (rows : List (List String)) :
    (rows.foldl addRow t).rows = t.rows ++ rows.filter (·.length = t.headers.length) := by
  induction rows generalizing t with
  | nil => exact (List.append_nil _).symm
  | cons row rows ih =>
    rw [List.foldl_cons, ih, headers_addRow, rows_addRow, List.append_assoc, ← List.filter_append,
      List.singleton_append]

/-- A text that takes no decoration back is left as it is. -/
theorem keepBold_of_no_escape {cs : List Char} (h : '\x1b' ∉ cs) : keepBold cs = cs := by
  fun_induction keepBold cs with
  | case1 => simp at h
  | case2 c cs _ ih => rw [ih fun hm => h (List.mem_cons_of_mem c hm)]
  | case3 => rfl

theorem length_narrowFirst (m : Nat) (ws : List Nat) :
    (narrowFirst m ws).length = ws.length := by
  induction ws with
  | nil => rfl
  | cons w ws ih =>
    unfold narrowFirst
    split <;> simp [ih]

/-- Narrowing keeps the number of columns. -/
theorem length_narrow (ws : List Nat) : (narrow ws).length = ws.length := by
  unfold narrow
  split <;> simp [length_narrowFirst]

end Table

end BuildGraph
