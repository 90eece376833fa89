import BuildGraph.Proofs.Table.Cells
import BuildGraph.Proofs.Table.Widths
import BuildGraph.Proofs.Text.Lines
set_option autoImplicit false

/-!
# Lines of a table

The drawing of a table is a border, the headers, a second border, one line for each row, and a third
border. A line of cells takes the columns of its cells together, and a border, though nothing of the
texts goes into it, as many as a line of cells over the same columns: `lineWidth` of the widths.
-/

namespace BuildGraph.Table

open Text (Ruler isControl isEscape visible)

variable {t : Table} {r : Ruler} {plain : Char → Prop} {row : List String} {ws : List Nat}
  {left middle right c : Char} {bold header : Bool} {width : Nat}

/-- The columns of a line of cells, with a blank and a stroke behind each cell and a blank in
front. -/
def lineWidth (ws : List Nat) : Nat :=
  3 + (ws.sum + 3 * ws.length)

/-! ## Lines of cells -/

/-- A line of cells without its line break. -/
def rowLine (r : Ruler) (bold header : Bool) (ws : List Nat) (row : List String) : List Char :=
  [' ', ' ', '│'] ++ (List.zipWith (drawCell r bold header) row ws).flatten

theorem drawRow_eq (r : Ruler) (bold header : Bool) (ws : List Nat) (row : List String) :
    drawRow r bold header ws row = rowLine r bold header ws row ++ ['\n'] :=
  rfl

/-- The cells of a row are all plain. -/
def IsPlainRow (plain : Char → Prop) (row : List String) : Prop :=
  ∀ cell ∈ row, IsPlainCell plain cell

/-- A line shows a row: its cells one after the other, with strokes between. -/
def ShowsRow (row : List String) (line : List Char) : Prop :=
  ∃ parts, List.Forall₂ ShowsCell row parts ∧ visible line = [' ', ' ', '│'] ++ parts.flatten

theorem visible_flatten_drawCell (bold header : Bool) (ws : List Nat)
    (hrow : IsPlainRow plain row) :
    visible (List.zipWith (drawCell r bold header) row ws).flatten =
      (List.zipWith (drawCell r false false) row ws).flatten := by
  induction row generalizing ws with
  | nil => rfl
  | cons cell row ih =>
    obtain ⟨hcell, hrest⟩ := List.forall_mem_cons.1 hrow
    cases ws with
    | nil => rfl
    | cons w ws =>
      rw [List.zipWith_cons_cons, List.zipWith_cons_cons, List.flatten_cons, List.flatten_cons,
        visible_drawCell_append bold header hcell, ih ws hrest]

/-- Of a line of cells all but the decoration is visible. -/
theorem visible_rowLine (bold header : Bool) (ws : List Nat) (hrow : IsPlainRow plain row) :
    visible (rowLine r bold header ws row) = rowLine r false false ws row := by
  have hstart : ∀ c ∈ [' ', ' ', '│'], isEscape c = false := by simp [isEscape]
  rw [rowLine, Text.visible_append hstart, visible_flatten_drawCell bold header ws hrow, rowLine]

theorem added_flatten_drawCell (hr : Draws r plain) (hrow : IsPlainRow plain row)
    (hroom : List.Forall₂ (HasRoom r) row ws) :
    r.added (List.zipWith (drawCell r false false) row ws).flatten = ws.sum + 3 * ws.length := by
  induction hroom with
  | nil => rfl
  | @cons cell w row ws hcellroom _ ih =>
    obtain ⟨hcell, hrest⟩ := List.forall_mem_cons.1 hrow
    rw [List.zipWith_cons_cons, List.flatten_cons, Ruler.added_append,
      added_drawCell hr hcell hcellroom, ih hrest, List.sum_cons, List.length_cons]
    omega

theorem added_rowLine (hr : Draws r plain) (hrow : IsPlainRow plain row)
    (hroom : List.Forall₂ (HasRoom r) row ws) :
    r.added (rowLine r false false ws row) = lineWidth ws := by
  have hblank := hr.one ' ' (by decide)
  have hstroke := hr.one '│' (by decide)
  rw [rowLine, Ruler.added_append, added_flatten_drawCell hr hrow hroom, lineWidth]
  simp [hblank, hstroke]

theorem showsRow_rowLine (bold header : Bool) (hrow : IsPlainRow plain row)
    (hlength : row.length = ws.length) : ShowsRow row (rowLine r bold header ws row) := by
  refine ⟨_, ?_, visible_rowLine bold header ws hrow⟩
  induction row generalizing ws with
  | nil => exact .nil
  | cons cell row ih =>
    obtain ⟨hcell, hrest⟩ := List.forall_mem_cons.1 hrow
    cases ws with
    | nil => cases hlength
    | cons w ws => exact .cons (showsCell_drawCell hcell) (ih hrest (Nat.succ.inj hlength))

theorem mem_rowLine (hc : c ∈ rowLine r bold header ws row) :
    c ∈ [' ', ' ', '│'] ∨ ∃ cell ∈ row, ∃ w, c ∈ drawCell r bold header cell w := by
  refine (List.mem_append.1 hc).imp_right fun hcells => ?_
  clear hc
  induction row generalizing ws with
  | nil => exact absurd hcells List.not_mem_nil
  | cons cell row ih =>
    cases ws with
    | nil => exact absurd hcells List.not_mem_nil
    | cons w ws =>
      rw [List.zipWith_cons_cons, List.flatten_cons] at hcells
      rcases List.mem_append.1 hcells with hcell | hrest
      · exact ⟨cell, List.mem_cons_self, w, hcell⟩
      · obtain ⟨other, hmem, hother⟩ := ih hrest
        exact ⟨other, List.mem_cons_of_mem _ hmem, hother⟩

theorem lineFeed_not_mem_rowLine (bold header : Bool) (ws : List Nat)
    (hrow : IsPlainRow plain row) :
    '\n' ∉ rowLine r bold header ws row := by
  intro hmem
  rcases mem_rowLine hmem with hstart | ⟨cell, hcell, w, hmem⟩
  · exact absurd hstart (by decide)
  · exact lineFeed_not_mem_drawCell bold header (hrow cell hcell) hmem

/-- A line of cells takes `lineWidth` columns, however it is decorated. -/
theorem displayWidth_rowLine (hr : Draws r plain) (bold header : Bool) (hrow : IsPlainRow plain row)
    (hroom : List.Forall₂ (HasRoom r) row ws) :
    displayWidth r (rowLine r bold header ws row) = lineWidth ws := by
  have hstart : ∀ c ∈ [' ', ' ', '│'], c ∈ marks := by simp [marks]
  have hplain : ∀ c ∈ rowLine r false false ws row, plain c := fun c hc => by
    rcases mem_rowLine hc with hc | ⟨cell, hcell, w, hc⟩
    · exact hr.isPlain c (hstart c hc)
    · exact plain_of_mem_drawCell hr (hrow cell hcell) hc
  have hvisible := visible_rowLine (r := r) bold header ws hrow
  rw [displayWidth_eq_added hr.addsUp (hvisible ▸ hplain), hvisible, added_rowLine hr hrow hroom]

/-! ## Borders -/

/-- The strokes of a border, with a mark between those of two columns. -/
def strokes (middle : Char) (ws : List Nat) : List Char :=
  [middle].intercalate (ws.map fun w => List.replicate (w + 2) '─')

/-- A border without its line break. -/
def borderLine (left middle right : Char) (ws : List Nat) : List Char :=
  [' ', ' ', left] ++ strokes middle ws ++ [right]

theorem drawBorder_eq (left middle right : Char) (ws : List Nat) :
    drawBorder left middle right ws = borderLine left middle right ws ++ ['\n'] := by
  simp [drawBorder, borderLine, strokes]

theorem strokes_cons_cons (middle : Char) (w v : Nat) (ws : List Nat) :
    strokes middle (w :: v :: ws) =
      List.replicate (w + 2) '─' ++ middle :: strokes middle (v :: ws) := by
  simp [strokes, List.intercalate_cons_cons]

theorem strokes_singleton (middle : Char) (w : Nat) :
    strokes middle [w] = List.replicate (w + 2) '─' :=
  List.intercalate_singleton

/-- The three marks of a border are some of those with which a table is drawn. -/
structure AreMarks (left middle right : Char) : Prop where
  left : left ∈ marks
  middle : middle ∈ marks
  right : right ∈ marks

theorem mem_marks_of_mem_strokes (hmiddle : middle ∈ marks) (hc : c ∈ strokes middle ws) :
    c ∈ marks := by
  have hstroke : ∀ {n}, c ∈ List.replicate n '─' → c ∈ marks := fun hc =>
    (List.eq_of_mem_replicate hc) ▸ by decide
  induction ws with
  | nil => exact absurd hc List.not_mem_nil
  | cons w ws ih =>
    cases ws with
    | nil => exact hstroke (strokes_singleton middle w ▸ hc)
    | cons v ws =>
      rw [strokes_cons_cons] at hc
      rcases List.mem_append.1 hc with hc | hc
      · exact hstroke hc
      · rcases List.mem_cons.1 hc with rfl | hc
        · exact hmiddle
        · exact ih hc

theorem mem_marks_of_mem_borderLine (h : AreMarks left middle right)
    (hc : c ∈ borderLine left middle right ws) : c ∈ marks := by
  have hblank : ' ' ∈ marks := by decide
  rcases List.mem_append.1 hc with hc | hc
  · rcases List.mem_append.1 hc with hc | hc
    · rcases List.mem_cons.1 hc with rfl | hc
      · exact hblank
      · rcases List.mem_cons.1 hc with rfl | hc
        · exact hblank
        · exact (List.mem_singleton.1 hc) ▸ h.left
    · exact mem_marks_of_mem_strokes h.middle hc
  · exact (List.mem_singleton.1 hc) ▸ h.right

theorem lineFeed_not_mem_borderLine (h : AreMarks left middle right) (ws : List Nat) :
    '\n' ∉ borderLine left middle right ws := fun hmem =>
  absurd (mem_marks_of_mem_borderLine h hmem) (by decide)

theorem visible_borderLine (h : AreMarks left middle right) (ws : List Nat) :
    visible (borderLine left middle right ws) = borderLine left middle right ws := by
  have hescape : ∀ c ∈ marks, isEscape c = false := by simp [marks, isEscape]
  exact Text.visible_of_no_escape fun c hc => hescape c (mem_marks_of_mem_borderLine h hc)

/-- With the mark behind it each column takes three more than its width, but the last has none. -/
theorem added_strokes (hr : Draws r plain) (hmiddle : middle ∈ marks) (hws : ws ≠ []) :
    r.added (strokes middle ws) + 1 = ws.sum + 3 * ws.length := by
  have hstroke := hr.one '─' (by decide)
  have hmark := hr.one middle hmiddle
  induction ws with
  | nil => exact absurd rfl hws
  | cons w ws ih =>
    cases ws with
    | nil =>
      rw [strokes_singleton, Ruler.added_replicate, hstroke, List.sum_singleton,
        List.length_singleton]
      omega
    | cons v ws =>
      have hrest := ih (List.cons_ne_nil v ws)
      rw [strokes_cons_cons, Ruler.added_append, Ruler.added_replicate, Ruler.added_cons, hstroke,
        hmark, List.sum_cons, List.length_cons]
      omega

/-- A border takes as many columns as a line of cells. -/
theorem added_borderLine (hr : Draws r plain) (h : AreMarks left middle right) (hws : ws ≠ []) :
    r.added (borderLine left middle right ws) = lineWidth ws := by
  have hstrokes := added_strokes hr h.middle hws
  have hblank := hr.one ' ' (by decide)
  have hleft := hr.one left h.left
  have hright := hr.one right h.right
  simp only [borderLine, Ruler.added_append, Ruler.added_cons, Ruler.added_nil, hblank, hleft,
    hright, lineWidth]
  omega

theorem displayWidth_borderLine (hr : Draws r plain) (h : AreMarks left middle right)
    (hws : ws ≠ []) :
    displayWidth r (borderLine left middle right ws) = lineWidth ws := by
  have hplain : ∀ c ∈ borderLine left middle right ws, plain c := fun c hc =>
    hr.isPlain c (mem_marks_of_mem_borderLine h hc)
  have hvisible := visible_borderLine h ws
  rw [displayWidth_eq_added hr.addsUp (hvisible.symm ▸ hplain), hvisible, added_borderLine hr h hws]

/-! ## The widths of a table -/

theorem length_fitWidths (t : Table) (r : Ruler) (width : Nat) :
    (t.fitWidths r width).length = t.headers.length :=
  (fits_fitWidths t r width).isCut.length_eq.symm.trans (isNatural_naturalWidths t r).length_eq

/-- The widths of a table have room for a row of its texts. A column narrower than its text has been
cut, and then it is not below the least one. -/
theorem hasRoom_fitWidths (width : Nat) (hlength : row.length = t.headers.length)
    (hrow : ∀ i s, row[i]? = some s → TakesWidth t r i (displayWidth r (flatten s))) :
    List.Forall₂ (HasRoom r) row (t.fitWidths r width) := by
  have hdots : ellipsis.length ≤ leastColumn := by decide
  have hnatural := isNatural_naturalWidths t r
  obtain ⟨-, hcut⟩ := List.forall₂_iff_get.1 (fits_fitWidths t r width).isCut
  refine List.forall₂_iff_get.2 ⟨hlength.trans (length_fitWidths t r width).symm, ?_⟩
  intro i hi hfitted
  have hinatural : i < (t.naturalWidths r).length := by
    rwa [hnatural.length_eq, ← hlength]
  have hwide : displayWidth r (flatten row[i]) ≤ (t.naturalWidths r)[i] :=
    (hnatural.isGreatest i _ (List.getElem?_eq_getElem hinatural)).2
      (hrow i _ (List.getElem?_eq_getElem hi))
  have hleast := (hcut i hinatural hfitted).2
  simp only [List.get_eq_getElem] at hleast ⊢
  rcases Nat.lt_or_ge (t.fitWidths r width)[i] (t.naturalWidths r)[i] with hlt | hge
  · exact .inr (Nat.le_trans hdots (hleast hlt).1)
  · exact .inl (Nat.le_trans hwide hge)

theorem lineWidth_fitWidths_le (t : Table) (r : Ruler)
    (hwidth : 3 + 11 * t.headers.length ≤ width) :
    lineWidth (t.fitWidths r width) ≤ width := by
  have hlength := length_fitWidths t r width
  have hsum := (fits_fitWidths t r width).sum_le (by
    unfold available leastColumn
    omega)
  unfold available at hsum
  unfold lineWidth
  omega

/-! ## The drawing -/

/-- The lines of a drawing. -/
def lines (t : Table) (r : Ruler) (bold : Bool) (width : Nat) : List (List Char) :=
  let ws := t.fitWidths r width
  [borderLine '┌' '┬' '┐' ws, rowLine r bold true ws t.headers, borderLine '├' '┼' '┤' ws] ++
    t.rows.map (rowLine r bold false ws) ++ [borderLine '└' '┴' '┘' ws]

/-- Each line of a drawing is a border, or shows the headers or a row. -/
theorem mem_lines {line : List Char} (h : line ∈ t.lines r bold width) :
    (∃ left middle right, AreMarks left middle right ∧
        line = borderLine left middle right (t.fitWidths r width)) ∨
      ∃ header row, (row = t.headers ∨ row ∈ t.rows) ∧
        line = rowLine r bold header (t.fitWidths r width) row := by
  have hmarks : AreMarks '┌' '┬' '┐' ∧ AreMarks '├' '┼' '┤' ∧ AreMarks '└' '┴' '┘' :=
    ⟨⟨by decide, by decide, by decide⟩, ⟨by decide, by decide, by decide⟩,
      ⟨by decide, by decide, by decide⟩⟩
  simp only [lines, List.cons_append, List.nil_append, List.mem_cons, List.mem_append, List.mem_map,
    List.not_mem_nil, or_false] at h
  rcases h with htop | hheaders | hmiddle | ⟨row, hrow, hline⟩ | hbottom
  · exact .inl ⟨_, _, _, hmarks.1, htop⟩
  · exact .inr ⟨_, _, .inl rfl, hheaders⟩
  · exact .inl ⟨_, _, _, hmarks.2.1, hmiddle⟩
  · exact .inr ⟨_, _, .inr hrow, hline.symm⟩
  · exact .inl ⟨_, _, _, hmarks.2.2, hbottom⟩

theorem ofLines_map_ofList (lines : List (List Char)) :
    Text.ofLines (lines.map String.ofList) = String.ofList (lines.flatMap (· ++ ['\n'])) := by
  induction lines with
  | nil => rfl
  | cons line lines ih =>
    rw [List.map_cons, Text.ofLines_cons, ih, List.flatMap_cons, String.ofList_append,
      String.ofList_append]

theorem draw_eq_ofLines (r : Ruler) (bold : Bool) (width : Nat) (hheaders : t.headers ≠ []) :
    t.draw r bold width = Text.ofLines ((t.lines r bold width).map String.ofList) := by
  rw [ofLines_map_ofList, draw, if_neg hheaders]
  simp only [lines, drawBorder_eq, drawRow_eq, List.flatMap_append, List.flatMap_cons,
    List.flatMap_nil, List.append_nil, List.append_assoc, List.flatMap_map]
  rfl

/-- The texts of a table are plain, and none of its headers has to be brought on one line. -/
structure IsPlain (plain : Char → Prop) (t : Table) : Prop where
  headers : IsPlainRow plain t.headers
  rows : ∀ row ∈ t.rows, IsPlainRow plain row
  flatten_eq : ∀ s ∈ t.headers, flatten s = s.toList

theorem IsPlain.isPlainRow (ht : t.IsPlain plain) (h : row = t.headers ∨ row ∈ t.rows) :
    IsPlainRow plain row := by
  rcases h with rfl | hrow
  · exact ht.headers
  · exact ht.rows row hrow

/-- A drawing has exactly the lines with which it is put together. -/
theorem linesOf_draw (ht : t.IsPlain plain) (r : Ruler) (bold : Bool) (width : Nat)
    (hheaders : t.headers ≠ []) :
    Text.linesOf (t.draw r bold width) = (t.lines r bold width).map String.ofList ++ [""] := by
  rw [draw_eq_ofLines r bold width hheaders]
  refine Text.linesOf_ofLines fun text htext => ?_
  obtain ⟨line, hline, rfl⟩ := List.mem_map.1 htext
  rw [String.toList_ofList]
  rcases mem_lines hline with ⟨left, middle, right, hmarks, rfl⟩ | ⟨header, row, hrow, rfl⟩
  · exact lineFeed_not_mem_borderLine hmarks _
  · exact lineFeed_not_mem_rowLine bold header _ (ht.isPlainRow hrow)

theorem hasRoom_row (ht : t.IsPlain plain) (r : Ruler) (width : Nat)
    (h : row = t.headers ∨ row ∈ t.rows) : List.Forall₂ (HasRoom r) row (t.fitWidths r width) := by
  rcases h with rfl | hrow
  · refine hasRoom_fitWidths width rfl fun i s hs => ?_
    rw [ht.flatten_eq s (List.mem_of_getElem? hs)]
    exact .header hs
  · exact hasRoom_fitWidths width (t.filled row hrow) fun i s hs => .cell hrow hs

/-- The lines of a drawing are equally wide. -/
theorem displayWidth_of_mem_lines (hr : Draws r plain) (ht : t.IsPlain plain)
    (hheaders : t.headers ≠ []) {line : List Char} (hline : line ∈ t.lines r bold width) :
    displayWidth r line = lineWidth (t.fitWidths r width) := by
  rcases mem_lines hline with ⟨left, middle, right, hmarks, rfl⟩ | ⟨header, row, hrow, rfl⟩
  · refine displayWidth_borderLine hr hmarks fun hnil => hheaders ?_
    rw [← List.length_eq_zero_iff, ← length_fitWidths t r width, hnil, List.length_nil]
  · exact displayWidth_rowLine hr bold header (ht.isPlainRow hrow) (hasRoom_row ht r width hrow)

theorem showsRow_map_rowLine (ht : t.IsPlain plain) (r : Ruler) (bold : Bool) (width : Nat) :
    List.Forall₂ ShowsRow t.rows (t.rows.map (rowLine r bold false (t.fitWidths r width))) := by
  rw [List.forall₂_map_right_iff, List.forall₂_same]
  intro row hrow
  refine showsRow_rowLine bold false (ht.rows row hrow) ?_
  rw [t.filled row hrow, length_fitWidths]

/-- On a terminal too the lines of a drawing are equally wide, as long as each character of its
texts stands alone. -/
theorem render_aligned (ht : t.IsPlain Text.StandsAlone) (hheaders : t.headers ≠ []) (bold : Bool)
    (width : Nat) :
    Text.linesOf (t.render bold width) =
        (t.lines .terminal bold width).map String.ofList ++ [""] ∧
      ∀ line ∈ t.lines .terminal bold width,
        displayWidth .terminal line = lineWidth (t.fitWidths .terminal width) :=
  ⟨linesOf_draw ht .terminal bold width hheaders, fun _ hline =>
    displayWidth_of_mem_lines draws_terminal ht hheaders hline⟩

/-- How a table is drawn by a ruler that adds up characters and takes each stroke, dot and blank
for one column, where the headers have no controls, and the cells none but line breaks and tabs.
A border, a line that shows the headers, a second border, a line for each row with as many cells
as there are headers, in the order of the rows, and a third border are all the lines of the
drawing. They are equally wide, and no wider than the given width if that is three columns and
eleven for each header at least. -/
theorem draw_aligned {char : Char → Nat} (hmarks : ∀ c ∈ marks, char c = 1) {headers : List String}
    (hheaders : headers ≠ []) (hplain : ∀ s ∈ headers, ∀ c ∈ s.toList, isControl c = false)
    {rows : List (List String)}
    (hcells : ∀ row ∈ rows, row.length = headers.length → ∀ s ∈ row, ∀ c ∈ s.toList,
      isControl c = true → c = '\n' ∨ c = '\r' ∨ c = '\t') (bold : Bool) (width : Nat) :
    let t := rows.foldl addRow (ofHeaders headers)
    let r := Ruler.sum char
    let ws := t.fitWidths r width
    ∃ head body,
      let lines := [borderLine '┌' '┬' '┐' ws, head, borderLine '├' '┼' '┤' ws] ++ body ++
        [borderLine '└' '┴' '┘' ws]
      Text.linesOf (t.draw r bold width) = lines.map String.ofList ++ [""] ∧
        ShowsRow headers head ∧
        List.Forall₂ ShowsRow (rows.filter (·.length = headers.length)) body ∧
        (∀ line ∈ lines, displayWidth r line = lineWidth ws) ∧
        (3 + 11 * headers.length ≤ width → lineWidth ws ≤ width) := by
  intro t r ws
  have htheaders : t.headers = headers := headers_foldl_addRow _ _
  have htrows : t.rows = rows.filter (·.length = headers.length) := rows_foldl_addRow _ _
  have hr : Draws r fun _ => True := draws_sum hmarks
  have ht : t.IsPlain fun _ => True := by
    refine ⟨fun s hs => ?_, fun row hrow s hs => ?_, fun s hs => ?_⟩
    · refine isPlainCell_of_controls fun c hc hcontrol => ?_
      rw [hplain s (htheaders ▸ hs) c hc] at hcontrol
      cases hcontrol
    · rw [htrows, List.mem_filter, decide_eq_true_iff] at hrow
      exact isPlainCell_of_controls (hcells row hrow.1 hrow.2 s hs)
    · exact flatten_of_no_control (hplain s (htheaders ▸ hs))
  rw [← htheaders] at hheaders ⊢
  rw [← htheaders] at htrows
  refine ⟨rowLine r bold true ws t.headers, t.rows.map (rowLine r bold false ws),
    linesOf_draw ht r bold width hheaders, ?_, ?_, fun line hline => ?_, lineWidth_fitWidths_le t r⟩
  · exact showsRow_rowLine bold true ht.headers (length_fitWidths t r width).symm
  · rw [← htrows]
    exact showsRow_map_rowLine ht r bold width
  · exact displayWidth_of_mem_lines hr ht hheaders hline

/-- Rows with a letter under an accent and a line break, with wide signs of which the third would
reach over the end of its column, and with a text that is cut. The second row lacks a cell. -/
def mixed : List (List String) :=
  [["e\u0301\nx", "漢字漢字漢字"], ["left out"], ["a longer text", "y"]]

/-- With two wide signs and three dots a cell has seven columns, and one more blank. -/
theorem draw_aligned_mixed :
    ∃ lines : List (List Char), Text.linesOf ((mixed.foldl addRow (ofHeaders ["名前", "Kind"])).draw
        (.sum Ruler.terminal.char) true 25) = lines.map String.ofList ++ [""] ∧
      lines.length = 6 ∧
      ∀ line ∈ lines, displayWidth (.sum Ruler.terminal.char) line = 25 := by
  have hmarks : ∀ c ∈ marks, Ruler.terminal.char c = 1 := draws_terminal.one
  have hplain : ∀ s ∈ ["名前", "Kind"], ∀ c ∈ s.toList, isControl c = false := by
    have hall : (["名前", "Kind"].all fun s => s.toList.all fun c =>
        decide (isControl c = false)) = true := by decide
    intro s hs c hc
    exact of_decide_eq_true (List.all_eq_true.1 (List.all_eq_true.1 hall s hs) c hc)
  have hcells : ∀ row ∈ mixed, row.length = ["名前", "Kind"].length → ∀ s ∈ row, ∀ c ∈ s.toList,
      isControl c = true → c = '\n' ∨ c = '\r' ∨ c = '\t' := by
    have hall : (mixed.all fun row => row.all fun s => s.toList.all fun c =>
        decide (isControl c = true → c = '\n' ∨ c = '\r' ∨ c = '\t')) = true := by decide
    intro row hrow _ s hs c hc
    have hrowall := List.all_eq_true.1 hall row hrow
    exact of_decide_eq_true (List.all_eq_true.1 (List.all_eq_true.1 hrowall s hs) c hc)
  have hwidths : (mixed.foldl addRow (ofHeaders ["名前", "Kind"])).fitWidths
      (.sum Ruler.terminal.char) 25 = [8, 8] := by decide +kernel
  obtain ⟨head, body, hlines, -, hbody, haligned, -⟩ :=
    draw_aligned hmarks (List.cons_ne_nil "名前" ["Kind"]) hplain hcells true 25
  have hlength : body.length = 2 := hbody.length_eq.symm.trans (by decide)
  refine ⟨_, hlines, ?_, fun line hline => ?_⟩
  · simp [hlength]
  · rw [haligned line hline, hwidths]
    rfl

end BuildGraph.Table
