import BuildGraph.Proofs.Text.Visible
import BuildGraph.Table
import Mathlib.Algebra.Order.Ring.Nat
set_option autoImplicit false

/-!
# Cells of a table

Where a text takes as many columns as its characters together, a cell takes as many as its
column: it is cut so that it fits and filled up with blanks. There is only one thing to look out
for: the dots of a text that has been cut need room themselves, so a text may only be cut in a
column of three at least. On a terminal the characters of a text add up as long as no two of them
are drawn as one sign (`draws_terminal`).
-/

namespace BuildGraph

/-! ## Adding up characters -/

namespace Text.Ruler

variable {r : Ruler} {plain : Char → Prop}

/-- The columns of the characters of a text together. -/
def added (r : Ruler) (cs : List Char) : Nat :=
  (cs.map r.char).sum

@[simp] theorem added_nil (r : Ruler) : r.added [] = 0 := rfl

@[simp] theorem added_cons (r : Ruler) (c : Char) (cs : List Char) :
    r.added (c :: cs) = r.char c + r.added cs := by
  simp [added]

@[simp] theorem added_append (r : Ruler) (cs ds : List Char) :
    r.added (cs ++ ds) = r.added cs + r.added ds := by
  simp [added]

@[simp] theorem added_replicate (r : Ruler) (n : Nat) (c : Char) :
    r.added (List.replicate n c) = n * r.char c := by
  simp [added]

/-- A text of certain characters takes as many columns as they take together. -/
def AddsUp (r : Ruler) (plain : Char → Prop) : Prop :=
  ∀ cs, (∀ c ∈ cs, plain c) → r.text cs = r.added cs

theorem foldl_char_eq (char : Char → Nat) (n : Nat) (cs : List Char) :
    cs.foldl (fun n c => n + char c) n = n + (cs.map char).sum := by
  induction cs generalizing n with
  | nil => rfl
  | cons c cs ih => rw [List.foldl_cons, ih, List.map_cons, List.sum_cons, Nat.add_assoc]

theorem addsUp_sum (char : Char → Nat) : (sum char).AddsUp fun _ => True := by
  intro cs _
  exact (foldl_char_eq char 0 cs).trans (Nat.zero_add _)

end Text.Ruler

namespace Text

variable {c : Char} {cs : List Char}

/-- A character that takes its own columns, and is nothing with which a character before it could be
drawn as one sign. -/
def StandsAlone (c : Char) : Prop :=
  Right.nothing.before c = ((Ruler.terminal.char c : Int), .nothing)

instance : DecidablePred StandsAlone :=
  fun c => inferInstanceAs (Decidable (Right.nothing.before c = _))

theorem measure_of_standsAlone (h : ∀ c ∈ cs, StandsAlone c) :
    measure cs = ((Ruler.terminal.added cs : Int), .nothing) := by
  induction cs with
  | nil => rfl
  | cons c cs ih =>
    obtain ⟨hc, hcs⟩ := List.forall_mem_cons.1 h
    have hstep : Right.nothing.before c = ((Ruler.terminal.char c : Int), .nothing) := hc
    rw [measure_cons, ih hcs, hstep, Ruler.added_cons, Int.natCast_add, Int.add_comm]

theorem addsUp_terminal : Ruler.terminal.AddsUp StandsAlone := by
  intro cs h
  change width cs = _
  rw [width, measure_of_standsAlone h]
  rfl

example : StandsAlone '名' ∧ StandsAlone 'é' ∧ ¬ StandsAlone '\ufe0f' := by decide +kernel

end Text

namespace Table

open Text (Ruler isControl isEscape visible)

variable {r : Ruler} {plain : Char → Prop} {cs text rest : List Char} {c : Char} {cell : String}
  {n w : Nat}

/-- The characters with which a table is drawn beside those of its texts. -/
def marks : List Char :=
  [' ', '.', '─', '│', '┌', '┬', '┐', '├', '┼', '┤', '└', '┴', '┘']

/-- The ruler adds up certain characters, and among them those with which a table is drawn, each
of which takes one column. -/
structure Draws (r : Ruler) (plain : Char → Prop) : Prop where
  addsUp : r.AddsUp plain
  isPlain : ∀ c ∈ marks, plain c
  one : ∀ c ∈ marks, r.char c = 1

theorem draws_sum {char : Char → Nat} (h : ∀ c ∈ marks, char c = 1) :
    Draws (.sum char) fun _ => True :=
  ⟨Ruler.addsUp_sum char, fun _ _ => trivial, h⟩

theorem draws_terminal : Draws .terminal Text.StandsAlone := by
  have hall :
      (marks.all fun c => decide (Text.StandsAlone c ∧ Ruler.terminal.char c = 1)) = true := by
    decide +kernel
  have hmarks : ∀ c ∈ marks, Text.StandsAlone c ∧ Ruler.terminal.char c = 1 := fun c hc =>
    of_decide_eq_true (List.all_eq_true.1 hall c hc)
  exact ⟨Text.addsUp_terminal, fun c hc => (hmarks c hc).1, fun c hc => (hmarks c hc).2⟩

/-- A cell without controls other than line breaks and tabs, whose other characters are of certain
kinds. -/
def IsPlainCell (plain : Char → Prop) (cell : String) : Prop :=
  ∀ c ∈ flatten cell, isControl c = false ∧ plain c

/-- A cell is plain if the only controls in it are those that are drawn as blanks. -/
theorem isPlainCell_of_controls
    (h : ∀ c ∈ cell.toList, isControl c = true → c = '\n' ∨ c = '\r' ∨ c = '\t') :
    IsPlainCell (fun _ => True) cell := by
  intro c hc
  obtain ⟨d, hd, rfl⟩ := List.mem_map.1 hc
  refine ⟨?_, trivial⟩
  split
  · rfl
  · rename_i hkept
    rw [Bool.eq_false_iff]
    intro hcontrol
    rcases h d hd hcontrol with rfl | rfl | rfl <;> exact hkept rfl

theorem flatten_of_no_control (h : ∀ c ∈ cell.toList, isControl c = false) :
    flatten cell = cell.toList := by
  refine List.map_congr_left (fun c hc => if_neg fun hblank => ?_) |>.trans (List.map_id _)
  have hcontrol := h c hc
  simp only [Bool.or_eq_true, beq_iff_eq] at hblank
  rcases hblank with (rfl | rfl) | rfl <;> exact absurd hcontrol (by decide)

theorem isEscape_of_isControl (h : isControl c = false) : isEscape c = false := by
  rw [Bool.eq_false_iff] at h ⊢
  intro hescape
  rcases Bool.or_eq_true_iff.1 hescape with heq | heq
  · exact h (beq_iff_eq.1 heq ▸ rfl)
  · exact h (beq_iff_eq.1 heq ▸ rfl)

theorem isEscape_of_isPlainCell (h : IsPlainCell plain cell) :
    ∀ c ∈ flatten cell, isEscape c = false :=
  fun c hc => isEscape_of_isControl (h c hc).1

/-! ## Measuring -/

theorem foldl_segments (h : r.AddsUp plain) (segments : List Text.Segment) (n : Nat)
    (hplain : ∀ c ∈ segments.flatMap Text.Segment.shownChars, plain c) :
    segments.foldl (fun n s => n + r.text s.shownChars) n =
      n + r.added (segments.flatMap Text.Segment.shownChars) := by
  induction segments generalizing n with
  | nil => rfl
  | cons s segments ih =>
    rw [List.flatMap_cons] at hplain ⊢
    obtain ⟨hs, hsegments⟩ := List.forall_mem_append.1 hplain
    rw [List.foldl_cons, ih _ hsegments, h _ hs, Ruler.added_append, Nat.add_assoc]

/-- The columns of a text are those of its visible characters together. -/
theorem displayWidth_eq_added (h : r.AddsUp plain) (hplain : ∀ c ∈ visible cs, plain c) :
    displayWidth r cs = r.added (visible cs) :=
  (foldl_segments h _ 0 hplain).trans (Nat.zero_add _)

theorem displayWidth_of_no_escape (h : ∀ c ∈ cs, isEscape c = false) :
    displayWidth r cs = r.text cs := by
  rw [displayWidth, Text.Segment.ofText_of_no_escape h]
  exact Nat.zero_add _

/-! ## Cutting -/

/-- A text stands for another one: it is the same, or the start of it with three dots behind. -/
inductive StandsFor (cs : List Char) : List Char → Prop
  | whole : StandsFor cs cs
  | start {front rest : List Char} (h : cs = front ++ rest) : StandsFor cs (front ++ ellipsis)

theorem cut_prefix (r : Ruler) (n : Nat) (cs : List Char) : cut r n cs <+: cs := by
  induction cs generalizing n with
  | nil => exact List.prefix_refl []
  | cons c cs ih =>
    unfold cut
    split
    · exact List.nil_prefix
    · split
      · exact ⟨cs, rfl⟩
      · exact (List.prefix_cons_inj c).2 (ih _)

theorem added_cut_le (r : Ruler) (n : Nat) (cs : List Char) : r.added (cut r n cs) ≤ n := by
  induction cs generalizing n with
  | nil => exact Nat.zero_le n
  | cons c cs ih =>
    unfold cut
    split
    · exact Nat.zero_le n
    · split
      · rename_i hfills
        rw [Ruler.added_cons, hfills]
        exact Nat.le_refl _
      · have hle := ih (n - r.char c)
        rw [Ruler.added_cons]
        omega

/-- A text without sequences that takes too many columns is cut in one place. -/
theorem truncate_of_no_escape (h : ∀ c ∈ cs, isEscape c = false) :
    truncate r n cs =
      if r.text cs ≤ n then cs else cut r (n - ellipsis.length) cs ++ ellipsis := by
  rw [truncate, displayWidth_of_no_escape h, Text.Segment.ofText_of_no_escape h]
  split
  · rfl
  · rename_i hwide
    rw [truncateSegments, if_pos (by omega)]
    exact List.append_nil _

theorem standsFor_truncate (h : ∀ c ∈ cs, isEscape c = false) : StandsFor cs (truncate r n cs) := by
  rw [truncate_of_no_escape h]
  split
  · exact .whole
  · obtain ⟨rest, hrest⟩ := cut_prefix r (n - ellipsis.length) cs
    exact .start hrest.symm

theorem mem_of_standsFor (h : StandsFor cs text) (hc : c ∈ text) : c ∈ cs ∨ c = '.' := by
  cases h with
  | whole => exact .inl hc
  | start heq =>
    rcases List.mem_append.1 hc with hfront | hdots
    · exact .inl (heq ▸ List.mem_append_left _ hfront)
    · exact .inr (by simpa [ellipsis] using hdots)

/-- A column has room for a cell, or at least for the dots with which a cell that is cut ends. -/
def HasRoom (r : Ruler) (cell : String) (w : Nat) : Prop :=
  displayWidth r (flatten cell) ≤ w ∨ ellipsis.length ≤ w

theorem added_truncate_le (hr : Draws r plain) (hcell : IsPlainCell plain cell)
    (hroom : HasRoom r cell n) : r.added (truncate r n (flatten cell)) ≤ n := by
  have hescape := isEscape_of_isPlainCell hcell
  unfold HasRoom at hroom
  rw [displayWidth_of_no_escape hescape] at hroom
  rw [truncate_of_no_escape hescape]
  split
  · rename_i hfits
    rwa [← hr.addsUp _ fun c hc => (hcell c hc).2]
  · rename_i hwide
    have hdots : r.added ellipsis = ellipsis.length := by
      simp [ellipsis, hr.one '.' (by decide)]
    have hcut := added_cut_le r (n - ellipsis.length) (flatten cell)
    rw [Ruler.added_append, hdots]
    omega

/-! ## Drawing -/

theorem visible_boldOn_append (rest : List Char) : visible (boldOn ++ rest) = visible rest := by
  have hlength : Text.sequenceLength? (boldOn ++ rest) = some 4 :=
    Text.sequenceEnd_closed 4 (some 4) rest
  exact Text.visible_cons_of_some hlength

theorem visible_reset_append (rest : List Char) : visible (reset ++ rest) = visible rest := by
  have hlength : Text.sequenceLength? (reset ++ rest) = some 4 :=
    Text.sequenceEnd_closed 4 (some 4) rest
  exact Text.visible_cons_of_some hlength

/-- A text that takes no decoration back is decorated at its two ends. -/
theorem decorate_of_no_escape (bold header : Bool) (h : ∀ c ∈ cs, isEscape c = false) :
    decorate bold header cs = if bold && header then boldOn ++ cs ++ reset else cs := by
  have hkept : keepBold cs = cs := keepBold_of_no_escape fun hmem => by
    have hescape := h _ hmem
    exact absurd hescape (by decide)
  rw [decorate, hkept]

/-- Of a decorated text the text is visible. -/
theorem visible_decorate_append (bold header : Bool) (h : ∀ c ∈ cs, isEscape c = false)
    (rest : List Char) : visible (decorate bold header cs ++ rest) = cs ++ visible rest := by
  rw [decorate_of_no_escape bold header h]
  split
  · rw [List.append_assoc, List.append_assoc, visible_boldOn_append, Text.visible_append h,
      visible_reset_append]
  · exact Text.visible_append h rest

theorem isEscape_of_mem_truncate (hcell : IsPlainCell plain cell) :
    ∀ c ∈ truncate r w (flatten cell), isEscape c = false := by
  have hescape := isEscape_of_isPlainCell hcell
  intro c hc
  rcases mem_of_standsFor (standsFor_truncate hescape) hc with hc | rfl
  · exact hescape c hc
  · decide

theorem plain_of_mem_truncate (hr : Draws r plain) (hcell : IsPlainCell plain cell) :
    ∀ c ∈ truncate r w (flatten cell), plain c := by
  intro c hc
  rcases mem_of_standsFor (standsFor_truncate (isEscape_of_isPlainCell hcell)) hc with hc | rfl
  · exact (hcell c hc).2
  · exact hr.isPlain '.' (by decide)

/-- Of a cell all but its decoration is visible. -/
theorem visible_drawCell_append (bold header : Bool) (hcell : IsPlainCell plain cell)
    (rest : List Char) :
    visible (drawCell r bold header cell w ++ rest) =
      drawCell r false false cell w ++ visible rest := by
  have hblank : ∀ c ∈ [' '], isEscape c = false := by simp [isEscape]
  have hend : ∀ c ∈ [' ', '│'], isEscape c = false := by simp [isEscape]
  have hfill : ∀ n, ∀ c ∈ List.replicate n ' ', isEscape c = false := fun n c hc =>
    (List.eq_of_mem_replicate hc) ▸ rfl
  unfold drawCell
  dsimp only
  simp only [List.append_assoc]
  rw [Text.visible_append hblank, visible_decorate_append _ _ (isEscape_of_mem_truncate hcell),
    Text.visible_append (hfill _), Text.visible_append hend]
  rfl

/-- A cell takes the columns of its width and three more. -/
theorem added_drawCell (hr : Draws r plain) (hcell : IsPlainCell plain cell)
    (hroom : HasRoom r cell w) : r.added (drawCell r false false cell w) = w + 3 := by
  have hwidth : displayWidth r (truncate r w (flatten cell)) =
      r.added (truncate r w (flatten cell)) :=
    (displayWidth_of_no_escape (isEscape_of_mem_truncate hcell)).trans
      (hr.addsUp _ (plain_of_mem_truncate hr hcell))
  have hfits := added_truncate_le hr hcell hroom
  have hblank := hr.one ' ' (by decide)
  have hstroke := hr.one '│' (by decide)
  unfold drawCell decorate
  simp only [Bool.and_false, Bool.false_eq_true, if_false, Ruler.added_append, Ruler.added_cons,
    Ruler.added_nil, Ruler.added_replicate, hwidth, hblank, hstroke]
  omega

theorem plain_of_mem_drawCell (hr : Draws r plain) (hcell : IsPlainCell plain cell)
    (hc : c ∈ drawCell r false false cell w) : plain c := by
  have hblank := hr.isPlain ' ' (by decide)
  have hstroke := hr.isPlain '│' (by decide)
  simp only [drawCell, decorate, Bool.and_false, Bool.false_eq_true, if_false, List.mem_append,
    List.mem_replicate, List.mem_cons, List.not_mem_nil, or_false] at hc
  rcases hc with ((rfl | hc) | ⟨-, rfl⟩) | rfl | rfl
  · exact hblank
  · exact plain_of_mem_truncate hr hcell c hc
  · exact hblank
  · exact hblank
  · exact hstroke

theorem lineFeed_not_mem_drawCell (bold header : Bool) (hcell : IsPlainCell plain cell) :
    '\n' ∉ drawCell r bold header cell w := by
  have hescape := isEscape_of_isPlainCell hcell
  have htext : '\n' ∉ truncate r w (flatten cell) := by
    intro hmem
    rcases mem_of_standsFor (standsFor_truncate hescape) hmem with hmem | heq
    · exact absurd (hcell _ hmem).1 (by decide)
    · exact absurd heq (by decide)
  have hdecorated : '\n' ∉ decorate bold header (truncate r w (flatten cell)) := by
    rw [decorate_of_no_escape bold header (isEscape_of_mem_truncate hcell)]
    split
    · simp [htext, boldOn, reset]
    · exact htext
  unfold drawCell
  simp [hdecorated]

/-- A part of a line shows a cell: a text that stands for the cell, filled up with blanks. -/
def ShowsCell (cell : String) (part : List Char) : Prop :=
  ∃ text blanks, StandsFor (flatten cell) text ∧
    part = [' '] ++ text ++ List.replicate blanks ' ' ++ [' ', '│']

theorem showsCell_drawCell (hcell : IsPlainCell plain cell) :
    ShowsCell cell (drawCell r false false cell w) :=
  ⟨_, _, standsFor_truncate (isEscape_of_isPlainCell hcell), rfl⟩

end Table

end BuildGraph
