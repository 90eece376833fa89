import BuildGraph.Graph.Outline
import Mathlib.Data.List.TakeWhile
set_option autoImplicit false

/-!
# Outlines as forests

The lines of an outline draw a forest: each item with what stands below it. How deep a line stands
can be seen on it, and so what stands directly below a line can be read off the lines alone
(`Outline.expansions`). Read off the lines of a forest it is what the forest has there
(`Forest.expansions_marginLines`).
-/

namespace BuildGraph

/-- What an item shows, without the mark. -/
def OutlineItem.child : OutlineItem → OutlineChild
  | .module id _ => .module id
  | .system name => .system name

/-- How deep a line stands: as deep as there are strokes in front of it. At the margin there are
none. -/
def OutlineLine.level (l : OutlineLine) : Nat :=
  l.around.length + l.last?.toList.length

namespace Outline

/-- The items that stand directly below a line, by the lines behind it: of those that stand deeper,
up to the first that does not, the ones that are one level deeper. -/
def itemsBelow (l : OutlineLine) (behind : List OutlineLine) : List OutlineItem :=
  ((behind.takeWhile fun x => decide (l.level < x.level)).filter fun x =>
    x.level == l.level + 1).map OutlineLine.item

/-- The item of each line, with the items that stand directly below it. -/
def expansions : List OutlineLine → List (OutlineItem × List OutlineItem)
  | [] => []
  | l :: behind => (l.item, itemsBelow l behind) :: expansions behind

/-- The first of some lines, if there is one, stands no deeper than a level. -/
def StartsWithin (level : Nat) (lines : List OutlineLine) : Prop :=
  ∀ l ∈ lines.head?, l.level ≤ level

end Outline

/-! ## Indentation -/

namespace Outline

theorem strokes_cons (last : Bool) (around : List Bool) :
    strokes (last :: around) = (if last then "    " else "│   ") ++ strokes around := by
  simp [strokes]

/-- What stands in front of the item of a line. -/
def indent (l : OutlineLine) : String :=
  strokes l.around ++ branch l.last?

theorem lineText_eq (g : Graph) (l : OutlineLine) : lineText g l = indent l ++ itemText g l.item :=
  rfl

theorem length_strokes (around : List Bool) : (strokes around).length = 4 * around.length := by
  induction around with
  | nil => rfl
  | cons last around ih =>
    have hfour : (if last then "    " else "│   ").length = 4 := by
      cases last <;> decide
    rw [strokes_cons, String.length_append, hfour, ih, List.length_cons]
    omega

/-- A line is indented by four characters for each level. -/
theorem length_indent (l : OutlineLine) : (indent l).length = 4 * l.level := by
  have hbranch : (branch l.last?).length = 4 * l.last?.toList.length := by
    rcases l.last? with - | - | - <;> decide
  rw [indent, String.length_append, length_strokes, hbranch, OutlineLine.level, Nat.mul_add]

theorem mem_of_mem_strokes {around : List Bool} {c : Char} (h : c ∈ (strokes around).toList) :
    c ∈ [' ', '│'] := by
  induction around with
  | nil => cases h
  | cons last around ih =>
    have hstroke : ∀ x ∈ (if last then "    " else "│   ").toList, x ∈ [' ', '│'] := by
      cases last <;> simp
    rw [strokes_cons, String.toList_append] at h
    exact (List.mem_append.1 h).elim (hstroke c) ih

/-- The characters of an indentation. -/
theorem mem_of_mem_indent {l : OutlineLine} {c : Char} (h : c ∈ (indent l).toList) :
    c ∈ [' ', '│', '├', '└', '─'] := by
  have hbranch : ∀ x ∈ (branch l.last?).toList, x ∈ [' ', '│', '├', '└', '─'] := by
    rcases l.last? with - | - | - <;> simp [branch]
  rw [indent, String.toList_append] at h
  rcases List.mem_append.1 h with h | h
  · exact List.mem_append_left ['├', '└', '─'] (mem_of_mem_strokes h)
  · exact hbranch c h

end Outline

/-! ## Forests -/

/-- Items with what stands below them: nothing, or an item with the forest below it and the forest
that follows it. -/
inductive Forest
  | empty
  | cons (item : OutlineItem) (below rest : Forest)
  deriving DecidableEq, Repr, Inhabited

namespace Forest

open Outline (itemsBelow StartsWithin)

variable {f : Forest} {around : List Bool} {l : OutlineLine} {behind : List OutlineLine}

/-- Whether there is nothing in a forest. -/
def isEmpty : Forest → Bool
  | empty => true
  | cons _ _ _ => false

/-- The items that stand below no other. -/
def tops : Forest → List OutlineItem
  | empty => []
  | cons item _ rest => item :: rest.tops

/-- All items, each one in front of those below it. -/
def items : Forest → List OutlineItem
  | empty => []
  | cons item below rest => item :: (below.items ++ rest.items)

/-- Each item with those directly below it. -/
def expansions : Forest → List (OutlineItem × List OutlineItem)
  | empty => []
  | cons item below rest => (item, below.tops) :: (below.expansions ++ rest.expansions)

/-- The lines of a forest below some lines. -/
def lines (around : List Bool) : Forest → List OutlineLine
  | empty => []
  | cons item below rest =>
    ⟨around, some rest.isEmpty, item⟩ ::
      (below.lines (around ++ [rest.isEmpty]) ++ rest.lines around)

/-- The lines of a forest at the margin. -/
def marginLines : Forest → List OutlineLine
  | empty => []
  | cons item below rest => ⟨[], none, item⟩ :: (below.lines [] ++ rest.marginLines)

/-! ## Items -/

theorem map_item_lines (f : Forest) (around : List Bool) :
    (f.lines around).map OutlineLine.item = f.items := by
  induction f generalizing around with
  | empty => rfl
  | cons item below rest ihbelow ihrest =>
    simp only [lines, items, List.map_cons, List.map_append, ihbelow, ihrest]

theorem map_item_marginLines (f : Forest) : f.marginLines.map OutlineLine.item = f.items := by
  induction f with
  | empty => rfl
  | cons item below rest _ ihrest =>
    simp only [marginLines, items, List.map_cons, List.map_append, map_item_lines, ihrest]

/-! ## Levels -/

theorem length_lt_level_of_mem_lines (h : l ∈ f.lines around) : around.length < l.level := by
  induction f generalizing around with
  | empty => exact absurd h List.not_mem_nil
  | cons item below rest ihbelow ihrest =>
    unfold lines at h
    rcases List.mem_cons.1 h with rfl | h
    · exact Nat.lt_succ_self _
    · rcases List.mem_append.1 h with h | h
      · have hdeeper := ihbelow h
        rw [List.length_append] at hdeeper
        exact Nat.lt_of_succ_lt hdeeper
      · exact ihrest h

/-- The lines of a forest that stand farthest out show its top items. -/
theorem map_item_filter_lines (f : Forest) (around : List Bool) :
    ((f.lines around).filter fun x => x.level == around.length + 1).map OutlineLine.item =
      f.tops := by
  induction f with
  | empty => rfl
  | cons item below rest _ ihrest =>
    have hbelow : (below.lines (around ++ [rest.isEmpty])).filter
        (fun x => x.level == around.length + 1) = [] := by
      refine List.filter_eq_nil_iff.2 fun x hx hlevel => ?_
      have hdeeper := length_lt_level_of_mem_lines hx
      rw [List.length_append, List.length_singleton, beq_iff_eq.1 hlevel] at hdeeper
      exact Nat.lt_irrefl _ hdeeper
    have hself : ((around.length + 1) == around.length + 1) = true := beq_self_eq_true _
    unfold lines tops
    rw [List.filter_cons, List.filter_append, hbelow, List.nil_append]
    simp only [OutlineLine.level, Option.toList_some, List.length_singleton, hself, if_true,
      List.map_cons]
    exact congrArg (List.cons item) ihrest

theorem startsWithin_lines_append (h : StartsWithin (around.length + 1) behind) :
    StartsWithin (around.length + 1) (f.lines around ++ behind) := by
  cases f with
  | empty => exact h
  | cons item below rest =>
    intro l hl
    obtain rfl := Option.some.inj hl
    exact Nat.le_refl _

theorem startsWithin_marginLines (f : Forest) (level : Nat) :
    StartsWithin level f.marginLines := by
  cases f with
  | empty => intro l hl; cases hl
  | cons item below rest =>
    intro l hl
    obtain rfl := Option.some.inj hl
    exact Nat.zero_le _

/-! ## What stands below a line -/

/-- Below a line stand the top items of the forest that follows it one level deeper, if what comes
after that forest stands no deeper than the line. -/
theorem itemsBelow_lines_append (hlevel : l.level = around.length)
    (h : StartsWithin l.level behind) :
    itemsBelow l (f.lines around ++ behind) = f.tops := by
  have hall : ∀ x ∈ f.lines around, decide (l.level < x.level) = true := by
    intro x hx
    rw [hlevel]
    exact decide_eq_true (length_lt_level_of_mem_lines hx)
  have hstop : behind.takeWhile (fun x => decide (l.level < x.level)) = [] := by
    cases behind with
    | nil => rfl
    | cons x behind =>
      have hle : x.level ≤ l.level := h x rfl
      exact List.takeWhile_cons_of_neg (by simpa using hle)
  unfold itemsBelow
  rw [List.takeWhile_append_of_pos hall, hstop, List.append_nil, hlevel]
  exact map_item_filter_lines f around

theorem expansions_lines_append (h : StartsWithin (around.length + 1) behind) :
    Outline.expansions (f.lines around ++ behind) = f.expansions ++ Outline.expansions behind := by
  induction f generalizing around behind with
  | empty => rfl
  | cons item below rest ihbelow ihrest =>
    have hrest := startsWithin_lines_append (f := rest) h
    have hdeeper : StartsWithin ((around ++ [rest.isEmpty]).length + 1)
        (rest.lines around ++ behind) := by
      intro x hx
      rw [List.length_append]
      exact Nat.le_succ_of_le (hrest x hx)
    have htops : itemsBelow ⟨around, some rest.isEmpty, item⟩
        (below.lines (around ++ [rest.isEmpty]) ++ (rest.lines around ++ behind)) = below.tops := by
      refine itemsBelow_lines_append ?_ hrest
      rw [List.length_append]
      rfl
    unfold lines expansions
    rw [List.cons_append, List.append_assoc, Outline.expansions, htops, ihbelow hdeeper, ihrest h,
      List.cons_append, List.append_assoc]

/-- What stands below the lines of a forest is what the forest has there. -/
theorem expansions_marginLines (f : Forest) : Outline.expansions f.marginLines = f.expansions := by
  induction f with
  | empty => rfl
  | cons item below rest _ ihrest =>
    unfold marginLines expansions
    rw [Outline.expansions, itemsBelow_lines_append rfl (startsWithin_marginLines rest _),
      expansions_lines_append (startsWithin_marginLines rest _), ihrest]

end Forest

end BuildGraph
