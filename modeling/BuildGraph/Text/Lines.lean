set_option autoImplicit false

/-!
# Lines

A text of lines, each of which has a line break behind it.
-/

namespace BuildGraph.Text

/-- The text of some lines. -/
def ofLines (lines : List String) : String :=
  String.join (lines.map (· ++ "\n"))

theorem ofLines_append (xs ys : List String) : ofLines (xs ++ ys) = ofLines xs ++ ofLines ys := by
  simp [ofLines]

end BuildGraph.Text
