set_option autoImplicit false

/-!
# Sets of characters

A property of characters that a standard lists is kept as the ranges of its code points. This module
says what such a list means (`has_eq_true_iff`).
-/

namespace BuildGraph.Text

/-- A set of characters: the first and the last code point of each of its ranges. -/
abbrev Ranges := List (Nat × Nat)

namespace Ranges

/-- Whether the character lies in one of the ranges. -/
def has (rs : Ranges) (c : Char) : Bool :=
  rs.any fun r => r.1 ≤ c.toNat && c.toNat ≤ r.2

@[simp] theorem has_nil (c : Char) : has [] c = false := rfl

theorem has_eq_true_iff {rs : Ranges} {c : Char} :
    has rs c = true ↔ ∃ r ∈ rs, r.1 ≤ c.toNat ∧ c.toNat ≤ r.2 := by
  simp [has]

end Ranges

end BuildGraph.Text
