import BuildGraph.Text.Escape
set_option autoImplicit false

/-!
# What is visible of a text

A terminal shows a text without the sequences that it obeys. What is left is read from the front:
a character that starts no sequence is visible, and a sequence is passed over as a whole. So it
does not matter to what follows how the characters in front were gathered (`flatMap_scan`), and
plain characters in front of a text stay in front of what is visible of it.
-/

namespace BuildGraph.Text

variable {c : Char} {cs rest acc : List Char} {state : EscapeState} {longest : Option Nat}
  {n count fuel : Nat}

/-! ## Lengths of sequences -/

theorem of_sequenceEnd_eq_some (h : sequenceEnd state count longest cs = some n) :
    longest = some n ∨ count < n := by
  induction cs generalizing state count longest with
  | nil => exact .inl h
  | cons c cs ih =>
    rw [sequenceEnd] at h
    split at h
    · exact .inl h
    · rcases ih h with hlongest | hlt
      · split at hlongest
        · obtain rfl := Option.some.inj hlongest
          exact .inr (Nat.lt_succ_self count)
        · exact .inl hlongest
      · exact .inr (Nat.lt_of_succ_lt hlt)

/-- A sequence has at least the character with which it starts. -/
theorem sequenceLength?_pos (h : sequenceLength? cs = some n) : 0 < n := by
  unfold sequenceLength? at h
  split at h
  · cases h
  · obtain rfl := Option.some.inj h
    exact Nat.succ_pos _
  · obtain rfl := Option.some.inj h
    exact Nat.succ_pos _
  · split at h
    · rcases of_sequenceEnd_eq_some h with hnone | hlt
      · cases hnone
      · exact Nat.zero_lt_of_lt hlt
    · cases h

/-- Nothing goes on behind the character that closes a sequence. -/
theorem next_closed (c : Char) : EscapeState.closed.next c = none := by
  have hopened : (EscapeState.closed == .opened) = false := rfl
  have hparenthesis : (EscapeState.closed == .parenthesis) = false := rfl
  have hlead : (EscapeState.closed == .lead) = false := rfl
  have hseparator : (EscapeState.closed == .separator) = false := rfl
  unfold EscapeState.next
  dsimp only
  simp only [hopened, hparenthesis, hlead, hseparator, Bool.or_self, Bool.false_eq_true, if_false,
    ite_self]

theorem sequenceEnd_closed (count : Nat) (longest : Option Nat) (cs : List Char) :
    sequenceEnd .closed count longest cs = longest := by
  cases cs with
  | nil => rfl
  | cons c cs => rw [sequenceEnd, next_closed]

/-! ## Visible characters -/

/-- The characters of a text that are shown. -/
def visible (cs : List Char) : List Char :=
  (Segment.ofText cs).flatMap Segment.shownChars

/-- Characters that have been gathered come in front of what is visible of the rest. -/
theorem flatMap_scan (h : cs.length ≤ fuel) :
    (Segment.scan fuel acc cs).flatMap Segment.shownChars = acc.reverse ++ visible cs := by
  -- A step leaves a shorter text behind, whether it passes over a sequence or gathers a character.
  induction hlength : cs.length using Nat.strongRecOn generalizing cs acc fuel with
  | ind length ih =>
    subst hlength
    cases cs with
    | nil => cases fuel <;> simp [Segment.scan, visible, Segment.ofText, Segment.shownChars]
    | cons c cs =>
      cases fuel with
      | zero => exact absurd h (Nat.not_succ_le_zero _)
      | succ fuel =>
        have hfuel : cs.length ≤ fuel := Nat.le_of_succ_le_succ h
        rw [visible, Segment.ofText, List.length_cons, Segment.scan, Segment.scan]
        cases hsequence : sequenceLength? (c :: cs) with
        | none =>
          dsimp only
          rw [ih cs.length (Nat.lt_succ_self _) hfuel rfl,
            ih cs.length (Nat.lt_succ_self _) (Nat.le_refl _) rfl]
          simp
        | some n =>
          have hshorter : ((c :: cs).drop n).length ≤ cs.length := by
            have hpos := sequenceLength?_pos hsequence
            rw [List.length_drop, List.length_cons]
            omega
          dsimp only
          rw [List.flatMap_cons, List.flatMap_cons, List.flatMap_cons, List.flatMap_cons,
            ih _ (Nat.lt_succ_of_le hshorter) (Nat.le_trans hshorter hfuel) rfl,
            ih _ (Nat.lt_succ_of_le hshorter) hshorter rfl]
          rfl

@[simp] theorem visible_nil : visible [] = [] := rfl

theorem visible_cons_of_none (h : sequenceLength? (c :: cs) = none) :
    visible (c :: cs) = c :: visible cs := by
  rw [visible, Segment.ofText, List.length_cons, Segment.scan, h]
  exact flatMap_scan (Nat.le_refl _)

theorem visible_cons_of_some (h : sequenceLength? (c :: cs) = some n) :
    visible (c :: cs) = visible ((c :: cs).drop n) := by
  have hshorter : ((c :: cs).drop n).length ≤ cs.length := by
    have hpos := sequenceLength?_pos h
    rw [List.length_drop, List.length_cons]
    omega
  rw [visible, Segment.ofText, List.length_cons, Segment.scan, h]
  exact flatMap_scan hshorter

/-- Characters that start no sequence stay in front. -/
theorem visible_append (h : ∀ c ∈ cs, isEscape c = false) (rest : List Char) :
    visible (cs ++ rest) = cs ++ visible rest := by
  induction cs with
  | nil => rfl
  | cons c cs ih =>
    obtain ⟨hc, hcs⟩ := List.forall_mem_cons.1 h
    rw [List.cons_append, visible_cons_of_none (sequenceLength?_of_no_escape hc _), ih hcs,
      List.cons_append]

theorem visible_of_no_escape (h : ∀ c ∈ cs, isEscape c = false) : visible cs = cs := by
  have happend := visible_append h []
  rwa [visible_nil, List.append_nil] at happend

end BuildGraph.Text
