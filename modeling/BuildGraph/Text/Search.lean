set_option autoImplicit false

/-!
# Texts inside texts

Three questions about texts: whether one ends with another, whether one occurs somewhere in another,
and what follows the last occurrence of a character.
-/

namespace BuildGraph.Text

/-- Whether the text ends with the given one. -/
def endsWith (s ending : String) : Bool :=
  ending.toList.isSuffixOf s.toList

/-- Whether some characters occur in a row among others. -/
def occursIn (needle : List Char) : List Char → Bool
  | [] => needle.isEmpty
  | c :: cs => needle.isPrefixOf (c :: cs) || occursIn needle cs

/-- What follows the last occurrence of a character, if it occurs. -/
def afterLast? (mark : Char) : List Char → Option (List Char)
  | [] => none
  | c :: cs =>
    match afterLast? mark cs with
    | some rest => some rest
    | none => if c = mark then some cs else none

theorem endsWith_iff {s ending : String} :
    endsWith s ending = true ↔ ∃ cs, s.toList = cs ++ ending.toList := by
  simp only [endsWith, List.isSuffixOf_iff_suffix]
  constructor
  · rintro ⟨cs, h⟩; exact ⟨cs, h.symm⟩
  · rintro ⟨cs, h⟩; exact ⟨cs, h.symm⟩

theorem occursIn_iff {needle cs : List Char} :
    occursIn needle cs = true ↔ ∃ before after, cs = before ++ needle ++ after := by
  induction cs with
  | nil =>
    simp only [occursIn, List.isEmpty_iff]
    constructor
    · rintro rfl; exact ⟨[], [], rfl⟩
    · rintro ⟨b, a, h⟩
      have := congrArg List.length h
      simp only [List.length_nil, List.length_append] at this
      exact List.length_eq_zero_iff.1 (by omega)
  | cons c cs ih =>
    simp only [occursIn, Bool.or_eq_true, ih, List.isPrefixOf_iff_prefix]
    constructor
    · rintro (⟨a, h⟩ | ⟨b, a, h⟩)
      · exact ⟨[], a, by simp [h]⟩
      · exact ⟨c :: b, a, by simp [h]⟩
    · rintro ⟨b, a, h⟩
      cases b with
      | nil => exact .inl ⟨a, by simpa using h.symm⟩
      | cons d b =>
        simp only [List.cons_append, List.cons.injEq] at h
        exact .inr ⟨b, a, h.2⟩

theorem afterLast?_eq_none_iff {mark : Char} {cs : List Char} :
    afterLast? mark cs = none ↔ mark ∉ cs := by
  induction cs with
  | nil => simp [afterLast?]
  | cons c cs ih =>
    unfold afterLast?
    cases h : afterLast? mark cs with
    | some rest =>
      have : mark ∈ cs := by
        apply Classical.byContradiction
        intro hn
        simp [ih.2 hn] at h
      simp [this]
    | none =>
      have : mark ∉ cs := ih.1 h
      by_cases hc : c = mark
      · simp [hc]
      · have hm : ¬ mark = c := fun e => hc e.symm
        simp [hc, hm, this]

theorem afterLast?_eq_some_iff {mark : Char} {cs rest : List Char} :
    afterLast? mark cs = some rest ↔ ∃ before, cs = before ++ mark :: rest ∧ mark ∉ rest := by
  induction cs with
  | nil => simp [afterLast?]
  | cons c cs ih =>
    unfold afterLast?
    cases h : afterLast? mark cs with
    | some r =>
      simp only [h] at ih
      constructor
      · intro e
        obtain ⟨b, hb, hn⟩ := ih.1 e
        exact ⟨c :: b, by simp [hb], hn⟩
      · rintro ⟨b, hb, hn⟩
        cases b with
        | nil =>
          simp only [List.nil_append, List.cons.injEq] at hb
          have := afterLast?_eq_none_iff.2 (hb.2 ▸ hn)
          simp [this] at h
        | cons d b =>
          simp only [List.cons_append, List.cons.injEq] at hb
          exact ih.2 ⟨b, hb.2, hn⟩
    | none =>
      have hno := afterLast?_eq_none_iff.1 h
      constructor
      · intro e
        by_cases hc : c = mark
        · simp only [hc, if_true, Option.some.injEq] at e
          subst e
          exact ⟨[], by simp [hc], hno⟩
        · simp [hc] at e
      · rintro ⟨b, hb, hn⟩
        cases b with
        | nil =>
          simp only [List.nil_append, List.cons.injEq] at hb
          simp [hb.1, hb.2]
        | cons d b =>
          simp only [List.cons_append, List.cons.injEq] at hb
          exact absurd (by simp [hb.2]) hno

end BuildGraph.Text
