import BuildGraph.Module.Basic
import BuildGraph.Proofs.Text.Lines
set_option autoImplicit false

/-!
# Texts of one line

A text without a line break stays so when it is put together from such texts, cut, trimmed or taken
as a path: no piece of a path has a character that the path does not have.
-/

namespace BuildGraph

/-! ## Characters of paths -/

namespace Path

variable {c mark : Char} {p : List Char} {ps : List (List Char)}

theorem mem_of_mem_pieces {cs : List Char} (hp : p ∈ pieces mark cs) (hc : c ∈ p) : c ∈ cs := by
  rw [← joined_pieces mark cs]
  generalize pieces mark cs = ps at hp
  induction ps with
  | nil => exact absurd hp List.not_mem_nil
  | cons q qs ih =>
    cases List.mem_cons.1 hp with
    | inl hpq =>
      subst hpq
      cases qs with
      | nil => exact hc
      | cons _ _ => exact List.mem_append_left _ hc
    | inr hpqs =>
      rw [joined_cons (List.ne_nil_of_mem hpqs)]
      exact List.mem_append_right _ (List.mem_cons_of_mem _ (ih hpqs))

theorem mem_joined (h : c ∈ joined mark ps) : c = mark ∨ ∃ p ∈ ps, c ∈ p := by
  induction ps with
  | nil => exact absurd h List.not_mem_nil
  | cons q qs ih =>
    cases qs with
    | nil => exact .inr ⟨q, List.mem_cons_self, h⟩
    | cons q' qs' =>
      rw [joined_cons (List.cons_ne_nil q' qs'), List.mem_append, List.mem_cons] at h
      rcases h with hq | hmark | hqs
      · exact .inr ⟨q, List.mem_cons_self, hq⟩
      · exact .inl hmark
      · cases ih hqs with
        | inl hmark => exact .inl hmark
        | inr hpiece =>
          obtain ⟨p, hp, hcp⟩ := hpiece
          exact .inr ⟨p, List.mem_cons_of_mem q hp, hcp⟩

theorem mem_of_mem_dropVoidEnd {absolute : Bool} (h : p ∈ dropVoidEnd absolute ps) : p ∈ ps := by
  unfold dropVoidEnd at h
  dsimp only at h
  split at h
  · rename_i hdot
    obtain rfl := List.mem_singleton.1 h
    exact List.mem_of_head? hdot.2.2
  · rw [List.mem_reverse] at h
    exact List.mem_reverse.1 ((List.dropWhile_sublist _).mem h)

theorem mem_of_mem_body {path : String} (hp : p ∈ body path) (hc : c ∈ p) : c ∈ path.toList := by
  unfold body at hp
  split at hp
  · rename_i cs htext
    rw [htext]
    exact List.mem_cons_of_mem _ (mem_of_mem_pieces hp hc)
  · exact mem_of_mem_pieces hp hc

theorem mem_of_mem_parent {path parent : String} (h : parent? path = some parent)
    (hc : c ∈ parent.toList) : c = '/' ∨ c ∈ path.toList := by
  unfold parent? at h
  dsimp only at h
  split at h
  · cases h
  · obtain rfl := Option.some.inj h
    unfold assembled at hc
    rw [String.toList_ofList] at hc
    have hjoined : c = '/' ∨ c ∈ joined '/' (dropVoidEnd (isAbsolute path)
        (dropVoidEnd (isAbsolute path) (body path)).dropLast) := by
      split at hc
      · exact List.mem_cons.1 hc
      · exact .inr hc
    rcases hjoined with hslash | hmem
    · exact .inl hslash
    · rcases mem_joined hmem with hslash | ⟨p, hp, hcp⟩
      · exact .inl hslash
      · have hp := List.dropLast_subset _ (mem_of_mem_dropVoidEnd hp)
        exact .inr (mem_of_mem_body (mem_of_mem_dropVoidEnd hp) hcp)

theorem mem_of_mem_fileName {path name : String} (h : fileName? path = some name)
    (hc : c ∈ name.toList) : c ∈ path.toList := by
  unfold fileName? at h
  split at h
  · cases h
  · rename_i p hlast
    split at h
    · cases h
    · obtain rfl := Option.some.inj h
      rw [String.toList_ofList] at hc
      exact mem_of_mem_body (mem_of_mem_dropVoidEnd (List.mem_of_getLast? hlast)) hc

end Path

/-! ## Texts without a line break -/

namespace Text

/-- The text has no line break in it. -/
def IsLine (s : String) : Prop := '\n' ∉ s.toList

instance (s : String) : Decidable (IsLine s) := inferInstanceAs (Decidable (¬ _))

variable {s t : String}

@[simp] theorem isLine_append : IsLine (s ++ t) ↔ IsLine s ∧ IsLine t := by
  unfold IsLine
  rw [String.toList_append, List.mem_append, not_or]

theorem isLine_join {ss : List String} : IsLine (String.join ss) ↔ ∀ s ∈ ss, IsLine s := by
  unfold IsLine
  simp

theorem isLine_intercalate {separator : String} {ss : List String} (hseparator : IsLine separator)
    (h : ∀ s ∈ ss, IsLine s) : IsLine (separator.intercalate ss) := by
  induction ss with
  | nil => exact List.not_mem_nil
  | cons s ss ih =>
    obtain ⟨hs, hss⟩ := List.forall_mem_cons.1 h
    cases ss with
    | nil => exact hs
    | cons t ts =>
      rw [String.intercalate_cons_cons]
      simp only [isLine_append]
      exact ⟨⟨hs, hseparator⟩, ih hss⟩

/-- A text whose characters are all among those of a line, slashes apart, is a line. -/
theorem IsLine.of_mem (hs : IsLine s) (h : ∀ c ∈ t.toList, c = '/' ∨ c ∈ s.toList) : IsLine t := by
  intro hbreak
  cases h _ hbreak with
  | inl hslash => exact absurd hslash (by decide)
  | inr hmem => exact hs hmem

/-- Characters may be replaced by any but a line break. -/
theorem IsLine.map {f : Char → Char} (hs : IsLine s) (hf : ∀ c, f c = '\n' → c = '\n') :
    IsLine (String.ofList (s.toList.map f)) := by
  unfold IsLine
  rw [String.toList_ofList, List.mem_map]
  intro h
  obtain ⟨c, hc, hbreak⟩ := h
  exact hs (hf c hbreak ▸ hc)

theorem IsLine.forward (hs : IsLine s) : IsLine (Path.forward s) := by
  apply hs.map
  intro c hc
  unfold Path.forwardChar at hc
  split at hc
  · exact absurd hc (by decide)
  · exact hc

theorem IsLine.parent {parent : String} (hs : IsLine s) (h : Path.parent? s = some parent) :
    IsLine parent :=
  hs.of_mem fun _ hc => Path.mem_of_mem_parent h hc

theorem IsLine.fileName {name : String} (hs : IsLine s) (h : Path.fileName? s = some name) :
    IsLine name :=
  hs.of_mem fun _ hc => .inr (Path.mem_of_mem_fileName h hc)

theorem mem_of_mem_trim {c : Char} (h : c ∈ (trim s).toList) : c ∈ s.toList := by
  unfold trim trimChars at h
  rw [String.toList_ofList, List.mem_reverse] at h
  have hfront := List.mem_reverse.1 ((List.dropWhile_sublist _).mem h)
  exact (List.dropWhile_sublist _).mem hfront

theorem IsLine.trim (hs : IsLine s) : IsLine (trim s) :=
  hs.of_mem fun _ hc => .inr (mem_of_mem_trim hc)

theorem IsLine.dottedToPath (hs : IsLine s) : IsLine (Module.dottedToPath s) := by
  apply hs.map
  intro c hc
  split at hc
  · exact absurd hc (by decide)
  · exact hc

end Text

end BuildGraph
