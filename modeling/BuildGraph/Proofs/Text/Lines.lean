import BuildGraph.Path
import BuildGraph.Text.Lines
import BuildGraph.Text.Search
set_option autoImplicit false

/-!
# Reading lines

A text that was made of lines is read back line by line, as long as no line has a line break in
it. Paragraphs with an empty line behind each are read back paragraph by paragraph, as long as no
line in them is empty. A text ends with what its last part ends with if that part is long enough.
-/

namespace BuildGraph.Text

/-- The lines of a text: what stands between its line breaks. What follows the last line break is a
line too, which is empty in a text of whole lines. -/
def linesOf (text : String) : List String :=
  (Path.pieces '\n' text.toList).map String.ofList

theorem pieces_append_mark {mark : Char} {cs : List Char} (h : mark ∉ cs) (rest : List Char) :
    Path.pieces mark (cs ++ mark :: rest) = cs :: Path.pieces mark rest := by
  induction cs with
  | nil => simp [Path.pieces]
  | cons c cs ih =>
    have hc : c ≠ mark := fun heq => h (heq ▸ List.mem_cons_self)
    have hcs : mark ∉ cs := fun hmem => h (List.mem_cons_of_mem c hmem)
    rw [List.cons_append, Path.pieces, if_neg hc, ih hcs]

theorem ofLines_cons (line : String) (lines : List String) :
    ofLines (line :: lines) = line ++ "\n" ++ ofLines lines := by
  simp [ofLines]

theorem ofLines_cons_ne_empty (line : String) (lines : List String) :
    ofLines (line :: lines) ≠ "" := by
  intro hempty
  have hnil := congrArg String.toList hempty
  rw [ofLines_cons, String.toList_append, String.toList_append] at hnil
  simp at hnil

/-- The lines of a text that was made of lines without line breaks. -/
theorem linesOf_ofLines {lines : List String} (h : ∀ line ∈ lines, '\n' ∉ line.toList) :
    linesOf (ofLines lines) = lines ++ [""] := by
  induction lines with
  | nil => rfl
  | cons line lines ih =>
    obtain ⟨hline, hlines⟩ := List.forall_mem_cons.1 h
    have htext : (ofLines (line :: lines)).toList =
        line.toList ++ '\n' :: (ofLines lines).toList := by
      rw [ofLines_cons, String.toList_append, String.toList_append, List.append_assoc]
      rfl
    have hrest := ih hlines
    unfold linesOf at hrest ⊢
    rw [htext, pieces_append_mark hline, List.map_cons, String.ofList_toList, hrest,
      List.cons_append]

/-! ## Paragraphs -/

/-- What stands between the empty lines of a text, each piece as a text of lines. What follows
the last empty line is a piece too. -/
def paragraphsOf (text : String) : List String :=
  ((linesOf text).splitOn "").map ofLines

/-- Lists of lines are cut where an empty line ends each. -/
theorem splitOn_flatMap_append_empty {paragraphs : List (List String)}
    (h : ∀ lines ∈ paragraphs, "" ∉ lines) (rest : List String) :
    (paragraphs.flatMap (· ++ [""]) ++ rest).splitOn "" = paragraphs ++ rest.splitOn "" := by
  induction paragraphs with
  | nil => rfl
  | cons lines paragraphs ih =>
    obtain ⟨hlines, hparagraphs⟩ := List.forall_mem_cons.1 h
    have hcut : (lines ++ "" :: (paragraphs.flatMap (· ++ [""]) ++ rest)).splitOn "" =
        lines.splitOn "" ++ (paragraphs.flatMap (· ++ [""]) ++ rest).splitOn "" :=
      List.splitOnP_append_cons _ _ (beq_self_eq_true "")
    rw [List.flatMap_cons, List.append_assoc, List.append_assoc, List.singleton_append, hcut,
      List.splitOn_eq_singleton hlines, ih hparagraphs, List.singleton_append, List.cons_append]

/-- Behind the empty line of the last paragraph there is nothing but the end of the text. -/
theorem paragraphsOf_eq {text : String} {paragraphs : List (List String)}
    (htext : linesOf text = paragraphs.flatMap (· ++ [""]) ++ [""])
    (h : ∀ lines ∈ paragraphs, "" ∉ lines) :
    paragraphsOf text = paragraphs.map ofLines ++ ["", ""] := by
  have hend : [""].splitOn "" = [[], []] := by
    decide
  rw [paragraphsOf, htext, splitOn_flatMap_append_empty h, hend, List.map_append]
  rfl

/-! ## Ends -/

theorem endsWith_append_self (s ending : String) : endsWith (s ++ ending) ending = true :=
  endsWith_iff.2 ⟨s.toList, String.toList_append⟩

/-- A text that ends with two parts ends with the latter. -/
theorem endsWith_right (first : String) {s second : String}
    (h : endsWith s (first ++ second) = true) : endsWith s second = true := by
  unfold endsWith at h ⊢
  rw [List.isSuffixOf_iff_suffix, String.toList_append] at h
  rw [List.isSuffixOf_iff_suffix]
  exact (List.suffix_append _ _).trans h

/-- The end of a text is the end of its last part. -/
theorem endsWith_of_endsWith_append {s t ending : String}
    (hlength : ending.toList.length ≤ t.toList.length) (h : endsWith (s ++ t) ending = true) :
    endsWith t ending = true := by
  unfold endsWith at h ⊢
  rw [List.isSuffixOf_iff_suffix, String.toList_append] at h
  rw [List.isSuffixOf_iff_suffix]
  exact List.suffix_of_suffix_length_le h (List.suffix_append _ _) hlength

/-- A text that ends with a character has it. -/
theorem mem_of_endsWith {s ending : String} {c : Char} (h : endsWith s ending = true)
    (hc : c ∈ ending.toList) : c ∈ s.toList := by
  obtain ⟨before, hs⟩ := endsWith_iff.1 h
  rw [hs]
  exact List.mem_append_right before hc

end BuildGraph.Text
