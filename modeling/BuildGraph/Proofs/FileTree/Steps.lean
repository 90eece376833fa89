import BuildGraph.Proofs.FileTree.Growth
import Mathlib.Data.List.Basic
set_option autoImplicit false

/-!
# The steps of joined paths

The steps of a path that was joined from a directory and a relative name are the steps of both, one
after the other, so that the name leads on from where the directory is.
-/

namespace BuildGraph

namespace Path

variable {mark c : Char} {cs : List Char}

/-- A text is cut at each of its marks, so also at one in its middle. -/
theorem pieces_append_cons (mark : Char) (front back : List Char) :
    pieces mark (front ++ mark :: back) = pieces mark front ++ pieces mark back := by
  induction front with
  | nil => simp [pieces]
  | cons c front ih =>
    by_cases hc : c = mark
    · rw [List.cons_append, pieces, if_pos hc, ih, pieces, if_pos hc, List.cons_append]
    · rw [List.cons_append, pieces, if_neg hc, ih, pieces, if_neg hc]
      cases hfront : pieces mark front with
      | nil => exact absurd hfront (pieces_ne_nil mark front)
      | cons p ps => rfl

theorem pieces_of_not_mem (h : mark ∉ cs) : pieces mark cs = [cs] := by
  induction cs with
  | nil => rfl
  | cons c cs ih =>
    obtain ⟨hc, hcs⟩ := not_or.1 (mt List.mem_cons.2 h)
    rw [pieces, if_neg (Ne.symm hc), ih hcs]

/-- A character that is no mark belongs to the first piece of what follows. -/
theorem exists_pieces_cons (hc : c ≠ mark) (cs : List Char) :
    ∃ p ps, pieces mark cs = p :: ps ∧ pieces mark (c :: cs) = (c :: p) :: ps := by
  cases hcs : pieces mark cs with
  | nil => exact absurd hcs (pieces_ne_nil mark cs)
  | cons p ps => exact ⟨p, ps, rfl, by rw [pieces, if_neg hc, hcs]⟩

/-- The last piece of a text that does not end in a mark is not empty. -/
theorem getLast?_pieces_ne (hlast : cs.getLast? = some c) (hc : c ≠ mark) :
    (pieces mark cs).getLast? ≠ some [] := by
  induction cs with
  | nil => cases hlast
  | cons a cs ih =>
    by_cases hcs : cs = []
    · subst hcs
      obtain rfl : a = c := by simpa using hlast
      simp [pieces, hc]
    · have hrest : (pieces mark cs).getLast? ≠ some [] := by
        refine ih ?_
        rwa [List.getLast?_cons, List.getLast?_eq_some_getLast hcs, Option.getD_some,
          ← List.getLast?_eq_some_getLast hcs] at hlast
      by_cases ha : a = mark
      · rwa [pieces, if_pos ha, List.getLast?_cons_of_ne_nil (pieces_ne_nil mark cs)]
      · obtain ⟨p, ps, hcs, hcons⟩ := exists_pieces_cons ha cs
        rw [hcons]
        rw [hcs] at hrest
        cases ps with
        | nil => simp
        | cons q qs => simpa [List.getLast?_cons_cons] using hrest

/-- The joined path of a directory that does not end in a slash. -/
theorem toList_join {dir name : String} (hdir : dir.toList.getLast? = some c) (hc : c ≠ '/')
    (hname : isAbsolute name = false) :
    (join dir name).toList = dir.toList ++ '/' :: name.toList := by
  have hend : ¬ (dir.toList.getLast? = none ∨ dir.toList.getLast? = some '/') := by
    simp [hdir, hc]
  rw [join, hname, if_neg Bool.false_ne_true, if_neg hend]
  simp

/-- A relative name that is joined to a directory stands alone or behind a slash. -/
theorem exists_toList_join {name : String} (dir : String) (hname : isAbsolute name = false) :
    (join dir name).toList = name.toList ∨
      ∃ front, (join dir name).toList = front ++ '/' :: name.toList := by
  cases hdir : dir.toList.getLast? with
  | none =>
    rw [List.getLast?_eq_none_iff] at hdir
    exact .inl (by simp [join, hname, hdir])
  | some c =>
    by_cases hc : c = '/'
    · subst hc
      obtain ⟨front, hfront⟩ := List.getLast?_eq_some_iff.1 hdir
      refine .inr ⟨front, ?_⟩
      rw [join, hname, if_neg Bool.false_ne_true, if_pos (.inr hdir)]
      simp [hfront]
    · exact .inr ⟨dir.toList, toList_join hdir hc hname⟩

end Path

namespace FileTree

variable {dir name entry : String} {c : Char}

/-- The names between the slashes of a path. -/
def namesOf (path : List Char) : List String :=
  ((Path.pieces '/' path).filter fun p => !p.isEmpty).map String.ofList

theorem namesOf_append_slash (front back : List Char) :
    namesOf (front ++ '/' :: back) = namesOf front ++ namesOf back := by
  simp [namesOf, Path.pieces_append_cons]

theorem namesOf_ne_nil (hname : name ≠ "") (hrelative : Path.isAbsolute name = false) :
    namesOf name.toList ≠ [] := by
  cases hcs : name.toList with
  | nil => exact absurd (String.toList_eq_nil_iff.1 hcs) hname
  | cons c cs =>
    have hc : c ≠ '/' := by
      rintro rfl
      simp [Path.isAbsolute, hcs] at hrelative
    obtain ⟨p, ps, -, hcons⟩ := Path.exists_pieces_cons hc cs
    simp [namesOf, hcons]

theorem steps_eq (path : String) : steps path =
    if namesOf path.toList ≠ [] ∧ (Path.pieces '/' path.toList).getLast? = some [] then
      namesOf path.toList ++ ["."] else namesOf path.toList :=
  rfl

theorem steps_ne_nil (hname : name ≠ "") (hrelative : Path.isAbsolute name = false) :
    steps name ≠ [] := by
  rw [steps_eq]
  split
  · simp
  · exact namesOf_ne_nil hname hrelative

/-- A name in a directory is reached by the steps to the directory and those of the name. -/
theorem steps_join (hdir : dir.toList.getLast? = some c) (hc : c ≠ '/') (hname : name ≠ "")
    (hrelative : Path.isAbsolute name = false) :
    steps (Path.join dir name) = steps dir ++ steps name := by
  have hnames := namesOf_ne_nil hname hrelative
  rw [steps_eq, steps_eq, steps_eq, Path.toList_join hdir hc hrelative, namesOf_append_slash,
    Path.pieces_append_cons, List.getLast?_append_of_ne_nil _ (Path.pieces_ne_nil '/' name.toList)]
  have hdirectory : ¬ (namesOf dir.toList ≠ [] ∧ (Path.pieces '/' dir.toList).getLast? = some []) :=
    fun hslash => Path.getLast?_pieces_ne hdir hc hslash.2
  rw [if_neg hdirectory]
  by_cases hslash : (Path.pieces '/' name.toList).getLast? = some []
  · simp [hnames, hslash]
  · simp [hslash]

/-- The path of a directory that does not end in a slash has a name at its end. -/
theorem namesOf_ne_nil_of_getLast? {cs : List Char} (hlast : cs.getLast? = some c) (hc : c ≠ '/') :
    namesOf cs ≠ [] := by
  intro hnil
  have hp := List.getLast?_eq_some_getLast (Path.pieces_ne_nil '/' cs)
  generalize (Path.pieces '/' cs).getLast _ = p at hp
  have hne : p ≠ [] := by
    rintro rfl
    exact Path.getLast?_pieces_ne hlast hc hp
  have hmem : String.ofList p ∈ namesOf cs :=
    List.mem_map_of_mem (List.mem_filter.2 ⟨List.mem_of_getLast? hp, by simpa using hne⟩)
  rw [hnil] at hmem
  cases hmem

/-- A directory with an empty name joined to it is the directory. -/
theorem steps_join_empty (hdir : dir.toList.getLast? = some c) (hc : c ≠ '/') :
    steps (Path.join dir "") = steps dir ++ ["."] := by
  have hdirectory : ¬ (namesOf dir.toList ≠ [] ∧ (Path.pieces '/' dir.toList).getLast? = some []) :=
    fun hslash => Path.getLast?_pieces_ne hdir hc hslash.2
  have hempty : namesOf "".toList = [] := by decide
  have hslash : (Path.pieces '/' "".toList).getLast? = some [] := by decide
  rw [steps_eq dir, if_neg hdirectory, steps_eq, Path.toList_join hdir hc (by decide),
    namesOf_append_slash, Path.pieces_append_cons,
    List.getLast?_append_of_ne_nil _ (Path.pieces_ne_nil '/' _), hempty, List.append_nil,
    if_pos ⟨namesOf_ne_nil_of_getLast? hdir hc, hslash⟩]

/-! ## Plain names -/

/-- A name that is one ordinary component of a path. -/
structure IsPlainName (name : String) : Prop where
  slash_not_mem : '/' ∉ name.toList
  ne_empty : name ≠ ""
  ne_dot : name ≠ "."
  ne_dots : name ≠ ".."

instance (name : String) : Decidable (IsPlainName name) :=
  decidable_of_iff ('/' ∉ name.toList ∧ name ≠ "" ∧ name ≠ "." ∧ name ≠ "..")
    ⟨fun h => ⟨h.1, h.2.1, h.2.2.1, h.2.2.2⟩,
      fun h => ⟨h.slash_not_mem, h.ne_empty, h.ne_dot, h.ne_dots⟩⟩

namespace IsPlainName

theorem isAbsolute_eq (h : IsPlainName name) : Path.isAbsolute name = false := by
  cases hcs : name.toList with
  | nil => simp [Path.isAbsolute, hcs]
  | cons c cs =>
    have hc : c ≠ '/' := fun hslash => h.slash_not_mem (by simp [hcs, hslash])
    simp [Path.isAbsolute, hcs, hc]

theorem pieces_eq (h : IsPlainName name) : Path.pieces '/' name.toList = [name.toList] :=
  Path.pieces_of_not_mem h.slash_not_mem

theorem namesOf_eq (h : IsPlainName name) : namesOf name.toList = [name] := by
  have hne : name.toList ≠ [] := fun hnil => h.ne_empty (String.toList_eq_nil_iff.1 hnil)
  simp [namesOf, h.pieces_eq, hne]

theorem steps_eq (h : IsPlainName name) : steps name = [name] := by
  have hne : name.toList ≠ [] := fun hnil => h.ne_empty (String.toList_eq_nil_iff.1 hnil)
  rw [FileTree.steps_eq, h.namesOf_eq, h.pieces_eq, if_neg (by simp [hne])]

/-- Under whatever directory a plain name is looked for, it is one of the steps. -/
theorem mem_steps_join (h : IsPlainName name) (dir : String) :
    name ∈ steps (Path.join dir name) := by
  have hmem : name ∈ namesOf (Path.join dir name).toList := by
    obtain htext | ⟨front, htext⟩ := Path.exists_toList_join dir h.isAbsolute_eq
    · rw [htext, h.namesOf_eq]
      exact List.mem_singleton_self name
    · rw [htext, namesOf_append_slash, h.namesOf_eq]
      exact List.mem_append_right _ (List.mem_singleton_self name)
  rw [FileTree.steps_eq]
  split
  · exact List.mem_append_left _ hmem
  · exact hmem

end IsPlainName

/-! ## Names in a directory -/

variable {t : FileTree} {l d : Location}

/-- A name that is part of one path makes another with a directory, if that is not too long. -/
theorem IsPath.join {c : Char} {other : String} (h : IsPath dir)
    (hdir : dir.toList.getLast? = some c) (hc : c ≠ '/') (hrelative : Path.isAbsolute name = false)
    (hother : IsPath (Path.join other name))
    (hsize : (Path.join dir name).utf8ByteSize < pathLimit) : IsPath (Path.join dir name) := by
  have htext := Path.toList_join hdir hc hrelative
  refine ⟨fun hnil => ?_, fun hzero => ?_, hsize⟩
  · rw [hnil] at htext
    simp at htext
  · rw [htext] at hzero
    rcases List.mem_append.1 hzero with hzero | hzero
    · exact h.zero_not_mem hzero
    · have hzero := (List.mem_cons.1 hzero).resolve_left (by decide)
      refine hother.zero_not_mem ?_
      obtain htext' | ⟨front, htext'⟩ := Path.exists_toList_join other hrelative
      · rwa [htext']
      · rw [htext']
        exact List.mem_append_right _ (List.mem_cons_of_mem _ hzero)

/-- The path of a name in a directory leads on from the directory. -/
theorem exists_resolve_join {c : Char} (hlocate : t.locate dir = .ok (d, .directory))
    (hdir : dir.toList.getLast? = some c) (hc : c ≠ '/') (hname : name ≠ "")
    (hrelative : Path.isAbsolute name = false) (hpath : IsPath (Path.join dir name)) :
    ∃ left, ∀ followLast, t.resolve followLast (Path.join dir name) =
      t.walk followLast left d (steps name) := by
  obtain ⟨-, hleads⟩ := resolve_eq_ok_iff.1 (locate_eq_ok_iff.1 hlocate)
  obtain ⟨left, hleft⟩ := exists_walk_append hleads
  refine ⟨left, fun followLast => ?_⟩
  rw [resolve_of_isPath hpath, steps_join hdir hc hname hrelative]
  exact hleft followLast (steps name) (steps_ne_nil hname hrelative)

theorem resolve_join_empty {c : Char} {followLast : Bool}
    (hlocate : t.locate dir = .ok (d, .directory)) (hdir : dir.toList.getLast? = some c)
    (hc : c ≠ '/') (hpath : IsPath (Path.join dir "")) :
    t.resolve followLast (Path.join dir "") = .ok (.existing d .directory) := by
  obtain ⟨-, hleads⟩ := resolve_eq_ok_iff.1 (locate_eq_ok_iff.1 hlocate)
  obtain ⟨left, hleft⟩ := exists_walk_append hleads
  rw [resolve_of_isPath hpath, steps_join_empty hdir hc, hleft followLast ["."] nofun, walk_cons,
    if_pos rfl, walk_nil]

/-- Where the path of a plain name leads somewhere, the name is one that an entry can have. -/
theorem IsPlainName.isEntryName_of_leads {links : Nat} {p : Place} {followLast : Bool}
    (h : IsPlainName name) (hleads : Leads t followLast links l (steps (Path.join dir name)) p) :
    IsEntryName name := by
  obtain hdot | hdots | hentry := hleads.isEntryName_of_mem (h.mem_steps_join dir)
  · exact absurd hdot h.ne_dot
  · exact absurd hdots h.ne_dots
  · exact hentry

/-- A plain name leads to an entry of the directory, or to a free name in it. -/
theorem IsPlainName.resolve_join {c : Char} (h : IsPlainName name) (hentry : IsEntryName name)
    (hpath : IsPath (Path.join dir name)) (hdir : dir.toList.getLast? = some c) (hc : c ≠ '/')
    (hlocate : t.locate dir = .ok (d, .directory)) :
    t.resolve false (Path.join dir name) = match t.get? (d ++ [name]) with
      | some n => .ok (.existing (d ++ [name]) n)
      | none => .ok (.vacant d name) := by
  obtain ⟨left, hleft⟩ :=
    exists_resolve_join hlocate hdir hc h.ne_empty h.isAbsolute_eq hpath
  rw [hleft, h.steps_eq, walk_cons_of_isEntryName hentry]
  cases t.get? (d ++ [name]) with
  | none => rfl
  | some n =>
    cases n with
    | directory => exact walk_nil
    | file content => rfl
    | link target => rfl

end FileTree

end BuildGraph
