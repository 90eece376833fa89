import BuildGraph.Proofs.CMake.Folders
import BuildGraph.Proofs.FileTree.Steps
import BuildGraph.Proofs.Graph.Built
import BuildGraph.Proofs.Text.OneLine
import BuildGraph.Proofs.Workspace.PlatformFolders
import Mathlib.Data.List.DropRight
set_option autoImplicit false

/-!
# Folders by places

A module that asks for no folder is shown in that of the directory above its own. Whether that
directory stands inside a workspace is told by its text alone: behind the root without the
slashes at its end there must be a slash, and something besides slashes. What is behind them is
then the folder, so that it is the same wherever the workspace stands. In all other cases only
the last component of the directory is left, and that counts only if it is a name: neither two
dots at the end of a path nor the dot that a relative path may start with make a folder.
-/

namespace BuildGraph

namespace Path

variable {absolute : Bool} {ps qs above : List (List Char)} {front place : List Char}
  {path parent : String}

/-! ## The last name of a path -/

/-- The last component of a path, if it is a name. -/
def lastName? (path : String) : Option String :=
  (components path).getLast?.filter fun name => name != "." && name != ".."

theorem dropVoidEnd_eq (absolute : Bool) (ps : List (List Char)) : dropVoidEnd absolute ps =
    if ps.rdropWhile isVoid = [] ∧ !absolute ∧ ps.head? = some ['.'] then [['.']]
    else ps.rdropWhile isVoid :=
  rfl

/-- What is last once the end has been dropped is the last that is not dropped anywhere. -/
theorem getLast?_rdropWhile (ps : List (List Char)) :
    (ps.rdropWhile isVoid).getLast? = (ps.filter fun p => !isVoid p).getLast? := by
  induction ps using List.reverseRecOn with
  | nil => rfl
  | append_singleton ps p ih =>
    by_cases hvoid : isVoid p = true
    · rw [List.rdropWhile_concat_pos _ _ _ hvoid, ih, List.filter_append]
      simp [hvoid]
    · rw [List.rdropWhile_concat_neg _ _ _ hvoid, List.filter_append]
      simp [hvoid]

theorem getLast?_components (path : String) : (components path).getLast? =
    (dropVoidEnd (isAbsolute path) (body path)).getLast?.map String.ofList := by
  rw [components, List.getLast?_map]
  congr 1
  by_cases hslash : ∃ cs, path.toList = '/' :: cs
  · obtain ⟨cs, hcs⟩ := hslash
    have habsolute : isAbsolute path = true := by simp [isAbsolute, hcs]
    have hbody : body path = pieces '/' cs := by simp [body, hcs]
    have hpieces : pieces '/' path.toList = [] :: pieces '/' cs := by simp [hcs, pieces]
    rw [habsolute, hbody, hpieces, dropVoidEnd_eq]
    simp [isVoid, getLast?_rdropWhile]
  · have habsolute : isAbsolute path = false := by
      cases hcs : path.toList with
      | nil => simp [isAbsolute, hcs]
      | cons c cs =>
        have hc : c ≠ '/' := fun hc => hslash ⟨cs, hc ▸ hcs⟩
        simp [isAbsolute, hcs, hc]
    have hbody : body path = pieces '/' path.toList := by
      unfold body
      split
      · rename_i cs hcs
        exact absurd ⟨cs, hcs⟩ hslash
      · rfl
    rw [habsolute, hbody, dropVoidEnd_eq]
    have hlast := getLast?_rdropWhile (pieces '/' path.toList)
    by_cases hdot : (pieces '/' path.toList).head? = some ['.']
    · -- The dot in front is the last component exactly if no other is left.
      by_cases hnil : (pieces '/' path.toList).rdropWhile isVoid = []
      · rw [hnil, List.getLast?_nil, eq_comm, List.getLast?_eq_none_iff] at hlast
        simp [hdot, hnil, hlast]
      · rw [if_pos hdot, if_neg fun h => hnil h.1, hlast, List.getLast?_cons_of_ne_nil]
        intro hfilter
        rw [hfilter, List.getLast?_nil, List.getLast?_eq_none_iff] at hlast
        exact hnil hlast
    · rw [if_neg hdot, if_neg fun h => hdot h.2.2, hlast]

theorem fileName?_eq_lastName? (path : String) : fileName? path = lastName? path := by
  rw [lastName?, getLast?_components, fileName?]
  cases (dropVoidEnd (isAbsolute path) (body path)).getLast? with
  | none => rfl
  | some p =>
    have hdot : String.ofList p = "." ↔ p = ['.'] := String.ofList_inj
    have hdots : String.ofList p = ".." ↔ p = ['.', '.'] := String.ofList_inj
    simp only [Option.map_some, Option.filter_some]
    by_cases hname : p = ['.'] ∨ p = ['.', '.']
    · rw [if_pos hname]
      simpa [hdot, hdots, ← or_iff_not_imp_left] using hname
    · rw [if_neg hname, if_pos]
      simpa [hdot, hdots, not_or] using hname

/-! ## The parents of directories behind one front -/

theorem rdropWhile_append (ps qs : List (List Char)) : (ps ++ qs).rdropWhile isVoid =
    if qs.rdropWhile isVoid = [] then ps.rdropWhile isVoid else ps ++ qs.rdropWhile isVoid := by
  simp only [List.rdropWhile, List.reverse_append, List.dropWhile_append, List.isEmpty_iff,
    List.reverse_eq_nil_iff]
  split <;> simp

theorem dropVoidEnd_append (hqs : qs.rdropWhile isVoid ≠ []) :
    dropVoidEnd absolute (ps ++ qs) = ps ++ qs.rdropWhile isVoid := by
  have hne : ps ++ qs.rdropWhile isVoid ≠ [] := List.append_ne_nil_of_right_ne_nil ps hqs
  rw [dropVoidEnd_eq, rdropWhile_append, if_neg hqs, if_neg fun h => hne h.1]

theorem dropVoidEnd_append_voids (hps : absolute = true ∨ ps ≠ [])
    (hqs : qs.rdropWhile isVoid = []) :
    dropVoidEnd absolute (ps ++ qs) = dropVoidEnd absolute ps := by
  rw [dropVoidEnd_eq, dropVoidEnd_eq, rdropWhile_append, if_pos hqs]
  cases hps with
  | inl habsolute => simp [habsolute]
  | inr hne => rw [List.head?_append_of_ne_nil _ hne]

theorem dropVoidEnd_isPrefix (absolute : Bool) (ps : List (List Char)) :
    dropVoidEnd absolute ps <+: ps := by
  rw [dropVoidEnd_eq]
  split
  · rename_i hdot
    obtain ⟨rest, hrest⟩ := List.head?_eq_some_iff.1 hdot.2.2
    exact ⟨rest, hrest.symm⟩
  · exact List.rdropWhile_prefix isVoid ps

theorem joined_isPrefix (h : ps <+: qs) : joined '/' ps <+: joined '/' qs := by
  obtain ⟨rest, rfl⟩ := h
  by_cases hps : ps = []
  · subst hps
    exact List.nil_prefix
  · by_cases hrest : rest = []
    · simp only [hrest, List.append_nil, List.prefix_rfl]
    · rw [joined_append hps hrest]
      exact List.prefix_append _ _

/-- A path with a slash in it, by the pieces in front of the slash: what is put behind them has the
same text in front. -/
theorem exists_body_eq (front place : List Char) : ∃ absolute above,
    (absolute = true ∨ above ≠ []) ∧
    isAbsolute (String.ofList (front ++ '/' :: place)) = absolute ∧
    body (String.ofList (front ++ '/' :: place)) = above ++ pieces '/' place ∧
    ∀ ps ≠ [], (assembled absolute (above ++ ps)).toList = front ++ '/' :: joined '/' ps := by
  cases front with
  | nil =>
    exact ⟨true, [], .inl rfl, by simp [isAbsolute], by simp [body],
      fun ps _ => by simp [assembled]⟩
  | cons c front =>
    by_cases hc : c = '/'
    · subst hc
      refine ⟨true, pieces '/' front, .inl rfl, by simp [isAbsolute], ?_, fun ps hps => ?_⟩
      · simp [body, pieces_append_cons]
      · simp [assembled, joined_append (pieces_ne_nil '/' front) hps, joined_pieces]
    · have hne := pieces_ne_nil '/' (c :: front)
      refine ⟨false, pieces '/' (c :: front), .inr hne, by simp [isAbsolute, hc], ?_,
        fun ps hps => ?_⟩
      · rw [← pieces_append_cons]
        simp [body, hc]
      · simp [assembled, joined_append hne hps, joined_pieces]

/-- The pieces of a place without the last component, and without what is none before it. -/
def placeAbove (place : List Char) : List (List Char) :=
  ((pieces '/' place).rdropWhile isVoid).dropLast.rdropWhile isVoid

/-- The parent of a directory behind a front is behind the same front, if the directory is not the
only component there. -/
theorem parent?_behind (h : placeAbove place ≠ []) :
    parent? (String.ofList (front ++ '/' :: place)) =
      some (String.ofList (front ++ '/' :: joined '/' (placeAbove place))) := by
  obtain ⟨absolute, above, -, habsolute, hbody, htext⟩ := exists_body_eq front place
  have hplace : (pieces '/' place).rdropWhile isVoid ≠ [] := by
    intro hnil
    rw [placeAbove, hnil] at h
    exact h rfl
  have hdirectory : dropVoidEnd absolute (above ++ pieces '/' place) =
      above ++ (pieces '/' place).rdropWhile isVoid := dropVoidEnd_append hplace
  rw [parent?, habsolute, hbody, hdirectory]
  split
  · rename_i hnil
    exact absurd hnil (List.append_ne_nil_of_right_ne_nil above hplace)
  · rw [List.dropLast_append_of_ne_nil hplace, dropVoidEnd_append h]
    refine congrArg some (String.toList_inj.1 ?_)
    rw [String.toList_ofList]
    exact htext _ h

/-- If it is the only component there, then its parent does not reach behind the front. -/
theorem isPrefix_of_parent? (h : placeAbove place = [])
    (hparent : parent? (String.ofList (front ++ '/' :: place)) = some parent) :
    parent.toList <+: front ++ ['/'] := by
  obtain ⟨absolute, above, hfront, habsolute, hbody, htext⟩ := exists_body_eq front place
  have hslash := htext [[]] (List.cons_ne_nil _ _)
  -- Whatever is cut from the front, the rest is a prefix of it.
  suffices hcut : ∃ ps, ps <+: above ∧ parent = assembled absolute ps by
    obtain ⟨ps, hps, rfl⟩ := hcut
    have hjoined := joined_isPrefix (hps.trans (List.prefix_append above [[]]))
    rw [← show joined '/' [[]] = [] from rfl, ← hslash, assembled, assembled, String.toList_ofList,
      String.toList_ofList]
    split
    · exact List.cons_prefix_cons.2 ⟨rfl, hjoined⟩
    · exact hjoined
  rw [parent?, habsolute, hbody] at hparent
  split at hparent
  · cases hparent
  · refine ⟨_, ?_, (Option.some.inj hparent).symm⟩
    by_cases hplace : (pieces '/' place).rdropWhile isVoid = []
    · rw [dropVoidEnd_append_voids hfront hplace]
      exact (dropVoidEnd_isPrefix _ _).trans
        ((List.dropLast_prefix _).trans (dropVoidEnd_isPrefix _ _))
    · rw [dropVoidEnd_append hplace, List.dropLast_append_of_ne_nil hplace,
        dropVoidEnd_append_voids hfront h]
      exact dropVoidEnd_isPrefix _ _

end Path

namespace CMake

variable {m : Module} {root parent : String} {directory way place : List Char}

/-! ## Directories inside a root -/

/-- The way that leads from a root into a directory inside it: what the path of the directory has
behind the root and a slash, if that is more than slashes. -/
def LeadsInto (root path : String) (way : List Char) : Prop :=
  path.toList = dropEndChar '/' root.toList ++ '/' :: way ∧ ∃ c ∈ way, c ≠ '/'

/-- A directory is at a place below a root: the place is what its path has behind the root and the
slashes there. -/
def StandsAt (root path : String) (place : List Char) : Prop :=
  ∃ n, path.toList = dropEndChar '/' root.toList ++ List.replicate n '/' ++ '/' :: place

theorem dropWhile_slash_ne_nil_iff : way.dropWhile (· == '/') ≠ [] ↔ ∃ c ∈ way, c ≠ '/' := by
  simp [List.dropWhile_eq_nil_iff]

theorem inside?_eq_some_iff {root : List Char} : inside? root directory = some way ↔
    way ≠ [] ∧ ∃ rest, directory = dropEndChar '/' root ++ '/' :: rest ∧
      way = rest.dropWhile (· == '/') := by
  unfold inside?
  dsimp only
  constructor
  · intro h
    split at h
    · rename_i hbefore
      obtain ⟨behind, rfl⟩ := List.isPrefixOf_iff_prefix.1 hbefore
      rw [List.drop_left] at h
      split at h
      · split at h
        · cases h
        · rename_i rest _ hway
          obtain rfl := Option.some.inj h
          exact ⟨hway, rest, rfl, rfl⟩
      · cases h
    · cases h
  · intro h
    obtain ⟨hne, rest, rfl, rfl⟩ := h
    rw [if_pos (List.isPrefixOf_iff_prefix.2 (List.prefix_append _ _)), List.drop_left]
    cases hway : rest.dropWhile (· == '/') with
    | nil => exact absurd hway hne
    | cons c way => simp only [hway]

theorem LeadsInto.inside?_eq (h : LeadsInto root parent way) :
    inside? root.toList parent.toList = some (way.dropWhile (· == '/')) :=
  inside?_eq_some_iff.2 ⟨dropWhile_slash_ne_nil_iff.2 h.2, way, h.1, rfl⟩

theorem inside?_eq_none_iff :
    inside? root.toList parent.toList = none ↔ ∀ way, ¬ LeadsInto root parent way := by
  rw [Option.eq_none_iff_forall_ne_some]
  constructor
  · exact fun h way hway => h _ hway.inside?_eq
  · intro h way hway
    obtain ⟨hne, rest, hparent, rfl⟩ := inside?_eq_some_iff.1 hway
    exact h rest ⟨hparent, dropWhile_slash_ne_nil_iff.1 hne⟩

/-! ## The folder by the directory above -/

/-- A name as a folder of a module: behind the qualifier, if there is one. -/
def behindQualifier (m : Module) (name : String) : String :=
  match m.qualifier with
  | some q => q ++ "/" ++ name
  | none => name

/-- Without backslashes the directory above is the parent as it is. -/
theorem above?_eq (hslashes : '\\' ∉ m.directory.toList)
    (hparent : Path.parent? m.directory = some parent) (hne : parent ≠ "") :
    above? m = some parent := by
  have hforward : Path.forward parent = parent := by
    apply Path.forward_eq_self
    intro hmem
    cases Path.mem_of_mem_parent hparent hmem with
    | inl hslash => cases hslash
    | inr hdirectory => exact hslashes hdirectory
  simp [above?, hparent, hforward, hne]

theorem folder?_of_leadsInto (hdeclared : m.declaredFolder? = none)
    (habove : above? m = some parent) (hway : LeadsInto root parent way) :
    folder? m root = some (String.ofList (way.dropWhile (· == '/'))) := by
  rw [folder?_eq, hdeclared, Option.none_or, habove, Option.bind_some, surroundingFolder?,
    hway.inside?_eq]

theorem folder?_of_not_leadsInto (hdeclared : m.declaredFolder? = none)
    (habove : above? m = some parent) (hway : ∀ way, ¬ LeadsInto root parent way) :
    folder? m root = (Path.lastName? parent).map (behindQualifier m) := by
  rw [folder?_eq, hdeclared, Option.none_or, habove, Option.bind_some, surroundingFolder?,
    inside?_eq_none_iff.2 hway, Path.fileName?_eq_lastName?]
  rfl

/-! ## Modules at one place -/

theorem append_slashes (front rest : List Char) (n : Nat) :
    front ++ List.replicate n '/' ++ '/' :: rest =
      front ++ '/' :: (List.replicate n '/' ++ rest) := by
  rw [List.append_assoc, ← List.cons_append, ← List.replicate_succ, List.replicate_succ',
    List.append_assoc, List.singleton_append]

theorem dropWhile_slashes (n : Nat) (rest : List Char) :
    (List.replicate n '/' ++ rest).dropWhile (· == '/') = rest.dropWhile (· == '/') :=
  List.dropWhile_append_of_pos fun c hc => by simp [List.eq_of_mem_replicate hc]

/-- The folder that belongs to a place, the way to the directory above it. -/
def placeFolder (place : List Char) : List Char :=
  (Path.joined '/' (Path.placeAbove place)).dropWhile (· == '/')

theorem StandsAt.exists_parent {path : String} (h : StandsAt root path place)
    (habove : Path.placeAbove place ≠ []) : ∃ n, Path.parent? path =
      some (String.ofList (dropEndChar '/' root.toList ++
        '/' :: (List.replicate n '/' ++ Path.joined '/' (Path.placeAbove place)))) := by
  obtain ⟨n, hpath⟩ := h
  refine ⟨n, ?_⟩
  rw [← append_slashes, ← Path.parent?_behind habove, ← hpath, String.ofList_toList]

/-- A directory that is inside the root and above a module at a place tells the folder of the
place. -/
theorem StandsAt.placeFolder_eq (hplace : StandsAt root m.directory place)
    (hparent : Path.parent? m.directory = some parent) (hway : LeadsInto root parent way) :
    Path.placeAbove place ≠ [] ∧ way.dropWhile (· == '/') = placeFolder place := by
  obtain ⟨htext, hname⟩ := hway
  by_cases hnil : Path.placeAbove place = []
  · -- Then all that is behind the root in the directory above are slashes.
    obtain ⟨n, hdirectory⟩ := hplace
    rw [← String.ofList_toList (s := m.directory), hdirectory] at hparent
    have hbefore := Path.isPrefix_of_parent? hnil hparent
    rw [htext, append_slashes, List.prefix_append_right_inj, List.cons_prefix_cons,
      List.append_nil] at hbefore
    obtain ⟨c, hc, hslash⟩ := hname
    exact absurd (List.eq_of_mem_replicate (hbefore.2.subset hc)) hslash
  · obtain ⟨n, hexact⟩ := hplace.exists_parent hnil
    obtain rfl := Option.some.inj (hparent.symm.trans hexact)
    rw [String.toList_ofList, List.append_cancel_left_eq, List.cons.injEq] at htext
    rw [← htext.2, dropWhile_slashes]
    exact ⟨hnil, rfl⟩

/-- A module that asks for no folder has that of the place where it stands. -/
theorem StandsAt.folder?_eq (hdeclared : m.declaredFolder? = none)
    (hslashes : '\\' ∉ m.directory.toList) (hplace : StandsAt root m.directory place)
    (habove : Path.placeAbove place ≠ []) (hname : placeFolder place ≠ []) :
    folder? m root = some (String.ofList (placeFolder place)) := by
  obtain ⟨n, hparent⟩ := hplace.exists_parent habove
  have hway :
      (List.replicate n '/' ++ Path.joined '/' (Path.placeAbove place)).dropWhile (· == '/') =
      placeFolder place := dropWhile_slashes n _
  rw [folder?_of_leadsInto hdeclared (above?_eq hslashes hparent ?_) ⟨?_, ?_⟩, hway]
  · intro hempty
    have hnil := String.ofList_eq_empty_iff.1 hempty
    exact List.append_ne_nil_of_right_ne_nil _ (List.cons_ne_nil _ _) hnil
  · exact String.toList_ofList
  · exact dropWhile_slash_ne_nil_iff.1 (hway ▸ hname)

/-- A module that asks for no folder, by the directory above its own. If that is inside the root,
the folder is the way there without the slashes in front of it, a text that is not empty and
starts with no slash, and each module at the same place inside another root has it too. In all
other cases the folder is the last component of that directory behind the qualifier, if that
component is a name. -/
theorem folder?_by_place (hdeclared : m.declaredFolder? = none)
    (hslashes : '\\' ∉ m.directory.toList) (hparent : Path.parent? m.directory = some parent)
    (hne : parent ≠ "") :
    (∀ way, LeadsInto root parent way → ∃ folder, folder? m root = some folder ∧
      folder.toList = way.dropWhile (· == '/') ∧ folder ≠ "" ∧ folder.toList.head? ≠ some '/' ∧
      ∀ (m' : Module) (root' : String) (place : List Char), m'.declaredFolder? = none →
        '\\' ∉ m'.directory.toList → StandsAt root m.directory place →
        StandsAt root' m'.directory place → folder? m' root' = some folder) ∧
    ((∀ way, ¬ LeadsInto root parent way) →
      folder? m root = (Path.lastName? parent).map (behindQualifier m)) := by
  have habove := above?_eq hslashes hparent hne
  refine ⟨fun way hway =>
    ⟨_, folder?_of_leadsInto hdeclared habove hway, String.toList_ofList, ?_, ?_,
    ?_⟩, folder?_of_not_leadsInto hdeclared habove⟩
  · intro hempty
    exact dropWhile_slash_ne_nil_iff.2 hway.2 (String.ofList_eq_empty_iff.1 hempty)
  · have hhead := List.head?_dropWhile_not (· == '/') way
    rw [String.toList_ofList]
    intro hslash
    rw [hslash] at hhead
    cases hhead
  · intro m' root' place hdeclared' hslashes' hplace hplace'
    obtain ⟨hnil, hfolder⟩ := hplace.placeFolder_eq hparent hway
    rw [hplace'.folder?_eq hdeclared' hslashes' hnil, hfolder]
    exact hfolder ▸ dropWhile_slash_ne_nil_iff.2 hway.2

/-! ## Three directories -/

/-- A module in the given directory, with a qualifier. -/
def shelved (directory : String) : Module :=
  { Module.plain "Core" [] with directory, qualifier := some "Kepler" }

/-- At one place inside two roots, and in a directory that only looks as if it were inside. -/
theorem folder?_by_place_shelved :
    (folder? (shelved "/ws/Engine/Core") "/ws/" = some "Engine" ∧
      folder? (shelved "/other//Engine/Core") "/other" = some "Engine") ∧
    folder? (shelved "/wsx/Tools/Core") "/ws/" = some "Kepler/Tools" := by
  constructor
  · obtain ⟨hinside, -⟩ := @folder?_by_place (shelved "/ws/Engine/Core") "/ws/" "/ws/Engine"
      (by decide) (by decide) (by decide) (by decide)
    have hway : LeadsInto "/ws/" "/ws/Engine" "Engine".toList :=
      ⟨by decide, 'E', by decide, by decide⟩
    obtain ⟨folder, hfolder, htext, -, -, hplaces⟩ := hinside "Engine".toList hway
    obtain rfl : folder = "Engine" := String.toList_inj.1 htext
    exact ⟨hfolder,
      hplaces (shelved "/other//Engine/Core") "/other" "Engine/Core".toList (by decide)
      (by decide) ⟨0, by decide⟩ ⟨1, by decide⟩⟩
  · obtain ⟨-, houtside⟩ := @folder?_by_place (shelved "/wsx/Tools/Core") "/ws/" "/wsx/Tools"
      (by decide) (by decide) (by decide) (by decide)
    exact (houtside (inside?_eq_none_iff.1 (by decide))).trans (by decide)

/-- Two dots are the last component of a directory above, but they make no folder. -/
theorem exists_folder?_ne_last : ∃ (m : Module) (root parent : String),
    m.declaredFolder? = none ∧ m.qualifier = some "Kepler" ∧ '\\' ∉ m.directory.toList ∧
      Path.parent? m.directory = some parent ∧ parent ≠ "" ∧ (∀ way, ¬ LeadsInto root parent way) ∧
      (Path.components parent).getLast? = some ".." ∧
      folder? m root ≠ (Path.components parent).getLast?.map (behindQualifier m) :=
  ⟨shelved "/sdk/../Core", "/ws", "/sdk/..", by decide, rfl, by decide, by decide, by decide,
    inside?_eq_none_iff.1 (by decide), by decide, by decide⟩

end CMake

end BuildGraph
