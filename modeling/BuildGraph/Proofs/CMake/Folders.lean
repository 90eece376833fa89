import BuildGraph.Proofs.CMake.Blocks
set_option autoImplicit false

/-!
# Folders and qualifiers

A qualifier takes part in a folder in two ways. It is the folder when the declaration says so, and
it stands in front of the name of the directory above when no other folder is to be had. In both
places an empty qualifier is written like any other, so that it is not the same as none: the folder
is then the empty text, or starts with a slash.
-/

namespace BuildGraph

/-! ## Texts that are not empty -/

/-- The last piece of a path that ends in no void piece is a name, or a dot that stands alone. -/
theorem Path.isVoid_of_getLast?_dropVoidEnd {absolute : Bool} {ps : List (List Char)}
    {p : List Char} (h : (dropVoidEnd absolute ps).getLast? = some p) :
    p = ['.'] ∨ isVoid p = false := by
  unfold dropVoidEnd at h
  dsimp only at h
  split at h
  · exact .inl (List.mem_singleton.1 (List.mem_of_getLast? h))
  · rw [List.getLast?_reverse] at h
    have hhead := List.head?_dropWhile_not isVoid ps.reverse
    rw [h] at hhead
    exact .inr hhead

theorem Path.fileName?_ne_empty (path : String) : fileName? path ≠ some "" := by
  unfold fileName?
  split
  · exact nofun
  · rename_i p hlast
    split
    · exact nofun
    · rename_i hdots
      intro hempty
      have hnil : p = [] := String.ofList_eq_empty_iff.1 (Option.some.inj hempty)
      subst hnil
      cases Path.isVoid_of_getLast?_dropVoidEnd hlast with
      | inl hdot => cases hdot
      | inr hvoid => cases hvoid

theorem Module.dottedToPath_eq_empty_iff {name : String} : dottedToPath name = "" ↔ name = "" := by
  unfold dottedToPath
  rw [String.ofList_eq_empty_iff, List.map_eq_nil_iff, String.toList_eq_nil_iff]

namespace CMake

variable {m : Module} {root parent : String}

theorem inside?_ne_nil (root directory : List Char) : inside? root directory ≠ some [] := by
  unfold inside?
  dsimp only
  split
  · split
    · split
      · exact nofun
      · rename_i hway
        exact fun hnil => hway (Option.some.inj hnil)
    · exact nofun
  · exact nofun

/-- A folder that comes from the directory above a module has a name. -/
theorem surroundingFolder?_ne_empty (m : Module) (root parent : String) :
    surroundingFolder? m root parent ≠ some "" := by
  unfold surroundingFolder?
  split
  · rename_i way hway
    intro hempty
    rw [String.ofList_eq_empty_iff.1 (Option.some.inj hempty)] at hway
    exact inside?_ne_nil _ _ hway
  · intro hempty
    obtain ⟨name, hname, htext⟩ := Option.map_eq_some_iff.1 hempty
    split at htext
    · simp [String.append_eq_empty_iff] at htext
    · subst htext
      exact Path.fileName?_ne_empty parent hname

/-! ## The folder of a module -/

/-- The directory above that of a module, with slashes only, if it has a text. -/
def above? (m : Module) : Option String :=
  ((Path.parent? m.directory).map Path.forward).filter (· != "")

/-- A folder is asked for, or it comes from the directory above. -/
theorem folder?_eq (m : Module) (root : String) :
    folder? m root = m.declaredFolder?.or ((above? m).bind (surroundingFolder? m root)) := by
  unfold folder? above?
  cases m.declaredFolder? with
  | some f => rfl
  | none =>
    cases Path.parent? m.directory with
    | none => rfl
    | some parent =>
      dsimp only
      rw [Option.map_some, Option.filter_some]
      by_cases hempty : Path.forward parent = ""
      · simp [hempty]
      · simp [hempty]

/-- The folder of a module is the empty text exactly if the declaration asks for the qualifier as
the folder and the qualifier is empty. -/
theorem folder?_eq_empty_iff :
    folder? m root = some "" ↔ m.qualifierAsFolder = true ∧ m.qualifier = some "" := by
  have hdeclared : m.declaredFolder? = some "" ↔
      m.qualifierAsFolder = true ∧ m.qualifier = some "" := by
    unfold Module.declaredFolder?
    cases m.qualifierAsFolder with
    | true => simp [Module.dottedToPath_eq_empty_iff]
    | false =>
      simp only [Bool.false_eq_true, if_false, false_and, iff_false]
      split
      · split
        · exact nofun
        · rename_i hne
          exact fun hempty => hne (Module.dottedToPath_eq_empty_iff.1 (Option.some.inj hempty))
      · exact nofun
  have habove : (above? m).bind (surroundingFolder? m root) ≠ some "" := by
    intro hempty
    obtain ⟨parent, -, hfolder⟩ := Option.bind_eq_some_iff.1 hempty
    exact surroundingFolder?_ne_empty m root parent hfolder
  rw [folder?_eq, Option.or_eq_some_iff, hdeclared]
  exact or_iff_left fun h => habove h.2

end CMake

/-! ## Modules without their qualifiers -/

/-- The module without its qualifier. -/
def Module.unqualified (m : Module) : Module :=
  { m with qualifier := none }

/-- The target of a module does not tell an empty qualifier from none. -/
theorem Module.targetName_unqualified {m : Module} (h : m.qualifier = some "") :
    m.unqualified.targetName = m.targetName := by
  unfold targetName unqualified
  rw [h]
  rfl

namespace CMake

variable {m : Module} {root : String}

/-- The qualifier is part of the folder of a module: it is asked for as the folder, or no folder is
asked for and the directory above has a name but is not properly inside the workspace. -/
def QualifierShows (m : Module) (root : String) : Prop :=
  m.qualifierAsFolder = true ∨
    m.declaredFolder? = none ∧ ∃ parent name, above? m = some parent ∧
      inside? root.toList parent.toList = none ∧ Path.fileName? parent = some name

theorem declaredFolder?_unqualified (h : m.qualifierAsFolder = false) :
    m.unqualified.declaredFolder? = m.declaredFolder? := by
  unfold Module.declaredFolder? Module.unqualified
  rw [h]
  rfl

/-- An empty qualifier that shows makes the folder empty, or puts a slash in front of it. -/
theorem folder?_of_qualifierShows (h : m.qualifier = some "") (hshows : QualifierShows m root) :
    (folder? m root = some "" ∧ folder? m.unqualified root ≠ some "") ∨
      ∃ name, folder? m root = some ("/" ++ name) ∧ folder? m.unqualified root = some name := by
  cases hasked : m.qualifierAsFolder with
  | true =>
    refine .inl ⟨folder?_eq_empty_iff.2 ⟨hasked, h⟩, fun hempty => ?_⟩
    exact nomatch (folder?_eq_empty_iff.1 hempty).2
  | false =>
    obtain htrue | ⟨hdeclared, parent, name, habove, hinside, hname⟩ := hshows
    · rw [hasked] at htrue
      cases htrue
    · have hdeclared' : m.unqualified.declaredFolder? = none :=
        (declaredFolder?_unqualified hasked).trans hdeclared
      have habove' : above? m.unqualified = some parent := habove
      refine .inr ⟨name, ?_, ?_⟩
      · rw [folder?_eq, hdeclared, habove]
        simp [surroundingFolder?, hinside, hname, h]
      · rw [folder?_eq, hdeclared', habove']
        simp [surroundingFolder?, hinside, hname, Module.unqualified]

theorem folder?_unqualified (h : ¬ QualifierShows m root) :
    folder? m.unqualified root = folder? m root := by
  unfold QualifierShows at h
  have hasked : m.qualifierAsFolder = false := Bool.eq_false_iff.2 fun htrue => h (.inl htrue)
  have habove : above? m.unqualified = above? m := rfl
  rw [folder?_eq, folder?_eq, declaredFolder?_unqualified hasked, habove]
  cases hdeclared : m.declaredFolder? with
  | some f => rfl
  | none =>
    cases hparent : above? m with
    | none => rfl
    | some parent =>
      have hfolder : surroundingFolder? m.unqualified root parent =
          surroundingFolder? m root parent := by
        unfold surroundingFolder?
        cases hinside : inside? root.toList parent.toList with
        | some way => rfl
        | none =>
          cases hname : Path.fileName? parent with
          | none => rfl
          | some name => exact absurd (.inr ⟨hdeclared, parent, name, hparent, hinside, hname⟩) h
      exact hfolder

/-- Without its empty qualifier a module keeps its folder exactly if the qualifier is no part of
it. -/
theorem folder?_unqualified_eq_iff (h : m.qualifier = some "") :
    folder? m.unqualified root = folder? m root ↔ ¬ QualifierShows m root := by
  refine ⟨fun heq hshows => ?_, folder?_unqualified⟩
  obtain ⟨hempty, hne⟩ | ⟨name, hslash, hname⟩ := folder?_of_qualifierShows h hshows
  · exact hne (heq.trans hempty)
  · -- A slash in front of a name makes another text.
    rw [hslash, hname] at heq
    have hlength := congrArg String.length (Option.some.inj heq)
    simp at hlength

/-! ## Folders in a block -/

/-- The folder into which a directive puts a target. -/
def Directive.shownIn? : Directive → Option String
  | .place _ path _ => some path
  | .folder _ path => some path
  | _ => none

/-- The folders in the block of a module are the folder of the module. -/
theorem exists_shownIn?_iff {g : Graph} {w : Workspace} {id : ModuleId} {folder : String} :
    (∃ d ∈ moduleDirectives g w id m, d.shownIn? = some folder) ↔
      folder? m w.root = some folder := by
  constructor
  · rintro ⟨d, hd, hshown⟩
    rcases mem_moduleDirectives hd with hdeclaration | harrangement | ⟨p, rfl⟩
    · cases hdeclaration <;> cases hshown
    · cases harrangement with
      | place f hfolder => exact hshown ▸ hfolder
      | companionFolder f hfolder => exact hshown ▸ hfolder
      | exportedFolder f target hfolder htarget => exact hshown ▸ hfolder
      | _ => cases hshown
    · cases hshown
  · intro hfolder
    refine ⟨.place m.targetName folder w.root, ?_, rfl⟩
    unfold moduleDirectives placeDirectives
    simp [hfolder]

end CMake

end BuildGraph
