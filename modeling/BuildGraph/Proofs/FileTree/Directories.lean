import BuildGraph.Proofs.FileTree.Growth
set_option autoImplicit false

/-!
# Making directories and writing files

What each change through a path does to a tree. Making a directory and those above it adds
directories where the paths lead and nothing else, also when it stops half way; when it does not
stop, the path leads to a directory, and making it once more changes nothing. A text that has
been written is what is read.
-/

namespace BuildGraph.FileTree

variable {t t' : FileTree} {l : Location} {n : Node} {path target : String} {paths : List String}

/-! ## Single nodes -/

theorem ne_nil_of_vacant {parent : Location} {name : String} : parent ++ [name] ≠ [] :=
  List.append_ne_nil_of_right_ne_nil _ nofun

theorem makeDirectory_eq_ok_iff : t.makeDirectory path = .ok t' ↔
    ∃ parent name, t.resolve false path = .ok (.vacant parent name) ∧
      t' = t.put (parent ++ [name]) .directory := by
  unfold makeDirectory
  cases t.resolve false path with
  | error e => simp
  | ok p => cases p <;> simp [eq_comm]

/-- A directory is made where its path leads. -/
theorem makeDirectory_adds (h : t.makeDirectory path = .ok t') :
    Adds (fun l n => n = .directory ∧ t'.locate path = .ok (l, .directory)) t t' ∧
      t'.isDirectory path = true := by
  obtain ⟨parent, name, hvacant, rfl⟩ := makeDirectory_eq_ok_iff.1 h
  obtain ⟨-, -, hnone⟩ := holds_of_resolve hvacant
  have hlocate := locate_eq_ok_iff.2 <|
    resolve_of_taken (resolve_vacant_unfollowed hvacant true) (grows_put hnone .directory).keeps
      (get?_put_self t ne_nil_of_vacant .directory) nofun
  exact ⟨adds_put hnone ⟨rfl, hlocate⟩, isDirectory_iff.2 ⟨_, hlocate⟩⟩

/-! ## Directories and those above them -/

/-- Where some paths lead there are directories. -/
def LeadsToDirectory (t : FileTree) (paths : List String) (l : Location) (n : Node) : Prop :=
  n = .directory ∧ ∃ path ∈ paths, t.locate path = .ok (l, .directory)

theorem LeadsToDirectory.keep {more : List String} (h : t.LeadsToDirectory paths l n)
    (hk : Keeps t t') (hsub : paths ⊆ more) : t'.LeadsToDirectory more l n := by
  obtain ⟨hn, path, hpath, hlocate⟩ := h
  exact ⟨hn, path, hsub hpath, locate_of_keeps hlocate hk⟩

/-- Makes one directory, unless it is there. -/
def makeOne (t : FileTree) (path : String) : Change :=
  match t.makeDirectory path with
  | .ok t => ⟨t, none⟩
  | .error e => if t.isDirectory path then ⟨t, none⟩ else ⟨t, some e⟩

/-- Only for want of a parent the paths above are turned to first. -/
theorem makeAll_cons (t : FileTree) (path : String) (above : List String) :
    t.makeAll (path :: above) = if t.makeDirectory path = .error .notFound then
      if (t.makeAll above).fault? = none then (t.makeAll above).tree.makeOne path
      else t.makeAll above
    else t.makeOne path := by
  rw [makeAll]
  split
  · rename_i hok
    simp [makeOne, hok]
  · rename_i hmissing
    rw [if_pos hmissing]
    cases habove : t.makeAll above with
    | mk tree fault? => cases fault? <;> rfl
  · rename_i e hne herror
    have hother : t.makeDirectory path ≠ .error .notFound := by
      rw [herror]
      exact fun heq => hne (Except.error.inj heq)
    rw [if_neg hother, makeOne, herror]

theorem makeOne_adds (t : FileTree) (path : String) :
    Adds ((t.makeOne path).tree.LeadsToDirectory [path]) t (t.makeOne path).tree ∧
      ((t.makeOne path).fault? = none → (t.makeOne path).tree.isDirectory path = true) := by
  unfold makeOne
  cases h : t.makeDirectory path with
  | ok t' =>
    obtain ⟨hadds, hdirectory⟩ := makeDirectory_adds h
    refine ⟨hadds.mono fun l n hnew => ?_, fun _ => hdirectory⟩
    exact ⟨hnew.1, path, List.mem_singleton_self path, hnew.2⟩
  | error e =>
    by_cases hdirectory : t.isDirectory path = true
    · simp only [if_pos hdirectory]
      exact ⟨Adds.refl _ t, fun _ => hdirectory⟩
    · simp only [if_neg hdirectory]
      exact ⟨Adds.refl _ t, nofun⟩

/-- Making the directories adds directories, each where one of the paths leads afterwards. -/
theorem makeAll_adds (t : FileTree) (paths : List String) :
    Adds ((t.makeAll paths).tree.LeadsToDirectory paths) t (t.makeAll paths).tree := by
  induction paths with
  | nil => exact Adds.refl _ t
  | cons path above ih =>
    have hone : ∀ t' : FileTree, Adds ((t'.makeOne path).tree.LeadsToDirectory (path :: above)) t'
        (t'.makeOne path).tree := by
      intro t'
      refine (makeOne_adds t' path).1.mono fun l n hnew => hnew.keep (Grows.refl _).keeps ?_
      exact List.cons_subset_cons path (List.nil_subset above)
    rw [makeAll_cons]
    split
    · split
      · refine (ih.mono fun l n hnew => ?_).trans (hone _)
        exact hnew.keep (hone _).grows.keeps (List.subset_cons_self path above)
      · refine ih.mono fun l n hnew => hnew.keep (Grows.refl _).keeps ?_
        exact List.subset_cons_self path above
    · exact hone t

/-- Unless it stops, the first path leads to a directory. -/
theorem isDirectory_makeAll {above : List String}
    (h : (t.makeAll (path :: above)).fault? = none) :
    (t.makeAll (path :: above)).tree.isDirectory path = true := by
  rw [makeAll_cons] at h ⊢
  split at h
  · split at h
    · rw [if_pos ‹_›, if_pos ‹_›]
      exact (makeOne_adds _ path).2 h
    · exact absurd h ‹_›
  · rw [if_neg ‹_›]
    exact (makeOne_adds t path).2 h

theorem ancestors_eq_cons (fuel : Nat) (path : String) :
    ∃ above, ancestors fuel path = path :: above := by
  cases fuel with
  | zero => exact ⟨[], rfl⟩
  | succ fuel =>
    unfold ancestors
    split
    · split
      · exact ⟨[], rfl⟩
      · exact ⟨_, rfl⟩
    · exact ⟨[], rfl⟩

/-- A directory and those above it, as far as paths tell. -/
def ways (path : String) : List String :=
  ancestors path.length path

theorem makeDirectories_adds (t : FileTree) (path : String) :
    Adds ((t.makeDirectories path).tree.LeadsToDirectory (ways path)) t
      (t.makeDirectories path).tree :=
  makeAll_adds t (ways path)

theorem isDirectory_makeDirectories (h : (t.makeDirectories path).fault? = none) :
    (t.makeDirectories path).tree.isDirectory path = true := by
  unfold makeDirectories at h ⊢
  obtain ⟨above, hways⟩ := ancestors_eq_cons path.length path
  rw [hways] at h ⊢
  exact isDirectory_makeAll h

/-! ## Files -/

/-- Writing to a file changes the node where the path leads afterwards, and no other. -/
theorem writeBytes_keeps {content : ByteArray} (h : t.writeBytes path content = .ok t') :
    Keeps t t' ∧ ∃ l, t'.locate path = .ok (l, .file content) ∧
      ∀ k, k ≠ l → t'.get? k = t.get? k := by
  unfold writeBytes at h
  split at h
  · rename_i parent name hvacant
    obtain rfl := Except.ok.inj h
    obtain ⟨-, -, hnone⟩ := holds_of_resolve hvacant
    have hkeeps := (grows_put hnone (.file content)).keeps
    refine ⟨hkeeps, _, locate_eq_ok_iff.2 (resolve_of_taken hvacant hkeeps
      (get?_put_self t ne_nil_of_vacant _) nofun), fun k hk => ?_⟩
    rw [get?_put t _ k _ ne_nil_of_vacant, if_neg hk]
  · rename_i l old hexisting
    obtain rfl := Except.ok.inj h
    obtain ⟨hget, -⟩ := holds_of_resolve hexisting
    have hl : l ≠ [] := by
      rintro rfl
      cases hget
    have hkeeps : Keeps t (t.put l (.file content)) := by
      refine keeps_put_file (fun n hn => ?_) hl
      exact ⟨old, Option.some.inj (hn.symm.trans hget)⟩
    have hnow := resolve_keep hexisting hkeeps trivial
    rw [Place.inTree_of_get? (p := .existing l _) (get?_put_self t hl _)] at hnow
    refine ⟨hkeeps, l, locate_eq_ok_iff.2 hnow, fun k hk => ?_⟩
    rw [get?_put t l k _ hl, if_neg hk]
  · cases h
  · cases h

/-- What is written is what is read. -/
theorem readText_of_locate {text : String} (h : t.locate path = .ok (l, .file text.toUTF8)) :
    t.readText path = .ok text := by
  have hbytes : t.readBytes path = .ok text.toUTF8 := by
    rw [readBytes, h]
  have htext : String.fromUTF8? text.toUTF8 = some text := dif_pos text.isValidUTF8
  simp only [readText, hbytes, bind, Except.bind, htext]

end BuildGraph.FileTree
