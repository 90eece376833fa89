import BuildGraph.Proofs.CMake.Links
import BuildGraph.Proofs.FileTree.Steps
set_option autoImplicit false

/-!
# Around the text of a project

Before the text of a project can be written its directory is made, with those above it, and the
planned links. These are all that comes into the tree, whether or not the text gets there in the
end, and nothing that stood is touched. Once the directory is there, making it again changes
nothing, so that writing changes nothing but the file.
-/

namespace BuildGraph

open FileTree

namespace FileTree

variable {t : FileTree} {path : String}

/-- Where there is a directory, making it changes nothing. -/
theorem makeDirectories_of_isDirectory (h : t.isDirectory path = true) :
    t.makeDirectories path = ⟨t, none⟩ := by
  obtain ⟨l, hlocate⟩ := isDirectory_iff.1 h
  have hexists := exists?_iff.2 ⟨l, _, locate_eq_ok_iff.1 hlocate⟩
  obtain ⟨k, n, htaken⟩ := isTaken_iff.1 (isTaken_of_exists? hexists)
  have hagain : t.makeDirectory path = .error .alreadyExists := by
    rw [makeDirectory, htaken]
  obtain ⟨above, hways⟩ := ancestors_eq_cons path.length path
  rw [makeDirectories, hways, makeAll_cons, if_neg (by simp [hagain]), makeOne, hagain]
  simp only [if_pos h]

end FileTree

namespace CMake

variable {t : FileTree} {o : Output} {g : Graph} {link : ModuleLink} {l : Location} {n : Node}
  {text file : String}

theorem mem_plannedLinks_iff : link ∈ o.plannedLinks g ↔
    ∃ p ∈ g.active, ∃ name, Output.linkName? p.2 = some name ∧
      ⟨Path.join o.directory name, Path.join p.2.directory name⟩ = link := by
  simp [Output.plannedLinks, Output.linkOf?]

/-- The path of the directory does not end in a slash. -/
theorem getLast?_directory_ofRoot (root : String) (settings : Toolchain) :
    (Output.ofRoot root settings).directory.toList.getLast? = some 's' := by
  have hname : Output.directoryName.toList.getLast? = some 's' := by decide
  have hne : Output.directoryName.toList ≠ [] := by decide
  have hrelative : Path.isAbsolute Output.directoryName = false := by decide
  obtain htext | ⟨front, htext⟩ :=
    Path.exists_toList_join (Path.join root settings.intermediateDirectory) hrelative
  · rw [Output.ofRoot, htext, hname]
  · rw [Output.ofRoot, htext, List.getLast?_append_of_ne_nil _ (List.cons_ne_nil _ _),
      List.getLast?_cons_of_ne_nil hne, hname]

namespace Output

/-! ## The directory -/

/-- The tree with the directory of a project, and with those above it that were missing. -/
def prepared (o : Output) (t : FileTree) : FileTree :=
  (o.prepare t).1

theorem prepared_adds (o : Output) (t : FileTree) :
    Adds ((o.prepared t).LeadsToDirectory (ways o.directory)) t (o.prepared t) :=
  makeDirectories_adds t o.directory

theorem grows_prepared (o : Output) (t : FileTree) : Grows t (o.prepared t) :=
  (o.prepared_adds t).grows

theorem isDirectory_prepared (h : (o.prepare t).2 = none) :
    (o.prepared t).isDirectory o.directory = true :=
  isDirectory_makeDirectories (Option.map_eq_none_iff.1 h)

theorem prepare_of_isDirectory (h : t.isDirectory o.directory = true) :
    o.prepare t = (t, none) := by
  rw [prepare, makeDirectories_of_isDirectory h]
  rfl

/-! ## The links -/

theorem linkModules_eq (h : (o.prepare t).2 = none) :
    o.linkModules g t = makeLinks ⟨o.prepared t, 0, [], none⟩ (o.plannedLinks g) := by
  unfold linkModules prepared
  split
  · rename_i heq
    rw [heq] at h
    cases h
  · rename_i heq
    rw [heq]

theorem linkModules_of_prepare_error {e : Error} (h : (o.prepare t).2 = some e) :
    o.linkModules g t = ⟨o.prepared t, 0, [], some e⟩ := by
  unfold linkModules prepared
  split
  · rename_i heq
    rw [heq] at h ⊢
    obtain rfl := Option.some.inj h
    rfl
  · rename_i heq
    rw [heq] at h
    cases h

/-- What stands around the text of a project: its directory and those above it, and once the
directory is there planned links. -/
def IsScaffold (o : Output) (g : Graph) (t : FileTree) (l : Location) (n : Node) : Prop :=
  t.LeadsToDirectory (ways o.directory) l n ∨
    t.isDirectory o.directory = true ∧ LeadsToLink t (o.plannedLinks g) l n

theorem IsScaffold.keep {t' : FileTree} (h : o.IsScaffold g t l n) (hk : Keeps t t') :
    o.IsScaffold g t' l n := by
  obtain hdirectory | ⟨hmade, hlink⟩ := h
  · exact .inl (hdirectory.keep hk (List.Subset.refl _))
  · exact .inr ⟨isDirectory_of_keeps hmade hk, hlink.keep hk (List.Subset.refl _)⟩

/-- Making links adds to the tree what stands around the text, and nothing else, wherever it
ends. -/
theorem linkModules_adds (o : Output) (g : Graph) (t : FileTree) :
    Adds (o.IsScaffold g (o.linkModules g t).tree) t (o.linkModules g t).tree := by
  cases hmade : (o.prepare t).2 with
  | some e =>
    rw [linkModules_of_prepare_error hmade]
    exact (o.prepared_adds t).mono fun l n hnew => .inl hnew
  | none =>
    rw [linkModules_eq hmade]
    have hlinks := makeLinks_adds (s := ⟨o.prepared t, 0, [], none⟩) (o.plannedLinks g) rfl
    have hkeeps := hlinks.grows.keeps
    refine ((o.prepared_adds t).mono fun l n hnew => ?_).trans (hlinks.mono fun l n hnew => ?_)
    · exact .inl (hnew.keep hkeeps (List.Subset.refl _))
    · exact .inr ⟨isDirectory_of_keeps (isDirectory_prepared hmade) hkeeps, hnew⟩

/-- None of it is a file. -/
theorem file_iff_of_adds {t' : FileTree} (h : Adds (o.IsScaffold g t') t t') (l : Location)
    (content : ByteArray) : t'.get? l = some (.file content) ↔ t.get? l = some (.file content) := by
  refine ⟨fun hfile => ?_, h.grows l _⟩
  obtain hsame | ⟨-, n, hget, hnew⟩ := h l
  · rwa [hsame] at hfile
  · obtain rfl := Option.some.inj (hget.symm.trans hfile)
    obtain ⟨hn, -⟩ | ⟨-, link, -, hn, -⟩ := hnew
    · cases hn
    · cases hn

theorem isDirectory_linkModules (h : (o.linkModules g t).error? = none) :
    (o.linkModules g t).tree.isDirectory o.directory = true := by
  cases hmade : (o.prepare t).2 with
  | some e =>
    rw [linkModules_of_prepare_error hmade] at h
    cases h
  | none =>
    rw [linkModules_eq hmade]
    have hlinks := makeLinks_adds (s := ⟨o.prepared t, 0, [], none⟩) (o.plannedLinks g) rfl
    exact isDirectory_of_keeps (isDirectory_prepared hmade) hlinks.grows.keeps

/-! ## The links once more -/

theorem settled_linkModules (h : (o.linkModules g t).error? = none) :
    ∀ link ∈ o.plannedLinks g, (o.linkModules g t).tree.isTaken link.path = true ∨
      t.exists? link.target = false := by
  cases hmade : (o.prepare t).2 with
  | some e =>
    rw [linkModules_of_prepare_error hmade] at h
    cases h
  | none =>
    rw [linkModules_eq hmade] at h ⊢
    exact settled_makeLinks (o.grows_prepared t) rfl h

theorem linkModules_of_settled (hmade : t.isDirectory o.directory = true)
    (h : ∀ link ∈ o.plannedLinks g,
      t.isTaken link.path = true ∨ t.exists? link.target = false) :
    (o.linkModules g t).error? = none ∧ (o.linkModules g t).tree = t ∧
      (o.linkModules g t).created = 0 := by
  have hprepare := prepare_of_isDirectory hmade
  have hprepared : o.prepared t = t := by
    rw [prepared, hprepare]
  rw [linkModules_eq (by rw [hprepare]), hprepared]
  exact makeLinks_of_settled rfl h

/-! ## The text -/

theorem write_of_isDirectory (h : t.isDirectory o.directory = true) (text : String) :
    o.write text t = match t.writeText o.file text with
      | .ok t' => ⟨t', .ok o.file⟩
      | .error e => ⟨t, .error (.io o.file e)⟩ := by
  have hprepare := prepare_of_isDirectory h
  cases hwrite : t.writeText o.file text with
  | ok t' => simp only [write, hprepare, hwrite]
  | error e => simp only [write, hprepare, hwrite]

/-- Where the directory is there, a text that cannot be written changes nothing. -/
theorem tree_write_of_error {e : Error} (h : t.isDirectory o.directory = true)
    (herror : (o.write text t).result = .error e) : (o.write text t).tree = t := by
  rw [write_of_isDirectory h] at herror ⊢
  cases hwrite : t.writeText o.file text with
  | ok t' =>
    rw [hwrite] at herror
    cases herror
  | error fault => rfl

/-- Where the directory is there, a text that is written is in its file, and nothing else
changes. -/
theorem tree_write_of_ok (h : t.isDirectory o.directory = true)
    (hok : (o.write text t).result = .ok file) :
    Keeps t (o.write text t).tree ∧
      ∃ l, (o.write text t).tree.locate o.file = .ok (l, .file text.toUTF8) ∧
        ∀ k, k ≠ l → (o.write text t).tree.get? k = t.get? k := by
  rw [write_of_isDirectory h] at hok ⊢
  cases hwrite : t.writeText o.file text with
  | ok t' => exact writeBytes_keeps hwrite
  | error fault =>
    rw [hwrite] at hok
    cases hok

end Output

end CMake

end BuildGraph
