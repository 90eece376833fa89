import BuildGraph.Proofs.CommandLine.Failure
import BuildGraph.Proofs.Graph.Built
set_option autoImplicit false

/-!
# Where a run changes the tree

Whatever a run changes is the directory of the project or one above it that was missing, or lies
at or below that directory, with two exceptions. The name of a link may lead away from the
directory, back by two dots or through another link; and the text goes through a link that stands
where its file should be.
-/

namespace BuildGraph

open FileTree

namespace FileTree

variable {t : FileTree} {followLast : Bool} {links : Nat} {l d : Location} {name : String}
  {names : List String} {p : Place}

/-- Names lead away from a directory: back by two dots, or on through a link. -/
def Strays (t : FileTree) (d : Location) (names : List String) : Prop :=
  ".." ∈ names ∨ ∃ before after target, after ≠ [] ∧ names = before ++ after ∧
    t.get? (d ++ before.filter (· ≠ ".")) = some (.link target)

theorem Strays.stay (h : t.Strays l names) : t.Strays l ("." :: names) := by
  obtain hdots | ⟨before, after, target, hafter, rfl, hget⟩ := h
  · exact .inl (List.mem_cons_of_mem _ hdots)
  · exact .inr ⟨"." :: before, after, target, hafter, rfl, by simpa using hget⟩

theorem Strays.down (hname : IsEntryName name) (h : t.Strays (l ++ [name]) names) :
    t.Strays l (name :: names) := by
  obtain hdots | ⟨before, after, target, hafter, rfl, hget⟩ := h
  · exact .inl (List.mem_cons_of_mem _ hdots)
  · exact .inr ⟨name :: before, after, target, hafter, rfl, by simpa [hname.ne_dot] using hget⟩

/-- Names that do not stray lead to a place at or below the directory. -/
theorem Leads.prefix_location (h : Leads t false links l names p) (hstray : ¬ t.Strays l names) :
    l <+: p.location := by
  induction h with
  | here => exact List.prefix_rfl
  | stay _ ih => exact ih (mt Strays.stay hstray)
  | up => exact absurd (.inl List.mem_cons_self) hstray
  | free | file | link => exact List.prefix_append _ _
  | down hname _ _ ih =>
    exact (List.prefix_append _ _).trans (ih (mt (Strays.down hname) hstray))
  | @follow links l name target rest p hname hget hgo _ _ =>
    -- A link at the very end is not followed here, so there are names behind this one.
    refine absurd (.inr ⟨[name], rest, target, hgo.resolve_right nofun, rfl, ?_⟩) hstray
    simpa [hname.ne_dot] using hget

end FileTree

namespace CMake

variable {t : FileTree} {o : Output} {g : Graph} {l d : Location} {n : Node} {text : String}

/-- A link of a module that stands where its name strays to. -/
def IsStrayLink (t : FileTree) (g : Graph) (d l : Location) : Prop :=
  ∃ p ∈ g.active, ∃ name, Output.linkName? p.2 = some name ∧ t.Strays d (steps name) ∧
    t.get? l = some (.link (Path.join p.2.directory name))

/-- The text of a project that has gone through a link at the place of its file. -/
def IsStrayText (t : FileTree) (o : Output) (text : String) (d l : Location) : Prop :=
  (∃ target, t.get? (d ++ [Output.fileName]) = some (.link target)) ∧
    t.locate o.file = .ok (l, .file text.toUTF8)

/-- A planned link stands at or below the directory, unless its name strays. -/
theorem prefix_or_isStrayLink {c : Char} (hdir : o.directory.toList.getLast? = some c)
    (hc : c ≠ '/') (hlocate : t.locate o.directory = .ok (d, .directory))
    (hlink : LeadsToLink t (o.plannedLinks g) l n) : d <+: l ∨ IsStrayLink t g d l := by
  obtain ⟨link, hplanned, rfl, hne, -, hresolve⟩ := hlink
  obtain ⟨p, hp, name, hname, rfl⟩ := mem_plannedLinks_iff.1 hplanned
  obtain ⟨hpath, -⟩ := resolve_eq_ok_iff.1 hresolve
  have hrelative : Path.isAbsolute name = false := by
    -- An absolute name would stand for its own target.
    cases habsolute : Path.isAbsolute name with
    | false => rfl
    | true => simp [Path.join, habsolute] at hne
  have hempty : name ≠ "" := by
    rintro rfl
    rw [resolve_join_empty hlocate hdir hc hpath] at hresolve
    cases hresolve
  obtain ⟨left, hleft⟩ := exists_resolve_join hlocate hdir hc hempty hrelative hpath
  have hleads := walk_eq_ok_iff.1 ((hleft false).symm.trans hresolve)
  by_cases hstray : t.Strays d (steps name)
  · exact .inr ⟨p, hp, name, hname, hstray, (holds_of_resolve hresolve).1⟩
  · exact .inl (hleads.prefix_location hstray)

/-- The text is under its name in the directory, unless there is a link. -/
theorem eq_or_isStrayText {c : Char} (hdir : o.directory.toList.getLast? = some c) (hc : c ≠ '/')
    (hlocate : t.locate o.directory = .ok (d, .directory))
    (htext : t.locate o.file = .ok (l, .file text.toUTF8)) :
    l = d ++ [Output.fileName] ∨ IsStrayText t o text d l := by
  have hresolve := locate_eq_ok_iff.1 htext
  have hname : IsPlainName Output.fileName := by decide
  have hentry : IsEntryName Output.fileName := by decide
  obtain ⟨left, hleft⟩ := exists_resolve_join hlocate hdir hc hname.ne_empty hname.isAbsolute_eq
    (resolve_eq_ok_iff.1 hresolve).1
  have hwalk := (hleft true).symm.trans hresolve
  cases hget : t.get? (d ++ [Output.fileName]) with
  | some n =>
    cases n with
    | link target => exact .inr ⟨⟨target, hget⟩, htext⟩
    | directory =>
      rw [hname.steps_eq, walk_cons_of_isEntryName hentry, hget] at hwalk
      cases hwalk.symm.trans walk_nil
    | file content =>
      rw [hname.steps_eq, walk_cons_of_isEntryName hentry, hget] at hwalk
      obtain ⟨rfl, -⟩ := Place.existing.inj (Except.ok.inj hwalk)
      exact .inl rfl
  | none =>
    rw [hname.steps_eq, walk_cons_of_isEntryName hentry, hget] at hwalk
    cases hwalk

/-- The text is at its place in the directory, unless there is a link. -/
theorem prefix_or_isStrayText {c : Char} (hdir : o.directory.toList.getLast? = some c)
    (hc : c ≠ '/') (hlocate : t.locate o.directory = .ok (d, .directory))
    (htext : t.locate o.file = .ok (l, .file text.toUTF8)) :
    d <+: l ∨ IsStrayText t o text d l := by
  obtain rfl | hstray := eq_or_isStrayText hdir hc hlocate htext
  · exact .inl (List.prefix_append _ _)
  · exact .inr hstray

end CMake

namespace CommandLine

open CMake

variable {t : FileTree} {cwd : String} {o : Options} {out : Outcome}

/-- Where a run has changed the tree: at the directory of the project or one above it that was
missing, at or below the directory, or at the place of a link or a text that has strayed. -/
inductive IsReach (t t' : FileTree) (s : Loaded) (l : Location) : Prop
  | directory (hnone : t.get? l = none)
      (h : t'.LeadsToDirectory (ways s.output.directory) l .directory)
  | inside {d : Location} (hlocate : t'.locate s.output.directory = .ok (d, .directory))
      (h : d <+: l)
  | link {d : Location} (hlocate : t'.locate s.output.directory = .ok (d, .directory))
      (hnone : t.get? l = none) (h : IsStrayLink t' s.built.graph d l)
  | text {d : Location} (hlocate : t'.locate s.output.directory = .ok (d, .directory))
      (h : IsStrayText t' s.output s.project d l)

theorem isReach_of_isScaffold {t' : FileTree} {s : Loaded} {l : Location} {n : Node}
    (hnone : t.get? l = none) (h : s.output.IsScaffold s.built.graph t' l n) :
    IsReach t t' s l := by
  have hdir := getLast?_directory_ofRoot s.root s.built.graph.settings
  obtain ⟨rfl, hdirectory⟩ | ⟨hmade, hlink⟩ := h
  · exact .directory hnone ⟨rfl, hdirectory⟩
  · obtain ⟨d, hlocate⟩ := isDirectory_iff.1 hmade
    obtain hinside | hstray := prefix_or_isStrayLink hdir (by decide) hlocate hlink
    · exact .inside hlocate hinside
    · exact .link hlocate hnone hstray

/-- What comes in beside the text is within reach. -/
theorem isReach_of_adds {t₁ t' : FileTree} {s : Loaded} {l : Location}
    (hadds : Adds (s.output.IsScaffold s.built.graph t₁) t t₁) (hk : Keeps t₁ t')
    (hchange : t₁.get? l ≠ t.get? l) : IsReach t t' s l := by
  obtain hsame | ⟨hnone, n, -, hnew⟩ := hadds l
  · exact absurd hsame hchange
  · exact isReach_of_isScaffold hnone (hnew.keep hk)

theorem Ends.isReach {σ : Workspace.Schedule} {e? : Option RunError} {l : Location}
    (h : Ends σ t cwd o e? out) (hchange : out.tree.get? l ≠ t.get? l) :
    ∃ s, o.has .dryRun = false ∧ loadAlong σ t cwd o = .ok s ∧ IsReach t out.tree s l := by
  cases h with
  | unloaded | shown => exact absurd rfl hchange
  | @unlinked s linking _ hload hdry hlinks =>
    have hadds := Output.linkModules_adds s.output s.built.graph t
    rw [hlinks] at hadds
    exact ⟨s, hdry, hload, isReach_of_adds hadds (Grows.refl _).keeps hchange⟩
  | @unwritten s linking _ hload hdry hlinks hlinked herror =>
    have hadds := Output.linkModules_adds s.output s.built.graph t
    have hmade := Output.isDirectory_linkModules (hlinks ▸ hlinked)
    rw [hlinks] at hadds hmade
    dsimp only at hchange ⊢
    rw [Output.tree_write_of_error hmade herror] at hchange ⊢
    exact ⟨s, hdry, hload, isReach_of_adds hadds (Grows.refl _).keeps hchange⟩
  | @written s linking _ hload hdry hlinks hlinked hok =>
    have hadds := Output.linkModules_adds s.output s.built.graph t
    have hmade := Output.isDirectory_linkModules (hlinks ▸ hlinked)
    rw [hlinks] at hadds hmade
    obtain ⟨hkeeps, k, htext, hother⟩ := Output.tree_write_of_ok hmade hok
    refine ⟨s, hdry, hload, ?_⟩
    dsimp only at hchange ⊢
    by_cases hl : l = k
    · subst hl
      obtain ⟨d, hlocate⟩ := isDirectory_iff.1 (isDirectory_of_keeps hmade hkeeps)
      obtain hinside | hstray := prefix_or_isStrayText
        (getLast?_directory_ofRoot s.root s.built.graph.settings) (by decide) hlocate htext
      · exact .inside hlocate hinside
      · exact .text hlocate hstray
    · rw [hother l hl] at hchange
      exact isReach_of_adds hadds hkeeps hchange

/-- Wherever a run has changed the tree, the directory of the project or one above it was
missing, or the place lies at or below the directory, or it is that of a link whose name leads
away from the directory or of a text that went through a link. -/
theorem changes_are_in_reach {arguments : List String} {l : Location}
    (hrun : execute t cwd arguments = out) (hchange : out.tree.get? l ≠ t.get? l) :
    ∃ (o : Options) (s : Loaded), requestOf arguments = .run o ∧ o.has .dryRun = false ∧
      load t cwd o = .ok s ∧ IsReach t out.tree s l := by
  unfold execute at hrun
  cases hrequest : requestOf arguments with
  | run o =>
    simp only [hrequest] at hrun
    have hends := ends_run t cwd o
    rw [hrun] at hends
    obtain ⟨s, hdry, hload, hreach⟩ := hends.isReach hchange
    exact ⟨o, s, rfl, hdry, hload, hreach⟩
  | help | version | misuse =>
    simp only [hrequest] at hrun
    subst hrun
    exact absurd rfl hchange

/-! ## A name that leads away -/

/-- A workspace with a toolchain and an included project beside its module. -/
def besideTree : FileTree :=
  ([(["ws"], .directory),
    (["ws", "t.module.toml"],
      .file "[[module]]\nname = \"Tools\"\nkind = \"toolchain\"\n".toUTF8),
    (["ws", "a"], .directory),
    (["ws", "a", "a.module.toml"],
      .file "[[module]]\nname = \"A\"\nkind = \"native\"\nsubdirectory = \"../glfw\"\n".toUTF8),
    (["ws", "glfw"], .directory)] :
      List (Location × Node)).foldl (fun t p => t.put p.1 p.2) .empty

theorem execute_beside : (execute besideTree "/" ["--root", "/ws"]).code = 0 ∧
    (execute besideTree "/" ["--root", "/ws"]).tree.get? ["ws", "Intermediate", "glfw"] =
      some (.link "/ws/a/../glfw") ∧
    (execute besideTree "/" ["--root", "/ws"]).tree.locate "/ws/Intermediate/ProjectFiles" =
      .ok (["ws", "Intermediate", "ProjectFiles"], .directory) ∧
    besideTree.get? ["ws", "Intermediate", "glfw"] = none ∧
    (load besideTree "/" ⟨"/ws", []⟩).toOption.map Loaded.output =
      some ⟨"/ws/Intermediate/ProjectFiles"⟩ := by
  decide +kernel

/-- The change at the link comes within reach by its name alone. -/
theorem changes_are_in_reach_beside :
    (execute besideTree "/" ["--root", "/ws"]).tree.get? ["ws", "Intermediate", "glfw"] ≠
      besideTree.get? ["ws", "Intermediate", "glfw"] ∧
    ∃ (o : Options) (s : Loaded), requestOf ["--root", "/ws"] = .run o ∧ o.has .dryRun = false ∧
      load besideTree "/" o = .ok s ∧
      IsReach besideTree (execute besideTree "/" ["--root", "/ws"]).tree s
        ["ws", "Intermediate", "glfw"] := by
  obtain ⟨-, hlink, -, hnone, -⟩ := execute_beside
  have hchange : (execute besideTree "/" ["--root", "/ws"]).tree.get?
      ["ws", "Intermediate", "glfw"] ≠ besideTree.get? ["ws", "Intermediate", "glfw"] := by
    rw [hlink, hnone]
    nofun
  exact ⟨hchange, changes_are_in_reach rfl hchange⟩

/-- A run may succeed and have made a link outside the directory of the project. -/
theorem exists_change_outside :
    ∃ (t : FileTree) (cwd : String) (arguments : List String) (o : Options) (s : Loaded)
      (l : Location), requestOf arguments = .run o ∧ load t cwd o = .ok s ∧
      (execute t cwd arguments).code = 0 ∧ (execute t cwd arguments).tree.get? l ≠ t.get? l ∧
      ¬ (execute t cwd arguments).tree.LeadsToDirectory (ways s.output.directory) l .directory ∧
      ¬ ∃ d, (execute t cwd arguments).tree.locate s.output.directory = .ok (d, .directory) ∧
        d <+: l := by
  obtain ⟨hcode, hlink, hlocate, hnone, hload⟩ := execute_beside
  obtain ⟨s, hload, houtput⟩ := exists_ok_of_map_eq_some hload
  refine ⟨besideTree, "/", ["--root", "/ws"], ⟨"/ws", []⟩, s, ["ws", "Intermediate", "glfw"],
    by decide, hload, hcode, by rw [hlink, hnone]; nofun, fun hdirectory => ?_, fun hinside => ?_⟩
  · obtain ⟨-, path, -, hpath⟩ := hdirectory
    have hget := (holds_of_resolve (locate_eq_ok_iff.1 hpath)).1
    rw [hlink] at hget
    cases hget
  · obtain ⟨d, hd, hprefix⟩ := hinside
    rw [houtput, hlocate] at hd
    obtain ⟨rfl, -⟩ := Prod.mk.inj (Except.ok.inj hd)
    revert hprefix
    decide

end CommandLine

end BuildGraph
