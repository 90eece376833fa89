import BuildGraph.CommandLine.Run
import BuildGraph.Proofs.CMake.Scaffold
set_option autoImplicit false

/-!
# Runs that fail

The ways in which a run can end, each with what is known then. A run that fails before it has
built its graph leaves the tree as it was. One that fails later may leave what stands around the
text of a project: it is not taken back. No run that fails writes a file.
-/

namespace BuildGraph.CommandLine

open FileTree CMake

variable {σ : Workspace.Schedule} {t : FileTree} {cwd : String} {o : Options} {out : Outcome}

/-! ## How a run ends -/

/-- Whether a run that fails with the error has changed nothing. -/
def RunError.isEarly : RunError → Bool
  | .root _ _ | .settings _ | .graph _ => true
  | .links _ | .output _ => false

/-- How a run along a schedule ends: with which error, if with one, and with which outcome. -/
inductive Ends (σ : Workspace.Schedule) (t : FileTree) (cwd : String) (o : Options) :
    Option RunError → Outcome → Prop
  /-- There is no graph. -/
  | unloaded {e : RunError} {events : List Event}
      (hload : loadAlong σ t cwd o = .error (e, events)) :
      Ends σ t cwd o (some e) ⟨1, "", Log.text (o.has .verbose) events ++ errorLine e, t⟩
  | shown {s : Loaded} (hload : loadAlong σ t cwd o = .ok s) (hdry : o.has .dryRun = true) :
      Ends σ t cwd o none (dryRun t o s)
  | unlinked {s : Loaded} {linking : Linking} {e : Error} (hload : loadAlong σ t cwd o = .ok s)
      (hdry : o.has .dryRun = false) (hlinks : s.output.linkModules s.built.graph t = linking)
      (herror : linking.error? = some e) :
      Ends σ t cwd o (some (.links e)) ⟨1, titledOutline o s,
        Log.text (o.has .verbose) (s.built.events ++ linking.events) ++ errorLine (.links e),
        linking.tree⟩
  | unwritten {s : Loaded} {linking : Linking} {e : Error} (hload : loadAlong σ t cwd o = .ok s)
      (hdry : o.has .dryRun = false) (hlinks : s.output.linkModules s.built.graph t = linking)
      (hlinked : linking.error? = none)
      (herror : (s.output.write s.project linking.tree).result = .error e) :
      Ends σ t cwd o (some (.output e)) ⟨1, titledOutline o s,
        Log.text (o.has .verbose) (s.built.events ++ linking.events) ++ errorLine (.output e),
        (s.output.write s.project linking.tree).tree⟩
  | written {s : Loaded} {linking : Linking} {file : String} (hload : loadAlong σ t cwd o = .ok s)
      (hdry : o.has .dryRun = false) (hlinks : s.output.linkModules s.built.graph t = linking)
      (hlinked : linking.error? = none)
      (hok : (s.output.write s.project linking.tree).result = .ok file) :
      Ends σ t cwd o none ⟨0,
        titledOutline o s ++ summaryText s ++ linksLine linking.created ++ generatedLine s file,
        Log.text (o.has .verbose) (s.built.events ++ linking.events),
        (s.output.write s.project linking.tree).tree⟩

/-- The error with which a run along a schedule fails, if it does. -/
def failureAlong? (σ : Workspace.Schedule) (t : FileTree) (cwd : String) (o : Options) :
    Option RunError :=
  match loadAlong σ t cwd o with
  | .error (e, _) => some e
  | .ok s =>
    if o.has .dryRun then none
    else
      let linking := s.output.linkModules s.built.graph t
      match linking.error? with
      | some e => some (.links e)
      | none =>
        match (s.output.write s.project linking.tree).result with
        | .error e => some (.output e)
        | .ok _ => none

/-- The error with which a run fails, if it does. -/
def failure? (t : FileTree) (cwd : String) (o : Options) : Option RunError :=
  failureAlong? .inOrder t cwd o

theorem ends_generate {s : Loaded} (hload : loadAlong σ t cwd o = .ok s)
    (hdry : o.has .dryRun = false) :
    Ends σ t cwd o (failureAlong? σ t cwd o) (generate t o s) := by
  simp only [failureAlong?, hload, hdry, Bool.false_eq_true, if_false]
  unfold generate
  generalize hlinks : s.output.linkModules s.built.graph t = linking
  dsimp only
  cases herror : linking.error? with
  | some e => exact .unlinked hload hdry hlinks herror
  | none =>
    generalize hwrite : s.output.write s.project linking.tree = writing
    obtain ⟨tree, result⟩ := writing
    obtain rfl : (s.output.write s.project linking.tree).tree = tree := by rw [hwrite]
    have hresult : (s.output.write s.project linking.tree).result = result := by rw [hwrite]
    cases result with
    | error e => exact .unwritten hload hdry hlinks herror hresult
    | ok file => exact .written hload hdry hlinks herror hresult

theorem ends_runAlong (σ : Workspace.Schedule) (t : FileTree) (cwd : String) (o : Options) :
    Ends σ t cwd o (failureAlong? σ t cwd o) (runAlong σ t cwd o) := by
  unfold runAlong
  cases hload : loadAlong σ t cwd o with
  | error cause =>
    simp only [failureAlong?, hload]
    exact .unloaded hload
  | ok s =>
    cases hdry : o.has .dryRun with
    | true =>
      simp only [failureAlong?, hload, hdry, if_true]
      exact .shown hload hdry
    | false =>
      simp only [Bool.false_eq_true, if_false]
      exact ends_generate hload hdry

theorem ends_run (t : FileTree) (cwd : String) (o : Options) :
    Ends .inOrder t cwd o (failure? t cwd o) (run t cwd o) :=
  ends_runAlong .inOrder t cwd o

theorem isEarly_of_load {e : RunError} {events : List Event}
    (h : loadAlong σ t cwd o = .error (e, events)) : e.isEarly = true := by
  unfold loadAlong at h
  split at h
  · obtain ⟨rfl, -⟩ := Prod.mk.inj (Except.error.inj h)
    rfl
  · dsimp only at h
    split at h
    · obtain ⟨rfl, -⟩ := Prod.mk.inj (Except.error.inj h)
      rfl
    · split at h
      · obtain ⟨rfl, -⟩ := Prod.mk.inj (Except.error.inj h)
        rfl
      · cases h

/-- A run fails exactly if there is an error. -/
theorem Ends.code_eq {e? : Option RunError} (h : Ends σ t cwd o e? out) :
    out.code = if e?.isSome then 1 else 0 := by
  cases h <;> rfl

/-- The error is the last that is reported. -/
theorem Ends.exists_stderr_eq {e : RunError} (h : Ends σ t cwd o (some e) out) :
    ∃ log, out.stderr = log ++ errorLine e := by
  cases h <;> exact ⟨_, rfl⟩

/-- An early error is one of loading, and there is no other outcome to it. -/
theorem Ends.load_eq {e : RunError} (h : Ends σ t cwd o (some e) out)
    (hearly : e.isEarly = true) : ∃ events, loadAlong σ t cwd o = .error (e, events) ∧
      out = ⟨1, "", Log.text (o.has .verbose) events ++ errorLine e, t⟩ := by
  cases h with
  | unloaded hload => exact ⟨_, hload, rfl⟩
  | unlinked => cases hearly
  | unwritten => cases hearly

/-! ## What a run that fails leaves behind -/

/-- What a run that fails at its links or its text leaves stands around the text. -/
theorem Ends.adds {e : RunError} (h : Ends σ t cwd o (some e) out) (hlate : e.isEarly = false) :
    ∃ s, loadAlong σ t cwd o = .ok s ∧
      Adds (s.output.IsScaffold s.built.graph out.tree) t out.tree := by
  cases h with
  | unloaded hload =>
    rw [isEarly_of_load hload] at hlate
    cases hlate
  | unlinked hload _ hlinks =>
    subst hlinks
    exact ⟨_, hload, Output.linkModules_adds _ _ t⟩
  | unwritten hload _ hlinks hlinked herror =>
    subst hlinks
    rw [Output.tree_write_of_error (Output.isDirectory_linkModules hlinked) herror]
    exact ⟨_, hload, Output.linkModules_adds _ _ t⟩

/-- A run that fails writes no file. Unless it has got as far as its links or its text it changes
nothing, and otherwise whatever it adds stands around the text of a project: the directory of the
project and those above it, and planned links to targets that exist. -/
theorem failed_run_writes_no_file {arguments : List String} (hrun : execute t cwd arguments = out)
    (hfail : out.code ≠ 0) :
    (∀ l content, out.tree.get? l = some (.file content) ↔ t.get? l = some (.file content)) ∧
      (out.tree = t ∨ ∃ (o : Options) (e : RunError) (s : Loaded), requestOf arguments = .run o ∧
        failure? t cwd o = some e ∧ e.isEarly = false ∧ load t cwd o = .ok s ∧
        Adds (s.output.IsScaffold s.built.graph out.tree) t out.tree) := by
  have hsame : out.tree = t → ∀ l content,
      out.tree.get? l = some (.file content) ↔ t.get? l = some (.file content) :=
    fun htree l content => htree ▸ Iff.rfl
  unfold execute at hrun
  cases hrequest : requestOf arguments with
  | run o =>
    simp only [hrequest] at hrun
    have hends := ends_run t cwd o
    rw [hrun] at hends
    have hcode := hends.code_eq
    cases hfailure : failure? t cwd o with
    | none =>
      rw [hfailure] at hcode
      exact absurd hcode hfail
    | some e =>
      rw [hfailure] at hends
      cases hearly : e.isEarly with
      | true =>
        obtain ⟨events, -, rfl⟩ := hends.load_eq hearly
        exact ⟨hsame rfl, .inl rfl⟩
      | false =>
        obtain ⟨s, hload, hadds⟩ := hends.adds hearly
        exact ⟨Output.file_iff_of_adds hadds, .inr ⟨o, e, s, rfl, hfailure, hearly, hload, hadds⟩⟩
  | help | version | misuse =>
    simp only [hrequest] at hrun
    subst hrun
    exact ⟨hsame rfl, .inl rfl⟩

/-! ## A run that fails at its text -/

/-- A workspace with a toolchain and its directory, in which something else stands where the text
of the project would go. -/
def occupiedTree : FileTree :=
  ([(["ws"], .directory),
    (["ws", "t.module.toml"],
      .file "[[module]]\nname = \"Tools\"\nkind = \"toolchain\"\n".toUTF8),
    (["ws", "Tools"], .directory),
    (["ws", "Intermediate"], .directory),
    (["ws", "Intermediate", "ProjectFiles"], .directory),
    (["ws", "Intermediate", "ProjectFiles", "CMakeLists.txt"], .directory)] :
      List (Location × Node)).foldl (fun t p => t.put p.1 p.2) .empty

theorem execute_occupied : (execute occupiedTree "/" ["--root", "/ws"]).code ≠ 0 ∧
    (execute occupiedTree "/" ["--root", "/ws"]).tree ≠ occupiedTree := by
  have hview : (execute occupiedTree "/" ["--root", "/ws"]).code = 1 ∧
      (execute occupiedTree "/" ["--root", "/ws"]).tree.get?
        ["ws", "Intermediate", "ProjectFiles", "Tools"] = some (.link "/ws/Tools") := by
    decide +kernel
  obtain ⟨hcode, hlink⟩ := hview
  refine ⟨by rw [hcode]; decide, fun hsame => ?_⟩
  rw [hsame] at hlink
  exact absurd hlink (by decide +kernel)

/-- The link to the toolchain's directory stays, although the run fails. -/
theorem exists_failed_run_with_change : ∃ (t : FileTree) (cwd : String) (arguments : List String),
    (execute t cwd arguments).code ≠ 0 ∧ (execute t cwd arguments).tree ≠ t :=
  ⟨occupiedTree, "/", ["--root", "/ws"], execute_occupied⟩

theorem failed_run_writes_no_file_occupied :
    (execute occupiedTree "/" ["--root", "/ws"]).code ≠ 0 ∧
    (∀ l content, (execute occupiedTree "/" ["--root", "/ws"]).tree.get? l = some (.file content) ↔
      occupiedTree.get? l = some (.file content)) ∧
    ∃ (o : Options) (e : RunError) (s : Loaded), requestOf ["--root", "/ws"] = .run o ∧
      failure? occupiedTree "/" o = some e ∧ e.isEarly = false ∧
      load occupiedTree "/" o = .ok s ∧
      Adds (s.output.IsScaffold s.built.graph (execute occupiedTree "/" ["--root", "/ws"]).tree)
        occupiedTree (execute occupiedTree "/" ["--root", "/ws"]).tree := by
  obtain ⟨hfail, hchange⟩ := execute_occupied
  obtain ⟨hfiles, hsame | hlate⟩ := failed_run_writes_no_file rfl hfail
  · exact absurd hsame hchange
  · exact ⟨hfail, hfiles, hlate⟩

end BuildGraph.CommandLine
