import BuildGraph.Proofs.CommandLine.Failure
import BuildGraph.Proofs.CommandLine.Schedules
set_option autoImplicit false

/-!
# Dry runs and other runs

A dry run and a run with the same options load the same workspace, each along a schedule of its
own. Where there is no graph both fail, and for the same reason unless more than one descriptor
cannot be read: then each gives the reason for one of these. Otherwise the one shows the text
that the other writes, unless the other fails at its links or at its text.
-/

namespace BuildGraph.CommandLine

open FileTree CMake

variable {σ τ : Workspace.Schedule} {t : FileTree} {cwd : String} {o o' : Options} {e : RunError}
  {events : List Event}

/-- Options that differ from others in nothing but that the run is dry. -/
structure IsRehearsalOf (o o' : Options) : Prop where
  dry : o.has .dryRun = true
  wet : o'.has .dryRun = false
  root_eq : o.root = o'.root
  has_eq : ∀ f, f ≠ .dryRun → o.has f = o'.has f

theorem isRehearsalOf_cons (root : String) {flags : List Flag} (h : .dryRun ∉ flags) :
    IsRehearsalOf ⟨root, .dryRun :: flags⟩ ⟨root, flags⟩ where
  dry := List.contains_iff_mem.2 List.mem_cons_self
  wet := Bool.eq_false_iff.2 fun hdry => h (List.contains_iff_mem.1 hdry)
  root_eq := rfl
  has_eq f hf := by
    rw [Options.has, List.contains_cons, beq_false_of_ne hf, Bool.false_or, Options.has]

/-- Whether a run is dry has no part in loading. -/
theorem IsRehearsalOf.loadAlong_eq (h : IsRehearsalOf o o') (σ : Workspace.Schedule) (t : FileTree)
    (cwd : String) : loadAlong σ t cwd o = loadAlong σ t cwd o' := by
  have hworkspace : workspaceOf o = workspaceOf o' := by
    funext root settings
    simp only [workspaceOf, h.has_eq .editor nofun, h.has_eq .console nofun, h.has_eq .strict nofun]
  unfold loadAlong
  rw [h.root_eq, hworkspace]

/-! ## Runs without a graph -/

/-- A run along a schedule fails with an error before it has a graph: the error is the last that is
reported, nothing is shown and nothing is changed. -/
structure FailsEarly (σ : Workspace.Schedule) (t : FileTree) (cwd : String) (o : Options)
    (e : RunError) : Prop where
  early : e.isEarly = true
  failure_eq : failureAlong? σ t cwd o = some e
  code_eq : (runAlong σ t cwd o).code = 1
  stdout_eq : (runAlong σ t cwd o).stdout = ""
  exists_stderr_eq : ∃ log, (runAlong σ t cwd o).stderr = log ++ errorLine e
  tree_eq : (runAlong σ t cwd o).tree = t

theorem failureAlong?_of_loadAlong (h : loadAlong σ t cwd o = .error (e, events)) :
    failureAlong? σ t cwd o = some e := by
  simp only [failureAlong?, h]

theorem failsEarly_of_loadAlong (h : loadAlong σ t cwd o = .error (e, events)) :
    FailsEarly σ t cwd o e := by
  have hrun : runAlong σ t cwd o = ⟨1, "", Log.text (o.has .verbose) events ++ errorLine e, t⟩ := by
    simp only [runAlong, h]
  refine ⟨isEarly_of_load h, failureAlong?_of_loadAlong h, ?_, ?_, ?_, ?_⟩
  all_goals rw [hrun]
  exact ⟨_, rfl⟩

/-- An early error is one of loading. -/
theorem exists_loadAlong_eq_error_of_failureAlong? (h : failureAlong? σ t cwd o = some e)
    (hearly : e.isEarly = true) : ∃ events, loadAlong σ t cwd o = .error (e, events) := by
  obtain ⟨events, hload, -⟩ := (h ▸ ends_runAlong σ t cwd o).load_eq hearly
  exact ⟨events, hload⟩

/-- Where one of the runs fails early both do, for reasons that are alike. -/
theorem IsRehearsalOf.exists_failsEarly (h : IsRehearsalOf o o') (hearly : e.isEarly = true)
    (hfails : failureAlong? σ t cwd o = some e ∨ failureAlong? τ t cwd o' = some e) :
    ∃ e₁ e₂, FailsEarly σ t cwd o e₁ ∧ FailsEarly τ t cwd o' e₂ ∧ Alike t cwd o e₁ e₂ := by
  have hload : ∃ e₁ events, loadAlong σ t cwd o = .error (e₁, events) := by
    obtain hfails | hfails := hfails
    · obtain ⟨events, hload⟩ := exists_loadAlong_eq_error_of_failureAlong? hfails hearly
      exact ⟨e, events, hload⟩
    · obtain ⟨events, hload⟩ := exists_loadAlong_eq_error_of_failureAlong? hfails hearly
      obtain ⟨e₁, events₁, hload₁, -⟩ :=
        exists_loadAlong_eq_error (h.loadAlong_eq τ t cwd ▸ hload) σ
      exact ⟨e₁, events₁, hload₁⟩
  obtain ⟨e₁, events₁, hload₁⟩ := hload
  obtain ⟨e₂, events₂, hload₂, halike⟩ := exists_loadAlong_eq_error hload₁ τ
  rw [h.loadAlong_eq τ t cwd] at hload₂
  exact ⟨e₁, e₂, failsEarly_of_loadAlong hload₁, failsEarly_of_loadAlong hload₂, halike⟩

/-- Whichever two descriptors cannot be read, the one run may fail for the one and the other for the
other. -/
theorem IsRehearsalOf.failsEarly_startingWith {path path' : String} {e e' : Error}
    (h : IsRehearsalOf o o') (hbroken : HasBroken t cwd o path e)
    (hbroken' : HasBroken t cwd o path' e') :
    FailsEarly (.startingWith path) t cwd o (.graph e) ∧
      FailsEarly (.startingWith path') t cwd o' (.graph e') := by
  obtain ⟨events, hload⟩ := hbroken.exists_loadAlong_startingWith
  obtain ⟨events', hload'⟩ := hbroken'.exists_loadAlong_startingWith
  rw [h.loadAlong_eq] at hload'
  exact ⟨failsEarly_of_loadAlong hload, failsEarly_of_loadAlong hload'⟩

/-- Along the same schedule an early failure is the same for both runs. -/
theorem IsRehearsalOf.runAlong_eq (h : IsRehearsalOf o o') (hfails : FailsEarly σ t cwd o e) :
    runAlong σ t cwd o' = runAlong σ t cwd o := by
  obtain ⟨events, hload⟩ :=
    exists_loadAlong_eq_error_of_failureAlong? hfails.failure_eq hfails.early
  simp only [runAlong, h.loadAlong_eq σ t cwd ▸ hload, hload, h.has_eq .verbose nofun]

/-! ## Runs with a graph -/

/-- What is known of a run that has a graph and is not dry: it fails at its links or at its text,
or the text is in its file. -/
theorem late_or_readText {s : Loaded} (hload : loadAlong σ t cwd o = .ok s)
    (hwet : o.has .dryRun = false) :
    (∃ e, failureAlong? σ t cwd o = some e ∧ e.isEarly = false ∧ (runAlong σ t cwd o).code = 1) ∨
      failureAlong? σ t cwd o = none ∧ (runAlong σ t cwd o).code = 0 ∧
        (runAlong σ t cwd o).tree.readText s.output.file = .ok s.project := by
  have hends := ends_runAlong σ t cwd o
  generalize failureAlong? σ t cwd o = e?, runAlong σ t cwd o = out at hends ⊢
  cases hends with
  | unloaded hnone =>
    rw [hload] at hnone
    cases hnone
  | shown _ hdry =>
    rw [hwet] at hdry
    cases hdry
  | unlinked => exact .inl ⟨_, rfl, rfl, rfl⟩
  | unwritten => exact .inl ⟨_, rfl, rfl, rfl⟩
  | written hload' _ hlinks hlinked hok =>
    obtain rfl := Except.ok.inj (hload.symm.trans hload')
    subst hlinks
    obtain ⟨-, l, hlocate, -⟩ :=
      Output.tree_write_of_ok (Output.isDirectory_linkModules hlinked) hok
    exact .inr ⟨rfl, rfl, readText_of_locate hlocate⟩

/-- A run that succeeds has a graph. -/
theorem exists_loadAlong_eq_ok_of_code (hcode : (runAlong σ t cwd o).code = 0) :
    ∃ s, loadAlong σ t cwd o = .ok s := by
  cases hload : loadAlong σ t cwd o with
  | error cause =>
    rw [(failsEarly_of_loadAlong hload).code_eq] at hcode
    cases hcode
  | ok s => exact ⟨s, rfl⟩

/-- A dry run changes nothing, and when it succeeds it shows the text of the project and nothing
else; a run with the same options that is not dry then fails at its links or at its text, or the
same text is read from the file of the project afterwards. If one of them fails before that, both
do without a change, and for the same reason or each for that of another descriptor that cannot
be read. Each of the two reads the descriptors along a schedule of its own. -/
theorem dry_run_shows_what_run_writes (h : IsRehearsalOf o o') (σ τ : Workspace.Schedule)
    (t : FileTree) (cwd : String) :
    (runAlong σ t cwd o).tree = t ∧
    ((runAlong σ t cwd o).code = 0 → ∃ s events, loadAlong σ t cwd o = .ok s ∧
      loadAlong τ t cwd o' = .ok (s.withEvents events) ∧
      (runAlong σ t cwd o).stdout = s.project ∧
      ((∃ e, failureAlong? τ t cwd o' = some e ∧ e.isEarly = false ∧
          (runAlong τ t cwd o').code = 1) ∨
        (runAlong τ t cwd o').code = 0 ∧
          (runAlong τ t cwd o').tree.readText s.output.file = .ok (runAlong σ t cwd o).stdout)) ∧
    ∀ e, e.isEarly = true →
      (failureAlong? σ t cwd o = some e ∨ failureAlong? τ t cwd o' = some e) →
      ∃ e₁ e₂, FailsEarly σ t cwd o e₁ ∧ FailsEarly τ t cwd o' e₂ ∧ Alike t cwd o e₁ e₂ := by
  refine ⟨tree_runAlong_of_dryRun h.dry, fun hcode => ?_, fun e => h.exists_failsEarly⟩
  obtain ⟨s, hload⟩ := exists_loadAlong_eq_ok_of_code hcode
  obtain ⟨events, hload'⟩ := exists_loadAlong_eq_ok hload τ
  rw [h.loadAlong_eq τ t cwd] at hload'
  have hshown : runAlong σ t cwd o = dryRun t o s := by
    simp only [runAlong, hload, h.dry, if_true]
  refine ⟨s, events, hload, hload', by rw [hshown]; rfl, ?_⟩
  obtain hlate | ⟨-, hsuccess, hread⟩ := late_or_readText hload' h.wet
  · exact .inl hlate
  · exact .inr ⟨hsuccess, by rw [hshown]; exact hread⟩

/-! ## Small workspaces -/

/-- A workspace with nothing but a toolchain. -/
def bareTree : FileTree :=
  ([(["ws"], .directory),
    (["ws", "t.module.toml"],
      .file "[[module]]\nname = \"Tools\"\nkind = \"toolchain\"\n".toUTF8)] :
      List (Location × Node)).foldl (fun t p => t.put p.1 p.2) .empty

/-- What a dry run with an outline shows of it is what the other run writes. -/
theorem dry_run_shows_what_run_writes_bare :
    IsRehearsalOf ⟨"/ws", [.dryRun, .outline]⟩ ⟨"/ws", [.outline]⟩ ∧
    (run bareTree "/" ⟨"/ws", [.dryRun, .outline]⟩).tree = bareTree ∧
    ∃ s, load bareTree "/" ⟨"/ws", [.dryRun, .outline]⟩ = .ok s ∧
      (run bareTree "/" ⟨"/ws", [.dryRun, .outline]⟩).stdout = s.project ∧
      (run bareTree "/" ⟨"/ws", [.outline]⟩).tree.readText s.output.file =
        .ok (run bareTree "/" ⟨"/ws", [.dryRun, .outline]⟩).stdout := by
  have hrehearsal : IsRehearsalOf ⟨"/ws", [.dryRun, .outline]⟩ ⟨"/ws", [.outline]⟩ :=
    isRehearsalOf_cons "/ws" (by decide)
  have hcodes : (run bareTree "/" ⟨"/ws", [.dryRun, .outline]⟩).code = 0 ∧
      (run bareTree "/" ⟨"/ws", [.outline]⟩).code = 0 := by
    decide +kernel
  obtain ⟨htree, hshows, -⟩ :=
    dry_run_shows_what_run_writes hrehearsal .inOrder .inOrder bareTree "/"
  obtain ⟨s, events, hload, -, hstdout, ⟨e, -, -, hfails⟩ | ⟨-, hread⟩⟩ := hshows hcodes.1
  · rw [show (runAlong .inOrder bareTree "/" ⟨"/ws", [.outline]⟩).code = 0 from hcodes.2] at hfails
    cases hfails
  · exact ⟨hrehearsal, htree, s, hload, hstdout, hread⟩

/-- A workspace with two descriptors that name a kind of module each that there is not. -/
def misspeltTree : FileTree :=
  ([(["ws"], .directory),
    (["ws", "a.module.toml"], .file "[[module]]\nname = \"A\"\nkind = \"gadget\"\n".toUTF8),
    (["ws", "b.module.toml"], .file "[[module]]\nname = \"B\"\nkind = \"gizmo\"\n".toUTF8)] :
      List (Location × Node)).foldl (fun t p => t.put p.1 p.2) .empty

/-- A result whose error is known in words fails with such an error. -/
theorem exists_error_of_message {α : Type} {x : Except Error α} {text : String}
    (h : (x.mapError Error.message).map (fun _ => ()) = .error text) :
    ∃ e, x = .error e ∧ e.message = text := by
  cases x with
  | error e => exact ⟨e, rfl, Except.error.inj h⟩
  | ok a => cases h

theorem readFile_misspelt :
    Workspace.descriptorFiles misspeltTree "/ws/" Workspace.Settings.default.ignored =
      ["/ws/a.module.toml", "/ws/b.module.toml"] ∧
    ((Workspace.readFile misspeltTree .standard ⟨false, .unix⟩ "/ws/a.module.toml").mapError
      Error.message).map (fun _ => ()) = .error "Unknown module kind 'gadget' for module 'A'" ∧
    ((Workspace.readFile misspeltTree .standard ⟨false, .unix⟩ "/ws/b.module.toml").mapError
      Error.message).map (fun _ => ()) = .error "Unknown module kind 'gizmo' for module 'B'" := by
  decide +kernel

theorem exists_hasBroken_misspelt : ∃ e e', e ≠ e' ∧
    HasBroken misspeltTree "/" ⟨"/ws", [.dryRun]⟩ "/ws/a.module.toml" e ∧
    HasBroken misspeltTree "/" ⟨"/ws", [.dryRun]⟩ "/ws/b.module.toml" e' := by
  have hopened : IsOpened misspeltTree "/" ⟨"/ws", [.dryRun]⟩ "/ws" .default :=
    ⟨by decide +kernel, Workspace.Settings.load_of_not_exists (by decide +kernel)⟩
  obtain ⟨hfiles, hread, hread'⟩ := readFile_misspelt
  obtain ⟨e, hread, hmessage⟩ := exists_error_of_message hread
  obtain ⟨e', hread', hmessage'⟩ := exists_error_of_message hread'
  refine ⟨e, e', fun heq => ?_, ⟨_, _, hopened, ?_, hread⟩, ⟨_, _, hopened, ?_, hread'⟩⟩
  · rw [heq, hmessage'] at hmessage
    exact absurd hmessage (by decide)
  · exact hfiles ▸ List.mem_cons_self
  · exact hfiles ▸ List.mem_cons_of_mem _ List.mem_cons_self

/-- A dry run and a run with the same options may fail for different reasons. -/
theorem exists_runs_with_different_errors :
    ∃ (o o' : Options) (σ τ : Workspace.Schedule) (t : FileTree) (cwd : String) (e e' : RunError),
      IsRehearsalOf o o' ∧ FailsEarly σ t cwd o e ∧ FailsEarly τ t cwd o' e' ∧ e ≠ e' := by
  have hrehearsal : IsRehearsalOf ⟨"/ws", [.dryRun]⟩ ⟨"/ws", []⟩ :=
    isRehearsalOf_cons "/ws" (by decide)
  obtain ⟨e, e', hne, hbroken, hbroken'⟩ := exists_hasBroken_misspelt
  obtain ⟨hfails, hfails'⟩ := hrehearsal.failsEarly_startingWith hbroken hbroken'
  exact ⟨_, _, _, _, _, _, _, _, hrehearsal, hfails, hfails',
    fun heq => hne (RunError.graph.inj heq)⟩

end BuildGraph.CommandLine
