import BuildGraph.CommandLine.Run
import BuildGraph.Proofs.Workspace.Schedules
set_option autoImplicit false

/-!
# Runs along schedules

Whichever of its files come first, a run ends with the same code, shows the same and leaves the
same tree (`runAlong_congr`); what is reported of the files comes in another order. Where there
is no graph the schedule may decide about the reason that is given, but only if more than one
descriptor cannot be read (`Alike`).
-/

namespace BuildGraph.CommandLine

variable {σ : Workspace.Schedule} {t : FileTree} {cwd : String} {o : Options}

/-! ## What comes before the files -/

/-- The root of a run has been found, and the settings below it have been read. -/
structure IsOpened (t : FileTree) (cwd : String) (o : Options) (root : String)
    (settings : Workspace.Settings) : Prop where
  located : (t.locate (Path.join cwd o.root)).toOption.map (·.1.path) = some root
  settings_eq : Workspace.Settings.load t root = .ok settings

namespace IsOpened

variable {root : String} {settings : Workspace.Settings}

theorem exists_locate_eq (h : IsOpened t cwd o root settings) :
    ∃ place, t.locate (Path.join cwd o.root) = .ok place ∧ place.1.path = root := by
  have hlocated := h.located
  cases hlocate : t.locate (Path.join cwd o.root) with
  | error fault =>
    rw [hlocate] at hlocated
    cases hlocated
  | ok place =>
    rw [hlocate] at hlocated
    exact ⟨place, rfl, Option.some.inj hlocated⟩

/-- There is only one root, with one set of settings. -/
theorem unique {root' : String} {settings' : Workspace.Settings}
    (h : IsOpened t cwd o root settings) (h' : IsOpened t cwd o root' settings') :
    root = root' ∧ settings = settings' := by
  obtain rfl := Option.some.inj (h.located.symm.trans h'.located)
  exact ⟨rfl, Except.ok.inj (h.settings_eq.symm.trans h'.settings_eq)⟩

theorem loadAlong_eq_ok (h : IsOpened t cwd o root settings) {b : Built}
    (hgraph : (workspaceOf o root settings).graphAlong σ t settings = .ok b) :
    loadAlong σ t cwd o = .ok ⟨root, workspaceOf o root settings, b⟩ := by
  obtain ⟨place, hlocate, rfl⟩ := h.exists_locate_eq
  simp only [loadAlong, hlocate, h.settings_eq, hgraph]

theorem loadAlong_eq_error (h : IsOpened t cwd o root settings) {f : Failure}
    (hgraph : (workspaceOf o root settings).graphAlong σ t settings = .error f) :
    loadAlong σ t cwd o = .error (.graph f.error, f.events) := by
  obtain ⟨place, hlocate, rfl⟩ := h.exists_locate_eq
  simp only [loadAlong, hlocate, h.settings_eq, hgraph]

end IsOpened

/-- A run gets as far as its files, or fails before them whatever the schedule. -/
theorem isOpened_or_loadAlong_eq_error (t : FileTree) (cwd : String) (o : Options) :
    (∃ root settings, IsOpened t cwd o root settings) ∨
      (∀ root settings, ¬ IsOpened t cwd o root settings) ∧
        ∃ e, ∀ σ, loadAlong σ t cwd o = .error (e, []) := by
  cases hlocate : t.locate (Path.join cwd o.root) with
  | error fault =>
    refine .inr ⟨fun root settings h => ?_, .root o.root fault, fun σ => ?_⟩
    · obtain ⟨place, hplace, -⟩ := h.exists_locate_eq
      rw [hlocate] at hplace
      cases hplace
    · simp only [loadAlong, hlocate]
  | ok place =>
    cases hsettings : Workspace.Settings.load t place.1.path with
    | error e =>
      refine .inr ⟨fun root settings h => ?_, .settings e, fun σ => ?_⟩
      · obtain ⟨place', hplace, rfl⟩ := h.exists_locate_eq
        obtain rfl := Except.ok.inj (hlocate.symm.trans hplace)
        exact absurd (hsettings.symm.trans h.settings_eq) nofun
      · simp only [loadAlong, hlocate, hsettings]
    | ok settings => exact .inl ⟨_, settings, by rw [hlocate]; rfl, hsettings⟩

/-! ## Loading along another schedule -/

/-- The same workspace with the same graph, and with other reports. -/
def Loaded.withEvents (s : Loaded) (events : List Event) : Loaded :=
  { s with built := { s.built with events := events } }

/-- A descriptor of the workspace cannot be read, for a reason. -/
def HasBroken (t : FileTree) (cwd : String) (o : Options) (path : String) (e : Error) : Prop :=
  ∃ root settings, IsOpened t cwd o root settings ∧
    Workspace.IsBroken t (workspaceOf o root settings).root settings.ignored .standard
      (workspaceOf o root settings).context path e

theorem HasBroken.error_eq {path : String} {e e' : Error} (h : HasBroken t cwd o path e)
    (h' : HasBroken t cwd o path e') : e = e' := by
  obtain ⟨root, settings, hopened, hbroken⟩ := h
  obtain ⟨root', settings', hopened', hbroken'⟩ := h'
  obtain ⟨rfl, rfl⟩ := hopened.unique hopened'
  exact hbroken.error_eq hbroken'

/-- How the reasons are related that two runs give for having no graph. -/
inductive Alike (t : FileTree) (cwd : String) (o : Options) : RunError → RunError → Prop
  /-- There is no descriptor that cannot be read, and the reasons are the same. -/
  | same (e : RunError) (h : ∀ path c, ¬ HasBroken t cwd o path c) : Alike t cwd o e e
  /-- Both give the reason for the same descriptor that cannot be read. -/
  | broken {path : String} {e : Error} (h : HasBroken t cwd o path e) :
      Alike t cwd o (.graph e) (.graph e)
  /-- Each gives the reason for another descriptor that cannot be read. -/
  | apart {path path' : String} {e e' : Error} (hne : path ≠ path')
      (h : HasBroken t cwd o path e) (h' : HasBroken t cwd o path' e') :
      Alike t cwd o (.graph e) (.graph e')

theorem alike_of_hasBroken {path path' : String} {e e' : Error} (h : HasBroken t cwd o path e)
    (h' : HasBroken t cwd o path' e') : Alike t cwd o (.graph e) (.graph e') := by
  by_cases hpath : path = path'
  · subst hpath
    exact h.error_eq h' ▸ .broken h
  · exact .apart hpath h h'

/-- What is loaded is the same along every schedule. -/
theorem exists_loadAlong_eq_ok {s : Loaded} (h : loadAlong σ t cwd o = .ok s)
    (τ : Workspace.Schedule) : ∃ events, loadAlong τ t cwd o = .ok (s.withEvents events) := by
  obtain ⟨root, settings, hopened⟩ | ⟨-, e, hall⟩ := isOpened_or_loadAlong_eq_error t cwd o
  · cases hgraph : (workspaceOf o root settings).graphAlong σ t settings with
    | error f =>
      rw [hopened.loadAlong_eq_error hgraph] at h
      cases h
    | ok b =>
      rw [hopened.loadAlong_eq_ok hgraph] at h
      obtain rfl := Except.ok.inj h
      obtain ⟨events, hτ⟩ := Workspace.exists_graphAlong_eq_ok hgraph τ
      exact ⟨events, hopened.loadAlong_eq_ok hτ⟩
  · rw [hall σ] at h
    cases h

/-- Where nothing is loaded along one schedule nothing is along any other, for a reason like the
first. -/
theorem exists_loadAlong_eq_error {e : RunError} {events : List Event}
    (h : loadAlong σ t cwd o = .error (e, events)) (τ : Workspace.Schedule) :
    ∃ e' events', loadAlong τ t cwd o = .error (e', events') ∧ Alike t cwd o e e' := by
  obtain ⟨root, settings, hopened⟩ | ⟨hnone, e₀, hall⟩ := isOpened_or_loadAlong_eq_error t cwd o
  · cases hgraph : (workspaceOf o root settings).graphAlong σ t settings with
    | ok b =>
      rw [hopened.loadAlong_eq_ok hgraph] at h
      cases h
    | error f =>
      rw [hopened.loadAlong_eq_error hgraph] at h
      obtain ⟨rfl, rfl⟩ := Prod.mk.inj (Except.error.inj h)
      obtain ⟨f', hτ, hreasons⟩ := Workspace.exists_graphAlong_eq_error hgraph τ
      refine ⟨.graph f'.error, f'.events, hopened.loadAlong_eq_error hτ, ?_⟩
      obtain ⟨hall, heq⟩ | ⟨path, path', hbroken, hbroken'⟩ := hreasons
      · refine heq ▸ .same _ fun path c hhas => ?_
        obtain ⟨root', settings', hopened', hbroken⟩ := hhas
        obtain ⟨rfl, rfl⟩ := hopened.unique hopened'
        exact hbroken.not_isReadable (hall path hbroken.mem)
      · exact alike_of_hasBroken ⟨root, settings, hopened, hbroken⟩
          ⟨root, settings, hopened, hbroken'⟩
  · rw [hall σ] at h
    obtain ⟨rfl, rfl⟩ := Prod.mk.inj (Except.error.inj h)
    refine ⟨e₀, [], hall τ, .same e₀ fun path c hhas => ?_⟩
    obtain ⟨root, settings, hopened, -⟩ := hhas
    exact hnone root settings hopened

/-- Whichever descriptor cannot be read, a run that starts with it has no graph for that reason. -/
theorem HasBroken.exists_loadAlong_startingWith {path : String} {e : Error}
    (h : HasBroken t cwd o path e) :
    ∃ events, loadAlong (.startingWith path) t cwd o = .error (.graph e, events) := by
  obtain ⟨root, settings, hopened, hbroken⟩ := h
  exact ⟨_, hopened.loadAlong_eq_error hbroken.graphAlong_startingWith⟩

/-! ## Running along another schedule -/

/-- What is reported of the files has no part in what is made of the graph. -/
theorem generate_withEvents (t : FileTree) (o : Options) (s : Loaded) (events : List Event) :
    (generate t o (s.withEvents events)).code = (generate t o s).code ∧
      (generate t o (s.withEvents events)).stdout = (generate t o s).stdout ∧
      (generate t o (s.withEvents events)).tree = (generate t o s).tree := by
  have houtput : (s.withEvents events).output = s.output := rfl
  have hgraph : (s.withEvents events).built.graph = s.built.graph := rfl
  have hproject : (s.withEvents events).project = s.project := rfl
  unfold generate
  rw [houtput, hgraph, hproject]
  dsimp only
  split
  · exact ⟨rfl, rfl, rfl⟩
  · split <;> exact ⟨rfl, rfl, rfl⟩

/-- A run ends with the same code, shows the same and leaves the same tree along every schedule. -/
theorem runAlong_congr (σ τ : Workspace.Schedule) (t : FileTree) (cwd : String) (o : Options) :
    (runAlong σ t cwd o).code = (runAlong τ t cwd o).code ∧
      (runAlong σ t cwd o).stdout = (runAlong τ t cwd o).stdout ∧
      (runAlong σ t cwd o).tree = (runAlong τ t cwd o).tree := by
  unfold runAlong
  cases hload : loadAlong τ t cwd o with
  | error cause =>
    obtain ⟨e, events⟩ := cause
    obtain ⟨e', events', hload', -⟩ := exists_loadAlong_eq_error hload σ
    simp only [hload', and_self]
  | ok s =>
    obtain ⟨events, hload'⟩ := exists_loadAlong_eq_ok hload σ
    simp only [hload']
    split
    · exact ⟨rfl, rfl, rfl⟩
    · exact generate_withEvents t o s events

end BuildGraph.CommandLine
