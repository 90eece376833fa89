import BuildGraph.Proofs.Graph.Rearrangement
set_option autoImplicit false

/-!
# How a build ends

A build that is not strict ends in one of three ways. It stops at the first dependency that stands
for nothing, or it lacks a toolchain, or it yields a graph. Each of the three has its condition on
the modules and the libraries, and an unresolved dependency counts before a missing toolchain.

Which dependency is the first is a matter of the order alone: the modules as they were found, and
in a module the exposed dependencies before the internal ones (`FirstUnresolved`). Nothing that a
later module declares can make an earlier one of them stand for nothing.
-/

namespace BuildGraph

variable {libraries : List String} {ms : List Module} {m x : Module} {name other : String}
  {k j : ModuleId} {strict : Bool} {f : Failure}

/-! ## Unresolved dependencies -/

/-- A name stands for nothing: it is no library, and no module answers to it, be it active or
not. -/
structure Unresolved (libraries : List String) (ms : List Module) (name : String) : Prop where
  unregistered : ¬ Registered libraries ms name
  unanswered : ∀ m ∈ ms, m.answersTo name = false

/-- Some active module has a dependency that stands for nothing. -/
def HasUnresolved (libraries : List String) (ms : List Module) : Prop :=
  ∃ m ∈ ms, m.isActive = true ∧ ∃ name ∈ m.dependencies.all, Unresolved libraries ms name

instance : Decidable (Registered libraries ms name) := inferInstanceAs (Decidable (_ ∨ _))

instance : Decidable (Unresolved libraries ms name) :=
  decidable_of_iff (¬ Registered libraries ms name ∧ ∀ m ∈ ms, m.answersTo name = false)
    ⟨fun h => ⟨h.1, h.2⟩, fun h => ⟨h.unregistered, h.unanswered⟩⟩

instance : Decidable (HasUnresolved libraries ms) :=
  inferInstanceAs (Decidable (∃ m ∈ ms, _ ∧ ∃ name ∈ m.dependencies.all, _))

/-- The first dependency that stands for nothing: no active module in front has any, and in the
module itself it is the first one, exposed dependencies before internal ones. -/
structure FirstUnresolved (libraries : List String) (ms : List Module) (k : ModuleId) (m : Module)
    (name : String) : Prop where
  stands : ms[k]? = some m
  active : m.isActive = true
  before : ∀ x ∈ ms.take k, x.isActive = true →
    ∀ other ∈ x.dependencies.all, ¬ Unresolved libraries ms other
  first : Unresolved libraries ms name ∧ ∃ front back,
    m.dependencies.exposed ++ m.dependencies.internal = front ++ name :: back ∧
      ∀ other ∈ front, ¬ Unresolved libraries ms other

namespace Resolver

theorem resolve_ofModules_eq_missing_iff :
    (ofModules libraries strict ms).resolve name = .missing ↔ Unresolved libraries ms name := by
  rw [resolve_eq_missing_iff, mem_libraries_ofModules_iff]
  exact ⟨fun h => ⟨h.1, h.2⟩, fun h => ⟨h.unregistered, h.unanswered⟩⟩

theorem firstMissing?_ofModules_eq_none_iff :
    (ofModules libraries strict ms).firstMissing? m = none ↔
      ∀ name ∈ m.dependencies.all, ¬ Unresolved libraries ms name := by
  simp only [firstMissing?_eq_none_iff, ne_eq, resolve_ofModules_eq_missing_iff]

theorem firstMissing?_ofModules_eq_some_iff :
    (ofModules libraries strict ms).firstMissing? m = some name ↔
      Unresolved libraries ms name ∧ ∃ front back,
        m.dependencies.exposed ++ m.dependencies.internal = front ++ name :: back ∧
          ∀ other ∈ front, ¬ Unresolved libraries ms other := by
  unfold firstMissing? Scoped.all
  simp only [List.find?_eq_some_iff_append, beq_iff_eq, resolve_ofModules_eq_missing_iff,
    Bool.not_eq_true', beq_eq_false_iff_ne, ne_eq, exists_and_right]

/-- A build stops at the first dependency that stands for nothing. -/
theorem stopsAt_ofModules_iff :
    (ofModules libraries strict ms).StopsAt k m name ↔ FirstUnresolved libraries ms k m name := by
  unfold StopsAt
  simp only [firstMissing?_ofModules_eq_none_iff, firstMissing?_ofModules_eq_some_iff]
  constructor
  · intro h
    obtain ⟨hm, hactive, hfirst, hbefore⟩ := h
    exact ⟨hm, hactive, hbefore, hfirst⟩
  · intro h
    exact ⟨h.stands, h.active, h.first, h.before⟩

end Resolver

namespace FirstUnresolved

theorem mem_all (h : FirstUnresolved libraries ms k m name) : name ∈ m.dependencies.all := by
  obtain ⟨-, front, back, hsplit, -⟩ := h.first
  rw [Scoped.all, hsplit]
  exact List.mem_append_right front List.mem_cons_self

theorem hasUnresolved (h : FirstUnresolved libraries ms k m name) : HasUnresolved libraries ms :=
  ⟨m, List.mem_of_getElem? h.stands, h.active, name, h.mem_all, h.first.1⟩

/-- No other first one stands in front. -/
theorem not_lt (h : FirstUnresolved libraries ms k m name)
    (h' : FirstUnresolved libraries ms j x other) : ¬ j < k := by
  intro hlt
  have hx : x ∈ ms.take k := by
    refine List.mem_iff_getElem?.2 ⟨j, ?_⟩
    rw [List.getElem?_take_of_lt hlt]
    exact h'.stands
  exact h.before x hx h'.active other h'.mem_all h'.first.1

theorem unique (h : FirstUnresolved libraries ms k m name)
    (h' : FirstUnresolved libraries ms j x other) : m = x ∧ name = other := by
  obtain rfl : k = j :=
    Nat.le_antisymm (Nat.le_of_not_lt (h.not_lt h')) (Nat.le_of_not_lt (h'.not_lt h))
  obtain rfl := Option.some.inj (h.stands.symm.trans h'.stands)
  have hname : (Resolver.ofModules libraries false ms).firstMissing? m = some name :=
    Resolver.firstMissing?_ofModules_eq_some_iff.2 h.first
  have hother : (Resolver.ofModules libraries false ms).firstMissing? m = some other :=
    Resolver.firstMissing?_ofModules_eq_some_iff.2 h'.first
  exact ⟨rfl, Option.some.inj (hname.symm.trans hother)⟩

end FirstUnresolved

/-! ## The three ways -/

namespace Graph

theorem hasUnresolved_iff : HasUnresolved libraries ms ↔
    ¬ ∀ m ∈ ms, m.isActive = true →
      (Resolver.ofModules libraries false ms).firstMissing? m = none := by
  unfold HasUnresolved
  simp only [Resolver.firstMissing?_ofModules_eq_none_iff]
  push Not
  rfl

/-- The error of a build tells whether a dependency is unresolved, and which is the first. -/
theorem error_of_build (h : Graph.build libraries false ms = .error f) :
    (∃ k m name, FirstUnresolved libraries ms k m name ∧
        f.error = .unresolvedDependency name m.targetName) ∨
      (¬ HasUnresolved libraries ms ∧ (∀ m ∈ ms, m.isActive = true → m.toolchain = none) ∧
        f.error = .noToolchain) := by
  rcases of_build_eq_error h with ⟨m, -, -, name, -, herror⟩ | ⟨hresolves, hnone, herror⟩
  · obtain ⟨k, hfails, -⟩ := build_strict_of_error h
    rcases hfails with ⟨hother, -⟩ | ⟨x, other, hstops, hother⟩
    · cases herror.symm.trans hother
    · exact .inl ⟨k, x, other, Resolver.stopsAt_ofModules_iff.1 hstops, hother⟩
  · exact .inr ⟨fun hhas => hasUnresolved_iff.1 hhas hresolves, hnone, herror⟩

/-- Where a dependency is unresolved, the build fails at the first one. -/
theorem exists_firstUnresolved (h : HasUnresolved libraries ms) :
    ∃ f k m name, Graph.build libraries false ms = .error f ∧
      FirstUnresolved libraries ms k m name ∧
        f.error = .unresolvedDependency name m.targetName := by
  cases hbuild : Graph.build libraries false ms with
  | ok b => exact absurd (exists_build_iff.1 ⟨b, hbuild⟩).1 (hasUnresolved_iff.1 h)
  | error f =>
    rcases error_of_build hbuild with ⟨k, m, name, hfirst, herror⟩ | ⟨hnot, -, -⟩
    · exact ⟨f, k, m, name, rfl, hfirst, herror⟩
    · exact absurd h hnot

/-- The build fails with an unresolved dependency exactly at the first one. -/
theorem exists_unresolvedDependency_iff {target : String} :
    (∃ f, Graph.build libraries false ms = .error f ∧
        f.error = .unresolvedDependency name target) ↔
      ∃ k m, FirstUnresolved libraries ms k m name ∧ target = m.targetName := by
  constructor
  · intro h
    obtain ⟨f, hf, herror⟩ := h
    rcases error_of_build hf with ⟨k, m, other, hfirst, hother⟩ | ⟨-, -, hother⟩
    · obtain ⟨rfl, rfl⟩ := Error.unresolvedDependency.inj (herror.symm.trans hother)
      exact ⟨k, m, hfirst, rfl⟩
    · cases herror.symm.trans hother
  · intro h
    obtain ⟨k, m, hfirst, rfl⟩ := h
    obtain ⟨f, j, x, other, hf, hother, herror⟩ := exists_firstUnresolved hfirst.hasUnresolved
    obtain ⟨rfl, rfl⟩ := hfirst.unique hother
    exact ⟨f, hf, herror⟩

/-- The build lacks a toolchain exactly if nothing else is wrong and no active module carries
settings. -/
theorem exists_noToolchain_iff :
    (∃ f, Graph.build libraries false ms = .error f ∧ f.error = .noToolchain) ↔
      ¬ HasUnresolved libraries ms ∧ ∀ m ∈ ms, m.isActive = true → m.toolchain = none := by
  constructor
  · intro h
    obtain ⟨f, hf, herror⟩ := h
    rcases error_of_build hf with ⟨k, m, name, -, hother⟩ | ⟨hnot, hnone, -⟩
    · cases herror.symm.trans hother
    · exact ⟨hnot, hnone⟩
  · intro h
    obtain ⟨hnot, hnone⟩ := h
    cases hbuild : Graph.build libraries false ms with
    | ok b =>
      obtain ⟨-, m, hm, hactive, hcarries⟩ := exists_build_iff.1 ⟨b, hbuild⟩
      exact absurd (hnone m hm hactive) hcarries
    | error f =>
      rcases error_of_build hbuild with ⟨k, m, name, hfirst, -⟩ | ⟨-, -, herror⟩
      · exact absurd hfirst.hasUnresolved hnot
      · exact ⟨f, rfl, herror⟩

/-- How a build ends that is not strict. It fails with an unresolved dependency exactly if an active
module has a dependency that is no library and to which no module answers; the error names the
first one and the module that has it. Otherwise it lacks a toolchain exactly if no active module
carries settings, and otherwise it yields a graph. -/
theorem build_outcome (libraries : List String) (ms : List Module) :
    ((∃ f name target, Graph.build libraries false ms = .error f ∧
        f.error = .unresolvedDependency name target) ↔ HasUnresolved libraries ms) ∧
    (∀ name target, (∃ f, Graph.build libraries false ms = .error f ∧
        f.error = .unresolvedDependency name target) ↔
      ∃ k m, FirstUnresolved libraries ms k m name ∧ target = m.targetName) ∧
    ((∃ f, Graph.build libraries false ms = .error f ∧ f.error = .noToolchain) ↔
      ¬ HasUnresolved libraries ms ∧ ∀ m ∈ ms, m.isActive = true → m.toolchain = none) ∧
    ((∃ b, Graph.build libraries false ms = .ok b) ↔
      ¬ HasUnresolved libraries ms ∧ ∃ m ∈ ms, m.isActive = true ∧ m.toolchain ≠ none) := by
  refine ⟨⟨?_, ?_⟩, fun _ _ => exists_unresolvedDependency_iff, exists_noToolchain_iff, ?_⟩
  · intro h
    obtain ⟨f, name, target, hf, herror⟩ := h
    obtain ⟨k, m, hfirst, -⟩ := exists_unresolvedDependency_iff.1 ⟨f, hf, herror⟩
    exact hfirst.hasUnresolved
  · intro h
    obtain ⟨f, k, m, name, hf, -, herror⟩ := exists_firstUnresolved h
    exact ⟨f, name, m.targetName, hf, herror⟩
  · rw [exists_build_iff, hasUnresolved_iff, not_not]

/-- A program that asks for a later module, for a library that only an excluded module registers,
for that module itself, and for two names that stand for nothing. -/
def unfinished : List Module :=
  [{ Module.plain "App" [] with dependencies := ⟨["Late", "zlib", "Dxc"], ["Ghost", "Phantom"]⟩ },
    .plain "Late" ["Other"],
    { (Module.plain "Dxc" []).exclude with systemLibraries := ["zlib"] }]

/-- The first name that stands for nothing counts before the missing toolchain. -/
theorem build_outcome_unfinished :
    (∃ f, Graph.build [] false unfinished = .error f ∧
      f.error = .unresolvedDependency "Ghost" "App") ∧
    (∃ f, Graph.build ["Ghost", "Phantom", "Other"] false unfinished = .error f ∧
      f.error = .noToolchain) ∧
    ∃ b, Graph.build ["Ghost", "Phantom", "Other"] false
      (unfinished ++ [.plainToolchain "Tools" []]) = .ok b := by
  refine ⟨?_, ?_, ?_⟩
  · refine ((build_outcome [] unfinished).2.1 "Ghost" "App").2 ⟨0, _, ⟨rfl, rfl, ?_, ?_⟩, rfl⟩
    · exact List.forall_mem_nil _
    · exact ⟨by decide, ["Late", "zlib", "Dxc"], ["Phantom"], rfl, by decide⟩
  · exact (build_outcome _ unfinished).2.2.1.2 (by decide)
  · exact (build_outcome _ _).2.2.2.2 (by decide)

end Graph

end BuildGraph
