import BuildGraph.Proofs.Graph.Toolchain
set_option autoImplicit false

/-!
# Built graphs

What a build that succeeds has established about its graph, `Graph.IsGraphOf`, and the two ways in
which a build can still fail once all modules have been taken in. The steps of a graph are stated
beside it: a step leads from a module that owns the entry under its own target name to a module
among the dependencies of that entry.
-/

namespace BuildGraph

/-! ## Steps -/

namespace Graph

variable {g : Graph} {a b : ModuleId} {ds : List ModuleId}

/-- The module owns the entry under its own target name. -/
def Owns (g : Graph) (a : ModuleId) : Prop :=
  ∃ ds, g.entries.find? (g.targetName a) = some (.owned a ds)

/-- A step from a module that owns its entry to a module that the entry depends on. -/
def Step (g : Graph) (a b : ModuleId) : Prop :=
  ∃ ds, g.entries.find? (g.targetName a) = some (.owned a ds) ∧ b ∈ ds

theorem Step.owns (h : g.Step a b) : g.Owns a := by
  obtain ⟨ds, hfind, -⟩ := h
  exact ⟨ds, hfind⟩

/-- The entry that counts for a module is the one under its target name, if it is its own. -/
theorem entryOf?_eq_some_iff {modules : List Module} {entries : Entries} {e : Entry} :
    entryOf? modules entries a = some e ↔
      entries.find? (targetNameOf modules a) = some e ∧ e.owner? = some a := by
  unfold entryOf?
  rw [Option.filter_eq_some_iff, beq_iff_eq]

theorem owner?_eq_some_iff {e : Entry} : e.owner? = some a ↔ e = .owned a e.dependencies := by
  cases e with
  | owned id ds => simp [Entry.owner?, Entry.dependencies]
  | system => simp [Entry.owner?]

theorem mem_dependencies_iff : b ∈ g.dependencies a ↔ g.Step a b := by
  unfold dependencies successors Step targetName
  constructor
  · intro h
    cases he : entryOf? g.modules g.entries a with
    | none =>
      rw [he] at h
      exact absurd h List.not_mem_nil
    | some e =>
      rw [he] at h
      obtain ⟨hfind, howner⟩ := entryOf?_eq_some_iff.1 he
      exact ⟨e.dependencies, hfind.trans (congrArg some (owner?_eq_some_iff.1 howner)), h⟩
  · rintro ⟨ds, hfind, hb⟩
    rw [entryOf?_eq_some_iff.2 ⟨hfind, rfl⟩]
    exact hb

theorem dependencies_of_find? (h : g.entries.find? (g.targetName a) = some (.owned a ds)) :
    g.dependencies a = ds := by
  unfold dependencies successors
  rw [entryOf?_eq_some_iff.2 ⟨h, rfl⟩]
  rfl

theorem entryOf?_of_not_owns (h : ¬ g.Owns a) : entryOf? g.modules g.entries a = none := by
  cases he : entryOf? g.modules g.entries a with
  | none => rfl
  | some e =>
    obtain ⟨hfind, howner⟩ := entryOf?_eq_some_iff.1 he
    rw [owner?_eq_some_iff.1 howner] at hfind
    exact absurd ⟨_, hfind⟩ h

theorem dependencies_of_not_owns (h : ¬ g.Owns a) : g.dependencies a = [] := by
  unfold dependencies successors
  rw [entryOf?_of_not_owns h]

theorem mem_owners_iff : a ∈ owners g.modules g.entries ↔ a < g.modules.length ∧ g.Owns a := by
  unfold owners Owns targetName
  rw [List.mem_filter, List.mem_range, Option.isSome_iff_exists]
  constructor
  · rintro ⟨hlt, e, he⟩
    obtain ⟨hfind, howner⟩ := entryOf?_eq_some_iff.1 he
    exact ⟨hlt, e.dependencies, hfind.trans (congrArg some (owner?_eq_some_iff.1 howner))⟩
  · rintro ⟨hlt, ds, hfind⟩
    exact ⟨hlt, .owned a ds, entryOf?_eq_some_iff.2 ⟨hfind, rfl⟩⟩

theorem pairwise_owners (g : Graph) : (owners g.modules g.entries).Pairwise (· < ·) := by
  unfold owners
  exact List.pairwise_lt_range.filter _

end Graph

/-! ## The end of a build -/

namespace Resolver

variable {r : Resolver} {p : Progress}

/-- The cycles among some modules after all of them have been taken in. -/
def cyclesAfter (r : Resolver) (p : Progress) : List (List ModuleId) :=
  findCycles (Graph.successors r.modules p.entries) r.modules.length
    (Graph.owners r.modules p.entries)

/-- The outcome of a build that has chosen a toolchain. -/
def outcome (r : Resolver) (p : Progress) (c : Candidate) : Built where
  graph :=
    { modules := r.modules
      entries := p.entries
      toolchain := c.id
      settings := c.settings
      collisions := p.collisions
      cycles := r.cyclesAfter p }
  events := p.events ++
    (r.cyclesAfter p).map fun cycle => .dependencyCycle (Graph.cycleText r.modules cycle)

/-- The last step of a build by the toolchain that was chosen and the cycles that were found. -/
theorem finish_eq (r : Resolver) (p : Progress) :
    r.finish p =
      match p.toolchain? with
      | none => .error ⟨.noToolchain, p.events⟩
      | some c =>
        match r.strict, r.cyclesAfter p with
        | true, first :: _ =>
          .error ⟨.dependencyCycle (Graph.cycleText r.modules first), p.events⟩
        | _, _ => .ok (r.outcome p c) := by
  unfold finish
  cases p.toolchain? with
  | none => rfl
  | some c =>
    unfold outcome cyclesAfter
    generalize findCycles (Graph.successors r.modules p.entries) r.modules.length
      (Graph.owners r.modules p.entries) = cycles
    cases r.strict <;> cases cycles <;> rfl

theorem of_finish_eq_ok {b : Built} (h : r.finish p = .ok b) :
    ∃ c, p.toolchain? = some c ∧ b = r.outcome p c := by
  rw [finish_eq] at h
  cases hc : p.toolchain? with
  | none =>
    rw [hc] at h
    cases h
  | some c =>
    rw [hc] at h
    dsimp only at h
    split at h
    · cases h
    · exact ⟨c, rfl, (Except.ok.inj h).symm⟩

end Resolver

/-! ## What a build establishes -/

/-- The graph of the modules of a resolver: each name stands for what the modules make of it, and
all dependencies have been resolved. -/
structure Graph.IsGraphOf (g : Graph) (r : Resolver) : Prop where
  modules_eq : g.modules = r.modules
  find?_eq : ∀ name, g.entries.find? name = r.entryAfter r.modules name
  resolves : ∀ m ∈ r.modules, m.isActive = true → r.firstMissing? m = none
  toolchain_active : ∃ m, r.modules[g.toolchain]? = some m ∧ m.isActive = true ∧
    m.toolchain = some g.settings
  collisions_eq : g.collisions = takeovers r.modules
  cycles_eq : g.cycles = findCycles g.dependencies r.modules.length (owners g.modules g.entries)

theorem Graph.build_eq (libraries : List String) (strict : Bool) (modules : List Module) :
    Graph.build libraries strict modules =
      match (Resolver.ofModules libraries strict modules).after modules with
      | .ok p => (Resolver.ofModules libraries strict modules).finish p
      | .error f => .error f := by
  unfold Graph.build
  dsimp only
  rw [Resolver.gather_eq_after]
  change ((Resolver.ofModules libraries strict modules).after modules >>= _) = _
  cases (Resolver.ofModules libraries strict modules).after modules <;> rfl

theorem Graph.of_build_eq_ok {libraries : List String} {strict : Bool} {modules : List Module}
    {b : Built} (h : Graph.build libraries strict modules = .ok b) :
    ∃ p c, (Resolver.ofModules libraries strict modules).after modules = .ok p ∧
      p.toolchain? = some c ∧ b = (Resolver.ofModules libraries strict modules).outcome p c := by
  rw [Graph.build_eq] at h
  cases hp : (Resolver.ofModules libraries strict modules).after modules with
  | error f =>
    rw [hp] at h
    cases h
  | ok p =>
    rw [hp] at h
    obtain ⟨c, hc, hb⟩ := Resolver.of_finish_eq_ok h
    exact ⟨p, c, rfl, hc, hb⟩

/-- A build that succeeds yields the graph of its modules. -/
theorem Graph.isGraphOf_of_build {libraries : List String} {strict : Bool} {modules : List Module}
    {b : Built} (h : Graph.build libraries strict modules = .ok b) :
    b.graph.IsGraphOf (Resolver.ofModules libraries strict modules) := by
  obtain ⟨p, c, hp, hc, rfl⟩ := Graph.of_build_eq_ok h
  exact
    { modules_eq := rfl
      find?_eq := Resolver.find?_after hp
      resolves := Resolver.firstMissing?_after hp
      toolchain_active := (Resolver.isChoice_after hp hc).carries
      collisions_eq := Resolver.collisions_after hp
      cycles_eq := rfl }

/-- The toolchain of a built graph is the first one of the highest priority, and the settings of the
graph are those that it carries. -/
theorem Graph.isChoice_of_build {libraries : List String} {strict : Bool} {modules : List Module}
    {b : Built} (h : Graph.build libraries strict modules = .ok b) :
    IsChoice modules b.graph.toolchain b.graph.settings := by
  obtain ⟨p, c, hp, hc, rfl⟩ := Graph.of_build_eq_ok h
  exact Resolver.isChoice_after hp hc

namespace Graph.IsGraphOf

variable {g : Graph} {r : Resolver} {a b : ModuleId} {name : String}

/-- A module owns the entry of its target name if it is the last active one of that name, and its
dependencies are what it asks for. -/
theorem find?_eq_owned_iff (h : g.IsGraphOf r) {ds : List ModuleId} :
    g.entries.find? name = some (.owned a ds) ↔
      ∃ m, lastNamed? r.modules name = some (a, m) ∧ ds = r.edges a m := by
  rw [h.find?_eq]
  unfold Resolver.entryAfter
  cases lastNamed? r.modules name with
  | none => dsimp only; split <;> simp
  | some found =>
    obtain ⟨id, m⟩ := found
    simp only [Option.some.injEq, Entry.owned.injEq, Prod.mk.injEq]
    constructor
    · rintro ⟨rfl, rfl⟩
      exact ⟨m, ⟨rfl, rfl⟩, rfl⟩
    · rintro ⟨x, ⟨rfl, rfl⟩, rfl⟩
      exact ⟨rfl, rfl⟩

/-- The names with an entry are the target names of active modules and the placeholders. -/
theorem exists_find?_iff (h : g.IsGraphOf r) :
    (∃ e, g.entries.find? name = some e) ↔
      (∃ m ∈ r.modules, m.isActive = true ∧ m.targetName = name) ∨
        ∃ m ∈ r.modules, m.isActive = true ∧ name ∈ r.placeholders m := by
  rw [h.find?_eq, ← hasActive_iff, ← lastNamed?_isSome]
  unfold Resolver.entryAfter
  cases lastNamed? r.modules name with
  | some found => simp
  | none => simp

theorem lt_of_owns (h : g.IsGraphOf r) (ha : g.Owns a) : a < r.modules.length := by
  obtain ⟨ds, hfind⟩ := ha
  obtain ⟨m, hlast, -⟩ := h.find?_eq_owned_iff.1 hfind
  exact (List.getElem?_eq_some_iff.1 (of_lastNamed? hlast).1).1

theorem lt_of_step (h : g.IsGraphOf r) (hab : g.Step a b) : b < r.modules.length := by
  obtain ⟨ds, hfind, hb⟩ := hab
  obtain ⟨m, -, rfl⟩ := h.find?_eq_owned_iff.1 hfind
  exact Resolver.lt_of_mem_edges hb

theorem ne_of_step (h : g.IsGraphOf r) (hab : g.Step a b) : a ≠ b := by
  obtain ⟨ds, hfind, hb⟩ := hab
  obtain ⟨m, -, rfl⟩ := h.find?_eq_owned_iff.1 hfind
  exact (Resolver.mem_edges_iff.1 hb).1.symm

end Graph.IsGraphOf

namespace Graph

variable {g : Graph} {r : Resolver} {x : ModuleId}

theorem mem_owners_iff_owns (hg : g.IsGraphOf r) :
    x ∈ owners g.modules g.entries ↔ g.Owns x := by
  rw [mem_owners_iff, and_iff_right_iff_imp, hg.modules_eq]
  exact hg.lt_of_owns

theorem lt_of_mem_owners (hg : g.IsGraphOf r) :
    ∀ x ∈ owners g.modules g.entries, x < r.modules.length :=
  fun _ hx => hg.lt_of_owns ((mem_owners_iff_owns hg).1 hx)

theorem lt_of_mem_dependencies (hg : g.IsGraphOf r) :
    ∀ x, ∀ y ∈ g.dependencies x, y < r.modules.length :=
  fun _ _ hy => hg.lt_of_step (mem_dependencies_iff.1 hy)

end Graph

/-! ## Small builds -/

/-- A module with only a name and the names that it depends on. -/
def Module.plain (name : String) (needs : List String) : Module :=
  { (default : Module) with name, dependencies := ⟨needs, []⟩ }

/-- A toolchain with only a name and the names that it depends on. -/
def Module.plainToolchain (name : String) (needs : List String) : Module :=
  { Module.plain name needs with toolchain := some .default }

/-- A result whose view is known is a success with that view. -/
theorem exists_ok_of_map_eq_some {ε α β : Type} {e : Except ε α} {view : α → β} {v : β}
    (h : e.toOption.map view = some v) : ∃ a, e = .ok a ∧ view a = v := by
  cases e with
  | error f => cases h
  | ok a => exact ⟨a, rfl, Option.some.inj h⟩

end BuildGraph
