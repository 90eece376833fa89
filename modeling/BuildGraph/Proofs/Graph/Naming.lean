import BuildGraph.Graph.Outline
import BuildGraph.Proofs.Graph.Built
set_option autoImplicit false

/-!
# Modules by their target names

Of the names of a module a build reads the target name alone. A module stripped of its qualifier,
with the target name as its custom name, is therefore as good as the module itself: a build of such
modules takes the same steps, and yields a graph with the same entries, cycles and outline.
-/

namespace BuildGraph

/-! ## Stripped modules -/

/-- The module known by its target name alone: that is its custom name, and it has no qualifier. -/
def Module.byTarget (m : Module) : Module :=
  { m with qualifier := none, customName := some m.targetName }

/-- The resolver of the modules by their target names. -/
def Resolver.byTarget (r : Resolver) : Resolver :=
  { r with modules := r.modules.map Module.byTarget }

/-- The graph of the modules by their target names. -/
def Graph.byTarget (g : Graph) : Graph :=
  { g with modules := g.modules.map Module.byTarget }

/-- What was built, with the modules by their target names. -/
def Built.byTarget (b : Built) : Built :=
  { b with graph := b.graph.byTarget }

theorem Graph.numbered_map (ms : List Module) (φ : Module → Module) :
    numbered (ms.map φ) = (numbered ms).map (Prod.map id φ) := by
  unfold numbered
  rw [List.length_map, List.zip_map_right]

/-! ## Steps of a build -/

namespace Resolver

variable {r : Resolver} {m : Module} {id : ModuleId}

theorem firstActive?_map_byTarget (ms : List Module) (name : String) :
    firstActive? (ms.map Module.byTarget) name = firstActive? ms name := by
  unfold firstActive?
  rw [List.findIdx?_map]
  rfl

@[simp] theorem resolve_byTarget (r : Resolver) (name : String) :
    r.byTarget.resolve name = r.resolve name := by
  unfold resolve byTarget
  rw [firstActive?_map_byTarget, List.any_map]
  rfl

theorem edges_byTarget (r : Resolver) (id : ModuleId) (m : Module) :
    r.byTarget.edges id m.byTarget = r.edges id m := by
  unfold edges
  simp only [funext r.resolve_byTarget]
  unfold byTarget
  rw [List.length_map]
  rfl

theorem add_byTarget (r : Resolver) (p : Progress) (id : ModuleId) (m : Module) :
    p.add r.byTarget id m.byTarget = p.add r id m := by
  unfold Progress.add Progress.addActive
  rw [edges_byTarget]
  simp only [omissions, firstMissing?, placeholders, resolve_byTarget]
  rfl

theorem gather_byTarget (r : Resolver) : r.byTarget.gather = r.gather := by
  unfold gather
  change (Graph.numbered (r.modules.map Module.byTarget)).foldlM _ _ = _
  rw [Graph.numbered_map, List.foldlM_map]
  exact congrArg (fun step => List.foldlM step Progress.initial (Graph.numbered r.modules))
    (funext fun p => funext fun q => add_byTarget r p q.1 q.2)

end Resolver

namespace Graph

theorem targetNameOf_map_byTarget (ms : List Module) (id : ModuleId) :
    targetNameOf (ms.map Module.byTarget) id = targetNameOf ms id := by
  unfold targetNameOf
  rw [List.getElem?_map]
  cases ms[id]? <;> rfl

theorem entryOf?_map_byTarget (ms : List Module) (entries : Entries) (id : ModuleId) :
    entryOf? (ms.map Module.byTarget) entries id = entryOf? ms entries id := by
  unfold entryOf?
  rw [targetNameOf_map_byTarget]

theorem successors_map_byTarget (ms : List Module) (entries : Entries) :
    successors (ms.map Module.byTarget) entries = successors ms entries := by
  funext id
  unfold successors
  rw [entryOf?_map_byTarget]

theorem owners_map_byTarget (ms : List Module) (entries : Entries) :
    owners (ms.map Module.byTarget) entries = owners ms entries := by
  unfold owners
  simp only [entryOf?_map_byTarget, List.length_map]

theorem cycleText_map_byTarget (ms : List Module) (cycle : List ModuleId) :
    cycleText (ms.map Module.byTarget) cycle = cycleText ms cycle := by
  unfold cycleText
  rw [funext (targetNameOf_map_byTarget ms)]

end Graph

namespace Resolver

theorem cyclesAfter_byTarget (r : Resolver) (p : Progress) :
    r.byTarget.cyclesAfter p = r.cyclesAfter p := by
  unfold cyclesAfter byTarget
  simp only [Graph.successors_map_byTarget, Graph.owners_map_byTarget, List.length_map]

theorem outcome_byTarget (r : Resolver) (p : Progress) (c : Candidate) :
    r.byTarget.outcome p c = (r.outcome p c).byTarget := by
  unfold outcome
  simp only [cyclesAfter_byTarget]
  unfold byTarget
  simp only [Graph.cycleText_map_byTarget]
  rfl

theorem finish_byTarget (r : Resolver) (p : Progress) :
    r.byTarget.finish p = (r.finish p).map Built.byTarget := by
  rw [finish_eq, finish_eq, cyclesAfter_byTarget]
  cases p.toolchain? with
  | none => rfl
  | some c =>
    dsimp only
    rw [outcome_byTarget]
    unfold byTarget
    simp only [Graph.cycleText_map_byTarget]
    split <;> rfl

end Resolver

/-- A build of modules by their target names is the build of the modules, by their target names. -/
theorem Graph.build_map_byTarget (libraries : List String) (strict : Bool) (ms : List Module) :
    Graph.build libraries strict (ms.map Module.byTarget) =
      (Graph.build libraries strict ms).map Built.byTarget := by
  have hresolver : Resolver.ofModules libraries strict (ms.map Module.byTarget) =
      (Resolver.ofModules libraries strict ms).byTarget := by
    unfold Resolver.ofModules Resolver.byTarget
    rw [List.flatMap_map]
    rfl
  unfold Graph.build
  dsimp only
  rw [hresolver, Resolver.gather_byTarget]
  cases (Resolver.ofModules libraries strict ms).gather with
  | error f => rfl
  | ok p => exact Resolver.finish_byTarget _ p

/-- Of two lists with the same modules by target name both can be built or neither, and what is
built is the same by target name. -/
theorem Graph.exists_build_of_byTarget {libraries : List String} {strict : Bool}
    {ms ns : List Module} {b : Built} (h : ns.map Module.byTarget = ms.map Module.byTarget)
    (hb : Graph.build libraries strict ms = .ok b) :
    ∃ b', Graph.build libraries strict ns = .ok b' ∧ b'.byTarget = b.byTarget := by
  have hmap := Graph.build_map_byTarget libraries strict ns
  rw [h, Graph.build_map_byTarget, hb] at hmap
  cases hns : Graph.build libraries strict ns with
  | error f =>
    rw [hns] at hmap
    cases hmap
  | ok b' =>
    rw [hns] at hmap
    exact ⟨b', rfl, (Except.ok.inj hmap).symm⟩

/-! ## Outlines -/

namespace Graph

@[simp] theorem dependencies_byTarget (g : Graph) : g.byTarget.dependencies = g.dependencies :=
  successors_map_byTarget g.modules g.entries

@[simp] theorem systemNames_byTarget (g : Graph) : g.byTarget.systemNames = g.systemNames := by
  funext id
  unfold systemNames byTarget
  rw [List.getElem?_map]
  cases g.modules[id]? <;> rfl

@[simp] theorem children_byTarget (g : Graph) : g.byTarget.children = g.children := by
  funext id
  unfold children
  rw [systemNames_byTarget]
  unfold byTarget
  rw [entryOf?_map_byTarget]

@[simp] theorem hasChildren_byTarget (g : Graph) : g.byTarget.hasChildren = g.hasChildren := by
  funext id
  unfold hasChildren
  rw [dependencies_byTarget, systemNames_byTarget]

end Graph

namespace Outline

theorem expand_byTarget (g : Graph) (depth : Nat) : expand g.byTarget depth = expand g depth := by
  induction depth with
  | zero => rfl
  | succ depth ih =>
    funext around way o id
    unfold expand
    rw [Graph.children_byTarget, Graph.hasChildren_byTarget, ih]

theorem ofGraph_byTarget (g : Graph) : ofGraph g.byTarget = ofGraph g := by
  have hmargin : g.byTarget.marginCandidates = g.marginCandidates := by
    unfold Graph.marginCandidates Graph.byTarget
    rw [Graph.owners_map_byTarget]
  have hroot : addRoot g.byTarget = addRoot g := by
    funext o id
    unfold addRoot
    rw [expand_byTarget]
    unfold Graph.byTarget
    rw [List.length_map]
  unfold ofGraph
  rw [hmargin, hroot]

theorem label_byTarget (g : Graph) (id : ModuleId) : label g.byTarget id = label g id := by
  unfold label Graph.byTarget
  rw [List.getElem?_map]
  cases g.modules[id]? <;> rfl

theorem lineText_byTarget (g : Graph) (line : OutlineLine) :
    lineText g.byTarget line = lineText g line := by
  unfold lineText itemText
  simp only [label_byTarget]

end Outline

/-- The outline names the modules by their targets. -/
theorem Graph.outline_byTarget (g : Graph) : g.byTarget.outline = g.outline := by
  unfold Graph.outline Outline.text
  rw [Outline.ofGraph_byTarget, funext (Outline.lineText_byTarget g)]

end BuildGraph
