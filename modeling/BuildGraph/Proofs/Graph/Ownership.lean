import BuildGraph.Proofs.Graph.Entries
import BuildGraph.Proofs.Graph.Strictness
set_option autoImplicit false

/-!
# Dependencies on repeated names

A dependency name leads to the first active module that answers to it, and a target name is kept by
the last active module that has it. Where a target name is repeated the two rules part: a dependency
then leads to a module that has lost its name, so that it owns no entry and no step leads on from
it. Without repeated names, and so in every strict build, each dependency owns its entry.
-/

namespace BuildGraph

variable {ms : List Module} {name : String} {j k : ModuleId} {m x : Module}

/-! ## The last module of a name -/

theorem LastNamed.unique (h : LastNamed ms name k m) (h' : LastNamed ms name j x) :
    k = j ∧ m = x := by
  obtain ⟨hm, hactive, hname, hlater⟩ := h
  obtain ⟨hx, hactive', hname', hlater'⟩ := h'
  have hle : k ≤ j := by
    apply Nat.le_of_not_lt
    intro hlt
    exact hlater' k m hlt hm hactive hname
  have hge : j ≤ k := by
    apply Nat.le_of_not_lt
    intro hlt
    exact hlater j x hlt hx hactive' hname'
  obtain rfl := Nat.le_antisymm hle hge
  exact ⟨rfl, Option.some.inj (hm.symm.trans hx)⟩

theorem lastNamed?_eq_some_iff : lastNamed? ms name = some (k, m) ↔ LastNamed ms name k m := by
  constructor
  · exact lastNamed_of_lastNamed?
  · intro h
    have hnamed : hasActive ms name = true :=
      hasActive_iff.2 ⟨m, List.mem_of_getElem? h.1, h.2.1, h.2.2.1⟩
    rw [← lastNamed?_isSome, Option.isSome_iff_exists] at hnamed
    obtain ⟨⟨j, x⟩, hlast⟩ := hnamed
    obtain ⟨rfl, rfl⟩ := h.unique (lastNamed_of_lastNamed? hlast)
    exact hlast

/-- A later active module has the target name of the module. -/
def Superseded (ms : List Module) (k : ModuleId) : Prop :=
  ∃ j x y, k < j ∧ ms[k]? = some x ∧ ms[j]? = some y ∧ y.isActive = true ∧
    y.targetName = x.targetName

theorem Superseded.repeats (h : Superseded ms k) (hm : ms[k]? = some m)
    (hactive : m.isActive = true) : Repeats ms := by
  obtain ⟨j, x, y, hkj, hx, hy, hyactive, hname⟩ := h
  obtain rfl := Option.some.inj (hm.symm.trans hx)
  exact ⟨k, j, m, y, hkj, hm, hy, hactive, hyactive, hname.symm⟩

/-- An active module is the last of its name unless a later one has the name too. -/
theorem lastNamed_targetName_iff (hm : ms[k]? = some m) (hactive : m.isActive = true) :
    LastNamed ms m.targetName k m ↔ ¬ Superseded ms k := by
  constructor
  · intro hlast hsuperseded
    obtain ⟨j, x, y, hkj, hx, hy, hyactive, hname⟩ := hsuperseded
    obtain rfl := Option.some.inj (hm.symm.trans hx)
    exact hlast.2.2.2 j y hkj hy hyactive hname
  · intro hnot
    refine ⟨hm, hactive, rfl, ?_⟩
    intro j y hkj hy hyactive hname
    exact hnot ⟨j, m, y, hkj, hm, hy, hyactive, hname⟩

namespace Graph

variable {g : Graph} {r : Resolver} {e : Entry}

/-! ## Owners among the dependencies -/

theorem owns_iff_lastNamed (hg : g.IsGraphOf r) (hm : r.modules[k]? = some m) :
    g.Owns k ↔ LastNamed r.modules m.targetName k m := by
  have hname : g.targetName k = m.targetName := by
    unfold targetName targetNameOf
    rw [hg.modules_eq, hm]
  unfold Owns
  simp only [hname, hg.find?_eq_owned_iff, lastNamed?_eq_some_iff]
  constructor
  · intro h
    obtain ⟨ds, x, hlast, -⟩ := h
    obtain rfl := Option.some.inj (hm.symm.trans hlast.1)
    exact hlast
  · intro hlast
    exact ⟨_, m, hlast, rfl⟩

/-- A dependency of an entry is the first active module that answers to a name which the owner of
the entry depends on. -/
theorem firstAnswering_of_mem_dependencies (hg : g.IsGraphOf r)
    (hfind : g.entries.find? name = some e) (hk : k ∈ e.dependencies) :
    ∃ id m, e.owner? = some id ∧ r.modules[id]? = some m ∧
      ∃ d ∈ m.dependencies.all, FirstAnswering r.modules d k := by
  cases e with
  | system => exact absurd hk List.not_mem_nil
  | owned id ds =>
    obtain ⟨m, hlast, rfl⟩ := hg.find?_eq_owned_iff.1 hfind
    have hedge := Resolver.mem_edges_iff_firstAnswering.1 hk
    exact ⟨id, m, rfl, (of_lastNamed? hlast).1, hedge.2⟩

theorem owns_iff_not_superseded (hg : g.IsGraphOf r) (hk : FirstAnswering r.modules name k) :
    g.Owns k ↔ ¬ Superseded r.modules k := by
  obtain ⟨⟨m, hm, hactive, -⟩, -⟩ := hk
  rw [owns_iff_lastNamed hg hm, lastNamed_targetName_iff hm hactive]

theorem owns_of_collisions_eq_nil (hg : g.IsGraphOf r) (hnone : g.collisions = [])
    (hk : FirstAnswering r.modules name k) : g.Owns k := by
  rw [owns_iff_not_superseded hg hk]
  intro hsuperseded
  obtain ⟨⟨m, hm, hactive, -⟩, -⟩ := hk
  rw [hg.collisions_eq, takeovers_eq_nil_iff] at hnone
  exact hnone (hsuperseded.repeats hm hactive)

/-- In a built graph a dependency of an entry is the first active module that answers to a name
which the owner of the entry depends on. It owns the entry under its own target name exactly if no
later active module has that name, so always if there are no collisions and in a strict build. -/
theorem dependency_owns_iff {libraries : List String} {strict : Bool} {modules : List Module}
    {b : Built} (h : Graph.build libraries strict modules = .ok b) :
    (∀ p ∈ b.graph.entries, ∀ k ∈ p.2.dependencies,
      (∃ id m, p.2.owner? = some id ∧ modules[id]? = some m ∧
        ∃ d ∈ m.dependencies.all, FirstAnswering modules d k) ∧
      (b.graph.Owns k ↔ ¬ Superseded modules k)) ∧
    (b.graph.collisions = [] →
      ∀ p ∈ b.graph.entries, ∀ k ∈ p.2.dependencies, b.graph.Owns k) ∧
    (strict = true → ∀ p ∈ b.graph.entries, ∀ k ∈ p.2.dependencies, b.graph.Owns k) := by
  have hg := isGraphOf_of_build h
  have hfind : ∀ p ∈ b.graph.entries, b.graph.entries.find? p.1 = some p.2 := by
    intro p hp
    exact (distinct_of_build h).find?_eq_some_iff.2 hp
  have hanswers : ∀ p ∈ b.graph.entries, ∀ k ∈ p.2.dependencies,
      ∃ id m, p.2.owner? = some id ∧ modules[id]? = some m ∧
        ∃ d ∈ m.dependencies.all, FirstAnswering modules d k := by
    intro p hp k hk
    exact firstAnswering_of_mem_dependencies hg (hfind p hp) hk
  have howns : b.graph.collisions = [] →
      ∀ p ∈ b.graph.entries, ∀ k ∈ p.2.dependencies, b.graph.Owns k := by
    intro hnone p hp k hk
    obtain ⟨id, m, -, -, d, -, hfirst⟩ := hanswers p hp k hk
    exact owns_of_collisions_eq_nil hg hnone hfirst
  refine ⟨?_, howns, ?_⟩
  · intro p hp k hk
    obtain ⟨id, m, howner, hm, d, hd, hfirst⟩ := hanswers p hp k hk
    exact ⟨⟨id, m, howner, hm, d, hd, hfirst⟩, owns_iff_not_superseded hg hfirst⟩
  · intro hstrict
    subst hstrict
    exact howns (of_build_strict_eq_ok h).2.1

/-! ## A dependency on a module that lost its name -/

/-- A toolchain that depends on a name which two modules have. -/
def overtaken : List Module :=
  [.plainToolchain "t" ["a"], .plain "a" [], .plain "a" []]

theorem exists_build_overtaken : ∃ b, Graph.build [] false overtaken = .ok b ∧
    ("t", .owned 0 [1]) ∈ b.graph.entries := by
  have hview : (Graph.build [] false overtaken).toOption.map (fun b => b.graph.entries) =
      some [("t", .owned 0 [1]), ("a", .owned 2 [])] := by
    decide
  obtain ⟨b, hb, hentries⟩ := exists_ok_of_map_eq_some hview
  refine ⟨b, hb, ?_⟩
  rw [hentries]
  exact List.mem_cons_self

/-- An entry may depend on a module that does not own the entry under its own target name. -/
theorem exists_dependency_without_entry :
    ∃ b, Graph.build [] false overtaken = .ok b ∧
      ∃ p ∈ b.graph.entries, ∃ k ∈ p.2.dependencies, ¬ b.graph.Owns k := by
  obtain ⟨b, hb, htoolchain⟩ := exists_build_overtaken
  refine ⟨b, hb, _, htoolchain, 1, List.mem_cons_self, ?_⟩
  intro howns
  have hlast := (owns_iff_lastNamed (isGraphOf_of_build hb) (k := 1) rfl).1 howns
  exact hlast.2.2.2 2 _ (by decide) rfl rfl rfl

/-- The toolchain depends on the first of the two modules, which the second one supersedes. -/
theorem dependency_owns_iff_overtaken :
    ∃ b, Graph.build [] false overtaken = .ok b ∧ ("t", .owned 0 [1]) ∈ b.graph.entries ∧
      (∃ id m, (Entry.owned 0 [1]).owner? = some id ∧ overtaken[id]? = some m ∧
        ∃ d ∈ m.dependencies.all, FirstAnswering overtaken d 1) ∧
      Superseded overtaken 1 ∧ ¬ b.graph.Owns 1 ∧ b.graph.collisions ≠ [] := by
  obtain ⟨b, hb, htoolchain⟩ := exists_build_overtaken
  obtain ⟨hall, hnone, -⟩ := dependency_owns_iff hb
  obtain ⟨hfirst, howns⟩ := hall _ htoolchain 1 List.mem_cons_self
  have hsuperseded : Superseded overtaken 1 := ⟨2, _, _, by decide, rfl, rfl, rfl, rfl⟩
  refine ⟨b, hb, htoolchain, hfirst, hsuperseded, fun h => howns.1 h hsuperseded, ?_⟩
  intro hempty
  exact howns.1 (hnone hempty _ htoolchain 1 List.mem_cons_self) hsuperseded

end Graph

end BuildGraph
