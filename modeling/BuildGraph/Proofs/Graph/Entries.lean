import BuildGraph.Proofs.Graph.Built
set_option autoImplicit false

/-!
# Which names have an entry

The entries of a built graph, said by the modules and the registered libraries alone. A target name
of active modules belongs to the last of them, and any other name has an entry only as a library
that an active module asks for and no active module answers to. The two kinds of names cannot
meet: a name is a placeholder only if no active module answers to it, so that the order in which
entries and placeholders were put in is of no account.
-/

namespace BuildGraph

/-! ## One entry for a name -/

namespace Entries

variable {es : Entries} {name : String} {e : Entry}

/-- No two entries have one name. -/
def Distinct (es : Entries) : Prop :=
  es.Pairwise fun p q => p.1 ≠ q.1

theorem fst_eq_or_mem_of_mem_put {p : String × Entry} (h : p ∈ put es name e) :
    p.1 = name ∨ p ∈ es := by
  induction es with
  | nil =>
    obtain rfl := List.mem_singleton.1 h
    exact .inl rfl
  | cons q es ih =>
    obtain ⟨k, d⟩ := q
    unfold put at h
    by_cases hk : k = name
    · rw [if_pos hk] at h
      rcases List.mem_cons.1 h with rfl | h
      · exact .inl rfl
      · exact .inr (List.mem_cons_of_mem _ h)
    · rw [if_neg hk] at h
      rcases List.mem_cons.1 h with rfl | h
      · exact .inr List.mem_cons_self
      · exact (ih h).imp_right (List.mem_cons_of_mem _)

theorem Distinct.put (h : es.Distinct) (name : String) (e : Entry) : (es.put name e).Distinct := by
  induction es with
  | nil => exact List.pairwise_singleton _ _
  | cons q es ih =>
    obtain ⟨k, d⟩ := q
    obtain ⟨hk, hes⟩ := List.pairwise_cons.1 h
    unfold Entries.put
    by_cases hname : k = name
    · rw [if_pos hname]
      subst hname
      exact List.pairwise_cons.2 ⟨hk, hes⟩
    · rw [if_neg hname]
      refine List.pairwise_cons.2 ⟨fun p hp => ?_, ih hes⟩
      rcases fst_eq_or_mem_of_mem_put hp with hp | hp
      · rw [hp]
        exact hname
      · exact hk p hp

theorem Distinct.addSystem (h : es.Distinct) (name : String) : (es.addSystem name).Distinct := by
  unfold Entries.addSystem
  cases es.find? name with
  | some e => exact h
  | none => exact h.put name .system

theorem Distinct.foldl_addSystem (h : es.Distinct) (names : List String) :
    (names.foldl Entries.addSystem es).Distinct := by
  induction names generalizing es with
  | nil => exact h
  | cons name names ih => exact ih (h.addSystem name)

/-- Where no two entries have one name, each of them is the one that is found. -/
theorem Distinct.find?_eq_some_iff (h : es.Distinct) : es.find? name = some e ↔ (name, e) ∈ es :=
  Lookup.lookup_eq_some_iff_mem h

end Entries

theorem Resolver.distinct_after {r : Resolver} {pre : List Module} {p : Progress}
    (h : r.after pre = .ok p) : p.entries.Distinct := by
  refine after_induction (motive := fun _ p => p.entries.Distinct) .nil ?_ h
  intro pre m p q _ ih hadd
  cases hactive : m.isActive with
  | false =>
    rw [Progress.add_of_inactive hactive] at hadd
    obtain rfl := Except.ok.inj hadd
    exact ih
  | true =>
    rw [(Progress.added_of_add hactive hadd).entries_eq]
    exact (ih.foldl_addSystem _).put _ _

theorem Graph.distinct_of_build {libraries : List String} {strict : Bool} {modules : List Module}
    {b : Built} (h : Graph.build libraries strict modules = .ok b) : b.graph.entries.Distinct := by
  obtain ⟨p, c, hp, -, rfl⟩ := Graph.of_build_eq_ok h
  exact Resolver.distinct_after hp

/-! ## Owners and edges -/

/-- The module is the last active one with a target name. -/
def LastNamed (ms : List Module) (name : String) (id : ModuleId) (m : Module) : Prop :=
  ms[id]? = some m ∧ m.isActive = true ∧ m.targetName = name ∧
    ∀ k x, id < k → ms[k]? = some x → x.isActive = true → x.targetName ≠ name

/-- The module is the first active one that answers to a name. -/
def FirstAnswering (ms : List Module) (name : String) (id : ModuleId) : Prop :=
  (∃ m, ms[id]? = some m ∧ m.isActive = true ∧ m.answersTo name = true) ∧
    ∀ k < id, ∀ m, ms[k]? = some m → m.isActive = true → m.answersTo name = false

/-- The name is a library that was registered beforehand or that a module registers, be it active
or not. -/
def Registered (libraries : List String) (ms : List Module) (name : String) : Prop :=
  name ∈ libraries ∨ ∃ m ∈ ms, name ∈ m.systemLibraries

theorem ne_of_lastNamed? {ms : List Module} {name : String} {id : ModuleId} {m : Module}
    (h : lastNamed? ms name = some (id, m)) :
    ∀ k x, id < k → ms[k]? = some x → x.isActive = true → x.targetName ≠ name := by
  induction ms using List.reverseRecOn with
  | nil => cases h
  | append_singleton ms y ih =>
    intro k x hk hx hactive hname
    rw [lastNamed?_append_singleton] at h
    by_cases hy : y.isActive = true ∧ y.targetName = name
    · -- The module found is the very last one, so that there is none behind it.
      rw [if_pos hy] at h
      obtain ⟨rfl, -⟩ := Prod.mk.inj (Option.some.inj h)
      rcases getElem?_append_singleton_eq_some_iff.1 hx with hx | ⟨rfl, -⟩
      · exact absurd (List.getElem?_eq_some_iff.1 hx).1 (Nat.lt_asymm hk)
      · exact Nat.lt_irrefl _ hk
    · rw [if_neg hy] at h
      rcases getElem?_append_singleton_eq_some_iff.1 hx with hx | ⟨rfl, rfl⟩
      · exact ih h k x hk hx hactive hname
      · exact hy ⟨hactive, hname⟩

theorem lastNamed_of_lastNamed? {ms : List Module} {name : String} {id : ModuleId} {m : Module}
    (h : lastNamed? ms name = some (id, m)) : LastNamed ms name id m := by
  obtain ⟨hm, hactive, hname⟩ := of_lastNamed? h
  exact ⟨hm, hactive, hname, ne_of_lastNamed? h⟩

namespace Resolver

variable {r : Resolver} {id : ModuleId} {m : Module} {name : String}

theorem pairwise_edges (r : Resolver) (id : ModuleId) (m : Module) :
    (r.edges id m).Pairwise (· < ·) := by
  unfold edges
  exact List.pairwise_lt_range.filter _

theorem mem_edges_iff_firstAnswering {k : ModuleId} :
    k ∈ r.edges id m ↔ k ≠ id ∧ ∃ name ∈ m.dependencies.all, FirstAnswering r.modules name k := by
  simp only [mem_edges_iff, firstActive?_eq_some_iff, FirstAnswering]

theorem mem_libraries_ofModules_iff {libraries : List String} {strict : Bool} {ms : List Module} :
    name ∈ (Resolver.ofModules libraries strict ms).libraries ↔ Registered libraries ms name := by
  unfold ofModules Registered
  simp only [List.mem_append, List.mem_flatMap]

end Resolver

/-! ## The entries of a built graph -/

namespace Graph

variable {g : Graph} {r : Resolver} {name : String}

/-- The entry of a name that active modules have belongs to the last of them. -/
theorem IsGraphOf.find?_of_hasActive (hg : g.IsGraphOf r) (h : hasActive r.modules name = true) :
    ∃ id m, lastNamed? r.modules name = some (id, m) ∧
      g.entries.find? name = some (.owned id (r.edges id m)) := by
  rw [← lastNamed?_isSome, Option.isSome_iff_exists] at h
  obtain ⟨⟨id, m⟩, hlast⟩ := h
  exact ⟨id, m, hlast, hg.find?_eq_owned_iff.2 ⟨m, hlast, rfl⟩⟩

/-- A name has a placeholder exactly if an active module asks for it as a library. No active module
answers to such a name, so that none can take it as its target name. -/
theorem IsGraphOf.find?_eq_system_iff (hg : g.IsGraphOf r) :
    g.entries.find? name = some .system ↔
      ∃ m ∈ r.modules, m.isActive = true ∧ name ∈ r.placeholders m := by
  constructor
  · intro hfind
    rcases hg.exists_find?_iff.1 ⟨_, hfind⟩ with hactive | hasked
    · obtain ⟨id, m, -, howned⟩ := hg.find?_of_hasActive (hasActive_iff.2 hactive)
      cases howned.symm.trans hfind
    · exact hasked
  · rintro ⟨m, hm, hactive, hasked⟩
    obtain ⟨e, hfind⟩ := hg.exists_find?_iff.2 (.inr ⟨m, hm, hactive, hasked⟩)
    have hnone := (Resolver.mem_placeholders_iff.1 hasked).2.1
    cases e with
    | system => exact hfind
    | owned id ds =>
      obtain ⟨x, hlast, -⟩ := hg.find?_eq_owned_iff.1 hfind
      obtain ⟨hx, hxactive, rfl⟩ := of_lastNamed? hlast
      have hnot := Resolver.firstActive?_eq_none_iff.1 hnone x (List.mem_of_getElem? hx) hxactive
      rw [x.answersTo_targetName] at hnot
      cases hnot

theorem IsGraphOf.pairwise_dependencies (hg : g.IsGraphOf r) (id : ModuleId) :
    (g.dependencies id).Pairwise (· < ·) := by
  unfold dependencies successors
  cases he : entryOf? g.modules g.entries id with
  | none => exact .nil
  | some e =>
    obtain ⟨hfind, howner⟩ := entryOf?_eq_some_iff.1 he
    rw [owner?_eq_some_iff.1 howner] at hfind
    obtain ⟨m, -, hds⟩ := hg.find?_eq_owned_iff.1 hfind
    dsimp only
    rw [hds]
    exact Resolver.pairwise_edges r id m

/-- In a built graph no name has two entries. A name has one exactly if it is the target name of an
active module, or else a registered library that an active module lists as a dependency and no
active module answers to. In the first case the entry belongs to the last active module of that
name and depends on the first active module that answers to each of its dependency names, without
itself; in the second case it is a placeholder. The collisions are the target names of the active
modules that have an earlier active module of the same name, in order. -/
theorem entries_exact {libraries : List String} {strict : Bool} {modules : List Module} {b : Built}
    (h : Graph.build libraries strict modules = .ok b) :
    b.graph.entries.Distinct ∧
    (∀ name, (∃ e, b.graph.entries.find? name = some e) ↔
      (∃ m ∈ modules, m.isActive = true ∧ m.targetName = name) ∨
        (Registered libraries modules name ∧
          (∃ m ∈ modules, m.isActive = true ∧ name ∈ m.dependencies.all) ∧
          ∀ m ∈ modules, m.isActive = true → m.answersTo name = false)) ∧
    (∀ name, (∃ m ∈ modules, m.isActive = true ∧ m.targetName = name) →
      ∃ id m ds, b.graph.entries.find? name = some (.owned id ds) ∧ LastNamed modules name id m ∧
        ds.Pairwise (· < ·) ∧
        ∀ k, k ∈ ds ↔ k ≠ id ∧ ∃ d ∈ m.dependencies.all, FirstAnswering modules d k) ∧
    (∀ name, (¬ ∃ m ∈ modules, m.isActive = true ∧ m.targetName = name) →
      ∀ e, b.graph.entries.find? name = some e → e = .system) ∧
    b.graph.collisions =
      ((numbered modules).filter fun p => p.2.isActive &&
        (modules.take p.1).any fun x => x.isActive && x.targetName == p.2.targetName).map
          fun p => p.2.targetName := by
  have hg := isGraphOf_of_build h
  refine ⟨distinct_of_build h, fun name => ?_, fun name hname => ?_, ?_, hg.collisions_eq⟩
  · rw [hg.exists_find?_iff]
    refine or_congr_right ?_
    simp only [Resolver.mem_placeholders_iff, Resolver.mem_libraries_ofModules_iff,
      Resolver.firstActive?_eq_none_iff]
    constructor
    · rintro ⟨m, hm, hactive, hasked, hnone, hregistered⟩
      exact ⟨hregistered, ⟨m, hm, hactive, hasked⟩, hnone⟩
    · rintro ⟨hregistered, ⟨m, hm, hactive, hasked⟩, hnone⟩
      exact ⟨m, hm, hactive, hasked, hnone, hregistered⟩
  · obtain ⟨id, m, hlast, hfind⟩ := hg.find?_of_hasActive (hasActive_iff.2 hname)
    exact ⟨id, m, _, hfind, lastNamed_of_lastNamed? hlast, Resolver.pairwise_edges _ id m,
      fun k => Resolver.mem_edges_iff_firstAnswering⟩
  · intro name hname e hfind
    cases e with
    | system => rfl
    | owned id ds =>
      obtain ⟨m, hlast, -⟩ := hg.find?_eq_owned_iff.1 hfind
      obtain ⟨hm, hactive, htarget⟩ := of_lastNamed? hlast
      exact absurd ⟨m, List.mem_of_getElem? hm, hactive, htarget⟩ hname

/-- Two modules of one name, and a library that only an excluded module registers. -/
def repeated : List Module :=
  [.plainToolchain "t" ["lib", "a"],
    { (Module.plain "x" []).exclude with systemLibraries := ["lib"] },
    .plain "a" [], .plain "a" ["t", "a", "lib"]]

/-- The later module keeps the name and depends on the earlier one, which still answers to it first;
the name of the excluded module has no entry, but the library that it registers has. -/
theorem entries_exact_repeated :
    ∃ b, Graph.build [] false repeated = .ok b ∧
      (∃ e, b.graph.entries.find? "lib" = some e) ∧ (¬ ∃ e, b.graph.entries.find? "x" = some e) ∧
      (∀ e, b.graph.entries.find? "lib" = some e → e = .system) ∧
      (∃ m ds, b.graph.entries.find? "a" = some (.owned 3 ds) ∧ LastNamed repeated "a" 3 m ∧
        2 ∈ ds ∧ 3 ∉ ds) ∧
      b.graph.collisions = ["a"] := by
  have hview : (Graph.build [] false repeated).toOption.map (fun b => b.graph.toolchain) =
      some 0 := by
    decide +kernel
  obtain ⟨b, hb, -⟩ := exists_ok_of_map_eq_some hview
  obtain ⟨-, hentry, howned, hsystem, hcollisions⟩ := entries_exact hb
  have hfirst : FirstAnswering repeated "a" 2 := by
    rw [FirstAnswering, ← Resolver.firstActive?_eq_some_iff]
    decide +kernel
  have hlast : ∀ id m, LastNamed repeated "a" id m → id = 3 ∧ "a" ∈ m.dependencies.all := by
    rintro id m ⟨hm, hactive, hname, hlater⟩
    have hthree : ¬ id < 3 := fun hlt => hlater 3 _ hlt rfl (by decide) (by decide)
    match id with
    | 0 | 1 | 2 => exact absurd (by decide) hthree
    | 3 =>
      obtain rfl := Option.some.inj hm
      exact ⟨rfl, by decide⟩
    | k + 4 => cases hm
  refine ⟨b, hb, (hentry "lib").2 (.inr ⟨.inr ?_, ?_, ?_⟩), ?_, hsystem "lib" ?_, ?_, hcollisions⟩
  · decide +kernel
  · decide +kernel
  · decide +kernel
  · rw [hentry "x"]
    unfold Registered
    decide +kernel
  · decide +kernel
  · obtain ⟨id, m, ds, hfind, hnamed, -, hmem⟩ := howned "a" (by decide +kernel)
    obtain ⟨rfl, hasks⟩ := hlast id m hnamed
    have htwo : 2 ∈ ds := (hmem 2).2 ⟨by decide, "a", hasks, hfirst⟩
    exact ⟨m, ds, hfind, hnamed, htwo, fun hself => ((hmem 3).1 hself).1 rfl⟩

end Graph

end BuildGraph
