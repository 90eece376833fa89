import BuildGraph.Proofs.Graph.Closure
import BuildGraph.Proofs.Graph.Embedding
import BuildGraph.Proofs.Graph.Search
set_option autoImplicit false

/-!
# Graphs that differ in numbers

Two graphs may be the same but for the numbers of their modules (`Graph.Renumbers`). Everything that
is read off them agrees then along the new numbers: who owns an entry, what it depends on, the
closures and the cycles, since each of them is found by steps of the graph or by a search that looks
at nothing else. Placeholders are left open, no step leads to or from them.

Two builds lead to such graphs if the modules of one have their places among those of the other and
the modules beside them are left out, whatever libraries are registered
(`Graph.renumbers_of_embeds`).
-/

namespace BuildGraph

open Relation

variable {f : ModuleId → ModuleId}

/-! ## Searches -/

/-- A search with other numbers for the modules. -/
def CycleSearch.renumber (f : ModuleId → ModuleId) (s : CycleSearch) : CycleSearch :=
  ⟨s.entered.map f, s.cycles.map (List.map f)⟩

theorem CycleSearch.renumber_close (hf : Function.Injective f) (s : CycleSearch)
    (way : List ModuleId) (id : ModuleId) :
    (s.close way id).renumber f = (s.renumber f).close (way.map f) (f id) := by
  have htest : (fun x => x != f id) ∘ f = fun x => x != id := by
    funext x
    rw [Function.comp_apply, Bool.eq_iff_iff, bne_iff_ne, bne_iff_ne]
    exact hf.ne_iff
  unfold renumber close
  simp only [List.map_append, List.map_cons, List.map_nil, List.takeWhile_map, htest,
    List.map_reverse]

/-- A search takes the same way among modules with other numbers. -/
theorem Searches.renumber {next next' : ModuleId → List ModuleId} (hf : Function.Injective f)
    (hnext : ∀ a, next' (f a) = (next a).map f) {way todo : List ModuleId} {s t : CycleSearch}
    (h : Searches next way todo s t) :
    Searches next' (way.map f) (todo.map f) (s.renumber f) (t.renumber f) := by
  induction h with
  | done => exact .done
  | @close way todo id s t hid _ ih =>
    rw [CycleSearch.renumber_close hf] at ih
    exact .close (List.mem_map_of_mem hid) ih
  | skip hnot hentered _ ih =>
    exact .skip (mt (List.mem_map_of_injective hf).1 hnot) (List.mem_map_of_mem hentered) ih
  | @enter way todo id s u t hnot hnew _ _ ihbelow ihrest =>
    rw [← hnext] at ihbelow
    exact .enter (mt (List.mem_map_of_injective hf).1 hnot)
      (mt (List.mem_map_of_injective hf).1 hnew) ihbelow ihrest

/-! ## Graphs -/

namespace Graph

variable {g h : Graph} {r R : Resolver} {a c d o x : ModuleId}

/-- The second graph is the first one with new numbers for its modules, and with further modules
that take no part in the build. -/
structure Renumbers (f : ModuleId → ModuleId) (g h : Graph) : Prop where
  embeds : Embeds f g.modules h.modules
  owned_iff : ∀ name c es, h.entries.find? name = some (.owned c es) ↔
    ∃ a ds, g.entries.find? name = some (.owned a ds) ∧ c = f a ∧ es = ds.map f
  toolchain_eq : h.toolchain = f g.toolchain
  settings_eq : h.settings = g.settings

namespace Renumbers

theorem injective (H : Renumbers f g h) : Function.Injective f :=
  H.embeds.strictMono.injective

theorem targetName_eq (H : Renumbers f g h) (a : ModuleId) : h.targetName (f a) = g.targetName a :=
  H.embeds.targetNameOf_eq a

theorem owns_iff (H : Renumbers f g h) : h.Owns c ↔ ∃ a, g.Owns a ∧ f a = c := by
  constructor
  · rintro ⟨es, hfind⟩
    obtain ⟨a, ds, hsmall, rfl, -⟩ := (H.owned_iff _ c es).1 hfind
    rw [H.targetName_eq] at hsmall
    exact ⟨a, ⟨ds, hsmall⟩, rfl⟩
  · rintro ⟨a, ⟨ds, hfind⟩, rfl⟩
    rw [← H.targetName_eq] at hfind
    exact ⟨ds.map f, (H.owned_iff _ _ _).2 ⟨a, ds, hfind, rfl, rfl⟩⟩

theorem owns_apply_iff (H : Renumbers f g h) : h.Owns (f a) ↔ g.Owns a := by
  rw [H.owns_iff]
  constructor
  · rintro ⟨b, hb, heq⟩
    obtain rfl := H.injective heq
    exact hb
  · intro ha
    exact ⟨a, ha, rfl⟩

theorem dependencies_eq (H : Renumbers f g h) (a : ModuleId) :
    h.dependencies (f a) = (g.dependencies a).map f := by
  by_cases howns : g.Owns a
  · obtain ⟨ds, hfind⟩ := howns
    have hlarge : h.entries.find? (h.targetName (f a)) = some (.owned (f a) (ds.map f)) :=
      (H.owned_iff _ _ _).2 ⟨a, ds, H.targetName_eq a ▸ hfind, rfl, rfl⟩
    rw [dependencies_of_find? hfind, dependencies_of_find? hlarge]
  · rw [dependencies_of_not_owns howns, dependencies_of_not_owns (mt H.owns_apply_iff.1 howns)]
    rfl

theorem step_iff (H : Renumbers f g h) : h.Step (f a) d ↔ ∃ b, g.Step a b ∧ f b = d := by
  simp only [← mem_dependencies_iff, H.dependencies_eq, List.mem_map]

theorem owners_eq (H : Renumbers f g h) :
    owners h.modules h.entries = (owners g.modules g.entries).map f := by
  refine eq_map_of_mem_iff H.embeds.strictMono (pairwise_owners g) (pairwise_owners h) ?_
  intro c
  simp only [mem_owners_iff]
  constructor
  · rintro ⟨hlt, howns⟩
    obtain ⟨a, ha, rfl⟩ := H.owns_iff.1 howns
    exact ⟨a, ⟨H.embeds.lt_length_iff.1 hlt, ha⟩, rfl⟩
  · rintro ⟨a, ⟨hlt, ha⟩, rfl⟩
    exact ⟨H.embeds.lt_length_iff.2 hlt, H.owns_apply_iff.2 ha⟩

theorem transGen_iff (H : Renumbers f g h) :
    TransGen h.Step (f o) c ↔ ∃ x, TransGen g.Step o x ∧ f x = c := by
  constructor
  · intro hway
    induction hway with
    | single hstep =>
      obtain ⟨b, hb, rfl⟩ := H.step_iff.1 hstep
      exact ⟨b, .single hb, rfl⟩
    | tail _ hstep ih =>
      obtain ⟨x, hx, rfl⟩ := ih
      obtain ⟨b, hb, rfl⟩ := H.step_iff.1 hstep
      exact ⟨b, hx.tail hb, rfl⟩
  · rintro ⟨x, hway, rfl⟩
    exact TransGen.lift f (fun a b hstep => H.step_iff.2 ⟨b, hstep, rfl⟩) o x hway

/-- A module needs the same modules. -/
theorem closure_eq (H : Renumbers f g h) (hg : g.IsGraphOf r) (hh : h.IsGraphOf R) (o : ModuleId) :
    h.closure (f o) = (g.closure o).map f := by
  refine eq_map_of_mem_iff H.embeds.strictMono (pairwise_closure g o) (pairwise_closure h (f o)) ?_
  intro c
  simp only [mem_closure_iff_transGen hg, mem_closure_iff_transGen hh, H.transGen_iff]
  constructor
  · rintro ⟨hne, x, hway, rfl⟩
    refine ⟨x, ⟨?_, hway⟩, rfl⟩
    intro heq
    exact hne (congrArg f heq)
  · rintro ⟨x, ⟨hne, hway⟩, rfl⟩
    exact ⟨H.injective.ne hne, x, hway, rfl⟩

/-- The same cycles are found. The two searches have different bounds, and reach neither. -/
theorem cycles_eq (H : Renumbers f g h) (hg : g.IsGraphOf r) (hh : h.IsGraphOf R) :
    h.cycles = g.cycles.map (List.map f) := by
  obtain ⟨t, hsmall, hcycles⟩ :=
    exists_searches_findCycles (lt_of_mem_dependencies hg) (lt_of_mem_owners hg)
  obtain ⟨T, hlarge, hCycles⟩ :=
    exists_searches_findCycles (lt_of_mem_dependencies hh) (lt_of_mem_owners hh)
  have hmapped := hsmall.renumber H.injective H.dependencies_eq
  rw [← H.owners_eq] at hmapped
  obtain rfl := hlarge.unique hmapped
  rw [hg.cycles_eq, hh.cycles_eq, hcycles, hCycles]
  rfl

theorem cycleTexts_eq (H : Renumbers f g h) (hg : g.IsGraphOf r) (hh : h.IsGraphOf R) :
    h.cycleTexts = g.cycleTexts := by
  unfold cycleTexts
  rw [H.cycles_eq hg hh, List.map_map]
  refine List.map_congr_left fun cycle _ => ?_
  unfold cycleText
  rw [Function.comp_apply, ← List.map_take, ← List.map_append, List.map_map]
  exact congrArg (" -> ".intercalate ·) (List.map_congr_left fun a _ => H.targetName_eq a)

theorem active_eq (H : Renumbers f g h) : h.active = g.active.map (Prod.map f id) :=
  H.embeds.filter_active

end Renumbers

/-! ## Builds -/

theorem IsGraphOf.owned_iff_of_embeds (he : Embeds f r.modules R.modules) (hg : g.IsGraphOf r)
    (hh : h.IsGraphOf R) (name : String) (c : ModuleId) (es : List ModuleId) :
    h.entries.find? name = some (.owned c es) ↔
      ∃ a ds, g.entries.find? name = some (.owned a ds) ∧ c = f a ∧ es = ds.map f := by
  simp only [hg.find?_eq_owned_iff, hh.find?_eq_owned_iff, he.lastNamed?_eq,
    Option.map_eq_some_iff, Prod.exists, Prod.map_apply, id_eq, Prod.mk.injEq]
  constructor
  · rintro ⟨m, ⟨a, x, hlast, rfl, rfl⟩, rfl⟩
    exact ⟨a, r.edges a x, ⟨x, hlast, rfl⟩, rfl, he.edges_eq a x⟩
  · rintro ⟨a, ds, ⟨x, hlast, rfl⟩, rfl, rfl⟩
    exact ⟨x, ⟨a, x, hlast, rfl, rfl⟩, (he.edges_eq a x).symm⟩

/-- Modules that are left out of a build change no more than the numbers of those that are not. -/
theorem renumbers_of_embeds {small large : List Module} {libraries libraries' : List String}
    {strict strict' : Bool} {b b' : Built} (he : Embeds f small large)
    (hb : Graph.build libraries strict small = .ok b)
    (hb' : Graph.build libraries' strict' large = .ok b') : Renumbers f b.graph b'.graph := by
  have hg := isGraphOf_of_build hb
  have hh := isGraphOf_of_build hb'
  obtain ⟨htoolchain, hsettings⟩ :=
    (isChoice_of_build hb').unique (he.isChoice (isChoice_of_build hb))
  exact
    { embeds := by
        rw [hg.modules_eq, hh.modules_eq]
        exact he
      owned_iff := IsGraphOf.owned_iff_of_embeds he hg hh
      toolchain_eq := htoolchain
      settings_eq := hsettings }

end Graph

end BuildGraph
