import BuildGraph.Proofs.Graph.Acyclicity
import BuildGraph.Proofs.Graph.Entries
set_option autoImplicit false

/-!
# Rounds

Each cycle that is reported for a graph is a round of it: different modules that own their
entries, each of which depends on the next one, and the last of them on the first
(`Graph.IsRound`). A search comes upon each edge at most once, since it enters a module at most
once and its dependencies are all different. So no two cycles are closed by one edge, although
they may have all other edges in common.
-/

namespace BuildGraph

variable {next : ModuleId → List ModuleId} {way todo : List ModuleId} {s t : CycleSearch}
  {a b a' b' : ModuleId} {c d : List ModuleId}

/-! ## Closing edges -/

theorem Closes.unique (h : Closes c a b) (h' : Closes c a' b') : a = a' ∧ b = b' :=
  ⟨Option.some.inj (h.1.symm.trans h'.1), Option.some.inj (h.2.symm.trans h'.2)⟩

/-- No edge closes both cycles. -/
def ClosedApart (c d : List ModuleId) : Prop :=
  ∀ a b, ¬ (Closes c a b ∧ Closes d a b)

/-- A search leaves no module that it has entered. -/
theorem Searches.subset_entered (h : Searches next way todo s t) : s.entered ⊆ t.entered := by
  induction h with
  | done => exact List.Subset.refl _
  | close _ _ ih => exact ih
  | skip _ _ _ ih => exact ih
  | enter _ _ _ _ ihbelow ihrest =>
    exact fun x hx => ihrest (ihbelow (List.mem_cons_of_mem _ hx))

/-- What a search reports beyond what was reported before: the cycles are closed by different edges,
each of which leads from the end of the way to a module that is visited, or from a module that this
search enters. -/
structure Finds (way todo : List ModuleId) (s t : CycleSearch) (found : List (List ModuleId)) :
    Prop where
  cycles_eq : t.cycles = s.cycles ++ found
  apart : found.Pairwise ClosedApart
  closing : ∀ c ∈ found, ∀ a b, Closes c a b →
    way.head? = some a ∧ b ∈ todo ∨ a ∉ s.entered ∧ a ∈ t.entered

/-- The edges to the modules still to visit, and those of modules that are not entered yet, have not
closed a cycle so far. -/
theorem exists_finds (hnext : ∀ x, (next x).Nodup) (h : Searches next way todo s t)
    (hway : way ⊆ s.entered) (htodo : todo.Nodup) : ∃ found, Finds way todo s t found := by
  induction h with
  | done => exact ⟨[], (List.append_nil _).symm, .nil, nofun⟩
  | @close way todo id s t hid _ ih =>
    obtain ⟨hfresh, htodo⟩ := List.nodup_cons.1 htodo
    obtain ⟨found, heq, hapart, hclosing⟩ := ih hway htodo
    obtain ⟨top, rest, rfl⟩ := List.exists_cons_of_ne_nil (List.ne_nil_of_mem hid)
    obtain ⟨cycle, hcycles, hreported⟩ : ∃ cycle,
        (s.close (top :: rest) id).cycles = s.cycles ++ [cycle] ∧ Closes cycle top id :=
      ⟨_, rfl, closes_of_mem_way hid rfl⟩
    refine ⟨cycle :: found, ?_, List.pairwise_cons.2 ⟨?_, hapart⟩, ?_⟩
    · rw [heq, hcycles, List.append_assoc, List.singleton_append]
    · intro d hd a b hboth
      obtain ⟨rfl, rfl⟩ := hreported.unique hboth.1
      rcases hclosing d hd _ _ hboth.2 with ⟨-, hmem⟩ | ⟨hnew, -⟩
      · exact hfresh hmem
      · exact hnew (hway List.mem_cons_self)
    · intro c hc a b hcloses
      rcases List.mem_cons.1 hc with rfl | hc
      · obtain ⟨rfl, rfl⟩ := hreported.unique hcloses
        exact .inl ⟨rfl, List.mem_cons_self⟩
      · exact (hclosing c hc a b hcloses).imp_left fun h => ⟨h.1, List.mem_cons_of_mem _ h.2⟩
  | @skip way todo id s t _ _ _ ih =>
    obtain ⟨found, heq, hapart, hclosing⟩ := ih hway (List.nodup_cons.1 htodo).2
    refine ⟨found, heq, hapart, fun c hc a b hcloses => ?_⟩
    exact (hclosing c hc a b hcloses).imp_left fun h => ⟨h.1, List.mem_cons_of_mem _ h.2⟩
  | @enter way todo id s u t hid hnew hsearch hrest ihbelow ihrest =>
    have hentered : id :: s.entered ⊆ u.entered := hsearch.subset_entered
    have hkept : s.entered ⊆ u.entered := fun x hx => hentered (List.mem_cons_of_mem id hx)
    have hdeeper : id :: way ⊆ id :: s.entered := List.cons_subset_cons id hway
    obtain ⟨below, heq, hbelow, hinside⟩ := ihbelow hdeeper (hnext id)
    obtain ⟨later, heq', hlater, hclosing⟩ :=
      ihrest (List.Subset.trans hway hkept) (List.nodup_cons.1 htodo).2
    -- Below the module, a cycle is closed from the module itself or from one entered after it.
    have hlower : ∀ c ∈ below, ∀ a b, Closes c a b → a ∉ s.entered ∧ a ∈ u.entered := by
      intro c hc a b hcloses
      rcases hinside c hc a b hcloses with ⟨htop, -⟩ | ⟨hfresh, hmet⟩
      · obtain rfl := Option.some.inj htop
        exact ⟨hnew, hentered List.mem_cons_self⟩
      · exact ⟨fun h => hfresh (List.mem_cons_of_mem id h), hmet⟩
    refine ⟨below ++ later, ?_, List.pairwise_append.2 ⟨hbelow, hlater, ?_⟩, ?_⟩
    · rw [heq', heq, List.append_assoc]
      rfl
    · intro c hc d hd a b hboth
      obtain ⟨hfresh, hmet⟩ := hlower c hc a b hboth.1
      rcases hclosing d hd a b hboth.2 with ⟨htop, -⟩ | ⟨hunmet, -⟩
      · exact hfresh (hway (List.mem_of_mem_head? htop))
      · exact hunmet hmet
    · intro c hc a b hcloses
      rcases List.mem_append.1 hc with hc | hc
      · obtain ⟨hfresh, hmet⟩ := hlower c hc a b hcloses
        exact .inr ⟨hfresh, hrest.subset_entered hmet⟩
      · rcases hclosing c hc a b hcloses with ⟨htop, hmem⟩ | ⟨hunmet, hmet⟩
        · exact .inl ⟨htop, List.mem_cons_of_mem id hmem⟩
        · exact .inr ⟨fun h => hunmet (hkept h), hmet⟩

/-- The cycles that are found from different starts are closed by different edges. -/
theorem pairwise_closedApart_findCycles {bound : Nat} {starts : List ModuleId}
    (hnext : ∀ x, ∀ y ∈ next x, y < bound) (hstarts : ∀ x ∈ starts, x < bound)
    (hnodup : ∀ x, (next x).Nodup) (hdistinct : starts.Nodup) :
    (findCycles next bound starts).Pairwise ClosedApart := by
  obtain ⟨t, hsearch, heq⟩ := exists_searches_findCycles hnext hstarts
  obtain ⟨found, hfound, hapart, -⟩ :=
    exists_finds hnodup hsearch (List.nil_subset _) hdistinct
  rw [heq, hfound]
  exact hapart

/-! ## Rounds of a graph -/

/-- From the first module of a cycle through all others and back to it, each leads to the next. -/
theorem IsCycle.isChain_append_take (h : IsCycle next c) :
    (c ++ c.take 1).IsChain fun x y => y ∈ next x := by
  obtain ⟨last, first, ⟨hlast, hfirst⟩, hedge⟩ := h.closed
  obtain ⟨rest, rfl⟩ : ∃ rest, c = first :: rest := List.head?_eq_some_iff.1 hfirst
  refine List.isChain_append.2 ⟨h.chain, .singleton first, ?_⟩
  intro x hx y hy
  obtain rfl := Option.some.inj (hlast.symm.trans hx)
  obtain rfl := Option.some.inj hy
  exact hedge

namespace Graph

variable {g : Graph} {r : Resolver}

/-- Two or more different modules that own their entries. Each has the next one among the
dependencies of its entry, and the last one has the first. -/
structure IsRound (g : Graph) (c : List ModuleId) : Prop where
  several : 2 ≤ c.length
  nodup : c.Nodup
  owns : ∀ x ∈ c, g.Owns x
  steps : (c ++ c.take 1).IsChain g.Step

theorem isRound_of_isCycle (hg : g.IsGraphOf r) (hc : IsCycle g.dependencies c) :
    g.IsRound c := by
  refine ⟨?_, hc.nodup, fun x hx => owns_of_mem_cycle hc hx, ?_⟩
  · obtain ⟨last, first, ⟨hlast, hfirst⟩, hedge⟩ := hc.closed
    have hne : last ≠ first := hg.ne_of_step (mem_dependencies_iff.1 hedge)
    match c with
    | [] => cases hfirst
    | [x] =>
      obtain rfl := Option.some.inj hlast
      obtain rfl := Option.some.inj hfirst
      exact absurd rfl hne
    | x :: y :: rest => exact Nat.le_add_left 2 rest.length
  · exact hc.isChain_append_take.imp fun _ _ => mem_dependencies_iff.1

/-- The cycles that are reported for a built graph, in words, are rounds of the graph, each from its
first module back to it, and no edge closes two of them. -/
theorem cycles_are_rounds {libraries : List String} {strict : Bool} {modules : List Module}
    {b : Built} (h : Graph.build libraries strict modules = .ok b) :
    b.graph.cycleTexts = b.graph.cycles.map
      (fun c => " -> ".intercalate ((c ++ c.take 1).map b.graph.targetName)) ∧
    (∀ c ∈ b.graph.cycles, b.graph.IsRound c) ∧
    b.graph.cycles.Pairwise ClosedApart := by
  have hg := isGraphOf_of_build h
  refine ⟨rfl, fun c hc => isRound_of_isCycle hg (isCycle_of_mem_cycles hg hc), ?_⟩
  rw [hg.cycles_eq]
  refine pairwise_closedApart_findCycles (lt_of_mem_dependencies hg) (lt_of_mem_owners hg) ?_ ?_
  · exact fun x => (hg.pairwise_dependencies x).imp Nat.ne_of_lt
  · exact (pairwise_owners b.graph).imp Nat.ne_of_lt

/-- A circle of three modules with a way back from its middle. -/
def shortened : List Module :=
  [.plainToolchain "a" ["b"], .plain "b" ["a", "c"], .plain "c" ["a"]]

theorem cycles_are_rounds_shortened :
    ∃ b, Graph.build [] false shortened = .ok b ∧
      b.graph.cycleTexts = ["a -> b -> a", "a -> b -> c -> a"] ∧
      b.graph.IsRound [0, 1, 2] ∧ ClosedApart [0, 1] [0, 1, 2] := by
  have hview : (Graph.build [] false shortened).toOption.map (fun b =>
      (b.graph.cycles, b.graph.cycleTexts)) =
      some ([[0, 1], [0, 1, 2]], ["a -> b -> a", "a -> b -> c -> a"]) := by
    decide +kernel
  obtain ⟨b, hb, heq⟩ := exists_ok_of_map_eq_some hview
  obtain ⟨hcycles, htexts⟩ := Prod.mk.injEq .. ▸ heq
  obtain ⟨-, hrounds, hapart⟩ := cycles_are_rounds hb
  rw [hcycles] at hrounds hapart
  exact ⟨b, hb, htexts, hrounds _ (by decide), List.rel_of_pairwise_cons hapart (by decide)⟩

end Graph

end BuildGraph
