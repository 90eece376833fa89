import BuildGraph.Proofs.Graph.Built
import BuildGraph.Proofs.Graph.Search
import Mathlib.Data.Set.Subsingleton
set_option autoImplicit false

/-!
# Acyclic up to the reported cycles

The dependency relation of a built graph between modules that own their entry (`Graph.Linked`) has
no cycle once the closing edge of each reported cycle is taken out of it (`Graph.Kept`). So every
cycle of the relation runs through a closing edge. For a strongly connected set of modules that
edge lies in the set, and the whole reported cycle does if the set is a component; a part of a
component may hold the closing edge alone.
-/

namespace BuildGraph

open Relation

/-- A way either keeps away from some steps or takes one of them. -/
theorem transGen_or_exists_step {α : Type} {r q : α → α → Prop} {a b : α} (h : TransGen r a b) :
    TransGen (fun x y => r x y ∧ ¬ q x y) a b ∨
      ∃ x y, ReflTransGen r a x ∧ r x y ∧ q x y ∧ ReflTransGen r y b := by
  induction h with
  | @single b hab =>
    by_cases hq : q a b
    · exact .inr ⟨a, b, .refl, hab, hq, .refl⟩
    · exact .inl (.single ⟨hab, hq⟩)
  | @tail b c hab hbc ih =>
    rcases ih with hkept | ⟨x, y, hax, hxy, hq, hyb⟩
    · by_cases hq : q b c
      · exact .inr ⟨b, c, hab.to_reflTransGen, hbc, hq, .refl⟩
      · exact .inl (hkept.tail ⟨hbc, hq⟩)
    · exact .inr ⟨x, y, hax, hxy, hq, hyb.tail hbc⟩

namespace Graph

variable {g : Graph} {r : Resolver} {S : Set ModuleId} {a b x y : ModuleId} {c : List ModuleId}

/-! ## The relation -/

/-- A dependency between two modules that own their entry. -/
def Linked (g : Graph) (a b : ModuleId) : Prop := g.Step a b ∧ g.Owns b

/-- A dependency that closes no reported cycle. -/
def Kept (g : Graph) (a b : ModuleId) : Prop := g.Linked a b ∧ ¬ ClosedBy g.cycles a b

/-- Any two modules of the set reach each other within the set. -/
def StronglyConnected (g : Graph) (S : Set ModuleId) : Prop :=
  ∀ a ∈ S, ∀ b ∈ S, ReflTransGen (fun x y => g.Linked x y ∧ x ∈ S ∧ y ∈ S) a b

/-- The set holds, with one module, exactly those that it reaches and that reach it. -/
def IsComponent (g : Graph) (S : Set ModuleId) : Prop :=
  ∀ a ∈ S, ∀ b, b ∈ S ↔ ReflTransGen g.Linked a b ∧ ReflTransGen g.Linked b a

theorem not_transGen_kept (hg : g.IsGraphOf r) (a : ModuleId) : ¬ TransGen g.Kept a a := by
  intro hround
  have hremains : TransGen (Remains g.dependencies g.cycles) a a :=
    TransGen.mono (fun _ _ h => ⟨mem_dependencies_iff.2 h.1.1, h.2⟩) a a hround
  obtain ⟨b, hstep, -⟩ := TransGen.head'_iff.1 hround
  have hstart : a ∈ owners g.modules g.entries := (mem_owners_iff_owns hg).2 hstep.1.1.owns
  rw [hg.cycles_eq] at hremains
  exact not_transGen_remains_findCycles (lt_of_mem_dependencies hg) (lt_of_mem_owners hg) hstart
    hremains

/-- A way round within the relation takes a step that closes a reported cycle. -/
theorem exists_closing_step (hg : g.IsGraphOf r) {q : ModuleId → ModuleId → Prop}
    (hq : ∀ x y, q x y → g.Linked x y) (hround : TransGen q a a) :
    ∃ x y, ReflTransGen q a x ∧ q x y ∧ ClosedBy g.cycles x y ∧ ReflTransGen q y a := by
  refine (transGen_or_exists_step hround).resolve_left fun hkept => not_transGen_kept hg a ?_
  exact TransGen.mono (fun x y h => ⟨hq x y h.1, h.2⟩) a a hkept

theorem linked_iff (hg : g.IsGraphOf r) :
    g.Linked a b ↔ a ∈ owners g.modules g.entries ∧ b ∈ g.dependencies a ∧
      b ∈ owners g.modules g.entries := by
  rw [mem_owners_iff_owns hg, mem_owners_iff_owns hg, mem_dependencies_iff]
  exact ⟨fun h => ⟨h.1.owns, h.1, h.2⟩, fun h => ⟨h.2.1, h.2.2⟩⟩

/-! ## Reported cycles -/

theorem isCycle_of_mem_cycles (hg : g.IsGraphOf r) (hc : c ∈ g.cycles) :
    IsCycle g.dependencies c := by
  rw [hg.cycles_eq] at hc
  exact isCycle_of_mem_findCycles (lt_of_mem_dependencies hg) (lt_of_mem_owners hg) hc

theorem owns_of_mem_cycle (hc : IsCycle g.dependencies c) (hx : x ∈ c) : g.Owns x := by
  obtain ⟨y, -, hy⟩ := hc.exists_mem_next hx
  exact (mem_dependencies_iff.1 hy).owns

theorem isChain_linked (hc : IsCycle g.dependencies c) : c.IsChain g.Linked :=
  hc.chain.imp_of_mem_imp fun _ _ _ hy hxy =>
    ⟨mem_dependencies_iff.1 hxy, owns_of_mem_cycle hc hy⟩

/-- The edge that closes a cycle is one of the relation. -/
theorem linked_of_closes (hc : IsCycle g.dependencies c) (h : Closes c a b) : g.Linked a b := by
  obtain ⟨last, first, ⟨hlast, hfirst⟩, hedge⟩ := hc.closed
  obtain rfl := Option.some.inj (h.1.symm.trans hlast)
  obtain rfl := Option.some.inj (h.2.symm.trans hfirst)
  exact ⟨mem_dependencies_iff.1 hedge, owns_of_mem_cycle hc (List.mem_of_mem_head? h.2)⟩

/-- A cycle leads from its first module to each of its modules, and on to its last one. -/
theorem reaches_of_closes (hc : IsCycle g.dependencies c) (h : Closes c a b) (hx : x ∈ c) :
    ReflTransGen g.Linked b x ∧ ReflTransGen g.Linked x a := by
  obtain ⟨hlast, hfirst⟩ := h
  have hchain := isChain_linked hc
  constructor
  · refine hchain.induction (fun y => ReflTransGen g.Linked b y) c (fun _ _ hyz hy => hy.tail hyz)
      (fun hne => ?_) x hx
    rw [List.head?_eq_some_head hne] at hfirst
    rw [Option.some.inj hfirst]
  · refine hchain.backwards_induction (fun y => ReflTransGen g.Linked y a) c
      (fun _ _ hyz hz => hz.head hyz) (fun hne => ?_) x hx
    rw [List.getLast?_eq_some_getLast hne] at hlast
    rw [Option.some.inj hlast]

theorem cycles_eq_nil_iff (hg : g.IsGraphOf r) :
    g.cycles = [] ↔ ∀ a, ¬ TransGen g.Linked a a := by
  constructor
  · intro hnone a hround
    obtain ⟨x, y, -, -, ⟨c, hc, -⟩, -⟩ := exists_closing_step hg (fun _ _ h => h) hround
    rw [hnone] at hc
    exact List.not_mem_nil hc
  · intro hacyclic
    refine List.eq_nil_iff_forall_not_mem.2 fun c hc => ?_
    have hcycle := isCycle_of_mem_cycles hg hc
    obtain ⟨x, y, hcloses, -⟩ := hcycle.closed
    have hlinked : g.Linked x y := linked_of_closes hcycle hcloses
    have hback : ReflTransGen g.Linked y x :=
      (reaches_of_closes hcycle hcloses (List.mem_of_getLast? hcloses.1)).1
    exact hacyclic x (TransGen.head' hlinked hback)

/-! ## Strongly connected sets -/

/-- Two modules that reach each other lie on a way round. -/
theorem transGen_self_of_ne {q : ModuleId → ModuleId → Prop} (hne : a ≠ b)
    (hab : ReflTransGen q a b) (hba : ReflTransGen q b a) : TransGen q a a := by
  have hway : TransGen q a b := (reflTransGen_iff_eq_or_transGen.1 hab).resolve_left hne.symm
  exact hway.trans_left hba

theorem exists_closing_of_stronglyConnected (hg : g.IsGraphOf r) (hS : g.StronglyConnected S)
    (hmany : S.Nontrivial) : ∃ c ∈ g.cycles, ∃ x ∈ S, ∃ y ∈ S, Closes c x y := by
  obtain ⟨a, ha, b, hb, hne⟩ := hmany
  have hround := transGen_self_of_ne hne (hS a ha b hb) (hS b hb a ha)
  obtain ⟨x, y, -, ⟨-, hx, hy⟩, ⟨c, hc, hcloses⟩, -⟩ :=
    exists_closing_step hg (fun _ _ h => h.1) hround
  exact ⟨c, hc, x, hx, y, hy, hcloses⟩

theorem exists_cycle_of_isComponent (hg : g.IsGraphOf r) (hS : g.IsComponent S)
    (hmany : S.Nontrivial) : ∃ c ∈ g.cycles, ∀ x ∈ c, x ∈ S := by
  obtain ⟨a, ha, b, hb, hne⟩ := hmany
  obtain ⟨hab, hba⟩ := (hS a ha b).1 hb
  obtain ⟨last, first, hreach, hlinked, ⟨c, hc, hcloses⟩, hback⟩ :=
    exists_closing_step hg (fun _ _ h => h) (transGen_self_of_ne hne hab hba)
  refine ⟨c, hc, fun x hx => (hS a ha x).2 ?_⟩
  obtain ⟨hto, hfrom⟩ := reaches_of_closes (isCycle_of_mem_cycles hg hc) hcloses hx
  exact ⟨(hreach.tail hlinked).trans hto, (hfrom.tail hlinked).trans hback⟩

/-- In a built graph, the dependency relation between modules that own their entry is acyclic
without the closing edges of the reported cycles. So no cycle is reported exactly if the relation
has none; a strongly connected set of two or more modules contains the closing edge of a reported
cycle, and a component of two or more contains a whole reported cycle. -/
theorem acyclic_up_to_reported_cycles {libraries : List String} {strict : Bool}
    {modules : List Module} {b : Built} (h : Graph.build libraries strict modules = .ok b) :
    (∀ a, ¬ TransGen b.graph.Kept a a) ∧
      (b.graph.cycles = [] ↔ ∀ a, ¬ TransGen b.graph.Linked a a) ∧
      (∀ S : Set ModuleId, b.graph.StronglyConnected S → S.Nontrivial →
        ∃ c ∈ b.graph.cycles, ∃ x ∈ S, ∃ y ∈ S, Closes c x y) ∧
      ∀ S : Set ModuleId, b.graph.IsComponent S → S.Nontrivial →
        ∃ c ∈ b.graph.cycles, ∀ x ∈ c, x ∈ S := by
  have hg := isGraphOf_of_build h
  refine ⟨not_transGen_kept hg, cycles_eq_nil_iff hg, ?_, ?_⟩
  · intro S hS hmany
    exact exists_closing_of_stronglyConnected hg hS hmany
  · intro S hS hmany
    exact exists_cycle_of_isComponent hg hS hmany

/-! ## A part of a component -/

/-- Three modules in a circle, and the first one depends on the last one too. -/
def triangle : List Module :=
  [.plainToolchain "a" ["b", "c"], .plain "b" ["c"], .plain "c" ["a"]]

theorem exists_build_triangle : ∃ b, Graph.build [] false triangle = .ok b ∧
    b.graph.cycles = [[0, 1, 2]] ∧
      ∀ x y, b.graph.Linked x y ↔ (x, y) ∈ [(0, 1), (0, 2), (1, 2), (2, 0)] := by
  have hview : (Graph.build [] false triangle).toOption.map (fun b =>
      (b.graph.cycles, owners b.graph.modules b.graph.entries,
        b.graph.dependencies 0, b.graph.dependencies 1, b.graph.dependencies 2)) =
      some ([[0, 1, 2]], [0, 1, 2], [1, 2], [2], [0]) := by
    decide
  obtain ⟨b, hb, heq⟩ := exists_ok_of_map_eq_some hview
  simp only [Prod.mk.injEq] at heq
  obtain ⟨hcycles, howners, hzero, hone, htwo⟩ := heq
  have hlinked := fun x y => linked_iff (isGraphOf_of_build hb) (a := x) (b := y)
  refine ⟨b, hb, hcycles, fun x y => ?_⟩
  rw [hlinked, howners]
  simp only [List.mem_cons, List.not_mem_nil, or_false, Prod.mk.injEq]
  constructor
  · rintro ⟨rfl | rfl | rfl, hxy, -⟩ <;> simp_all
  · rintro (⟨rfl, rfl⟩ | ⟨rfl, rfl⟩ | ⟨rfl, rfl⟩ | ⟨rfl, rfl⟩) <;> simp_all

/-- The first and the last module of the triangle depend on each other. -/
theorem stronglyConnected_ends (h02 : g.Linked 0 2) (h20 : g.Linked 2 0) :
    g.StronglyConnected {0, 2} := by
  rintro a (rfl | rfl) b (rfl | rfl)
  · exact .refl
  · exact .single ⟨h02, .inl rfl, .inr rfl⟩
  · exact .single ⟨h20, .inr rfl, .inl rfl⟩
  · exact .refl

theorem nontrivial_ends : Set.Nontrivial ({0, 2} : Set ModuleId) :=
  ⟨0, .inl rfl, 2, .inr rfl, by decide⟩

/-- A strongly connected part of a component need not contain a whole reported cycle. -/
theorem exists_stronglyConnected_without_cycle :
    ∃ b, Graph.build [] false triangle = .ok b ∧ ∃ S : Set ModuleId,
      b.graph.StronglyConnected S ∧ S.Nontrivial ∧ ¬ ∃ c ∈ b.graph.cycles, ∀ x ∈ c, x ∈ S := by
  obtain ⟨b, hb, hcycles, hlinked⟩ := exists_build_triangle
  refine ⟨b, hb, {0, 2}, stronglyConnected_ends ?_ ?_, nontrivial_ends, ?_⟩
  · exact (hlinked 0 2).2 (by decide)
  · exact (hlinked 2 0).2 (by decide)
  · rintro ⟨c, hc, hsub⟩
    rw [hcycles] at hc
    obtain rfl := List.mem_singleton.1 hc
    have hone : (1 : ModuleId) ∈ ({0, 2} : Set ModuleId) := hsub 1 (by decide)
    rcases hone with h | h <;> cases h

theorem acyclic_up_to_reported_cycles_triangle :
    ∃ b, Graph.build [] false triangle = .ok b ∧
      ¬ TransGen b.graph.Kept 0 0 ∧ TransGen b.graph.Linked 0 0 ∧ b.graph.cycles ≠ [] ∧
      (∃ c ∈ b.graph.cycles, ∃ x ∈ ({0, 2} : Set ModuleId), ∃ y ∈ ({0, 2} : Set ModuleId),
        Closes c x y) ∧
      ∃ c ∈ b.graph.cycles, ∀ x ∈ c, x ∈ ({0, 1, 2} : Set ModuleId) := by
  obtain ⟨b, hb, hcycles, hlinked⟩ := exists_build_triangle
  have h01 : b.graph.Linked 0 1 := (hlinked 0 1).2 (by decide)
  have h02 : b.graph.Linked 0 2 := (hlinked 0 2).2 (by decide)
  have h12 : b.graph.Linked 1 2 := (hlinked 1 2).2 (by decide)
  have h20 : b.graph.Linked 2 0 := (hlinked 2 0).2 (by decide)
  have hround : TransGen b.graph.Linked 0 0 := .head h02 (.single h20)
  obtain ⟨hkept, hnone, hpart, hwhole⟩ := acyclic_up_to_reported_cycles hb
  refine ⟨b, hb, hkept 0, hround, fun h => hnone.1 h 0 hround,
    hpart {0, 2} (stronglyConnected_ends h02 h20) nontrivial_ends, hwhole {0, 1, 2} ?_ ?_⟩
  · intro a ha c
    have hto : ∀ x ∈ ({0, 1, 2} : Set ModuleId), ReflTransGen b.graph.Linked 0 x := by
      rintro x (rfl | rfl | rfl)
      · exact .refl
      · exact .single h01
      · exact .single h02
    have hfrom : ∀ x ∈ ({0, 1, 2} : Set ModuleId), ReflTransGen b.graph.Linked x 0 := by
      rintro x (rfl | rfl | rfl)
      · exact .refl
      · exact .head h12 (.single h20)
      · exact .single h20
    refine ⟨fun hc => ⟨(hfrom a ha).trans (hto c hc), (hfrom c hc).trans (hto a ha)⟩, ?_⟩
    rintro ⟨hreach, -⟩
    rcases hreach.cases_tail with rfl | ⟨x, -, hx⟩
    · exact ha
    · have hpair := (hlinked x c).1 hx
      simp only [List.mem_cons, List.not_mem_nil, or_false, Prod.mk.injEq] at hpair
      rcases hpair with ⟨-, rfl⟩ | ⟨-, rfl⟩ | ⟨-, rfl⟩ | ⟨-, rfl⟩ <;> simp
  · exact ⟨0, .inl rfl, 1, .inr (.inl rfl), by decide⟩

end Graph

end BuildGraph
