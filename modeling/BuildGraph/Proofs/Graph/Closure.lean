import BuildGraph.Graph.Closure
import BuildGraph.Proofs.Graph.Built
import Mathlib.Logic.Relation
set_option autoImplicit false

/-!
# What a module needs, exactly

The closure of a module holds the modules that can be reached from it by steps of the graph, except
the module itself. That nothing is left out rests on an invariant of the search: what it has found
by its end is closed under steps to modules that it was allowed to find. A way may lead through the
origin of the search; from there on it is a way from the origin, which was searched too.
-/

namespace BuildGraph

open Relation

variable {next : ModuleId → List ModuleId} {unseen todo : List ModuleId} {a b : ModuleId}

theorem reaches_iff_transGen : Reaches next a b ↔ TransGen (fun x y => y ∈ next x) a b := by
  constructor
  · intro h
    induction h with
    | step hab => exact .single hab
    | more hab _ ih => exact .head hab ih
  · intro h
    induction h using TransGen.head_induction_on with
    | single hab => exact .step hab
    | head hab _ ih => exact .more hab ih

/-! ## The search -/

/-- The search finds every module to look at that it has not seen. -/
theorem mem_collect_of_mem_todo (ha : a ∈ todo) (hu : a ∈ unseen) :
    a ∈ collect next unseen todo := by
  fun_induction collect next unseen todo with
  | case1 => exact ha
  | case2 unseen id todo hid ih =>
    by_cases haid : a = id
    · exact haid ▸ List.mem_cons_self
    · have hrest : a ∈ todo := (List.mem_cons.1 ha).resolve_left haid
      have herase : a ∈ unseen.erase id := (List.mem_erase_of_ne haid).2 hu
      exact List.mem_cons_of_mem id (ih (List.mem_append_right _ hrest) herase)
  | case3 unseen id todo hid ih =>
    rcases List.mem_cons.1 ha with rfl | hrest
    · exact absurd hu hid
    · exact ih hrest hu

/-- What the search finds is closed under steps to modules that it had not seen at its start. -/
theorem mem_collect_of_mem_next (ha : a ∈ collect next unseen todo) (hab : b ∈ next a)
    (hb : b ∈ unseen) : b ∈ collect next unseen todo := by
  fun_induction collect next unseen todo with
  | case1 => exact absurd ha List.not_mem_nil
  | case2 unseen id todo hid ih =>
    by_cases hbid : b = id
    · exact hbid ▸ List.mem_cons_self
    · have herase : b ∈ unseen.erase id := (List.mem_erase_of_ne hbid).2 hb
      refine List.mem_cons_of_mem id ?_
      rcases List.mem_cons.1 ha with rfl | hrest
      · exact mem_collect_of_mem_todo (List.mem_append_left _ hab) herase
      · exact ih hrest herase
  | case3 unseen id todo hid ih => exact ih ha hb

/-! ## Closures -/

namespace Graph

variable {g : Graph} {r : Resolver} {o x : ModuleId}

theorem mem_closure_iff :
    x ∈ g.closure o ↔
      x < g.modules.length ∧
        x ∈ collect g.dependencies ((List.range g.modules.length).erase o) (g.dependencies o) := by
  unfold closure
  simp only [List.mem_filter, List.mem_range, List.contains_iff_mem]

theorem pairwise_closure (g : Graph) (o : ModuleId) : (g.closure o).Pairwise (· < ·) := by
  unfold closure
  exact List.pairwise_lt_range.filter _

/-- The modules that a search from a module may find are the others. -/
theorem mem_erase_range_iff {n : Nat} : x ∈ (List.range n).erase o ↔ x ≠ o ∧ x < n := by
  rw [List.nodup_range.mem_erase_iff, List.mem_range]

theorem transGen_step_of_mem_closure (h : x ∈ g.closure o) : TransGen g.Step o x := by
  obtain ⟨-, hfound⟩ := mem_closure_iff.1 h
  obtain ⟨a, ha, hax⟩ := mem_todo_or_reaches_of_mem_collect hfound
  have hoa : g.Step o a := mem_dependencies_iff.1 ha
  rcases hax with rfl | hax
  · exact .single hoa
  · have hway : TransGen g.Step a x :=
      TransGen.mono (fun _ _ => mem_dependencies_iff.1) a x (reaches_iff_transGen.1 hax)
    exact .head hoa hway

/-- One more step leads from the origin or what is found to the origin or what is found. -/
theorem eq_or_mem_closure_of_step (hg : g.IsGraphOf r) {y : ModuleId} (hy : y = o ∨ y ∈ g.closure o)
    (hyx : g.Step y x) : x = o ∨ x ∈ g.closure o := by
  by_cases hxo : x = o
  · exact .inl hxo
  · have hlt : x < g.modules.length := hg.modules_eq ▸ hg.lt_of_step hyx
    have hunseen : x ∈ (List.range g.modules.length).erase o :=
      mem_erase_range_iff.2 ⟨hxo, hlt⟩
    refine .inr (mem_closure_iff.2 ⟨hlt, ?_⟩)
    rcases hy with rfl | hy
    · exact mem_collect_of_mem_todo (mem_dependencies_iff.2 hyx) hunseen
    · exact mem_collect_of_mem_next (mem_closure_iff.1 hy).2 (mem_dependencies_iff.2 hyx) hunseen

theorem eq_or_mem_closure_of_transGen (hg : g.IsGraphOf r) (h : TransGen g.Step o x) :
    x = o ∨ x ∈ g.closure o := by
  induction h with
  | single hox => exact eq_or_mem_closure_of_step hg (.inl rfl) hox
  | tail _ hyx ih => exact eq_or_mem_closure_of_step hg ih hyx

theorem ne_of_mem_closure (h : x ∈ g.closure o) : x ≠ o := by
  have hunseen := mem_unseen_of_mem_collect (mem_closure_iff.1 h).2
  exact (mem_erase_range_iff.1 hunseen).1

theorem mem_closure_iff_transGen (hg : g.IsGraphOf r) :
    x ∈ g.closure o ↔ x ≠ o ∧ TransGen g.Step o x := by
  constructor
  · intro h
    exact ⟨ne_of_mem_closure h, transGen_step_of_mem_closure h⟩
  · rintro ⟨hne, hway⟩
    exact (eq_or_mem_closure_of_transGen hg hway).resolve_left hne

/-- In a built graph the closure of a module lists, in ascending order, exactly the modules other
than itself that can be reached from it by one or more steps. -/
theorem closure_exact {libraries : List String} {strict : Bool} {modules : List Module} {b : Built}
    (h : Graph.build libraries strict modules = .ok b) (o : ModuleId) :
    (b.graph.closure o).Pairwise (· < ·) ∧
      ∀ x, x ∈ b.graph.closure o ↔ x ≠ o ∧ TransGen b.graph.Step o x := by
  have hg := isGraphOf_of_build h
  refine ⟨pairwise_closure b.graph o, fun x => ⟨?_, ?_⟩⟩
  · intro hx
    exact ⟨ne_of_mem_closure hx, transGen_step_of_mem_closure hx⟩
  · rintro ⟨hne, hway⟩
    exact (eq_or_mem_closure_of_transGen hg hway).resolve_left hne

/-- Of three modules in a circle, each needs the two others but not itself. -/
theorem closure_exact_circle :
    ∃ b, Graph.build [] false
        [.plainToolchain "a" ["b"], .plain "b" ["c"], .plain "c" ["a"]] = .ok b ∧
      1 ∈ b.graph.closure 0 ∧ 2 ∈ b.graph.closure 0 ∧ 0 ∉ b.graph.closure 0 ∧
        TransGen b.graph.Step 0 0 := by
  have hview : (Graph.build [] false
      [.plainToolchain "a" ["b"], .plain "b" ["c"], .plain "c" ["a"]]).toOption.map (fun b =>
        (b.graph.dependencies 0, b.graph.dependencies 1, b.graph.dependencies 2)) =
      some ([1], [2], [0]) := by
    decide +kernel
  obtain ⟨b, hb, heq⟩ := exists_ok_of_map_eq_some hview
  simp only [Prod.mk.injEq] at heq
  obtain ⟨hzero, hone, htwo⟩ := heq
  have h01 : b.graph.Step 0 1 := mem_dependencies_iff.1 (hzero ▸ List.mem_cons_self)
  have h12 : b.graph.Step 1 2 := mem_dependencies_iff.1 (hone ▸ List.mem_cons_self)
  have h20 : b.graph.Step 2 0 := mem_dependencies_iff.1 (htwo ▸ List.mem_cons_self)
  have hmem := (closure_exact hb 0).2
  refine ⟨b, hb, (hmem 1).2 ⟨by decide, .single h01⟩, ?_, fun h => ((hmem 0).1 h).1 rfl, ?_⟩
  · exact (hmem 2).2 ⟨by decide, .head h01 (.single h12)⟩
  · exact .head h01 (.head h12 (.single h20))

end Graph

end BuildGraph
