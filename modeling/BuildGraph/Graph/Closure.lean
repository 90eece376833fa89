import BuildGraph.Graph.Basic
set_option autoImplicit false

/-!
# What a module needs

Everything that can be reached from a module along dependencies, itself left out. The search keeps
the modules not yet seen and a list of modules still to look at; each step either uses up a module
not seen before or shortens the list, so that it ends on every graph. `Reaches` is the relation
that the search decides.
-/

namespace BuildGraph

/-- A way of one or more steps. -/
inductive Reaches (next : ModuleId → List ModuleId) : ModuleId → ModuleId → Prop
  | step {a b : ModuleId} : b ∈ next a → Reaches next a b
  | more {a b c : ModuleId} : b ∈ next a → Reaches next b c → Reaches next a c

namespace Reaches

variable {next : ModuleId → List ModuleId}

theorem trans {a b c : ModuleId} (h : Reaches next a b) (k : Reaches next b c) :
    Reaches next a c := by
  induction h with
  | step s => exact .more s k
  | more s _ ih => exact .more s (ih k)

end Reaches

/-- The modules among `unseen` that the search comes upon from the modules `todo`, each once, in
the order in which it does. -/
def collect (next : ModuleId → List ModuleId) (unseen : List ModuleId) :
    List ModuleId → List ModuleId
  | [] => []
  | id :: todo =>
    if id ∈ unseen then id :: collect next (unseen.erase id) (next id ++ todo)
    else collect next unseen todo
termination_by todo => (unseen.length, todo.length)
decreasing_by
  · rename_i h
    apply Prod.Lex.left
    rw [List.length_erase_of_mem h]
    have := List.length_pos_of_mem h
    omega
  · apply Prod.Lex.right
    simp

/-- Everything that a module needs, directly or not, in ascending order and without itself. -/
def Graph.closure (g : Graph) (id : ModuleId) : List ModuleId :=
  let all := List.range g.modules.length
  let found := collect g.dependencies (all.erase id) (g.dependencies id)
  all.filter fun k => found.contains k

/-! ## Small laws -/

/-- The search finds only modules that it was allowed to find. -/
theorem mem_unseen_of_mem_collect {next : ModuleId → List ModuleId} {unseen todo : List ModuleId}
    {x : ModuleId} (h : x ∈ collect next unseen todo) : x ∈ unseen := by
  fun_induction collect next unseen todo with
  | case1 => simp at h
  | case2 unseen id todo hid ih =>
    rcases List.mem_cons.1 h with rfl | h
    · exact hid
    · exact List.mem_of_mem_erase (ih h)
  | case3 unseen id todo hid ih => exact ih h

/-- What the search finds can be reached from where it starts. -/
theorem mem_todo_or_reaches_of_mem_collect {next : ModuleId → List ModuleId}
    {unseen todo : List ModuleId} {x : ModuleId} (h : x ∈ collect next unseen todo) :
    ∃ a ∈ todo, x = a ∨ Reaches next a x := by
  fun_induction collect next unseen todo with
  | case1 => simp at h
  | case2 unseen id todo hid ih =>
    rcases List.mem_cons.1 h with rfl | h
    · exact ⟨_, List.mem_cons_self, .inl rfl⟩
    · obtain ⟨a, ha, hx⟩ := ih h
      rcases List.mem_append.1 ha with ha | ha
      · refine ⟨id, List.mem_cons_self, .inr ?_⟩
        rcases hx with rfl | hx
        · exact .step ha
        · exact .more ha hx
      · exact ⟨a, List.mem_cons_of_mem _ ha, hx⟩
  | case3 unseen id todo hid ih =>
    obtain ⟨a, ha, hx⟩ := ih h
    exact ⟨a, List.mem_cons_of_mem _ ha, hx⟩

end BuildGraph
