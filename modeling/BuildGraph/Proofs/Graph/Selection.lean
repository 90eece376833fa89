import BuildGraph.Proofs.Graph.Built
import BuildGraph.Proofs.Graph.Embedding
set_option autoImplicit false

/-!
# The toolchain of a graph

Read in the order in which they were found, the active modules of a built graph have its
toolchain in the one place that counts: whatever carries settings in front of it has a lower
priority, and nothing behind it has a higher one. Names have no part in this. A toolchain that
has lost its name to a later module, even to another toolchain, is chosen all the same.
-/

namespace BuildGraph

variable {ms : List Module} {ps before after : List (ModuleId × Module)} {p : ModuleId × Module}
  {a : ModuleId} {m : Module} {settings : Toolchain}

/-- Among some modules in order, one that carries the settings: those in front of it that carry
any have a lower priority, and those behind it no higher one. -/
structure IsFirstBest (ps : List (ModuleId × Module)) (a : ModuleId) (m : Module)
    (settings : Toolchain) : Prop where
  carries : m.toolchain = some settings
  splits : ∃ before after, ps = before ++ (a, m) :: after ∧
    (∀ p ∈ before, ∀ s, p.2.toolchain = some s → s.priority.rank < settings.priority.rank) ∧
    ∀ p ∈ after, ∀ s, p.2.toolchain = some s → s.priority.rank ≤ settings.priority.rank

namespace Graph

/-- The active modules among some, in order. -/
def activeOf (ms : List Module) : List (ModuleId × Module) :=
  (numbered ms).filter fun p => p.2.isActive

theorem mem_activeOf_iff : p ∈ activeOf ms ↔ ms[p.1]? = some p.2 ∧ p.2.isActive = true := by
  rw [activeOf, List.mem_filter, mem_numbered_iff]

/-- The positions ascend up to a module and on from it. -/
theorem lt_of_activeOf_eq (h : activeOf ms = before ++ p :: after) :
    (∀ q ∈ before, q.1 < p.1) ∧ ∀ q ∈ after, p.1 < q.1 := by
  have hordered := (pairwise_numbered ms).filter fun p => p.2.isActive
  change (activeOf ms).Pairwise _ at hordered
  rw [h] at hordered
  obtain ⟨-, hafter, hbefore⟩ := List.pairwise_append.1 hordered
  exact ⟨fun q hq => hbefore q hq p List.mem_cons_self, (List.pairwise_cons.1 hafter).1⟩

/-- A choice among some modules is the first of the best among the active ones in order. -/
theorem isFirstBest_iff :
    IsFirstBest (activeOf ms) a m settings ↔ ms[a]? = some m ∧ IsChoice ms a settings := by
  constructor
  · intro h
    obtain ⟨hcarries, before, after, hsplit, hbefore, hafter⟩ := h
    obtain ⟨hlt, hgt⟩ := lt_of_activeOf_eq hsplit
    have hself : (a, m) ∈ activeOf ms :=
      hsplit ▸ List.mem_append_right before List.mem_cons_self
    obtain ⟨hm, hactive⟩ := mem_activeOf_iff.1 hself
    refine ⟨hm, ⟨m, hm, hactive, hcarries⟩, fun k x s hx hxactive hs => ?_⟩
    have hk : (k, x) ∈ before ++ (a, m) :: after := hsplit ▸ mem_activeOf_iff.2 ⟨hx, hxactive⟩
    rcases List.mem_append.1 hk with hk | hk
    · have hlower := hbefore (k, x) hk s hs
      exact ⟨Nat.le_of_lt hlower, fun _ => hlower⟩
    · rcases List.mem_cons.1 hk with heq | hk
      · cases heq
        obtain rfl := Option.some.inj (hs.symm.trans hcarries)
        exact ⟨Nat.le_refl _, fun hself => absurd hself (Nat.lt_irrefl _)⟩
      · exact ⟨hafter (k, x) hk s hs, fun hfront => absurd hfront (Nat.lt_asymm (hgt (k, x) hk))⟩
  · intro h
    obtain ⟨hm, ⟨m', hm', hactive, hcarries⟩, hbest⟩ := h
    obtain rfl := Option.some.inj (hm'.symm.trans hm)
    have hself : (a, m') ∈ activeOf ms := mem_activeOf_iff.2 ⟨hm, hactive⟩
    obtain ⟨before, after, hsplit⟩ := List.append_of_mem hself
    obtain ⟨hlt, -⟩ := lt_of_activeOf_eq hsplit
    have hranked : ∀ p ∈ before ++ (a, m') :: after, ∀ s, p.2.toolchain = some s →
        s.priority.rank ≤ settings.priority.rank ∧
          (p.1 < a → s.priority.rank < settings.priority.rank) := by
      intro p hp s hs
      obtain ⟨hget, hpactive⟩ := mem_activeOf_iff.1 (hsplit ▸ hp)
      exact hbest p.1 p.2 s hget hpactive hs
    refine ⟨hcarries, before, after, hsplit, fun p hp s hs => ?_, fun p hp s hs => ?_⟩
    · exact (hranked p (List.mem_append_left _ hp) s hs).2 (hlt p hp)
    · exact (hranked p (List.mem_append_right _ (List.mem_cons_of_mem _ hp)) s hs).1

/-- The toolchain of a built graph is the first one of the highest priority among the active
modules that carry settings, in the order in which they were found, and the settings of the graph
are those that it carries. No other module and no other settings are of this kind. -/
theorem toolchain_isFirstBest {libraries : List String} {strict : Bool} {modules : List Module}
    {b : Built} (h : Graph.build libraries strict modules = .ok b) :
    b.graph.modules = modules ∧
      (∃ m, modules[b.graph.toolchain]? = some m ∧
        IsFirstBest b.graph.active b.graph.toolchain m b.graph.settings) ∧
      ∀ a m settings, IsFirstBest b.graph.active a m settings →
        a = b.graph.toolchain ∧ settings = b.graph.settings := by
  have hmodules : b.graph.modules = modules := (isGraphOf_of_build h).modules_eq
  have hactive : b.graph.active = activeOf modules := hmodules ▸ rfl
  have hchoice := isChoice_of_build h
  obtain ⟨m, hm, -, -⟩ := hchoice.carries
  refine ⟨hmodules, ⟨m, hm, ?_⟩, fun a x settings hbest => ?_⟩
  · rw [hactive]
    exact isFirstBest_iff.2 ⟨hm, hchoice⟩
  · rw [hactive] at hbest
    exact (isFirstBest_iff.1 hbest).2.unique hchoice

/-- A toolchain of a kind and a name. -/
def rivalNamed (name : String) (priority : Priority) : Module :=
  { Module.plain name [] with toolchain := some { Toolchain.default with priority } }

/-- Toolchains of both kinds in turn. The first primary one takes no part, and the next one loses
its name. -/
def rivals : List Module :=
  [rivalNamed "s" .secondary, (rivalNamed "p" .primary).exclude, rivalNamed "q" .primary,
    rivalNamed "r" .secondary, rivalNamed "q" .primary, .plain "a" ["q"]]

/-- The first active primary toolchain is chosen, although the entry of its name belongs to
another. -/
theorem toolchain_isFirstBest_rivals :
    ∃ b, Graph.build [] false rivals = .ok b ∧ b.graph.toolchain = 2 ∧ ¬ b.graph.Owns 2 ∧
      ∃ m, IsFirstBest b.graph.active 2 m b.graph.settings := by
  have hview : (Graph.build [] false rivals).toOption.map (fun b =>
      (b.graph.toolchain, b.graph.targetName 2, b.graph.entries.find? "q")) =
      some (2, "q", some (.owned 4 [])) := by
    decide +kernel
  obtain ⟨b, hb, heq⟩ := exists_ok_of_map_eq_some hview
  obtain ⟨htoolchain, heq⟩ := Prod.mk.inj heq
  obtain ⟨hname, hfind⟩ := Prod.mk.inj heq
  obtain ⟨-, ⟨m, -, hbest⟩, -⟩ := toolchain_isFirstBest hb
  rw [htoolchain] at hbest
  refine ⟨b, hb, htoolchain, fun howns => ?_, m, hbest⟩
  obtain ⟨ds, howned⟩ := howns
  rw [hname, hfind] at howned
  cases howned

end Graph

end BuildGraph
