import BuildGraph.Proofs.Graph.Entries
import BuildGraph.Proofs.Outline.Walk
set_option autoImplicit false

/-!
# Every dependency is shown once

The first line that shows a module has below it everything that the module needs directly, and any
other line that shows it has nothing below it. What carries this is the set of modules that have
been shown: a module that is in it already is marked and left, or has nothing below it anyway.

The statements are about the lines of an outline and what stands below each of them by its depth,
`Graph.expansions`; how the lines came about is of no account.
-/

namespace BuildGraph

variable {g : Graph} {way ids s t : List ModuleId} {cs : List OutlineChild} {f : Forest}
  {a : ModuleId} {E F : List (OutlineItem × List OutlineItem)}

/-- The module that an item shows, if it shows one. -/
def OutlineItem.module? : OutlineItem → Option ModuleId
  | .module id _ => some id
  | .system _ => none

/-- What the lines of an outline show, each with what stands directly below it. -/
def Graph.expansions (g : Graph) : List (OutlineItem × List OutlineItem) :=
  Outline.expansions (Outline.ofGraph g).lines

/-! ## What stands below a module -/

namespace Outline

/-- What stands below the lines that show a module, all in all. -/
def under (a : ModuleId) (E : List (OutlineItem × List OutlineItem)) : List OutlineItem :=
  E.flatMap fun p => if p.1.module? = some a then p.2 else []

/-- No line shows the module. -/
def Absent (a : ModuleId) (E : List (OutlineItem × List OutlineItem)) : Prop :=
  ∀ p ∈ E, p.1.module? ≠ some a

/-- Nothing stands below a line that shows the module. -/
def Unexpanded (a : ModuleId) (E : List (OutlineItem × List OutlineItem)) : Prop :=
  ∀ p ∈ E, p.1.module? = some a → p.2 = []

/-- The first line that shows the module has no mark and the given items below it, and no other line
that shows it has anything below it. -/
def ExpandedOnce (a : ModuleId) (cs : List OutlineChild)
    (E : List (OutlineItem × List OutlineItem)) : Prop :=
  ∃ before items after, E = before ++ (.module a .plain, items) :: after ∧
    items.map OutlineItem.child = cs ∧ Absent a before ∧ Unexpanded a after

theorem Absent.unexpanded (h : Absent a E) : Unexpanded a E :=
  fun p hp hshows => absurd hshows (h p hp)

theorem Absent.cons {p : OutlineItem × List OutlineItem} (hp : p.1.module? ≠ some a)
    (h : Absent a E) : Absent a (p :: E) :=
  List.forall_mem_cons.2 ⟨hp, h⟩

theorem Absent.append (h : Absent a E) (h' : Absent a F) : Absent a (E ++ F) :=
  List.forall_mem_append.2 ⟨h, h'⟩

theorem Unexpanded.cons {p : OutlineItem × List OutlineItem}
    (hp : p.1.module? = some a → p.2 = []) (h : Unexpanded a E) : Unexpanded a (p :: E) :=
  List.forall_mem_cons.2 ⟨hp, h⟩

theorem Unexpanded.append (h : Unexpanded a E) (h' : Unexpanded a F) : Unexpanded a (E ++ F) :=
  List.forall_mem_append.2 ⟨h, h'⟩

/-- A module that is expanded later on is expanded once. -/
theorem ExpandedOnce.append_left (h : Absent a E) (h' : ExpandedOnce a cs F) :
    ExpandedOnce a cs (E ++ F) := by
  obtain ⟨before, items, after, rfl, hitems, hbefore, hafter⟩ := h'
  exact ⟨E ++ before, items, after, (List.append_assoc _ _ _).symm, hitems, h.append hbefore,
    hafter⟩

/-- A module that has been expanded before is expanded once. -/
theorem ExpandedOnce.append_right (h : ExpandedOnce a cs E) (h' : Unexpanded a F) :
    ExpandedOnce a cs (E ++ F) := by
  obtain ⟨before, items, after, rfl, hitems, hbefore, hafter⟩ := h
  exact ⟨before, items, after ++ F, by simp, hitems, hbefore, hafter.append h'⟩

theorem ExpandedOnce.cons {p : OutlineItem × List OutlineItem} (hp : p.1.module? ≠ some a)
    (h : ExpandedOnce a cs E) : ExpandedOnce a cs (p :: E) :=
  ExpandedOnce.append_left (E := [p]) (fun _ hq => List.mem_singleton.1 hq ▸ hp) h

theorem under_append (a : ModuleId) (E F : List (OutlineItem × List OutlineItem)) :
    under a (E ++ F) = under a E ++ under a F :=
  List.flatMap_append

theorem Unexpanded.under_eq_nil (h : Unexpanded a E) : under a E = [] := by
  refine List.flatMap_eq_nil_iff.2 fun p hp => ?_
  by_cases hshows : p.1.module? = some a
  · rw [if_pos hshows, h p hp hshows]
  · rw [if_neg hshows]

/-- What stands below the lines that show a module stands below one of them. -/
theorem ExpandedOnce.map_child_under (h : ExpandedOnce a cs E) :
    (under a E).map OutlineItem.child = cs := by
  obtain ⟨before, items, after, rfl, hitems, hbefore, hafter⟩ := h
  have hself : under a [(.module a .plain, items)] = items := by
    simp [under, OutlineItem.module?]
  rw [← List.singleton_append, under_append, under_append, hbefore.unexpanded.under_eq_nil,
    hafter.under_eq_nil, hself, List.nil_append, List.append_nil, hitems]

theorem ExpandedOnce.unexpanded (h : ExpandedOnce a [] E) : Unexpanded a E := by
  obtain ⟨before, items, after, rfl, hitems, hbefore, hafter⟩ := h
  exact hbefore.unexpanded.append (hafter.cons fun _ => List.map_eq_nil_iff.1 hitems)

end Outline

open Outline (Absent Unexpanded ExpandedOnce)

/-! ## The modules that have been shown -/

/-- What the lines of a forest say about a module, by the modules shown before and after. -/
structure Accounts (g : Graph) (s t : List ModuleId) (a : ModuleId)
    (E : List (OutlineItem × List OutlineItem)) : Prop where
  /-- A module shown before is not expanded again. -/
  unexpanded : a ∈ s → Unexpanded a E
  expanded : a ∉ s → a ∈ t → ExpandedOnce a (g.children a) E
  absent : a ∉ t → Absent a E

theorem Accounts.nil {s : List ModuleId} : Accounts g s s a [] where
  unexpanded _ _ hp := absurd hp List.not_mem_nil
  expanded hnew hshown := absurd hshown hnew
  absent _ _ hp := absurd hp List.not_mem_nil

/-- Lines that follow each other account for the modules of both. -/
theorem Accounts.append {u : List ModuleId} (hst : s ⊆ t) (htu : t ⊆ u) (h : Accounts g s t a E)
    (h' : Accounts g t u a F) : Accounts g s u a (E ++ F) where
  unexpanded hs := (h.unexpanded hs).append (h'.unexpanded (hst hs))
  expanded hs hu := by
    by_cases ht : a ∈ t
    · exact (h.expanded hs ht).append_right (h'.unexpanded ht)
    · exact ExpandedOnce.append_left (h.absent ht) (h'.expanded ht hu)
  absent hu := (h.absent fun ht => hu (htu ht)).append (h'.absent hu)

/-- A line without anything below it accounts for modules shown before. -/
theorem Accounts.cons_shown {item : OutlineItem} (hitem : ∀ k, item.module? = some k → k ∈ s)
    (hst : s ⊆ t) (h : Accounts g s t a E) : Accounts g s t a ((item, []) :: E) where
  unexpanded hs := (h.unexpanded hs).cons fun _ => rfl
  expanded hs ht := (h.expanded hs ht).cons fun hk => hs (hitem a hk)
  absent ht := (h.absent ht).cons fun hk => ht (hst (hitem a hk))

/-- A line accounts for the module that it shows and expands, if nothing stands below it in case the
module was shown before. -/
theorem Accounts.cons_plain {k : ModuleId} {items : List OutlineItem}
    (hitems : items.map OutlineItem.child = g.children k) (hold : k ∈ s → g.children k = [])
    (hst : k :: s ⊆ t) (h : Accounts g (k :: s) t a E) :
    Accounts g s t a ((.module k .plain, items) :: E) where
  unexpanded hs := by
    refine (h.unexpanded (List.mem_cons_of_mem k hs)).cons fun hk => ?_
    obtain rfl := Option.some.inj hk
    rw [hold hs] at hitems
    exact List.map_eq_nil_iff.1 hitems
  expanded hs ht := by
    by_cases hk : a = k
    · subst hk
      refine ⟨[], items, E, rfl, hitems, ?_, h.unexpanded List.mem_cons_self⟩
      exact fun p hp => absurd hp List.not_mem_nil
    · have hnew : a ∉ k :: s := fun hmem => hs ((List.mem_cons.1 hmem).resolve_left hk)
      exact (h.expanded hnew ht).cons fun heq => hk (Option.some.inj heq).symm
  absent ht := by
    refine (h.absent ht).cons fun hk => ht ?_
    obtain rfl := Option.some.inj hk
    exact hst List.mem_cons_self

/-- What is shown below a module is its children, and each line accounts for its module. -/
theorem accounts_of_shows (h : Shows g way cs s f t) (hway : way ⊆ s) :
    f.tops.map OutlineItem.child = cs ∧ s ⊆ t ∧ ∀ a, Accounts g s t a f.expansions := by
  induction h with
  | done => exact ⟨rfl, List.Subset.refl _, fun _ => .nil⟩
  | system _ ih =>
    obtain ⟨htops, hst, haccounts⟩ := ih hway
    refine ⟨congrArg (List.cons _) htops, hst, fun a => (haccounts a).cons_shown ?_ hst⟩
    intro k hk
    cases hk
  | cyclic hon _ ih =>
    obtain ⟨htops, hst, haccounts⟩ := ih hway
    refine ⟨congrArg (List.cons _) htops, hst, fun a => (haccounts a).cons_shown ?_ hst⟩
    intro k hk
    obtain rfl := Option.some.inj hk
    exact hway hon
  | repeated _ hshown _ _ ih =>
    obtain ⟨htops, hst, haccounts⟩ := ih hway
    refine ⟨congrArg (List.cons _) htops, hst, fun a => (haccounts a).cons_shown ?_ hst⟩
    intro k hk
    obtain rfl := Option.some.inj hk
    exact hshown
  | @plain way s t u cs below f k _ hnew _ _ ihbelow ihrest =>
    obtain ⟨hchildren, hkst, hbelow⟩ := ihbelow (List.cons_subset_cons k hway)
    have hst : s ⊆ t := fun x hx => hkst (List.mem_cons_of_mem k hx)
    obtain ⟨htops, htu, hrest⟩ := ihrest (List.Subset.trans hway hst)
    refine ⟨congrArg (List.cons _) htops, List.Subset.trans hst htu, fun a => ?_⟩
    refine .cons_plain hchildren (fun hshown => ?_) (List.Subset.trans hkst htu)
      ((hbelow a).append hkst htu (hrest a))
    -- A module that was shown before is entered again only if nothing stands below it.
    refine Graph.children_eq_nil_of_hasChildren_eq_false ?_
    exact Bool.eq_false_iff.2 fun hhas => hnew ⟨hshown, hhas⟩

theorem accounts_of_showsMargin (h : ShowsMargin g ids s f t) :
    s ⊆ t ∧ ids ⊆ t ∧ ∀ a, Accounts g s t a f.expansions := by
  induction h with
  | done => exact ⟨List.Subset.refl _, List.nil_subset _, fun _ => .nil⟩
  | skip hshown _ ih =>
    obtain ⟨hst, hids, haccounts⟩ := ih
    exact ⟨hst, List.cons_subset.2 ⟨hst hshown, hids⟩, haccounts⟩
  | @root ids s t u below f id hnew hbelow _ ih =>
    obtain ⟨htu, hids, hrest⟩ := ih
    have hway : [id] ⊆ id :: s := List.cons_subset_cons id (List.nil_subset s)
    obtain ⟨hchildren, hkst, haccounts⟩ := accounts_of_shows hbelow hway
    have hu : id :: s ⊆ u := List.Subset.trans hkst htu
    refine ⟨(List.cons_subset.1 hu).2, List.cons_subset.2 ⟨(List.cons_subset.1 hu).1, hids⟩, ?_⟩
    intro a
    exact .cons_plain hchildren (fun hshown => absurd hshown hnew) hu
      ((haccounts a).append hkst htu (hrest a))

/-! ## The order of system libraries -/

/-- Without repetitions, the values that are kept of a list stand in the order in which they occur
in it first. -/
theorem pairwise_idxOf_eraseDups_filter (keep : String → Bool) (l : List String) :
    (l.filter keep).eraseDups.Pairwise fun x y => l.idxOf x < l.idxOf y := by
  induction l generalizing keep with
  | nil => exact .nil
  | cons a l ih =>
    have hshift : ∀ ys : List String, a ∉ ys → ys.Pairwise (fun x y => l.idxOf x < l.idxOf y) →
        ys.Pairwise fun x y => (a :: l).idxOf x < (a :: l).idxOf y := by
      intro ys ha hys
      refine hys.imp_of_mem fun {x y} hx hy hlt => ?_
      have hax : a ≠ x := fun heq => ha (heq ▸ hx)
      have hay : a ≠ y := fun heq => ha (heq ▸ hy)
      rw [List.idxOf_cons_ne l hax, List.idxOf_cons_ne l hay]
      exact Nat.succ_lt_succ hlt
    by_cases hkeep : keep a = true
    · rw [List.filter_cons_of_pos hkeep, List.eraseDups_cons, List.filter_filter]
      have hnot : a ∉ (l.filter fun b => !b == a && keep b).eraseDups := by
        simp [List.mem_eraseDups]
      refine List.pairwise_cons.2 ⟨fun y hy => ?_, hshift _ hnot (ih _)⟩
      have hay : a ≠ y := fun heq => hnot (heq ▸ hy)
      rw [List.idxOf_cons_self, List.idxOf_cons_ne l hay]
      exact Nat.succ_pos _
    · rw [List.filter_cons_of_neg hkeep]
      refine hshift _ (fun hmem => hkeep ?_) (ih keep)
      exact (List.mem_filter.1 (List.mem_eraseDups.1 hmem)).2

namespace Graph

variable {r : Resolver} {name : String} {m : Module}

theorem isSystem_iff : g.isSystem name = true ↔ g.entries.find? name = some .system := by
  unfold isSystem
  cases g.entries.find? name with
  | none => simp
  | some e => cases e <;> simp [Entry.isSystem]

theorem systemNames_eq (hm : g.modules[a]? = some m) :
    g.systemNames a = (m.dependencies.all.filter g.isSystem).eraseDups := by
  unfold systemNames
  rw [hm]

/-! ## Outlines of built graphs -/

theorem exists_accounts (hg : g.IsGraphOf r) :
    ∃ t, (∀ a, g.Owns a → a ∈ t) ∧ ∀ a, Accounts g [] t a g.expansions := by
  obtain ⟨f, t, hmargin, heq⟩ := Outline.exists_showsMargin_ofGraph hg
  obtain ⟨-, hids, haccounts⟩ := accounts_of_showsMargin hmargin
  refine ⟨t, fun a howns => hids ?_, fun a => ?_⟩
  · exact mem_marginCandidates_iff.2 ((mem_owners_iff_owns hg).2 howns)
  · unfold expansions
    rw [heq, Forest.expansions_marginLines]
    exact haccounts a

theorem expandedOnce_of_owns (hg : g.IsGraphOf r) (h : g.Owns a) :
    ExpandedOnce a (g.children a) g.expansions := by
  obtain ⟨t, howners, haccounts⟩ := exists_accounts hg
  exact (haccounts a).expanded List.not_mem_nil (howners a h)

theorem unexpanded_of_not_owns (hg : g.IsGraphOf r) (h : ¬ g.Owns a) :
    Unexpanded a g.expansions := by
  obtain ⟨t, -, haccounts⟩ := exists_accounts hg
  by_cases hshown : a ∈ t
  · have honce := (haccounts a).expanded List.not_mem_nil hshown
    rw [children_of_not_owns h] at honce
    exact honce.unexpanded
  · exact ((haccounts a).absent hshown).unexpanded

/-- Below the lines that show a module stand the modules that it depends on. -/
theorem filterMap_module?_under (hg : g.IsGraphOf r) (a : ModuleId) :
    (Outline.under a g.expansions).filterMap OutlineItem.module? = g.dependencies a := by
  have hitem : ∀ item : OutlineItem, item.module? = item.child.module? := by
    intro item
    cases item <;> rfl
  have hunder : (Outline.under a g.expansions).map OutlineItem.child = g.children a := by
    by_cases howns : g.Owns a
    · exact (expandedOnce_of_owns hg howns).map_child_under
    · rw [(unexpanded_of_not_owns hg howns).under_eq_nil, children_of_not_owns howns]
      rfl
  rw [← filterMap_module?_children, ← hunder, List.filterMap_map]
  exact List.filterMap_congr fun item _ => hitem item

end Graph

namespace Graph

/-- The outline of a built graph shows every dependency exactly once. Its lines are indented by
their levels, and by these the following can be read off them. What stands below the lines that
show a module are, in ascending order, the modules to which a step leads from it. A module that
owns an entry has on its first line, and on no other line that shows it, its children: the
dependencies of the entry in ascending order, and then the system libraries among its declared
dependencies, each where it is declared first. A module without an entry of its own has none. -/
theorem expands_owners_once {libraries : List String} {strict : Bool} {modules : List Module}
    {b : Built} (h : Graph.build libraries strict modules = .ok b) :
    b.graph.outline =
      Text.ofLines ((Outline.ofGraph b.graph).lines.map (Outline.lineText b.graph)) ∧
    (∀ l, ∃ indent : String, indent.length = 4 * l.level ∧
      Outline.lineText b.graph l = indent ++ Outline.itemText b.graph l.item) ∧
    (∀ a, ((Outline.under a b.graph.expansions).filterMap OutlineItem.module?).Pairwise (· < ·) ∧
      ∀ k, k ∈ (Outline.under a b.graph.expansions).filterMap OutlineItem.module? ↔
        b.graph.Step a k) ∧
    (∀ a ds, b.graph.entries.find? (b.graph.targetName a) = some (.owned a ds) →
      ds.Pairwise (· < ·) ∧ ∃ (m : Module) (names : List String), modules[a]? = some m ∧
        (∀ name, name ∈ names ↔
          name ∈ m.dependencies.all ∧ b.graph.entries.find? name = some .system) ∧
        names.Pairwise (fun x y =>
          m.dependencies.all.idxOf x < m.dependencies.all.idxOf y) ∧
        ExpandedOnce a (ds.map .module ++ names.map .system) b.graph.expansions) ∧
    ∀ a, ¬ b.graph.Owns a → Unexpanded a b.graph.expansions := by
  have hg := isGraphOf_of_build h
  refine ⟨rfl, fun l => ⟨Outline.indent l, Outline.length_indent l, rfl⟩, fun a => ?_,
    fun a ds hfind => ?_, fun a => unexpanded_of_not_owns hg⟩
  · rw [filterMap_module?_under hg a]
    exact ⟨hg.pairwise_dependencies a, fun k => mem_dependencies_iff⟩
  · obtain ⟨m, hlast, hds⟩ := hg.find?_eq_owned_iff.1 hfind
    have hm : modules[a]? = some m := (of_lastNamed? hlast).1
    have hget : b.graph.modules[a]? = some m := by
      rw [hg.modules_eq]
      exact hm
    have hnames := systemNames_eq hget
    refine ⟨hds ▸ Resolver.pairwise_edges _ a m, m, b.graph.systemNames a, hm, fun name => ?_, ?_,
      ?_⟩
    · rw [hnames, List.mem_eraseDups, List.mem_filter, isSystem_iff]
    · rw [hnames]
      exact pairwise_idxOf_eraseDups_filter _ _
    · rw [← children_of_find? hfind]
      exact expandedOnce_of_owns hg ⟨ds, hfind⟩

/-- Two modules of one name, a diamond with a way back, and libraries that are named twice. -/
def meshed : List Module :=
  [.plainToolchain "t" ["a", "b"], .plain "c" ["lib"], .plain "a" ["c"],
    .plain "b" ["zlib", "a", "lib", "t", "zlib"], .plain "c" []]

/-- Of two modules named alike the one that lost its name stands below the module that needs it, and
has nothing below it itself. -/
theorem expands_owners_once_meshed :
    ∃ b, Graph.build ["lib", "zlib"] false meshed = .ok b ∧
      b.graph.entries.find? (b.graph.targetName 3) = some (.owned 3 [0, 2]) ∧
      (∃ names : List String, "zlib" ∈ names ∧ "lib" ∈ names ∧ "a" ∉ names ∧
        ExpandedOnce 3 ([.module 0, .module 2] ++ names.map .system) b.graph.expansions) ∧
      1 ∈ (Outline.under 2 b.graph.expansions).filterMap OutlineItem.module? ∧
      ¬ b.graph.Owns 1 ∧ Unexpanded 1 b.graph.expansions := by
  have hview : (Graph.build ["lib", "zlib"] false meshed).toOption.map (fun b =>
      (b.graph.entries.find? (b.graph.targetName 1), b.graph.entries.find? (b.graph.targetName 2),
        b.graph.entries.find? (b.graph.targetName 3),
        ["zlib", "lib", "a"].map b.graph.entries.find?)) =
      some (some (.owned 4 []), some (.owned 2 [1]), some (.owned 3 [0, 2]),
        [some .system, some .system, some (.owned 2 [1])]) := by
    decide +kernel
  obtain ⟨b, hb, heq⟩ := exists_ok_of_map_eq_some hview
  simp only [List.map_cons, List.map_nil, List.cons.injEq, Prod.mk.injEq] at heq
  obtain ⟨hloser, htwo, hthree, hzlib, hlib, ha, -⟩ := heq
  obtain ⟨-, -, hunder, hexpanded, hunexpanded⟩ := expands_owners_once hb
  obtain ⟨-, m, names, hm, hmem, -, honce⟩ := hexpanded 3 _ hthree
  obtain rfl := Option.some.inj hm
  have hnot : ¬ b.graph.Owns 1 := by
    rintro ⟨ds, hfind⟩
    cases hloser.symm.trans hfind
  have hstep : b.graph.Step 2 1 := ⟨_, htwo, List.mem_cons_self⟩
  refine ⟨b, hb, hthree, ⟨names, ?_, ?_, ?_, honce⟩, ((hunder 2).2 1).2 hstep, hnot,
    hunexpanded 1 hnot⟩
  · exact (hmem "zlib").2 ⟨by decide, hzlib⟩
  · exact (hmem "lib").2 ⟨by decide, hlib⟩
  · intro hname
    cases ha.symm.trans ((hmem "a").1 hname).2

end Graph

end BuildGraph
