import BuildGraph.Proofs.Graph.Closure
import BuildGraph.Proofs.Graph.Entries
import BuildGraph.Proofs.Outline.Walk
import BuildGraph.Proofs.Text.Lines
set_option autoImplicit false

/-!
# Cycles in an outline

An outline is drawn by a search for cycles from the modules at the margin: a line with the mark of a
cycle is drawn exactly where that search closes one (`searches_of_shows`). Whether a search closes
any cycle does not depend on where it starts, as long as it starts from every module that has a
dependency. So the outline of a graph shows a cycle exactly if one is reported for the graph, which
is the case exactly if two modules need each other.

On the printed page a cycle can be told by the end of its line: no kind of module and no other mark
ends a line in the same way.
-/

namespace BuildGraph

open Relation

variable {g : Graph} {r : Resolver} {way ids s t : List ModuleId} {cs : List OutlineChild}
  {f : Forest} {search : CycleSearch} {a : ModuleId}

/-! ## The search behind an outline -/

/-- An item of the forest has the mark of a cycle. -/
def Forest.HasCycle : Forest → Prop
  | .empty => False
  | .cons item below rest =>
    (∃ k, item = .module k .cyclic) ∨ below.HasCycle ∨ rest.HasCycle

theorem Forest.hasCycle_iff {f : Forest} :
    f.HasCycle ↔ ∃ k, OutlineItem.module k .cyclic ∈ f.items := by
  induction f with
  | empty => simp [Forest.HasCycle, Forest.items]
  | cons item below rest ihbelow ihrest =>
    simp only [Forest.HasCycle, Forest.items, List.mem_cons, List.mem_append, exists_or, ihbelow,
      ihrest, eq_comm]

/-- A search has come as far as an outline: it has entered the modules that have been shown. -/
def CycleSearch.Matches (search : CycleSearch) (s : List ModuleId) : Prop :=
  ∀ x, x ∈ search.entered ↔ x ∈ s

theorem CycleSearch.Matches.enter {k : ModuleId} (h : search.Matches s) :
    (search.enter k).Matches (k :: s) := by
  intro x
  change x ∈ k :: search.entered ↔ _
  rw [List.mem_cons, List.mem_cons, h x]

theorem CycleSearch.Matches.of_mem {k : ModuleId} (h : search.Matches s) (hk : k ∈ s) :
    search.Matches (k :: s) := by
  intro x
  rw [h x, List.mem_cons]
  constructor
  · exact .inr
  · rintro (rfl | hx)
    · exact hk
    · exact hx

theorem CycleSearch.cycles_close_ne_nil (search : CycleSearch) (way : List ModuleId)
    (id : ModuleId) : (search.close way id).cycles ≠ [] :=
  List.append_ne_nil_of_right_ne_nil _ (List.cons_ne_nil _ _)

/-- A search closes a cycle exactly where an outline shows one. -/
theorem searches_of_shows (h : Shows g way cs s f t) (hsearch : search.Matches s) :
    ∃ result, Searches g.dependencies way (cs.filterMap OutlineChild.module?) search result ∧
      result.Matches t ∧ (result.cycles ≠ [] ↔ search.cycles ≠ [] ∨ f.HasCycle) := by
  induction h generalizing search with
  | done => exact ⟨search, .done, hsearch, (or_iff_left id).symm⟩
  | system _ ih =>
    obtain ⟨result, hrest, hresult, hcycles⟩ := ih hsearch
    refine ⟨result, hrest, hresult, hcycles.trans ?_⟩
    simp [Forest.HasCycle]
  | @cyclic way s t cs f k hway _ ih =>
    have hclose : (search.close way k).Matches s := hsearch
    obtain ⟨result, hrest, hresult, hcycles⟩ := ih hclose
    refine ⟨result, .close hway hrest, hresult, hcycles.trans ?_⟩
    have hclosed := search.cycles_close_ne_nil way k
    exact iff_of_true (.inl hclosed) (.inr (.inl ⟨k, rfl⟩))
  | repeated hway hshown _ _ ih =>
    obtain ⟨result, hrest, hresult, hcycles⟩ := ih hsearch
    refine ⟨result, .skip hway ((hsearch _).2 hshown) hrest, hresult, hcycles.trans ?_⟩
    simp [Forest.HasCycle]
  | @plain way s t u cs below f k hway hnew hbelow _ ihbelow ihrest =>
    by_cases hshown : k ∈ s
    · -- Nothing stands below a module that is shown again without a mark.
      have hnone : g.children k = [] := by
        refine Graph.children_eq_nil_of_hasChildren_eq_false ?_
        exact Bool.eq_false_iff.2 fun hhas => hnew ⟨hshown, hhas⟩
      rw [hnone] at hbelow
      cases hbelow
      obtain ⟨result, hrest, hresult, hcycles⟩ := ihrest (hsearch.of_mem hshown)
      refine ⟨result, .skip hway ((hsearch k).2 hshown) hrest, hresult, hcycles.trans ?_⟩
      simp [Forest.HasCycle]
    · obtain ⟨left, hleft, hmatches, hleftcycles⟩ := ihbelow hsearch.enter
      obtain ⟨result, hrest, hresult, hcycles⟩ := ihrest hmatches
      rw [Graph.filterMap_module?_children] at hleft
      have hfresh : k ∉ search.entered := fun hk => hshown ((hsearch k).1 hk)
      refine ⟨result, .enter hway hfresh hleft hrest, hresult, ?_⟩
      rw [hcycles, hleftcycles]
      simp [Forest.HasCycle, CycleSearch.enter, or_assoc]

theorem searches_of_showsMargin (h : ShowsMargin g ids s f t) (hsearch : search.Matches s) :
    ∃ result, Searches g.dependencies [] ids search result ∧
      (result.cycles ≠ [] ↔ search.cycles ≠ [] ∨ f.HasCycle) := by
  induction h generalizing search with
  | done => exact ⟨search, .done, (or_iff_left id).symm⟩
  | skip hshown _ ih =>
    obtain ⟨result, hrest, hcycles⟩ := ih hsearch
    exact ⟨result, .skip List.not_mem_nil ((hsearch _).2 hshown) hrest, hcycles⟩
  | @root ids s t u below f id hnew hbelow _ ih =>
    obtain ⟨left, hleft, hmatches, hleftcycles⟩ := searches_of_shows hbelow hsearch.enter
    obtain ⟨result, hrest, hcycles⟩ := ih hmatches
    rw [Graph.filterMap_module?_children] at hleft
    have hfresh : id ∉ search.entered := fun hid => hnew ((hsearch id).1 hid)
    refine ⟨result, .enter List.not_mem_nil hfresh hleft hrest, ?_⟩
    rw [hcycles, hleftcycles]
    simp [Forest.HasCycle, CycleSearch.enter, or_assoc]

/-! ## Cycles by each search -/

namespace Graph

theorem findCycles_eq_nil_iff_not_transGen (hg : g.IsGraphOf r) {starts : List ModuleId}
    (hstarts : ∀ x, x ∈ starts ↔ x ∈ owners g.modules g.entries) :
    findCycles g.dependencies r.modules.length starts = [] ↔ ∀ a, ¬ TransGen g.Step a a := by
  have hlt : ∀ x ∈ starts, x < r.modules.length :=
    fun x hx => lt_of_mem_owners hg x ((hstarts x).1 hx)
  have hall : ∀ x, ∀ y ∈ g.dependencies x, x ∈ starts :=
    fun x y hy => (hstarts x).2 ((mem_owners_iff_owns hg).2 (mem_dependencies_iff.1 hy).owns)
  have hstep : (fun x y => y ∈ g.dependencies x) = g.Step := by
    funext x y
    exact propext mem_dependencies_iff
  rw [findCycles_eq_nil_iff (lt_of_mem_dependencies hg) hlt hall, hstep]

theorem cycles_eq_nil_iff_not_transGen (hg : g.IsGraphOf r) :
    g.cycles = [] ↔ ∀ a, ¬ TransGen g.Step a a := by
  rw [hg.cycles_eq]
  exact findCycles_eq_nil_iff_not_transGen hg fun _ => Iff.rfl

/-- A way round leads through two modules that need each other. -/
theorem exists_transGen_iff_exists_mem_closure (hg : g.IsGraphOf r) :
    (∃ a, TransGen g.Step a a) ↔ ∃ a b, a ≠ b ∧ b ∈ g.closure a ∧ a ∈ g.closure b := by
  constructor
  · rintro ⟨a, hround⟩
    obtain ⟨b, hstep, hback⟩ := TransGen.head'_iff.1 hround
    have hne : a ≠ b := hg.ne_of_step hstep
    have hway : TransGen g.Step b a := (reflTransGen_iff_eq_or_transGen.1 hback).resolve_left hne
    exact ⟨a, b, hne, (mem_closure_iff_transGen hg).2 ⟨hne.symm, .single hstep⟩,
      (mem_closure_iff_transGen hg).2 ⟨hne, hway⟩⟩
  · rintro ⟨a, b, -, hab, hba⟩
    exact ⟨a, (transGen_step_of_mem_closure hab).trans (transGen_step_of_mem_closure hba)⟩

/-- The outline has a line with the mark of a cycle exactly if there is a way round. -/
theorem exists_cyclic_line_iff (hg : g.IsGraphOf r) :
    (∃ l ∈ (Outline.ofGraph g).lines, ∃ k, l.item = .module k .cyclic) ↔
      ∃ a, TransGen g.Step a a := by
  obtain ⟨f, t, hmargin, heq⟩ := Outline.exists_showsMargin_ofGraph hg
  have hfresh : CycleSearch.fresh.Matches [] := fun x => Iff.rfl
  obtain ⟨result, hsearch, hcycles⟩ := searches_of_showsMargin hmargin hfresh
  have hfound : findCycles g.dependencies r.modules.length g.marginCandidates = result.cycles := by
    have hlt : ∀ x ∈ g.marginCandidates, x < r.modules.length :=
      fun x hx => lt_of_mem_owners hg x (mem_marginCandidates_iff.1 hx)
    obtain ⟨found, hfound, hfindCycles⟩ :=
      exists_searches_findCycles (lt_of_mem_dependencies hg) hlt
    rw [hfindCycles, hfound.unique hsearch]
  have hshown : f.HasCycle ↔ result.cycles ≠ [] := by
    rw [hcycles]
    exact (or_iff_right fun hne => hne rfl).symm
  have hlines : (∃ l ∈ (Outline.ofGraph g).lines, ∃ k, l.item = .module k .cyclic) ↔
      f.HasCycle := by
    rw [heq, Forest.hasCycle_iff, ← Forest.map_item_marginLines]
    simp only [List.mem_map]
    constructor
    · rintro ⟨l, hl, k, hk⟩
      exact ⟨k, l, hl, hk⟩
    · rintro ⟨k, l, hl, hk⟩
      exact ⟨l, hl, k, hk⟩
  rw [hlines, hshown, ← hfound, ne_eq,
    findCycles_eq_nil_iff_not_transGen hg fun x => mem_marginCandidates_iff, not_forall_not]

end Graph

/-! ## Names on lines -/

/-- A system library is shown because a module depends on it. -/
theorem system_mem_of_shows {name : String} (h : Shows g way cs s f t)
    (hname : .system name ∈ f.items) :
    .system name ∈ cs ∨ ∃ a, OutlineChild.system name ∈ g.children a := by
  induction h with
  | done => cases hname
  | system _ ih =>
    rcases List.mem_cons.1 hname with heq | hname
    · cases heq
      exact .inl List.mem_cons_self
    · exact (ih hname).imp_left (List.mem_cons_of_mem _)
  | cyclic _ _ ih | repeated _ _ _ _ ih =>
    rcases List.mem_cons.1 hname with heq | hname
    · cases heq
    · exact (ih hname).imp_left (List.mem_cons_of_mem _)
  | plain _ _ _ _ ihbelow ihrest =>
    rcases List.mem_cons.1 hname with heq | hname
    · cases heq
    · rcases List.mem_append.1 hname with hname | hname
      · exact (ihbelow hname).elim (fun hchild => .inr ⟨_, hchild⟩) .inr
      · exact (ihrest hname).imp_left (List.mem_cons_of_mem _)

theorem exists_system_mem_children_of_showsMargin {name : String} (h : ShowsMargin g ids s f t)
    (hname : .system name ∈ f.items) : ∃ a, OutlineChild.system name ∈ g.children a := by
  induction h with
  | done => cases hname
  | skip _ _ ih => exact ih hname
  | root _ hbelow _ ih =>
    rcases List.mem_cons.1 hname with heq | hname
    · cases heq
    · rcases List.mem_append.1 hname with hname | hname
      · exact (system_mem_of_shows hbelow hname).elim (fun hchild => ⟨_, hchild⟩) id
      · exact ih hname

namespace Graph

/-- A system library on a line is a declared dependency of some module. -/
theorem exists_mem_dependencies_of_mem_lines (hg : g.IsGraphOf r) {l : OutlineLine} {name : String}
    (hl : l ∈ (Outline.ofGraph g).lines) (hname : l.item = .system name) :
    ∃ m ∈ r.modules, name ∈ m.dependencies.all := by
  obtain ⟨f, t, hmargin, heq⟩ := Outline.exists_showsMargin_ofGraph hg
  rw [heq] at hl
  have hitem : .system name ∈ f.items := by
    rw [← Forest.map_item_marginLines, ← hname]
    exact List.mem_map_of_mem hl
  obtain ⟨a, hchild⟩ := exists_system_mem_children_of_showsMargin hmargin hitem
  have hsystem : name ∈ g.systemNames a := by
    by_cases howns : g.Owns a
    · obtain ⟨ds, hfind⟩ := howns
      rw [children_of_find? hfind] at hchild
      simpa using hchild
    · rw [children_of_not_owns howns] at hchild
      cases hchild
  unfold systemNames at hsystem
  cases hm : g.modules[a]? with
  | none =>
    rw [hm] at hsystem
    cases hsystem
  | some m =>
    rw [hm] at hsystem
    refine ⟨m, hg.modules_eq ▸ List.mem_of_getElem? hm, ?_⟩
    exact (List.mem_filter.1 (List.mem_eraseDups.1 hsystem)).1

end Graph

namespace Outline

variable {l : OutlineLine}

theorem newline_not_mem_label (h : ∀ m ∈ g.modules, '\n' ∉ m.targetName.toList) (id : ModuleId) :
    '\n' ∉ (label g id).toList := by
  unfold label
  cases hm : g.modules[id]? with
  | none => exact List.not_mem_nil
  | some m =>
    have hname := h m (List.mem_of_getElem? hm)
    have hkind : '\n' ∉ (" (" ++ m.kind.label ++ ")").toList := by
      cases m.kind <;> decide
    simp only [String.toList_append, List.mem_append, not_or] at hkind ⊢
    exact ⟨⟨⟨hname, hkind.1.1⟩, hkind.1.2⟩, hkind.2⟩

/-- Lines are whole if the names on them are. -/
theorem newline_not_mem_lineText (h : ∀ m ∈ g.modules, '\n' ∉ m.targetName.toList)
    (hname : ∀ name, l.item = .system name → '\n' ∉ name.toList) :
    '\n' ∉ (lineText g l).toList := by
  have hindent : '\n' ∉ (indent l).toList := by
    intro hmem
    have hstroke := mem_of_mem_indent hmem
    revert hstroke
    decide
  have hitem : '\n' ∉ (itemText g l.item).toList := by
    unfold itemText
    cases hl : l.item with
    | module id mark =>
      have hmark : '\n' ∉ (markText mark).toList := by
        cases mark <;> decide
      simp only [String.toList_append, List.mem_append, not_or]
      exact ⟨newline_not_mem_label h id, hmark⟩
    | system name =>
      have hword : '\n' ∉ (" (system)").toList := by
        decide
      simp only [String.toList_append, List.mem_append, not_or]
      exact ⟨hname name hl, hword⟩
  rw [lineText_eq, String.toList_append, List.mem_append, not_or]
  exact ⟨hindent, hitem⟩

/-! ## The end of a line -/

/-- A label ends with the name of a kind. -/
theorem not_endsWith_label (l : OutlineLine) (id : ModuleId) {ending : String}
    (hparen : ')' ∈ ending.toList)
    (hkind : ∀ kind : Kind, ending.toList.length ≤ (" (" ++ kind.label ++ ")").toList.length ∧
      ¬ Text.endsWith (" (" ++ kind.label ++ ")") ending = true) :
    ¬ Text.endsWith (indent l ++ label g id ++ markText .plain) ending = true := by
  intro hend
  unfold label at hend
  cases hm : g.modules[id]? with
  | none =>
    rw [hm] at hend
    have hmem : ')' ∈ (indent l).toList := by
      simpa [markText] using Text.mem_of_endsWith hend hparen
    exact absurd (mem_of_mem_indent hmem) (by decide)
  | some m =>
    have hsplit : indent l ++ (m.targetName ++ " (" ++ m.kind.label ++ ")") ++ markText .plain =
        indent l ++ m.targetName ++ (" (" ++ m.kind.label ++ ")") := by
      simp [markText, String.append_assoc]
    rw [hm] at hend
    dsimp only at hend
    rw [hsplit] at hend
    obtain ⟨hlength, hnot⟩ := hkind m.kind
    exact hnot (Text.endsWith_of_endsWith_append hlength hend)

/-- Only the mark of a cycle ends a line in its way. -/
theorem endsWith_lineText_iff :
    Text.endsWith (lineText g l) " (cycle)" = true ↔ ∃ k, l.item = .module k .cyclic := by
  constructor
  · intro h
    -- Every other line ends with at least four characters that are known.
    have hend : Text.endsWith (lineText g l) "cle)" = true :=
      Text.endsWith_right " (cy" h
    rw [lineText_eq] at hend
    cases hl : l.item with
    | system name =>
      rw [hl, itemText, ← String.append_assoc] at hend
      exact absurd (Text.endsWith_of_endsWith_append (by decide) hend) (by decide)
    | module id mark =>
      rw [hl, itemText, ← String.append_assoc] at hend
      cases mark with
      | cyclic => exact ⟨id, rfl⟩
      | repeated =>
        exact absurd (Text.endsWith_of_endsWith_append (by decide) hend) (by decide)
      | plain =>
        refine absurd hend (not_endsWith_label l id (by decide) fun kind => ?_)
        cases kind <;> decide
  · rintro ⟨k, hk⟩
    rw [lineText_eq, hk, itemText, markText, ← String.append_assoc]
    exact Text.endsWith_append_self _ _

end Outline

namespace Graph

/-- The printed outline has a line that ends like a cycle exactly if a line has the mark of one. -/
theorem exists_line_iff_exists_cyclic (hg : g.IsGraphOf r)
    (hbreak : ∀ m ∈ r.modules,
      '\n' ∉ m.targetName.toList ∧ ∀ name ∈ m.dependencies.all, '\n' ∉ name.toList) :
    (∃ line ∈ Text.linesOf g.outline, Text.endsWith line " (cycle)" = true) ↔
      ∃ l ∈ (Outline.ofGraph g).lines, ∃ k, l.item = .module k .cyclic := by
  have hwhole : ∀ line ∈ (Outline.ofGraph g).lines.map (Outline.lineText g),
      '\n' ∉ line.toList := by
    intro line hline
    obtain ⟨l, hl, rfl⟩ := List.mem_map.1 hline
    refine Outline.newline_not_mem_lineText ?_ ?_
    · intro m hm
      exact (hbreak m (hg.modules_eq ▸ hm)).1
    · intro name hname
      obtain ⟨m, hm, hdeclared⟩ := exists_mem_dependencies_of_mem_lines hg hl hname
      exact (hbreak m hm).2 name hdeclared
  have hlines : Text.linesOf g.outline =
      (Outline.ofGraph g).lines.map (Outline.lineText g) ++ [""] :=
    Text.linesOf_ofLines hwhole
  have hempty : ¬ Text.endsWith "" " (cycle)" = true := by
    decide
  rw [hlines]
  constructor
  · rintro ⟨line, hline, hend⟩
    rcases List.mem_append.1 hline with hline | hline
    · obtain ⟨l, hl, rfl⟩ := List.mem_map.1 hline
      exact ⟨l, hl, Outline.endsWith_lineText_iff.1 hend⟩
    · obtain rfl := List.mem_singleton.1 hline
      exact absurd hend hempty
  · rintro ⟨l, hl, hcyclic⟩
    refine ⟨_, List.mem_append_left _ (List.mem_map_of_mem hl), ?_⟩
    exact Outline.endsWith_lineText_iff.2 hcyclic

/-- The three searches agree on a built graph whose names have no line breaks: a cycle is reported
exactly if two modules are in each other's closure, and exactly if the outline has a line that ends
with the mark of a cycle. -/
theorem searches_agree {libraries : List String} {strict : Bool} {modules : List Module} {b : Built}
    (h : Graph.build libraries strict modules = .ok b)
    (hbreak : ∀ m ∈ modules,
      '\n' ∉ m.targetName.toList ∧ ∀ name ∈ m.dependencies.all, '\n' ∉ name.toList) :
    (b.graph.cycleTexts ≠ [] ↔
      ∃ x y, x ≠ y ∧ y ∈ b.graph.closure x ∧ x ∈ b.graph.closure y) ∧
    (b.graph.cycleTexts ≠ [] ↔
      ∃ line ∈ Text.linesOf b.graph.outline, Text.endsWith line " (cycle)" = true) := by
  have hg := isGraphOf_of_build h
  have hcycles : b.graph.cycleTexts ≠ [] ↔ ∃ a, TransGen b.graph.Step a a := by
    rw [cycleTexts, ne_eq, List.map_eq_nil_iff, cycles_eq_nil_iff_not_transGen hg, not_forall_not]
  constructor
  · rw [hcycles]
    exact exists_transGen_iff_exists_mem_closure hg
  · rw [hcycles, exists_line_iff_exists_cyclic hg hbreak]
    exact (exists_cyclic_line_iff hg).symm

/-- Two modules that need each other, below a third one. -/
theorem searches_agree_pair :
    ∃ b, Graph.build [] false
        [.plainToolchain "t" ["a"], .plain "a" ["b"], .plain "b" ["a"]] = .ok b ∧
      b.graph.cycleTexts ≠ [] ∧ (∃ x y, x ≠ y ∧ y ∈ b.graph.closure x ∧ x ∈ b.graph.closure y) ∧
      ∃ line ∈ Text.linesOf b.graph.outline, Text.endsWith line " (cycle)" = true := by
  have hview : (Graph.build [] false
      [.plainToolchain "t" ["a"], .plain "a" ["b"], .plain "b" ["a"]]).toOption.map
        (fun b => b.graph.cycleTexts) = some ["a -> b -> a"] := by
    decide +kernel
  obtain ⟨b, hb, hcycles⟩ := exists_ok_of_map_eq_some hview
  have hne : b.graph.cycleTexts ≠ [] := by
    rw [hcycles]
    exact List.cons_ne_nil _ _
  obtain ⟨hclosure, houtline⟩ := searches_agree hb (by decide +kernel)
  exact ⟨b, hb, hne, hclosure.1 hne, houtline.1 hne⟩

end Graph

end BuildGraph
