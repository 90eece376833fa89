import BuildGraph.Proofs.Graph.Renumbering
import BuildGraph.Proofs.Outline.Expansion
set_option autoImplicit false

/-!
# Outlines of graphs that differ in numbers

If two graphs differ in the numbers of their modules and have the same system libraries, then their
outlines are drawn alike: by each rule one of them shows a module where the other shows it under its
new number (`Shows.renumber`). On the page there is no difference, since a line gives a module by
its name and kind.
-/

namespace BuildGraph

variable {f : ModuleId → ModuleId} {g h : Graph}

/-! ## Other numbers for what is shown -/

/-- The item with another number for its module. -/
def OutlineItem.renumber (f : ModuleId → ModuleId) : OutlineItem → OutlineItem
  | .module id mark => .module (f id) mark
  | .system name => .system name

/-- The child with another number for its module. -/
def OutlineChild.renumber (f : ModuleId → ModuleId) : OutlineChild → OutlineChild
  | .module id => .module (f id)
  | .system name => .system name

/-- The line with another number for its module. -/
def OutlineLine.renumber (f : ModuleId → ModuleId) (l : OutlineLine) : OutlineLine :=
  { l with item := l.item.renumber f }

namespace Forest

/-- The forest with other numbers for its modules. -/
def renumber (f : ModuleId → ModuleId) : Forest → Forest
  | empty => empty
  | cons item below rest => cons (item.renumber f) (below.renumber f) (rest.renumber f)

@[simp] theorem isEmpty_renumber (f : ModuleId → ModuleId) (t : Forest) :
    (t.renumber f).isEmpty = t.isEmpty := by
  cases t <;> rfl

@[simp] theorem lines_renumber (f : ModuleId → ModuleId) (t : Forest) (around : List Bool) :
    (t.renumber f).lines around = (t.lines around).map (OutlineLine.renumber f) := by
  induction t generalizing around with
  | empty => rfl
  | cons item below rest ihbelow ihrest =>
    unfold renumber lines
    rw [isEmpty_renumber, ihbelow, ihrest, List.map_cons, List.map_append]
    rfl

@[simp] theorem marginLines_renumber (f : ModuleId → ModuleId) (t : Forest) :
    (t.renumber f).marginLines = t.marginLines.map (OutlineLine.renumber f) := by
  induction t with
  | empty => rfl
  | cons item below rest _ ihrest =>
    unfold renumber marginLines
    rw [lines_renumber, ihrest, List.map_cons, List.map_append]
    rfl

end Forest

/-! ## What stands below a module -/

namespace Graph.Renumbers

variable {a : ModuleId}

theorem systemNames_eq (H : Renumbers f g h) (hsystem : h.isSystem = g.isSystem) (a : ModuleId) :
    h.systemNames (f a) = g.systemNames a := by
  unfold systemNames
  rw [H.embeds.getElem?_eq, hsystem]

theorem hasChildren_eq (H : Renumbers f g h) (hsystem : h.isSystem = g.isSystem) (a : ModuleId) :
    h.hasChildren (f a) = g.hasChildren a := by
  unfold hasChildren
  rw [H.systemNames_eq hsystem, H.dependencies_eq, List.isEmpty_map]

theorem children_eq (H : Renumbers f g h) (hsystem : h.isSystem = g.isSystem) (a : ModuleId) :
    h.children (f a) = (g.children a).map (OutlineChild.renumber f) := by
  by_cases howns : g.Owns a
  · obtain ⟨ds, hfind⟩ := howns
    obtain ⟨es, hlarge⟩ := H.owns_apply_iff.2 ⟨ds, hfind⟩
    have hes : es = ds.map f := by
      rw [← dependencies_of_find? hlarge, H.dependencies_eq, dependencies_of_find? hfind]
    rw [children_of_find? hfind, children_of_find? hlarge, H.systemNames_eq hsystem, hes,
      List.map_append, List.map_map, List.map_map, List.map_map]
    rfl
  · rw [children_of_not_owns howns, children_of_not_owns (mt H.owns_apply_iff.1 howns)]
    rfl

end Graph.Renumbers

/-! ## The rules -/

section Rules

variable {way ids s u : List ModuleId} {cs : List OutlineChild} {t : Forest}

/-- Each rule shows a module under its new number where it shows the module. -/
theorem Shows.renumber (H : g.Renumbers f h) (hsystem : h.isSystem = g.isSystem)
    (hshows : Shows g way cs s t u) :
    Shows h (way.map f) (cs.map (OutlineChild.renumber f)) (s.map f) (t.renumber f) (u.map f) := by
  have hmem : ∀ {k : ModuleId} {l : List ModuleId}, f k ∈ l.map f ↔ k ∈ l :=
    List.mem_map_of_injective H.injective
  induction hshows with
  | done => exact .done
  | system _ ih => exact .system ih
  | cyclic hway _ ih => exact .cyclic (hmem.2 hway) ih
  | @repeated way s t cs below k hway hshown hhas _ ih =>
    exact .repeated (mt hmem.1 hway) (hmem.2 hshown) ((H.hasChildren_eq hsystem k).trans hhas) ih
  | @plain way s t u cs below rest k hway hnew _ _ ihbelow ihrest =>
    rw [← H.children_eq hsystem] at ihbelow
    refine .plain (mt hmem.1 hway) ?_ ihbelow ihrest
    rintro ⟨hshown, hhas⟩
    exact hnew ⟨hmem.1 hshown, (H.hasChildren_eq hsystem k).symm.trans hhas⟩

theorem ShowsMargin.renumber (H : g.Renumbers f h) (hsystem : h.isSystem = g.isSystem)
    (hshows : ShowsMargin g ids s t u) :
    ShowsMargin h (ids.map f) (s.map f) (t.renumber f) (u.map f) := by
  have hmem : ∀ {k : ModuleId} {l : List ModuleId}, f k ∈ l.map f ↔ k ∈ l :=
    List.mem_map_of_injective H.injective
  induction hshows with
  | done => exact .done
  | skip hshown _ ih => exact .skip (hmem.2 hshown) ih
  | @root ids s t u below rest id hnew hbelow _ ih =>
    have hlarge := hbelow.renumber H hsystem
    rw [← H.children_eq hsystem] at hlarge
    exact .root (mt hmem.1 hnew) hlarge ih

end Rules

/-! ## Placeholders and the margin -/

namespace Graph

variable {r R : Resolver} {c : ModuleId}

/-- With the same libraries registered, the same names are placeholders. -/
theorem isSystem_eq_of_embeds (he : Embeds f r.modules R.modules)
    (hlibraries : ∀ name, name ∈ R.libraries ↔ name ∈ r.libraries) (hg : g.IsGraphOf r)
    (hh : h.IsGraphOf R) : h.isSystem = g.isSystem := by
  funext name
  rw [Bool.eq_iff_iff, isSystem_iff, isSystem_iff, hg.find?_eq_system_iff,
    hh.find?_eq_system_iff]
  simp only [Resolver.mem_placeholders_iff, he.firstActive?_eq, Option.map_eq_none_iff, hlibraries]
  constructor
  · rintro ⟨m, hm, hactive, hasked⟩
    exact ⟨m, (he.mem_iff_of_isActive hactive).1 hm, hactive, hasked⟩
  · rintro ⟨m, hm, hactive, hasked⟩
    exact ⟨m, (he.mem_iff_of_isActive hactive).2 hm, hactive, hasked⟩

/-- The modules among the dependencies of the entries are those to which a step leads. -/
theorem mem_flatMap_dependencies_iff (hg : g.IsGraphOf r) (hdistinct : g.entries.Distinct) :
    c ∈ g.entries.flatMap (fun e => e.2.dependencies) ↔ ∃ a, g.Step a c := by
  simp only [List.mem_flatMap, Prod.exists, ← hdistinct.find?_eq_some_iff]
  constructor
  · rintro ⟨name, e, hfind, hc⟩
    cases e with
    | system => exact absurd hc List.not_mem_nil
    | owned a ds =>
      -- The owner of an entry has the name of the entry as its target name.
      obtain ⟨m, hlast, -⟩ := hg.find?_eq_owned_iff.1 hfind
      obtain ⟨hm, -, hname⟩ := of_lastNamed? hlast
      have htarget : g.targetName a = name := by
        unfold targetName targetNameOf
        rw [hg.modules_eq, hm]
        exact hname
      exact ⟨a, ds, htarget ▸ hfind, hc⟩
  · rintro ⟨a, ds, hfind, hc⟩
    exact ⟨g.targetName a, .owned a ds, hfind, hc⟩

theorem Renumbers.marginCandidates_eq (H : Renumbers f g h) (hg : g.IsGraphOf r)
    (hh : h.IsGraphOf R) (hgd : g.entries.Distinct) (hhd : h.entries.Distinct) :
    h.marginCandidates = g.marginCandidates.map f := by
  have hneeded : ∀ a, (h.entries.flatMap fun e => e.2.dependencies).contains (f a) =
      (g.entries.flatMap fun e => e.2.dependencies).contains a := by
    intro a
    rw [Bool.eq_iff_iff, List.contains_iff_mem, List.contains_iff_mem,
      mem_flatMap_dependencies_iff hg hgd, mem_flatMap_dependencies_iff hh hhd]
    constructor
    · rintro ⟨c, hstep⟩
      obtain ⟨b, -, rfl⟩ := H.owns_iff.1 hstep.owns
      obtain ⟨d, hd, heq⟩ := H.step_iff.1 hstep
      exact ⟨b, H.injective heq ▸ hd⟩
    · rintro ⟨b, hstep⟩
      exact ⟨f b, H.step_iff.2 ⟨a, hstep, rfl⟩⟩
  unfold marginCandidates
  simp only [H.owners_eq, List.filter_map, List.map_append, Function.comp_def, hneeded]

/-! ## The page -/

theorem Renumbers.label_eq (H : Renumbers f g h) (a : ModuleId) :
    Outline.label h (f a) = Outline.label g a := by
  unfold Outline.label
  rw [H.embeds.getElem?_eq]

theorem Renumbers.lineText_eq (H : Renumbers f g h) (l : OutlineLine) :
    Outline.lineText h (l.renumber f) = Outline.lineText g l := by
  have hitem : Outline.itemText h (l.item.renumber f) = Outline.itemText g l.item := by
    cases l.item with
    | system name => rfl
    | module id mark => exact congrArg (· ++ Outline.markText mark) (H.label_eq id)
  rw [Outline.lineText_eq, Outline.lineText_eq]
  exact congrArg (Outline.indent l ++ ·) hitem

/-- The outlines of two built graphs that differ in numbers alone have the same text. -/
theorem Renumbers.outline_eq (H : Renumbers f g h) (hsystem : h.isSystem = g.isSystem)
    (hg : g.IsGraphOf r) (hh : h.IsGraphOf R) (hgd : g.entries.Distinct)
    (hhd : h.entries.Distinct) : h.outline = g.outline := by
  obtain ⟨t, u, hsmall, heq⟩ := Outline.exists_showsMargin_ofGraph hg
  obtain ⟨T, U, hlarge, hEq⟩ := Outline.exists_showsMargin_ofGraph hh
  have hmapped := hsmall.renumber H hsystem
  rw [← H.marginCandidates_eq hg hh hgd hhd] at hmapped
  obtain ⟨rfl, rfl⟩ := hlarge.unique hmapped
  unfold outline Outline.text
  rw [heq, hEq]
  dsimp only
  rw [Forest.marginLines_renumber, List.map_map]
  exact congrArg Text.ofLines (List.map_congr_left fun l _ => H.lineText_eq l)

end Graph

end BuildGraph
