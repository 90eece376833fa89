import BuildGraph.Proofs.Graph.Ownership
import BuildGraph.Proofs.Outline.Cycles
import BuildGraph.Proofs.Outline.Expansion
set_option autoImplicit false

/-!
# Repetitions in an outline

A line is marked as a repetition to say that what stands below its module is to be found on
another line. That is so if the module owns an entry. A module that has lost its name is marked
too, on every line but its first, if it declares a system library as a dependency, and then
nothing stands below it anywhere. What tells the two apart is how often a module is shown: a
module without an entry stands once below each module that depends on it, and nowhere else.
-/

namespace BuildGraph

variable {g : Graph} {r : Resolver} {way ids s t u : List ModuleId} {cs : List OutlineChild}
  {f below : Forest} {k x y : ModuleId}

/-! ## Marks -/

/-- One if the module has been shown, and else nothing. -/
def shownCount (k : ModuleId) (s : List ModuleId) : Nat :=
  if k ∈ s then 1 else 0

theorem shownCount_cons_self (k : ModuleId) (s : List ModuleId) : shownCount k (k :: s) = 1 :=
  if_pos List.mem_cons_self

theorem shownCount_cons_of_ne (h : k ≠ x) (s : List ModuleId) :
    shownCount k (x :: s) = shownCount k s := by
  simp [shownCount, h]

/-- How often a module is shown without a mark by a line without one and what stands below it and
behind it. -/
theorem count_plain_cons (hnew : x = k → k ∉ s)
    (hbelow : below.items.count (.module k .plain) + shownCount k (x :: s) = shownCount k t)
    (hrest : f.items.count (.module k .plain) + shownCount k t = shownCount k u) :
    (Forest.cons (.module x .plain) below f).items.count (.module k .plain) + shownCount k s =
      shownCount k u := by
  by_cases hx : k = x
  · subst hx
    have hfresh : shownCount k s = 0 := if_neg (hnew rfl)
    rw [shownCount_cons_self] at hbelow
    simp only [Forest.items, List.count_cons_self, List.count_append]
    omega
  · have hother : OutlineItem.module x .plain ≠ .module k .plain := by
      simpa using Ne.symm hx
    rw [shownCount_cons_of_ne hx] at hbelow
    simp only [Forest.items, List.count_cons_of_ne hother, List.count_append]
    omega

/-- A module that would be marked when it is met again is shown without a mark exactly once. -/
theorem count_plain_of_shows (hhas : g.hasChildren k = true) (h : Shows g way cs s f t) :
    f.items.count (.module k .plain) + shownCount k s = shownCount k t := by
  induction h with
  | done => exact Nat.zero_add _
  | system _ ih | cyclic _ _ ih | repeated _ _ _ _ ih => simpa [Forest.items] using ih
  | plain _ hnew _ _ ihbelow ihrest =>
    refine count_plain_cons (fun hx hshown => hnew ?_) ihbelow ihrest
    exact hx ▸ ⟨hshown, hhas⟩

theorem count_plain_of_showsMargin (hhas : g.hasChildren k = true) (h : ShowsMargin g ids s f t) :
    f.items.count (.module k .plain) + shownCount k s = shownCount k t := by
  induction h with
  | done => exact Nat.zero_add _
  | skip _ _ ih => exact ih
  | root hnew hbelow _ ih =>
    exact count_plain_cons (fun hx => hx ▸ hnew) (count_plain_of_shows hhas hbelow) ih

/-- What is marked as a repetition has something to look for below it. -/
theorem hasChildren_of_shows (h : Shows g way cs s f t) (hk : .module k .repeated ∈ f.items) :
    g.hasChildren k = true := by
  induction h with
  | done => cases hk
  | system _ ih | cyclic _ _ ih =>
    exact ih ((List.mem_cons.1 hk).resolve_left nofun)
  | repeated _ _ hhas _ ih =>
    rcases List.mem_cons.1 hk with heq | hk
    · cases heq
      exact hhas
    · exact ih hk
  | plain _ _ _ _ ihbelow ihrest =>
    rcases List.mem_append.1 ((List.mem_cons.1 hk).resolve_left nofun) with hk | hk
    · exact ihbelow hk
    · exact ihrest hk

theorem hasChildren_of_showsMargin (h : ShowsMargin g ids s f t)
    (hk : .module k .repeated ∈ f.items) : g.hasChildren k = true := by
  induction h with
  | done => cases hk
  | skip _ _ ih => exact ih hk
  | root _ hbelow _ ih =>
    rcases List.mem_append.1 ((List.mem_cons.1 hk).resolve_left nofun) with hk | hk
    · exact hasChildren_of_shows hbelow hk
    · exact ih hk

/-- A module with nothing below it is not met inside its own expansion. -/
theorem cyclic_notMem_of_shows (hk : g.children k = []) (hway : k ∉ way)
    (h : Shows g way cs s f t) : .module k .cyclic ∉ f.items := by
  induction h with
  | done => exact List.not_mem_nil
  | system _ ih | repeated _ _ _ _ ih =>
    exact fun hmem => ih hway ((List.mem_cons.1 hmem).resolve_left nofun)
  | cyclic hon _ ih =>
    intro hmem
    rcases List.mem_cons.1 hmem with heq | hmem
    · cases heq
      exact hway hon
    · exact ih hway hmem
  | @plain way s t u cs below f x _ _ hbelow _ ihbelow ihrest =>
    intro hmem
    rcases List.mem_append.1 ((List.mem_cons.1 hmem).resolve_left nofun) with hinside | hbehind
    · by_cases hx : k = x
      · subst hx
        rw [hk] at hbelow
        cases hbelow
        cases hinside
      · exact ihbelow (fun hmore => (List.mem_cons.1 hmore).elim hx hway) hinside
    · exact ihrest hway hbehind

theorem cyclic_notMem_of_showsMargin (hk : g.children k = []) (hids : k ∉ ids)
    (h : ShowsMargin g ids s f t) : .module k .cyclic ∉ f.items := by
  induction h with
  | done => exact List.not_mem_nil
  | skip _ _ ih => exact ih fun hmem => hids (List.mem_cons_of_mem _ hmem)
  | root _ hbelow _ ih =>
    obtain ⟨hid, hids⟩ := not_or.1 (mt List.mem_cons.2 hids)
    intro hmem
    rcases List.mem_append.1 ((List.mem_cons.1 hmem).resolve_left nofun) with hmem | hmem
    · exact cyclic_notMem_of_shows hk (fun hself => hid (List.mem_singleton.1 hself)) hbelow hmem
    · exact ih hids hmem

/-! ## Lines below lines -/

/-- The item shows the module, whatever its mark is. -/
def OutlineItem.shows (k : ModuleId) (item : OutlineItem) : Bool :=
  item.module? == some k

theorem OutlineItem.shows_iff {item : OutlineItem} :
    item.shows k = true ↔ item.module? = some k :=
  beq_iff_eq

/-- The items that show a module have one of three marks. -/
theorem countP_shows (k : ModuleId) (items : List OutlineItem) :
    items.countP (OutlineItem.shows k) = items.count (.module k .plain) +
      items.count (.module k .repeated) + items.count (.module k .cyclic) := by
  have hshows : ∀ item : OutlineItem, (if item.shows k then 1 else 0) =
      (if item == .module k .plain then 1 else 0) +
        (if item == .module k .repeated then 1 else 0) +
          if item == .module k .cyclic then 1 else 0 := by
    intro item
    cases item with
    | system name => simp [OutlineItem.shows, OutlineItem.module?]
    | module x mark => cases mark <;> simp [OutlineItem.shows, OutlineItem.module?]
  induction items with
  | nil => rfl
  | cons item items ih =>
    rw [List.countP_cons, List.count_cons, List.count_cons, List.count_cons, hshows, ih]
    omega

/-- Each item stands at the top or below another one. -/
theorem Forest.countP_items (p : OutlineItem → Bool) (f : Forest) :
    f.items.countP p = f.tops.countP p + (f.expansions.flatMap Prod.snd).countP p := by
  induction f with
  | empty => rfl
  | cons item below rest ihbelow ihrest =>
    simp only [items, tops, expansions, List.countP_cons, List.countP_append, List.flatMap_cons,
      List.flatMap_append, ihbelow, ihrest]
    omega

/-- Nothing stands below a system library. -/
theorem below_system_of_shows (h : Shows g way cs s f t) :
    ∀ p ∈ f.expansions, p.1.module? = none → p.2 = [] := by
  induction h with
  | done => exact fun _ hp => absurd hp List.not_mem_nil
  | system _ ih => exact List.forall_mem_cons.2 ⟨fun _ => rfl, ih⟩
  | cyclic _ _ ih | repeated _ _ _ _ ih => exact List.forall_mem_cons.2 ⟨nofun, ih⟩
  | plain _ _ _ _ ihbelow ihrest =>
    exact List.forall_mem_cons.2 ⟨nofun, List.forall_mem_append.2 ⟨ihbelow, ihrest⟩⟩

theorem below_system_of_showsMargin (h : ShowsMargin g ids s f t) :
    ∀ p ∈ f.expansions, p.1.module? = none → p.2 = [] := by
  induction h with
  | done => exact fun _ hp => absurd hp List.not_mem_nil
  | skip _ _ ih => exact ih
  | root _ hbelow _ ih =>
    exact List.forall_mem_cons.2
      ⟨nofun, List.forall_mem_append.2 ⟨below_system_of_shows hbelow, ih⟩⟩

/-- The modules at the margin are among the candidates. -/
theorem mem_ids_of_showsMargin (h : ShowsMargin g ids s f t) {item : OutlineItem}
    (hitem : item ∈ f.tops) (hk : item.module? = some k) : k ∈ ids := by
  induction h with
  | done => cases hitem
  | skip _ _ ih => exact List.mem_cons_of_mem _ (ih hitem)
  | root _ _ _ ih =>
    rcases List.mem_cons.1 hitem with rfl | hitem
    · obtain rfl := Option.some.inj hk
      exact List.mem_cons_self
    · exact List.mem_cons_of_mem _ (ih hitem)

namespace Outline

variable {E : List (OutlineItem × List OutlineItem)}

/-- What stands below two modules does not overlap. -/
theorem countP_under_add_le (p : OutlineItem → Bool) (h : x ≠ y)
    (E : List (OutlineItem × List OutlineItem)) :
    (under x E).countP p + (under y E).countP p ≤ (E.flatMap Prod.snd).countP p := by
  induction E with
  | nil => exact Nat.le_refl _
  | cons e E ih =>
    unfold under at ih ⊢
    simp only [List.flatMap_cons, List.countP_append]
    by_cases hx : e.1.module? = some x
    · have hy : e.1.module? ≠ some y := fun hy => h (Option.some.inj (hx.symm.trans hy))
      rw [if_pos hx, if_neg hy, List.countP_nil]
      omega
    · rw [if_neg hx, List.countP_nil]
      split
      · omega
      · rw [List.countP_nil]
        omega

/-- What stands below one module only is all there is of it. -/
theorem countP_flatMap_le_under (p : OutlineItem → Bool)
    (h : ∀ e ∈ E, ∀ item ∈ e.2, p item = true → e.1.module? = some x) :
    (E.flatMap Prod.snd).countP p ≤ (under x E).countP p := by
  induction E with
  | nil => exact Nat.le_refl _
  | cons e E ih =>
    obtain ⟨he, hE⟩ := List.forall_mem_cons.1 h
    have ih := ih hE
    unfold under at ih ⊢
    simp only [List.flatMap_cons, List.countP_append]
    by_cases hx : e.1.module? = some x
    · rw [if_pos hx]
      omega
    · have hnone : e.2.countP p = 0 :=
        List.countP_eq_zero.2 fun item hitem hp => hx (he item hitem hp)
      omega

theorem map_fst_expansions (lines : List OutlineLine) :
    (expansions lines).map Prod.fst = lines.map OutlineLine.item := by
  induction lines with
  | nil => rfl
  | cons l lines ih => exact congrArg (List.cons l.item) ih

end Outline

namespace Graph

/-! ## Modules that are shown twice -/

/-- A line marks the module as a repetition. -/
def IsRepeated (g : Graph) (k : ModuleId) : Prop :=
  ∃ l ∈ (Outline.ofGraph g).lines, l.item = .module k .repeated

/-- A line shows the module without a mark and has something directly below it. -/
def IsExpanded (g : Graph) (k : ModuleId) : Prop :=
  ∃ items, items ≠ [] ∧ (.module k .plain, items) ∈ g.expansions

/-- How many lines below others show the module. -/
def timesBelow (g : Graph) (k : ModuleId) : Nat :=
  (g.expansions.flatMap Prod.snd).countP (OutlineItem.shows k)

theorem countP_under (hg : g.IsGraphOf r) (x k : ModuleId) :
    (Outline.under x g.expansions).countP (OutlineItem.shows k) =
      if k ∈ g.dependencies x then 1 else 0 := by
  have hcount : (Outline.under x g.expansions).countP (OutlineItem.shows k) =
      (g.dependencies x).count k := by
    rw [← filterMap_module?_under hg x, List.count, List.countP_filterMap]
    refine List.countP_congr fun item _ => ?_
    cases item <;> simp [OutlineItem.shows, OutlineItem.module?]
  have hnodup : (g.dependencies x).Nodup := (hg.pairwise_dependencies x).imp Nat.ne_of_lt
  rw [hcount, hnodup.count]

/-- What shows a module below a line shows it below a module that depends on it. -/
theorem exists_step_of_shows (hg : g.IsGraphOf r) {e : OutlineItem × List OutlineItem}
    (he : e ∈ g.expansions) {item : OutlineItem} (hitem : item ∈ e.2)
    (hk : item.shows k = true) : ∃ x, e.1.module? = some x ∧ g.Step x k := by
  cases hx : e.1.module? with
  | none =>
    obtain ⟨f, t, hmargin, heq⟩ := Outline.exists_showsMargin_ofGraph hg
    rw [expansions, heq, Forest.expansions_marginLines] at he
    rw [below_system_of_showsMargin hmargin e he hx] at hitem
    cases hitem
  | some x =>
    refine ⟨x, rfl, mem_dependencies_iff.1 ?_⟩
    rw [← filterMap_module?_under hg x]
    refine List.mem_filterMap.2 ⟨item, List.mem_flatMap.2 ⟨e, he, ?_⟩, OutlineItem.shows_iff.1 hk⟩
    rwa [if_pos hx]

/-- A module is shown twice below others exactly if two modules depend on it. -/
theorem two_le_timesBelow_iff (hg : g.IsGraphOf r) :
    2 ≤ g.timesBelow k ↔ ∃ x y, x ≠ y ∧ g.Step x k ∧ g.Step y k := by
  constructor
  · intro htwo
    by_contra hnone
    have hpos : 0 < g.timesBelow k := Nat.lt_of_lt_of_le Nat.zero_lt_two htwo
    obtain ⟨item, hmem, hk⟩ := List.countP_pos_iff.1 hpos
    obtain ⟨e, he, hitem⟩ := List.mem_flatMap.1 hmem
    obtain ⟨x, -, hx⟩ := exists_step_of_shows hg he hitem hk
    have hunder : g.timesBelow k ≤ (Outline.under x g.expansions).countP (OutlineItem.shows k) := by
      refine Outline.countP_flatMap_le_under _ fun e he item hitem hk => ?_
      obtain ⟨y, hey, hy⟩ := exists_step_of_shows hg he hitem hk
      by_cases hxy : x = y
      · rwa [hxy]
      · exact absurd ⟨x, y, hxy, hx, hy⟩ hnone
    rw [countP_under hg, if_pos (mem_dependencies_iff.2 hx)] at hunder
    omega
  · intro hsteps
    obtain ⟨x, y, hxy, hx, hy⟩ := hsteps
    have hadd := Outline.countP_under_add_le (OutlineItem.shows k) hxy g.expansions
    rwa [countP_under hg, countP_under hg, if_pos (mem_dependencies_iff.2 hx),
      if_pos (mem_dependencies_iff.2 hy)] at hadd

theorem hasChildren_of_isRepeated (hg : g.IsGraphOf r) (h : g.IsRepeated k) :
    g.hasChildren k = true := by
  obtain ⟨f, t, hmargin, heq⟩ := Outline.exists_showsMargin_ofGraph hg
  obtain ⟨l, hl, hk⟩ := h
  rw [heq] at hl
  refine hasChildren_of_showsMargin hmargin ?_
  rw [← Forest.map_item_marginLines, ← hk]
  exact List.mem_map_of_mem hl

/-- A module without an entry of its own, if there is something to look for below it, is marked as a
repetition exactly if it is shown twice below others. -/
theorem isRepeated_iff_two_le (hg : g.IsGraphOf r) (howns : ¬ g.Owns k)
    (hhas : g.hasChildren k = true) : g.IsRepeated k ↔ 2 ≤ g.timesBelow k := by
  obtain ⟨f, t, hmargin, heq⟩ := Outline.exists_showsMargin_ofGraph hg
  have hrepeated : g.IsRepeated k ↔ .module k .repeated ∈ f.items := by
    rw [IsRepeated, heq, ← Forest.map_item_marginLines, List.mem_map]
  have hids : k ∉ g.marginCandidates := fun hk =>
    howns ((mem_owners_iff_owns hg).1 (mem_marginCandidates_iff.1 hk))
  have htops : f.tops.countP (OutlineItem.shows k) = 0 := List.countP_eq_zero.2 fun item hitem hk =>
    hids (mem_ids_of_showsMargin hmargin hitem (OutlineItem.shows_iff.1 hk))
  have hcyclic : f.items.count (.module k .cyclic) = 0 := List.count_eq_zero.2 <|
    cyclic_notMem_of_showsMargin (children_of_not_owns howns) hids hmargin
  have hplain : f.items.count (.module k .plain) = shownCount k t :=
    count_plain_of_showsMargin hhas hmargin
  have htimes : g.timesBelow k =
      f.items.count (.module k .plain) + f.items.count (.module k .repeated) := by
    rw [timesBelow, expansions, heq, Forest.expansions_marginLines,
      ← Nat.zero_add (List.countP _ _),
      ← htops, ← Forest.countP_items, countP_shows, hcyclic, Nat.add_zero]
  rw [hrepeated, ← List.count_pos_iff, htimes, hplain]
  unfold shownCount
  constructor
  · intro hpos
    -- A module that is marked as a repetition has been shown.
    have hshown : k ∈ t := by
      by_contra hnew
      have habsent := ((accounts_of_showsMargin hmargin).2.2 k).absent hnew
      have hlisted : .module k .repeated ∈ f.expansions.map Prod.fst := by
        rw [← Forest.expansions_marginLines, Outline.map_fst_expansions,
          Forest.map_item_marginLines]
        exact List.count_pos_iff.1 hpos
      obtain ⟨e, he, hfst⟩ := List.mem_map.1 hlisted
      exact habsent e he (hfst ▸ rfl)
    rw [if_pos hshown]
    omega
  · intro htwo
    split at htwo <;> omega

theorem isExpanded_iff_owns (hg : g.IsGraphOf r) (hhas : g.hasChildren k = true) :
    g.IsExpanded k ↔ g.Owns k := by
  constructor
  · intro h
    obtain ⟨items, hne, hmem⟩ := h
    by_contra howns
    exact hne (unexpanded_of_not_owns hg howns _ hmem rfl)
  · intro howns
    obtain ⟨before, items, after, heq, hitems, -, -⟩ := expandedOnce_of_owns hg howns
    refine ⟨items, ?_, heq ▸ List.mem_append_right _ List.mem_cons_self⟩
    rintro rfl
    obtain ⟨ds, hfind⟩ := howns
    rw [children_of_find? hfind] at hitems
    have hnil := List.append_eq_nil_iff.1 hitems.symm
    rw [hasChildren, dependencies_of_find? hfind, List.map_eq_nil_iff.1 hnil.1,
      List.map_eq_nil_iff.1 hnil.2] at hhas
    cases hhas

/-- The module declares a system library of the graph as a dependency. -/
def NamesSystem (g : Graph) (modules : List Module) (k : ModuleId) : Prop :=
  ∃ m name, modules[k]? = some m ∧ name ∈ m.dependencies.all ∧
    g.entries.find? name = some .system

/-- There is something to look for below a module if it depends on a module or on a system
library. -/
theorem hasChildren_iff (hg : g.IsGraphOf r) :
    g.hasChildren k = true ↔ (∃ x, g.Step k x) ∨ g.NamesSystem r.modules k := by
  have hsystem : (!(g.systemNames k).isEmpty) = true ↔ g.NamesSystem r.modules k := by
    rw [Bool.not_eq_true', List.isEmpty_eq_false_iff_exists_mem]
    unfold systemNames NamesSystem
    rw [hg.modules_eq]
    cases hm : r.modules[k]? with
    | none => simp
    | some m => simp [List.mem_eraseDups, List.mem_filter, isSystem_iff]
  have hdependencies : (!(g.dependencies k).isEmpty) = true ↔ ∃ x, g.Step k x := by
    rw [Bool.not_eq_true', List.isEmpty_eq_false_iff_exists_mem]
    exact exists_congr fun x => mem_dependencies_iff
  rw [hasChildren, Bool.or_eq_true, hsystem, hdependencies]

/-- All that is marked as a repetition is expanded, exactly if no two modules depend on one that has
lost its name and declares a system library. -/
theorem forall_isExpanded_iff (hg : g.IsGraphOf r) :
    (∀ k, g.IsRepeated k → g.IsExpanded k) ↔
      ∀ k, ¬ g.Owns k → g.NamesSystem r.modules k → ∀ x y, g.Step x k → g.Step y k → x = y := by
  constructor
  · intro hall k howns hsystem x y hx hy
    by_contra hxy
    have hhas := (hasChildren_iff hg).2 (.inr hsystem)
    have hrepeated := (isRepeated_iff_two_le hg howns hhas).2
      ((two_le_timesBelow_iff hg).2 ⟨x, y, hxy, hx, hy⟩)
    exact howns ((isExpanded_iff_owns hg hhas).1 (hall k hrepeated))
  · intro hone k hrepeated
    have hhas := hasChildren_of_isRepeated hg hrepeated
    refine (isExpanded_iff_owns hg hhas).2 ?_
    by_contra howns
    obtain ⟨x, y, hxy, hx, hy⟩ := (two_le_timesBelow_iff hg).1
      ((isRepeated_iff_two_le hg howns hhas).1 hrepeated)
    have hsystem := ((hasChildren_iff hg).1 hhas).resolve_left fun ⟨_, hstep⟩ => howns hstep.owns
    exact hxy (hone k howns hsystem x y hx hy)

end Graph

/-! ## The mark in print -/

namespace Outline

/-- Only the mark of a repetition ends a line in its way. -/
theorem endsWith_star_iff {l : OutlineLine} :
    Text.endsWith (lineText g l) " (*)" = true ↔ ∃ k, l.item = .module k .repeated := by
  constructor
  · intro h
    have hend : Text.endsWith (lineText g l) "(*)" = true := Text.endsWith_right " " h
    rw [lineText_eq] at hend
    cases hl : l.item with
    | system name =>
      rw [hl, itemText, ← String.append_assoc] at hend
      exact absurd (Text.endsWith_of_endsWith_append (by decide) hend) (by decide)
    | module id mark =>
      rw [hl, itemText, ← String.append_assoc] at hend
      cases mark with
      | repeated => exact ⟨id, rfl⟩
      | cyclic =>
        exact absurd (Text.endsWith_of_endsWith_append (by decide) hend) (by decide)
      | plain =>
        refine absurd hend (not_endsWith_label l id (by decide) fun kind => ?_)
        cases kind <;> decide
  · intro hrepeated
    obtain ⟨k, hk⟩ := hrepeated
    rw [lineText_eq, hk, itemText, markText, ← String.append_assoc]
    exact Text.endsWith_append_self _ _

end Outline

namespace Graph

/-- In the outline of a built graph the lines that end in a star are those that are marked as
repetitions. The module on such a line has another line with something below it exactly if it owns
its entry. So it is for all of them exactly if no module that has lost its name and declares a
system library as a dependency is needed by two modules, and always if no name has been lost. -/
theorem repeats_are_expanded_iff {libraries : List String} {strict : Bool} {modules : List Module}
    {b : Built} (h : Graph.build libraries strict modules = .ok b) :
    (∀ l, Text.endsWith (Outline.lineText b.graph l) " (*)" = true ↔
      ∃ k, l.item = .module k .repeated) ∧
    (∀ k, b.graph.IsRepeated k → (b.graph.IsExpanded k ↔ b.graph.Owns k)) ∧
    ((∀ k, b.graph.IsRepeated k → b.graph.IsExpanded k) ↔
      ∀ k, ¬ b.graph.Owns k → b.graph.NamesSystem modules k →
        ∀ x y, b.graph.Step x k → b.graph.Step y k → x = y) ∧
    (b.graph.collisions = [] → ∀ k, b.graph.IsRepeated k → b.graph.IsExpanded k) := by
  have hg := isGraphOf_of_build h
  have hall := forall_isExpanded_iff hg
  refine ⟨fun l => Outline.endsWith_star_iff, fun k hk => ?_, hall, fun hnone => ?_⟩
  · exact isExpanded_iff_owns hg (hasChildren_of_isRepeated hg hk)
  · refine hall.2 fun k howns _ x y hx _ => absurd ?_ howns
    obtain ⟨ds, hfind, hk⟩ := hx
    obtain ⟨-, -, -, -, d, -, hfirst⟩ := firstAnswering_of_mem_dependencies hg hfind hk
    exact owns_of_collisions_eq_nil hg hnone hfirst

/-! ## A name that was lost and one that was kept -/

/-- A module that needs a library, in front of one of the same name, and two that need the name. -/
def bereft : List Module :=
  [.plainToolchain "t" [], .plain "a" ["lib"], .plain "a" [], .plain "b" ["a"], .plain "c" ["a"]]

/-- The same without the second module of the name. -/
def endowed : List Module :=
  [.plainToolchain "t" [], .plain "a" ["lib"], .plain "b" ["a"], .plain "c" ["a"]]

theorem exists_build_bereft : ∃ b, Graph.build ["lib"] false bereft = .ok b ∧
    ["a", "b", "c", "lib"].map b.graph.entries.find? =
      [some (.owned 2 []), some (.owned 3 [1]), some (.owned 4 [1]), some .system] ∧
    ([0, 1, 2, 3, 4].map b.graph.targetName = ["t", "a", "a", "b", "c"]) ∧
    (Outline.ofGraph b.graph).lines =
      [⟨[], none, .module 0 .plain⟩, ⟨[], none, .module 2 .plain⟩, ⟨[], none, .module 3 .plain⟩,
        ⟨[], some true, .module 1 .plain⟩, ⟨[], none, .module 4 .plain⟩,
        ⟨[], some true, .module 1 .repeated⟩] := by
  have hview : (Graph.build ["lib"] false bereft).toOption.map (fun b =>
      (["a", "b", "c", "lib"].map b.graph.entries.find?, [0, 1, 2, 3, 4].map b.graph.targetName,
        (Outline.ofGraph b.graph).lines)) =
      some ([some (.owned 2 []), some (.owned 3 [1]), some (.owned 4 [1]), some .system],
        ["t", "a", "a", "b", "c"],
        [⟨[], none, .module 0 .plain⟩, ⟨[], none, .module 2 .plain⟩, ⟨[], none, .module 3 .plain⟩,
          ⟨[], some true, .module 1 .plain⟩, ⟨[], none, .module 4 .plain⟩,
          ⟨[], some true, .module 1 .repeated⟩]) := by
    decide +kernel
  obtain ⟨b, hb, heq⟩ := exists_ok_of_map_eq_some hview
  obtain ⟨hentries, heq⟩ := Prod.mk.inj heq
  obtain ⟨hnames, hlines⟩ := Prod.mk.inj heq
  exact ⟨b, hb, hentries, hnames, hlines⟩

/-- The module that lost its name is marked as a repetition and expanded nowhere; the one that
has kept it is expanded. -/
theorem repeats_are_expanded_iff_bereft :
    (∃ b, Graph.build ["lib"] false bereft = .ok b ∧ ¬ b.graph.Owns 1 ∧
      b.graph.NamesSystem bereft 1 ∧ b.graph.Step 3 1 ∧ b.graph.Step 4 1 ∧
      ¬ ∀ k, b.graph.IsRepeated k → b.graph.IsExpanded k) ∧
    ∃ b, Graph.build ["lib"] true endowed = .ok b ∧
      b.graph.IsRepeated 1 ∧ b.graph.IsExpanded 1 := by
  constructor
  · obtain ⟨b, hb, hentries, hnames, -⟩ := exists_build_bereft
    simp only [List.map_cons, List.map_nil, List.cons.injEq, and_true] at hentries hnames
    obtain ⟨ha, hthree, hfour, hlib⟩ := hentries
    obtain ⟨-, hone, -, hb', hc'⟩ := hnames
    have howns : ¬ b.graph.Owns 1 := by
      rintro ⟨ds, hfind⟩
      rw [hone, ha] at hfind
      cases hfind
    have hsystem : b.graph.NamesSystem bereft 1 :=
      ⟨.plain "a" ["lib"], "lib", rfl, by decide, hlib⟩
    have hx : b.graph.Step 3 1 := ⟨[1], by rw [hb', hthree], List.mem_cons_self⟩
    have hy : b.graph.Step 4 1 := ⟨[1], by rw [hc', hfour], List.mem_cons_self⟩
    refine ⟨b, hb, howns, hsystem, hx, hy, fun hall => ?_⟩
    have heq := (repeats_are_expanded_iff hb).2.2.1.1 hall 1 howns hsystem 3 4 hx hy
    exact absurd heq (by decide)
  · have hview : (Graph.build ["lib"] true endowed).toOption.map (fun b =>
        (b.graph.collisions,
          (Outline.ofGraph b.graph).lines.map OutlineLine.item)) =
        some ([], [.module 0 .plain, .module 2 .plain, .module 1 .plain, .system "lib",
          .module 3 .plain, .module 1 .repeated]) := by
      decide +kernel
    obtain ⟨b, hb, heq⟩ := exists_ok_of_map_eq_some hview
    obtain ⟨hcollisions, hitems⟩ := Prod.mk.inj heq
    have hrepeated : b.graph.IsRepeated 1 := by
      refine List.mem_map.1 ?_
      rw [hitems]
      decide
    exact ⟨b, hb, hrepeated, (repeats_are_expanded_iff hb).2.2.2 hcollisions 1 hrepeated⟩

/-- A line may be marked as a repetition although nothing stands below any line that shows its
module, or another one of the same name. -/
theorem exists_repeat_unexpanded : ∃ (b : Built) (k : ModuleId),
    Graph.build ["lib"] false bereft = .ok b ∧
      (∃ l ∈ (Outline.ofGraph b.graph).lines, l.item = .module k .repeated ∧
        Text.endsWith (Outline.lineText b.graph l) " (*)" = true) ∧
      ∀ x, b.graph.targetName x = b.graph.targetName k → ¬ b.graph.IsExpanded x := by
  obtain ⟨b, hb, -, hnames, hlines⟩ := exists_build_bereft
  refine ⟨b, 1, hb, ⟨⟨[], some true, .module 1 .repeated⟩, ?_, rfl, ?_⟩, ?_⟩
  · rw [hlines]
    decide
  · exact Outline.endsWith_star_iff.2 ⟨1, rfl⟩
  · intro x hname hexpanded
    obtain ⟨items, hne, hmem⟩ := hexpanded
    simp only [List.map_cons, List.map_nil, List.cons.injEq, and_true] at hnames
    obtain ⟨ht, hone, -, hb', hc'⟩ := hnames
    have hexpansions : b.graph.expansions =
        [(.module 0 .plain, []), (.module 2 .plain, []), (.module 3 .plain, [.module 1 .plain]),
          (.module 1 .plain, []), (.module 4 .plain, [.module 1 .repeated]),
          (.module 1 .repeated, [])] := by
      rw [expansions, hlines]
      decide
    rw [hexpansions] at hmem
    rw [hone] at hname
    simp only [List.mem_cons, Prod.mk.injEq, hne, and_false, OutlineItem.module.injEq, and_true,
      reduceCtorEq, List.not_mem_nil, or_false, false_or] at hmem
    obtain ⟨rfl, -⟩ | ⟨rfl, -⟩ := hmem
    · rw [hb'] at hname
      exact absurd hname (by decide)
    · rw [hc'] at hname
      exact absurd hname (by decide)

end Graph

end BuildGraph
