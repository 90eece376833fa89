import BuildGraph.Graph.Outline
import BuildGraph.Proofs.Graph.Built
import BuildGraph.Proofs.Graph.Search
import BuildGraph.Proofs.Outline.Forest
set_option autoImplicit false

/-!
# How an outline comes about

`Shows` says what an outline does with the children of a module, without a bound on its depth: one
rule for each way in which a line can be marked. It relates the modules that were shown before to
the forest that is shown and the modules shown after it, and it leaves no choice (`Shows.unique`).
`ShowsMargin` does the same for the modules at the margin.

The outline of a built graph follows these rules (`exists_showsMargin_ofGraph`). Its bound is never
reached, since the modules that are being expanded around a line are distinct.
-/

namespace BuildGraph

variable {g : Graph} {way ids s t u : List ModuleId} {cs : List OutlineChild} {f below : Forest}
  {a k id : ModuleId} {ds : List ModuleId}

/-! ## The rules -/

/-- At the end of a way, given from its end, some children of a module are shown as a forest. The
lists of modules are those shown before and after. -/
inductive Shows (g : Graph) :
    List ModuleId → List OutlineChild → List ModuleId → Forest → List ModuleId → Prop
  | done {way s : List ModuleId} : Shows g way [] s .empty s
  | system {way s t : List ModuleId} {cs : List OutlineChild} {f : Forest} {name : String} :
    Shows g way cs s f t → Shows g way (.system name :: cs) s (.cons (.system name) .empty f) t
  /-- The module stands on the way. -/
  | cyclic {way s t : List ModuleId} {cs : List OutlineChild} {f : Forest} {k : ModuleId} :
    k ∈ way → Shows g way cs s f t →
      Shows g way (.module k :: cs) s (.cons (.module k .cyclic) .empty f) t
  /-- The module has been shown before with what stands below it. -/
  | repeated {way s t : List ModuleId} {cs : List OutlineChild} {f : Forest} {k : ModuleId} :
    k ∉ way → k ∈ s → g.hasChildren k = true → Shows g way cs s f t →
      Shows g way (.module k :: cs) s (.cons (.module k .repeated) .empty f) t
  /-- The module is new, or nothing stands below it. -/
  | plain {way s t u : List ModuleId} {cs : List OutlineChild} {below f : Forest} {k : ModuleId} :
    k ∉ way → ¬(k ∈ s ∧ g.hasChildren k = true) →
      Shows g (k :: way) (g.children k) (k :: s) below t → Shows g way cs t f u →
        Shows g way (.module k :: cs) s (.cons (.module k .plain) below f) u

/-- Some modules are shown at the margin, as far as they have not been shown before. -/
inductive ShowsMargin (g : Graph) :
    List ModuleId → List ModuleId → Forest → List ModuleId → Prop
  | done {s : List ModuleId} : ShowsMargin g [] s .empty s
  | skip {ids s t : List ModuleId} {f : Forest} {id : ModuleId} :
    id ∈ s → ShowsMargin g ids s f t → ShowsMargin g (id :: ids) s f t
  | root {ids s t u : List ModuleId} {below f : Forest} {id : ModuleId} :
    id ∉ s → Shows g [id] (g.children id) (id :: s) below t → ShowsMargin g ids t f u →
      ShowsMargin g (id :: ids) s (.cons (.module id .plain) below f) u

/-- The rules leave no choice. -/
theorem Shows.unique {f' : Forest} {t' : List ModuleId} (h : Shows g way cs s f t)
    (h' : Shows g way cs s f' t') : f = f' ∧ t = t' := by
  induction h generalizing f' t' with
  | done =>
    cases h' with
    | done => exact ⟨rfl, rfl⟩
  | system _ ih =>
    cases h' with
    | system hrest =>
      obtain ⟨rfl, rfl⟩ := ih hrest
      exact ⟨rfl, rfl⟩
  | cyclic hway _ ih =>
    cases h' with
    | cyclic _ hrest =>
      obtain ⟨rfl, rfl⟩ := ih hrest
      exact ⟨rfl, rfl⟩
    | repeated hnot => exact absurd hway hnot
    | plain hnot => exact absurd hway hnot
  | repeated hway hshown hhas _ ih =>
    cases h' with
    | cyclic hon => exact absurd hon hway
    | repeated _ _ _ hrest =>
      obtain ⟨rfl, rfl⟩ := ih hrest
      exact ⟨rfl, rfl⟩
    | plain _ hnot => exact absurd ⟨hshown, hhas⟩ hnot
  | plain hway hnew _ _ ihbelow ihrest =>
    cases h' with
    | cyclic hon => exact absurd hon hway
    | repeated _ hshown hhas => exact absurd ⟨hshown, hhas⟩ hnew
    | plain _ _ hbelow hrest =>
      obtain ⟨rfl, rfl⟩ := ihbelow hbelow
      obtain ⟨rfl, rfl⟩ := ihrest hrest
      exact ⟨rfl, rfl⟩

theorem ShowsMargin.unique {f' : Forest} {t' : List ModuleId} (h : ShowsMargin g ids s f t)
    (h' : ShowsMargin g ids s f' t') : f = f' ∧ t = t' := by
  induction h generalizing f' t' with
  | done =>
    cases h' with
    | done => exact ⟨rfl, rfl⟩
  | skip hshown _ ih =>
    cases h' with
    | skip _ hrest => exact ih hrest
    | root hnew => exact absurd hshown hnew
  | root hnew hbelow _ ih =>
    cases h' with
    | skip hshown => exact absurd hshown hnew
    | root _ hbelow' hrest =>
      obtain ⟨rfl, rfl⟩ := hbelow.unique hbelow'
      obtain ⟨rfl, rfl⟩ := ih hrest
      exact ⟨rfl, rfl⟩

/-- A forest has as many items at its top as there are children. -/
theorem Shows.isEmpty_eq (h : Shows g way cs s f t) : f.isEmpty = cs.isEmpty := by
  cases h <;> rfl

/-! ## What stands below a module -/

/-- The module that is shown, if one is. -/
def OutlineChild.module? : OutlineChild → Option ModuleId
  | .module id => some id
  | .system _ => none

namespace Graph

theorem children_of_find? (h : g.entries.find? (g.targetName a) = some (.owned a ds)) :
    g.children a = ds.map .module ++ (g.systemNames a).map .system := by
  unfold children
  rw [entryOf?_eq_some_iff.2 ⟨h, rfl⟩]
  rfl

/-- A module without an entry of its own has nothing below it. -/
theorem children_of_not_owns (h : ¬ g.Owns a) : g.children a = [] := by
  unfold children
  rw [entryOf?_of_not_owns h]

theorem children_eq_nil_of_hasChildren_eq_false (h : g.hasChildren a = false) :
    g.children a = [] := by
  unfold hasChildren at h
  simp only [Bool.or_eq_false_iff, Bool.not_eq_false', List.isEmpty_iff] at h
  by_cases howns : g.Owns a
  · obtain ⟨ds, hfind⟩ := howns
    rw [dependencies_of_find? hfind] at h
    rw [children_of_find? hfind, h.1, h.2]
    rfl
  · exact children_of_not_owns howns

/-- The modules below a module are its dependencies. -/
theorem filterMap_module?_children (g : Graph) (a : ModuleId) :
    (g.children a).filterMap OutlineChild.module? = g.dependencies a := by
  by_cases howns : g.Owns a
  · obtain ⟨ds, hfind⟩ := howns
    have hmodules : (ds.map OutlineChild.module).filterMap OutlineChild.module? = ds := by
      rw [List.filterMap_map]
      exact List.filterMap_some
    have hsystems : ((g.systemNames a).map OutlineChild.system).filterMap OutlineChild.module? =
        [] := by
      rw [List.filterMap_map]
      exact List.filterMap_eq_nil_iff.2 fun _ _ => rfl
    rw [children_of_find? hfind, dependencies_of_find? hfind, List.filterMap_append, hmodules,
      hsystems, List.append_nil]
  · rw [children_of_not_owns howns, dependencies_of_not_owns howns]
    rfl

theorem mem_dependencies_of_mem_children (h : .module k ∈ g.children a) : k ∈ g.dependencies a := by
  rw [← filterMap_module?_children]
  exact List.mem_filterMap.2 ⟨.module k, h, rfl⟩

theorem mem_marginCandidates_iff :
    a ∈ g.marginCandidates ↔ a ∈ owners g.modules g.entries := by
  unfold marginCandidates
  rw [List.mem_append, List.mem_filter]
  exact ⟨fun h => h.elim And.left id, .inr⟩

end Graph

/-! ## The rules and the outline -/

namespace Outline

variable {bound depth : Nat} {around : List Bool} {o : Outline}

/-- The outline with one child of a module, which may be the last one. -/
def showChild (g : Graph) (depth : Nat) (around : List Bool) (way : List ModuleId) (last : Bool)
    (o : Outline) (c : OutlineChild) : Outline :=
  match c with
  | .system name => o.add ⟨around, some last, .system name⟩
  | .module k =>
    if k ∈ way then o.add ⟨around, some last, .module k .cyclic⟩
    else if k ∈ o.shown ∧ g.hasChildren k = true then
      o.add ⟨around, some last, .module k .repeated⟩
    else
      expand g depth (around ++ [last]) (k :: way)
        ((o.see k).add ⟨around, some last, .module k .plain⟩) k

theorem expand_succ (g : Graph) (depth : Nat) (around : List Bool) (way : List ModuleId)
    (o : Outline) (id : ModuleId) :
    expand g (depth + 1) around way o id =
      (g.children id).zipIdx.foldl (fun o p =>
        showChild g depth around way (p.2 + 1 == (g.children id).length) o p.1) o :=
  rfl

/-- The outline expands a module at the end of a way by the rules. -/
def Follows (g : Graph) (depth : Nat) (way : List ModuleId) : Prop :=
  ∀ around o id, ∃ f t, Shows g way (g.children id) o.shown f t ∧
    expand g depth around way o id = ⟨t, o.lines ++ f.lines around⟩

/-- One child is shown by the rule that fits it. -/
theorem exists_shows_showChild (around : List Bool) (last : Bool) (o : Outline) {c : OutlineChild}
    (hfollows : ∀ k, c = .module k → k ∉ way → Follows g depth (k :: way)) :
    ∃ item below t, showChild g depth around way last o c =
        ⟨t, o.lines ++ ⟨around, some last, item⟩ :: below.lines (around ++ [last])⟩ ∧
      ∀ cs f u, Shows g way cs t f u → Shows g way (c :: cs) o.shown (.cons item below f) u := by
  cases c with
  | system name =>
    exact ⟨.system name, .empty, o.shown, rfl, fun cs f u h => .system h⟩
  | module k =>
    unfold showChild
    dsimp only
    by_cases hway : k ∈ way
    · rw [if_pos hway]
      exact ⟨.module k .cyclic, .empty, o.shown, rfl, fun cs f u h => .cyclic hway h⟩
    · rw [if_neg hway]
      by_cases hshown : k ∈ o.shown ∧ g.hasChildren k = true
      · rw [if_pos hshown]
        exact ⟨.module k .repeated, .empty, o.shown, rfl,
          fun cs f u h => .repeated hway hshown.1 hshown.2 h⟩
      · rw [if_neg hshown]
        obtain ⟨below, t, hbelow, heq⟩ := hfollows k rfl hway (around ++ [last])
          ((o.see k).add ⟨around, some last, .module k .plain⟩) k
        refine ⟨.module k .plain, below, t, ?_, fun cs f u h => .plain hway hshown hbelow h⟩
        rw [heq]
        exact congrArg (Outline.mk t) (List.append_assoc _ _ _)

theorem exists_shows_foldl {total : Nat}
    (hfollows : ∀ k, .module k ∈ cs → k ∉ way → Follows g depth (k :: way)) {done : Nat}
    (htotal : done + cs.length = total) :
    ∃ f t, Shows g way cs o.shown f t ∧
      (cs.zipIdx done).foldl (fun o p =>
          showChild g depth around way (p.2 + 1 == total) o p.1) o =
        ⟨t, o.lines ++ f.lines around⟩ := by
  induction cs generalizing done o with
  | nil =>
    refine ⟨.empty, o.shown, .done, ?_⟩
    exact congrArg (Outline.mk o.shown) (List.append_nil _).symm
  | cons c cs ih =>
    obtain ⟨item, below, t, heq, hshows⟩ := exists_shows_showChild around
      (done + 1 == total) o (fun k hk => hfollows k (hk ▸ List.mem_cons_self))
    rw [List.length_cons] at htotal
    have htotal' : done + 1 + cs.length = total := by omega
    obtain ⟨f, u, hrest, hfold⟩ := ih
      (o := ⟨t, o.lines ++ ⟨around, some (done + 1 == total), item⟩ ::
        below.lines (around ++ [done + 1 == total])⟩)
      (fun k hk => hfollows k (List.mem_cons_of_mem c hk)) htotal'
    have hlast : (done + 1 == total) = f.isEmpty := by
      rw [hrest.isEmpty_eq, Bool.eq_iff_iff, beq_iff_eq, List.isEmpty_iff_length_eq_zero]
      omega
    refine ⟨.cons item below f, u, hshows cs f u hrest, ?_⟩
    rw [List.zipIdx_cons, List.foldl_cons, heq, hfold, hlast]
    simp only [Forest.lines, List.append_assoc, List.cons_append]

/-- An outline that may go as deep as there are modules is not stopped by its bound. -/
theorem follows_of_bound (hnext : ∀ x, ∀ y ∈ g.dependencies x, y < bound) (hnodup : way.Nodup)
    (hway : ∀ x ∈ way, x < bound) (hdepth : bound < way.length + depth) :
    Follows g depth way := by
  induction depth generalizing way with
  | zero =>
    have hle := length_le_of_nodup_of_lt hnodup hway
    omega
  | succ depth ih =>
    intro around o id
    rw [expand_succ]
    refine exists_shows_foldl (fun k hk hnew => ?_) (Nat.zero_add _)
    have hcons : ∀ x ∈ k :: way, x < bound := by
      intro x hx
      rcases List.mem_cons.1 hx with rfl | hx
      · exact hnext id x (Graph.mem_dependencies_of_mem_children hk)
      · exact hway x hx
    have hdeeper : bound < (k :: way).length + depth := by
      rw [List.length_cons]
      omega
    exact ih (List.nodup_cons.2 ⟨hnew, hnodup⟩) hcons hdeeper

theorem exists_showsMargin_foldl (hnext : ∀ x, ∀ y ∈ g.dependencies x, y < g.modules.length)
    (hids : ∀ x ∈ ids, x < g.modules.length) :
    ∃ f t, ShowsMargin g ids o.shown f t ∧
      ids.foldl (addRoot g) o = ⟨t, o.lines ++ f.marginLines⟩ := by
  induction ids generalizing o with
  | nil =>
    refine ⟨.empty, o.shown, .done, ?_⟩
    exact congrArg (Outline.mk o.shown) (List.append_nil _).symm
  | cons id ids ih =>
    have hrest := fun o => ih (o := o) fun x hx => hids x (List.mem_cons_of_mem id hx)
    rw [List.foldl_cons]
    unfold addRoot
    by_cases hshown : id ∈ o.shown
    · rw [if_pos hshown]
      obtain ⟨f, t, hmargin, heq⟩ := hrest o
      exact ⟨f, t, .skip hshown hmargin, heq⟩
    · rw [if_neg hshown]
      have hway : ∀ x ∈ [id], x < g.modules.length := by
        intro x hx
        obtain rfl := List.mem_singleton.1 hx
        exact hids x List.mem_cons_self
      have hdepth : g.modules.length < [id].length + (g.modules.length + 1) := by
        rw [List.length_singleton]
        omega
      obtain ⟨below, t, hbelow, heq⟩ := follows_of_bound hnext (List.nodup_singleton id) hway hdepth
        [] ((o.see id).add ⟨[], none, .module id .plain⟩) id
      rw [heq]
      obtain ⟨f, u, hmargin, hfold⟩ :=
        hrest ⟨t, ((o.see id).add ⟨[], none, .module id .plain⟩).lines ++ below.lines []⟩
      refine ⟨.cons (.module id .plain) below f, u, .root hshown hbelow hmargin, ?_⟩
      change ids.foldl (addRoot g) _ = _
      rw [hfold]
      simp [Outline.add, Outline.see, Forest.marginLines]

/-- The outline of a built graph is the one that the rules lead to. -/
theorem exists_showsMargin_ofGraph {r : Resolver} (hg : g.IsGraphOf r) :
    ∃ f t, ShowsMargin g g.marginCandidates [] f t ∧ ofGraph g = ⟨t, f.marginLines⟩ := by
  refine exists_showsMargin_foldl (o := blank) ?_ ?_
  · rw [hg.modules_eq]
    exact Graph.lt_of_mem_dependencies hg
  · intro x hx
    exact (Graph.mem_owners_iff.1 (Graph.mem_marginCandidates_iff.1 hx)).1

end Outline

end BuildGraph
