import BuildGraph.Proofs.Graph.Rearrangement
import Mathlib.Data.List.Forall2
set_option autoImplicit false

/-!
# Modules that ask for less

A narrower module is the same module with fewer dependencies, or left out of the build; it
answers to the names that it answered to before (`Module.Narrows`). In a list of modules that are
narrowed one by one, a name may fall from an active module to a library or to an excluded module,
but never so far that it stands for nothing: all modules still answer to their names. So a build
of the narrower modules can only fail for want of a toolchain.

Where no name is answered to by two active modules, the narrower modules also lead to no other
ones: each step of their graph is a step of the wider graph, and a module needs no more than it
did.
-/

namespace BuildGraph

open Relation

/-- The first module is the second one with fewer dependencies, with any definitions, and perhaps
left out of the build. -/
structure Module.Narrows (n m : Module) : Prop where
  same : n = { m with
    dependencies := n.dependencies
    definitions := n.definitions
    excluded := n.excluded }
  dependencies_subset : n.dependencies.all ⊆ m.dependencies.all
  isActive_of_isActive : n.isActive = true → m.isActive = true

namespace Module.Narrows

variable {n m : Module}

theorem targetName_eq (h : n.Narrows m) : n.targetName = m.targetName := by
  rw [h.same]
  rfl

theorem answersTo_eq (h : n.Narrows m) (name : String) : n.answersTo name = m.answersTo name := by
  rw [h.same]
  rfl

theorem systemLibraries_eq (h : n.Narrows m) : n.systemLibraries = m.systemLibraries := by
  rw [h.same]

end Module.Narrows

/-! ## Lists -/

/-- What stands in the first of two related lists has its counterpart in the second one. -/
theorem exists_getElem?_of_forall₂ {α β : Type} {R : α → β → Prop} {as : List α} {bs : List β}
    (h : List.Forall₂ R as bs) {k : Nat} {a : α} (ha : as[k]? = some a) :
    ∃ b, bs[k]? = some b ∧ R a b := by
  induction h generalizing k with
  | nil => cases ha
  | @cons x y _ _ hxy _ ih =>
    cases k with
    | zero =>
      obtain rfl := Option.some.inj ha
      exact ⟨y, rfl, hxy⟩
    | succ k => exact ih ha

/-- The modules of the second list, narrowed one by one. -/
abbrev Narrowed (ns ms : List Module) : Prop :=
  List.Forall₂ Module.Narrows ns ms

namespace Narrowed

variable {ns ms : List Module} {name : String} {k : ModuleId} {n : Module}

theorem map_eq {α : Type} {f : Module → α} (hf : ∀ n m, n.Narrows m → f n = f m)
    (h : Narrowed ns ms) : ns.map f = ms.map f := by
  rw [← List.forall₂_eq_eq_eq, List.forall₂_map_left_iff, List.forall₂_map_right_iff]
  exact h.imp hf

/-- An active module was active before. -/
theorem exists_active (h : Narrowed ns ms) (hn : ns[k]? = some n) (hactive : n.isActive = true) :
    ∃ m, ms[k]? = some m ∧ m.isActive = true ∧ n.Narrows m := by
  obtain ⟨m, hm, hnarrows⟩ := exists_getElem?_of_forall₂ h hn
  exact ⟨m, hm, hnarrows.isActive_of_isActive hactive, hnarrows⟩

theorem targetNameOf_eq (h : Narrowed ns ms) (k : ModuleId) :
    Graph.targetNameOf ns k = Graph.targetNameOf ms k := by
  have hnames : ns.map Module.targetName = ms.map Module.targetName :=
    h.map_eq fun _ _ hnarrows => hnarrows.targetName_eq
  have hname : (ns[k]?).map Module.targetName = (ms[k]?).map Module.targetName := by
    rw [← List.getElem?_map, ← List.getElem?_map, hnames]
  unfold Graph.targetNameOf
  revert hname
  cases ns[k]? <;> cases ms[k]? <;> simp

theorem libraries_ofModules_eq (h : Narrowed ns ms) (libraries : List String) (strict : Bool) :
    (Resolver.ofModules libraries strict ns).libraries =
      (Resolver.ofModules libraries strict ms).libraries := by
  unfold Resolver.ofModules
  simp only [List.flatMap_def]
  rw [h.map_eq fun _ _ hnarrows => hnarrows.systemLibraries_eq]

/-- A name that stands for nothing stood for nothing before. -/
theorem resolve_eq_missing_iff (h : Narrowed ns ms) {libraries : List String} {strict : Bool} :
    (Resolver.ofModules libraries strict ns).resolve name = .missing ↔
      (Resolver.ofModules libraries strict ms).resolve name = .missing := by
  have hanswers : ns.map (Module.answersTo · name) = ms.map (Module.answersTo · name) :=
    h.map_eq fun _ _ hnarrows => hnarrows.answersTo_eq name
  have hnobody : (∀ n ∈ ns, n.answersTo name = false) ↔ ∀ m ∈ ms, m.answersTo name = false := by
    rw [← List.forall_mem_map (P := fun answers => answers = false), hanswers, List.forall_mem_map]
  rw [Resolver.resolve_eq_missing_iff, Resolver.resolve_eq_missing_iff, h.libraries_ofModules_eq]
  exact and_congr_right fun _ => hnobody

/-- Where all dependencies are resolved, those that are left are resolved too. -/
theorem firstMissing?_eq_none (h : Narrowed ns ms) {libraries : List String} {strict : Bool}
    (hresolves : ∀ m ∈ ms, m.isActive = true →
      (Resolver.ofModules libraries strict ms).firstMissing? m = none)
    (hn : n ∈ ns) (hactive : n.isActive = true) :
    (Resolver.ofModules libraries strict ns).firstMissing? n = none := by
  obtain ⟨k, hk⟩ := List.mem_iff_getElem?.1 hn
  obtain ⟨m, hm, hmactive, hnarrows⟩ := h.exists_active hk hactive
  rw [Resolver.firstMissing?_eq_none_iff]
  intro name hname hmissing
  have hstands := Resolver.firstMissing?_eq_none_iff.1
    (hresolves m (List.mem_of_getElem? hm) hmactive) name (hnarrows.dependencies_subset hname)
  exact hstands (h.resolve_eq_missing_iff.1 hmissing)

/-- Where at most one active module answered to a name, a module that answers to it is that one. -/
theorem firstActive?_eq_some (h : Narrowed ns ms) (hnames : Unambiguous ms)
    (hfirst : Resolver.firstActive? ns name = some k) :
    Resolver.firstActive? ms name = some k := by
  obtain ⟨⟨n, hn, hactive, hanswers⟩, -⟩ := Resolver.firstActive?_eq_some_iff.1 hfirst
  obtain ⟨m, hm, hmactive, hnarrows⟩ := h.exists_active hn hactive
  rw [hnarrows.answersTo_eq] at hanswers
  exact hnames.firstActive?_eq_some_iff.2 ⟨m, hm, hmactive, hanswers⟩

theorem lastNamed?_eq_some (h : Narrowed ns ms) (hnames : Unambiguous ms)
    (hlast : lastNamed? ns name = some (k, n)) :
    ∃ m, n.Narrows m ∧ lastNamed? ms name = some (k, m) := by
  obtain ⟨hn, hactive, htarget⟩ := of_lastNamed? hlast
  obtain ⟨m, hm, hmactive, hnarrows⟩ := h.exists_active hn hactive
  rw [hnarrows.targetName_eq] at htarget
  exact ⟨m, hnarrows, hnames.lastNamed?_eq_some_iff.2 ⟨hm, hmactive, htarget⟩⟩

/-- The edges of a narrower module are edges of the module. -/
theorem edges_subset {r R : Resolver} {m : Module} (h : Narrowed R.modules r.modules)
    (hnames : Unambiguous r.modules) (hnarrows : n.Narrows m) (a : ModuleId) :
    R.edges a n ⊆ r.edges a m := by
  intro k hk
  obtain ⟨hne, name, hname, hfirst⟩ := Resolver.mem_edges_iff.1 hk
  exact Resolver.mem_edges_iff.2
    ⟨hne, name, hnarrows.dependencies_subset hname, h.firstActive?_eq_some hnames hfirst⟩

end Narrowed

/-! ## Graphs -/

namespace Graph

variable {ns ms : List Module} {libraries libraries' : List String} {b b' : Built} {g h : Graph}
  {r R : Resolver} {a k : ModuleId}

/-- Where the modules can be built, narrower ones can be built too, unless no toolchain is left. -/
theorem exists_build_or_noToolchain_of_narrowed (H : Narrowed ns ms)
    (hb : Graph.build libraries false ms = .ok b) :
    (∃ b', Graph.build libraries false ns = .ok b') ∨
      ∃ f, Graph.build libraries false ns = .error f ∧ f.error = .noToolchain := by
  cases hbuild : Graph.build libraries false ns with
  | ok b' => exact .inl ⟨b', rfl⟩
  | error f =>
    rcases of_build_eq_error hbuild with ⟨n, hn, hactive, name, hmissing, -⟩ | ⟨-, -, herror⟩
    · have hresolves := H.firstMissing?_eq_none (isGraphOf_of_build hb).resolves hn hactive
      cases hresolves.symm.trans hmissing
    · exact .inr ⟨f, rfl, herror⟩

/-- A step among narrower modules is a step among the modules. -/
theorem step_of_narrowed (H : Narrowed R.modules r.modules) (hnames : Unambiguous r.modules)
    (hg : g.IsGraphOf r) (hh : h.IsGraphOf R) (hstep : h.Step a k) : g.Step a k := by
  obtain ⟨n, hlast, hk⟩ := (step_iff_lastNamed? hh).1 hstep
  obtain ⟨m, hnarrows, hlast'⟩ := H.lastNamed?_eq_some hnames hlast
  have hname : h.targetName a = g.targetName a := by
    unfold targetName
    rw [hg.modules_eq, hh.modules_eq, H.targetNameOf_eq]
  rw [hname] at hlast'
  exact (step_iff_lastNamed? hg).2 ⟨m, hlast', H.edges_subset hnames hnarrows a hk⟩

/-- A narrower module needs no more than the module among narrower ones. -/
theorem closure_subset_of_narrowed (H : Narrowed R.modules r.modules)
    (hnames : Unambiguous r.modules) (hg : g.IsGraphOf r) (hh : h.IsGraphOf R) (o : ModuleId) :
    h.closure o ⊆ g.closure o := by
  intro x hx
  obtain ⟨hne, hway⟩ := (mem_closure_iff_transGen hh).1 hx
  have hwide : TransGen g.Step o x :=
    TransGen.mono (fun _ _ hstep => step_of_narrowed H hnames hg hh hstep) o x hway
  exact (mem_closure_iff_transGen hg).2 ⟨hne, hwide⟩

end Graph

end BuildGraph
