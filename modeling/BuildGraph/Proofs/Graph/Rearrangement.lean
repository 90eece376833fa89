import BuildGraph.Proofs.Graph.Ownership
import BuildGraph.Proofs.Outline.Cycles
import Mathlib.Logic.Equiv.Basic
set_option autoImplicit false

/-!
# Modules in another order

The order in which the modules are found decides which of several modules answers to a name first
and which of them keeps it. Where no two active modules answer to one name (`Unambiguous`) it
decides nothing but the numbers of the modules: a build of the same modules in another order has the
same outcome, and its graph is the same along the new numbers (`Graph.Agrees`).

Whether a build fails, and for what kind of reason, does not depend on the order in any case: it is
a matter of which modules there are and which names they answer to.
-/

namespace BuildGraph

open Relation

variable {σ : Equiv.Perm ModuleId} {ms ns : List Module} {r R : Resolver} {name : String}
  {a k : ModuleId} {m : Module}

/-! ## Lists in another order -/

/-- No name is answered to by two active modules. -/
def Unambiguous (ms : List Module) : Prop :=
  ms.Pairwise fun x y => x.isActive = true → y.isActive = true →
    ∀ name, ¬ (x.answersTo name = true ∧ y.answersTo name = true)

/-- Modules that share no name are not mistaken for each other. -/
theorem unambiguous_of_disjoint (h : ms.Pairwise fun x y =>
    ∀ name ∈ x.targetName :: x.linkableTargets, name ∉ y.targetName :: y.linkableTargets) :
    Unambiguous ms := by
  refine h.imp ?_
  intro x y hxy _ _ name hboth
  rw [x.answersTo_iff, y.answersTo_iff] at hboth
  refine hxy name ?_ ?_
  · exact List.mem_cons.2 (hboth.1.imp_left Eq.symm)
  · exact List.mem_cons.2 (hboth.2.imp_left Eq.symm)

theorem Unambiguous.perm (h : Unambiguous ms) (hperm : ms.Perm ns) : Unambiguous ns := by
  refine (hperm.pairwise_iff ?_).1 h
  intro x y hxy hy hx name hboth
  exact hxy hx hy name hboth.symm

theorem Unambiguous.eq_of_answersTo (h : Unambiguous ms) {i j : ModuleId} {x y : Module}
    (hx : ms[i]? = some x) (hy : ms[j]? = some y) (hxactive : x.isActive = true)
    (hyactive : y.isActive = true) (hxname : x.answersTo name = true)
    (hyname : y.answersTo name = true) : i = j := by
  obtain ⟨hi, rfl⟩ := List.getElem?_eq_some_iff.1 hx
  obtain ⟨hj, rfl⟩ := List.getElem?_eq_some_iff.1 hy
  have hpairs := List.pairwise_iff_getElem.1 h
  rcases Nat.lt_trichotomy i j with hlt | heq | hgt
  · exact absurd ⟨hxname, hyname⟩ (hpairs i j hi hj hlt hxactive hyactive name)
  · exact heq
  · exact absurd ⟨hyname, hxname⟩ (hpairs j i hj hi hgt hyactive hxactive name)

/-- Each module of the first list stands in the second one at its new position. -/
def Rearranges (σ : Equiv.Perm ModuleId) (ms ns : List Module) : Prop :=
  ∀ a, ns[σ a]? = ms[a]?

/-- Positions behind a first one that stays. -/
def keepFirst (σ : Equiv.Perm ModuleId) : Equiv.Perm ModuleId where
  toFun
    | 0 => 0
    | a + 1 => σ a + 1
  invFun
    | 0 => 0
    | a + 1 => σ.symm a + 1
  left_inv a := by cases a <;> simp
  right_inv a := by cases a <;> simp

/-- Lists with the same modules are rearranged by some permutation of the positions. -/
theorem exists_rearranges (hperm : ms.Perm ns) : ∃ σ, Rearranges σ ms ns := by
  induction hperm with
  | nil => exact ⟨Equiv.refl _, fun a => rfl⟩
  | cons x _ ih =>
    obtain ⟨σ, hσ⟩ := ih
    refine ⟨keepFirst σ, ?_⟩
    intro a
    cases a with
    | zero => rfl
    | succ a => exact hσ a
  | swap x y l =>
    refine ⟨Equiv.swap 0 1, ?_⟩
    intro a
    match a with
    | 0 => rfl
    | 1 => rfl
    | a + 2 =>
      rw [Equiv.swap_apply_of_ne_of_ne (by simp) (by simp)]
      rfl
  | trans _ _ ih₁ ih₂ =>
    obtain ⟨σ, hσ⟩ := ih₁
    obtain ⟨τ, hτ⟩ := ih₂
    exact ⟨σ.trans τ, fun a => (hτ (σ a)).trans (hσ a)⟩

/-! ## Outcomes -/

/-- Two errors have one cause, whatever names they give. -/
def Error.SameKind (e e' : Error) : Prop :=
  e.ctorIdx = e'.ctorIdx

namespace Resolver

/-- A name stands for nothing if it is no library and no module answers to it, be it active or
not. -/
theorem resolve_eq_missing_iff :
    r.resolve name = .missing ↔
      name ∉ r.libraries ∧ ∀ m ∈ r.modules, m.answersTo name = false := by
  constructor
  · intro hmissing
    have hnone : firstActive? r.modules name = none := by
      cases hfirst : firstActive? r.modules name with
      | none => rfl
      | some id =>
        rw [resolve_eq_module_iff.2 hfirst] at hmissing
        cases hmissing
    rw [resolve_of_firstActive?_eq_none hnone] at hmissing
    split at hmissing
    · cases hmissing
    · rename_i hlibrary
      split at hmissing
      · cases hmissing
      · rename_i hexcused
        refine ⟨hlibrary, ?_⟩
        intro m hm
        cases hexcluded : m.excluded with
        | false =>
          have hactive : m.isActive = true := by
            rw [Module.isActive, hexcluded]
            rfl
          exact firstActive?_eq_none_iff.1 hnone m hm hactive
        | true =>
          apply Bool.eq_false_iff.2
          intro hanswers
          exact hexcused ⟨m, hm, hexcluded, hanswers⟩
  · intro h
    obtain ⟨hlibrary, hnobody⟩ := h
    have hnone : firstActive? r.modules name = none :=
      firstActive?_eq_none_iff.2 fun m hm _ => hnobody m hm
    have hunexcused : ¬ ∃ m ∈ r.modules, m.excluded = true ∧ m.answersTo name = true := by
      intro hexcused
      obtain ⟨m, hm, -, hanswers⟩ := hexcused
      exact Bool.eq_false_iff.1 (hnobody m hm) hanswers
    rw [resolve_of_firstActive?_eq_none hnone, if_neg hlibrary, if_neg hunexcused]

theorem mem_libraries_ofModules_of_perm {libraries : List String} {strict strict' : Bool}
    (hperm : ms.Perm ns) :
    name ∈ (ofModules libraries strict ns).libraries ↔
      name ∈ (ofModules libraries strict' ms).libraries := by
  simp only [mem_libraries_ofModules_iff, Registered, hperm.mem_iff]

/-- Whether the dependencies of a module are resolved does not depend on the order. -/
theorem firstMissing?_eq_none_iff_of_mem_iff (hmodules : ∀ x, x ∈ R.modules ↔ x ∈ r.modules)
    (hlibraries : ∀ name, name ∈ R.libraries ↔ name ∈ r.libraries) :
    R.firstMissing? m = none ↔ r.firstMissing? m = none := by
  simp only [firstMissing?_eq_none_iff, ne_eq, resolve_eq_missing_iff, hmodules, hlibraries]

end Resolver

namespace Graph

variable {libraries : List String} {b b' : Built} {f f' : Failure}

/-- A build that is not strict fails because an active module has a dependency that stands for
nothing, or else because no active module carries settings. -/
theorem of_build_eq_error (h : Graph.build libraries false ms = .error f) :
    (∃ m ∈ ms, m.isActive = true ∧
      ∃ name, (Resolver.ofModules libraries false ms).firstMissing? m = some name ∧
        f.error = .unresolvedDependency name m.targetName) ∨
    ((∀ m ∈ ms, m.isActive = true →
        (Resolver.ofModules libraries false ms).firstMissing? m = none) ∧
      (∀ m ∈ ms, m.isActive = true → m.toolchain = none) ∧ f.error = .noToolchain) := by
  cases hafter : (Resolver.ofModules libraries false ms).after ms with
  | error e =>
    obtain rfl := Except.error.inj ((build_of_after_eq_error hafter).symm.trans h)
    obtain ⟨pre, m, rest, p, hsplit, -, hadd⟩ := Resolver.exists_add_eq_error hafter
    obtain ⟨hactive, hfails⟩ := Progress.of_add_eq_error hadd
    rcases hfails with ⟨name, hmissing, herror⟩ | ⟨-, hstrict, -⟩
    · have hm : m ∈ ms := by
        rw [hsplit]
        exact List.mem_append_right pre List.mem_cons_self
      exact .inl ⟨m, hm, hactive, name, hmissing, herror⟩
    · exact absurd hstrict Bool.false_ne_true
  | ok p =>
    have hfinish := (build_of_after_eq_ok hafter).symm.trans h
    rw [Resolver.finish_eq] at hfinish
    cases hc : p.toolchain? with
    | some c =>
      rw [hc] at hfinish
      cases hfinish
    | none =>
      rw [hc] at hfinish
      obtain rfl := Except.error.inj hfinish
      have hchosen := Resolver.chosen_after hafter
      rw [hc] at hchosen
      exact .inr ⟨Resolver.firstMissing?_after hafter, hchosen, rfl⟩

/-- A build that is not strict yields a graph exactly if the dependencies of all active modules are
resolved and one of these modules carries settings. -/
theorem exists_build_iff :
    (∃ b, Graph.build libraries false ms = .ok b) ↔
      (∀ m ∈ ms, m.isActive = true →
        (Resolver.ofModules libraries false ms).firstMissing? m = none) ∧
      ∃ m ∈ ms, m.isActive = true ∧ m.toolchain ≠ none := by
  constructor
  · intro h
    obtain ⟨b, hb⟩ := h
    have hg := isGraphOf_of_build hb
    obtain ⟨m, hm, hactive, hsettings⟩ := hg.toolchain_active
    refine ⟨hg.resolves, m, List.mem_of_getElem? hm, hactive, ?_⟩
    rw [hsettings]
    exact Option.some_ne_none _
  · intro h
    obtain ⟨hresolves, m, hm, hactive, hcarries⟩ := h
    cases hbuild : Graph.build libraries false ms with
    | ok b => exact ⟨b, rfl⟩
    | error f =>
      rcases of_build_eq_error hbuild with ⟨x, hx, hxactive, name, hmissing, -⟩ | ⟨-, hnone, -⟩
      · cases (hresolves x hx hxactive).symm.trans hmissing
      · exact absurd (hnone m hm hactive) hcarries

theorem exists_build_of_perm (hperm : ms.Perm ns) (h : Graph.build libraries false ms = .ok b) :
    ∃ b', Graph.build libraries false ns = .ok b' := by
  obtain ⟨hresolves, m, hm, htoolchain⟩ := exists_build_iff.1 ⟨b, h⟩
  refine exists_build_iff.2 ⟨?_, m, hperm.mem_iff.1 hm, htoolchain⟩
  intro x hx hactive
  exact (Resolver.firstMissing?_eq_none_iff_of_mem_iff
    (R := Resolver.ofModules libraries false ns) (fun x => hperm.mem_iff.symm)
    fun name => Resolver.mem_libraries_ofModules_of_perm hperm).2
      (hresolves x (hperm.mem_iff.2 hx) hactive)

theorem sameKind_of_perm (hperm : ms.Perm ns) (h : Graph.build libraries false ms = .error f)
    (h' : Graph.build libraries false ns = .error f') : f.error.SameKind f'.error := by
  have hmissing : ∀ m, (Resolver.ofModules libraries false ns).firstMissing? m = none ↔
      (Resolver.ofModules libraries false ms).firstMissing? m = none := by
    intro m
    exact Resolver.firstMissing?_eq_none_iff_of_mem_iff (fun x => hperm.mem_iff.symm)
      fun name => Resolver.mem_libraries_ofModules_of_perm hperm
  unfold Error.SameKind
  rcases of_build_eq_error h with ⟨m, hm, hactive, name, hsome, herror⟩ | ⟨hnone, -, herror⟩
  · rcases of_build_eq_error h' with ⟨x, -, -, other, -, herror'⟩ | ⟨hnone', -, -⟩
    · rw [herror, herror']
      rfl
    · cases ((hmissing m).1 (hnone' m (hperm.mem_iff.1 hm) hactive)).symm.trans hsome
  · rcases of_build_eq_error h' with ⟨m, hm, hactive, name, hsome, -⟩ | ⟨-, -, herror'⟩
    · cases ((hmissing m).2 (hnone m (hperm.mem_iff.2 hm) hactive)).symm.trans hsome
    · rw [herror, herror']

end Graph

/-! ## Names in another order -/

namespace Unambiguous

/-- The module that answers to a name first is the only one that does. -/
theorem firstActive?_eq_some_iff (h : Unambiguous ms) :
    Resolver.firstActive? ms name = some k ↔
      ∃ m, ms[k]? = some m ∧ m.isActive = true ∧ m.answersTo name = true := by
  rw [Resolver.firstActive?_eq_some_iff]
  constructor
  · intro hfirst
    exact hfirst.1
  · intro hanswers
    refine ⟨hanswers, ?_⟩
    obtain ⟨m, hm, hactive, hname⟩ := hanswers
    intro j hj x hx hxactive
    apply Bool.eq_false_iff.2
    intro hxname
    obtain rfl := h.eq_of_answersTo hx hm hxactive hactive hxname hname
    exact Nat.lt_irrefl _ hj

/-- The last module of a target name is the only one that has it. -/
theorem lastNamed?_eq_some_iff (h : Unambiguous ms) :
    lastNamed? ms name = some (k, m) ↔
      ms[k]? = some m ∧ m.isActive = true ∧ m.targetName = name := by
  rw [BuildGraph.lastNamed?_eq_some_iff]
  constructor
  · intro hlast
    exact ⟨hlast.1, hlast.2.1, hlast.2.2.1⟩
  · intro hnamed
    obtain ⟨hm, hactive, hname⟩ := hnamed
    refine ⟨hm, hactive, hname, ?_⟩
    intro j x hj hx hxactive hxname
    have hanswers := (m.answersTo_iff name).2 (.inl hname)
    have hxanswers := (x.answersTo_iff name).2 (.inl hxname)
    obtain rfl := h.eq_of_answersTo hm hx hactive hxactive hanswers hxanswers
    exact Nat.lt_irrefl _ hj

end Unambiguous

/-- The resolver of the same modules in another order. No name is answered to by two active modules,
in either order, and the same names are libraries. -/
structure Resolver.Rearranged (σ : Equiv.Perm ModuleId) (r R : Resolver) : Prop where
  rearranges : Rearranges σ r.modules R.modules
  mem_iff : ∀ m, m ∈ R.modules ↔ m ∈ r.modules
  unambiguous : Unambiguous r.modules
  unambiguous' : Unambiguous R.modules
  libraries_iff : ∀ name, name ∈ R.libraries ↔ name ∈ r.libraries

namespace Resolver.Rearranged

theorem firstActive?_eq_some_iff (H : Rearranged σ r R) :
    firstActive? R.modules name = some (σ k) ↔ firstActive? r.modules name = some k := by
  rw [H.unambiguous'.firstActive?_eq_some_iff, H.unambiguous.firstActive?_eq_some_iff,
    H.rearranges k]

theorem lastNamed?_eq_some_iff (H : Rearranged σ r R) :
    lastNamed? R.modules name = some (σ k, m) ↔ lastNamed? r.modules name = some (k, m) := by
  rw [H.unambiguous'.lastNamed?_eq_some_iff, H.unambiguous.lastNamed?_eq_some_iff, H.rearranges k]

theorem mem_edges_iff (H : Rearranged σ r R) :
    σ k ∈ R.edges (σ a) m ↔ k ∈ r.edges a m := by
  simp only [Resolver.mem_edges_iff, σ.injective.ne_iff, H.firstActive?_eq_some_iff]

theorem mem_placeholders_iff (H : Rearranged σ r R) :
    name ∈ R.placeholders m ↔ name ∈ r.placeholders m := by
  simp only [Resolver.mem_placeholders_iff, firstActive?_eq_none_iff, H.mem_iff, H.libraries_iff]

end Resolver.Rearranged

/-! ## Graphs in another order -/

namespace Graph

variable {g h : Graph} {libraries : List String}

/-- Two graphs are the same but for the order of their modules. -/
structure Agrees (σ : Equiv.Perm ModuleId) (g h : Graph) : Prop where
  /-- The same names have an entry. -/
  exists_find?_iff : ∀ name,
    (∃ e, h.entries.find? name = some e) ↔ ∃ e, g.entries.find? name = some e
  /-- A name belongs to the same module. -/
  find?_eq : ∀ name, h.find? name = (g.find? name).map σ
  /-- The entries of a name depend on the same modules. -/
  mem_dependencies_iff : ∀ name e e', g.entries.find? name = some e →
    h.entries.find? name = some e' → ∀ k, σ k ∈ e'.dependencies ↔ k ∈ e.dependencies
  /-- A module needs the same modules. -/
  mem_closure_iff : ∀ o x, σ x ∈ h.closure (σ o) ↔ x ∈ g.closure o
  cycles_eq_nil_iff : h.cycles = [] ↔ g.cycles = []

/-- A name belongs to the module that is the last of the name. -/
theorem find?_eq_some_iff (hg : g.IsGraphOf r) :
    g.find? name = some a ↔ ∃ m, lastNamed? r.modules name = some (a, m) := by
  unfold find?
  simp only [Option.bind_eq_some_iff, owner?_eq_some_iff]
  constructor
  · intro howner
    obtain ⟨e, hfind, he⟩ := howner
    rw [he] at hfind
    obtain ⟨m, hlast, -⟩ := hg.find?_eq_owned_iff.1 hfind
    exact ⟨m, hlast⟩
  · intro hnamed
    obtain ⟨m, hlast⟩ := hnamed
    exact ⟨_, hg.find?_eq_owned_iff.2 ⟨m, hlast, rfl⟩, rfl⟩

theorem step_iff_lastNamed? (hg : g.IsGraphOf r) :
    g.Step a k ↔
      ∃ m, lastNamed? r.modules (g.targetName a) = some (a, m) ∧ k ∈ r.edges a m := by
  unfold Step
  simp only [hg.find?_eq_owned_iff]
  constructor
  · intro hstep
    obtain ⟨ds, ⟨m, hlast, rfl⟩, hk⟩ := hstep
    exact ⟨m, hlast, hk⟩
  · intro hedge
    obtain ⟨m, hlast, hk⟩ := hedge
    exact ⟨_, ⟨m, hlast, rfl⟩, hk⟩

section Rearranged

variable (H : Resolver.Rearranged σ r R) (hg : g.IsGraphOf r) (hh : h.IsGraphOf R)

include H hg hh

theorem targetName_of_rearranged (a : ModuleId) : h.targetName (σ a) = g.targetName a := by
  unfold targetName targetNameOf
  rw [hg.modules_eq, hh.modules_eq, H.rearranges a]

theorem find?_of_rearranged (name : String) : h.find? name = (g.find? name).map σ := by
  apply Option.ext
  intro c
  obtain ⟨a, rfl⟩ := σ.surjective c
  rw [find?_eq_some_iff hh, Option.map_eq_some_iff]
  simp only [H.lastNamed?_eq_some_iff, σ.injective.eq_iff, exists_eq_right, find?_eq_some_iff hg]

/-- Where a name has an entry in both graphs, the two depend on the same modules. -/
theorem mem_dependencies_iff_of_rearranged {e e' : Entry}
    (he : g.entries.find? name = some e) (he' : h.entries.find? name = some e') (k : ModuleId) :
    σ k ∈ e'.dependencies ↔ k ∈ e.dependencies := by
  have howner : e'.owner? = e.owner?.map σ := by
    have hname := find?_of_rearranged H hg hh name
    unfold find? at hname
    rwa [he, he'] at hname
  cases e with
  | system =>
    cases e' with
    | system => exact iff_of_false List.not_mem_nil List.not_mem_nil
    | owned c es => cases howner
  | owned a ds =>
    rw [owner?_eq_some_iff.1 howner] at he' ⊢
    obtain ⟨m, hlast, rfl⟩ := hg.find?_eq_owned_iff.1 he
    obtain ⟨x, hlast', hes⟩ := hh.find?_eq_owned_iff.1 he'
    rw [H.lastNamed?_eq_some_iff, hlast] at hlast'
    obtain ⟨-, rfl⟩ := Prod.mk.inj (Option.some.inj hlast')
    rw [hes]
    exact H.mem_edges_iff

theorem step_iff_of_rearranged : h.Step (σ a) (σ k) ↔ g.Step a k := by
  simp only [step_iff_lastNamed? hg, step_iff_lastNamed? hh, targetName_of_rearranged H hg hh,
    H.lastNamed?_eq_some_iff, H.mem_edges_iff]

theorem transGen_iff_of_rearranged : TransGen h.Step (σ a) (σ k) ↔ TransGen g.Step a k := by
  constructor
  · intro hway
    have hback : ∀ c d, h.Step c d → g.Step (σ.symm c) (σ.symm d) := by
      intro c d hstep
      rw [← step_iff_of_rearranged H hg hh, σ.apply_symm_apply, σ.apply_symm_apply]
      exact hstep
    have hway' : TransGen g.Step (σ.symm (σ a)) (σ.symm (σ k)) :=
      TransGen.lift σ.symm hback _ _ hway
    rwa [σ.symm_apply_apply, σ.symm_apply_apply] at hway'
  · intro hway
    exact TransGen.lift σ (fun c d hstep => (step_iff_of_rearranged H hg hh).2 hstep) _ _ hway

theorem agrees_of_rearranged : Agrees σ g h where
  exists_find?_iff name := by
    simp only [hg.exists_find?_iff, hh.exists_find?_iff, H.mem_iff, H.mem_placeholders_iff]
  find?_eq := find?_of_rearranged H hg hh
  mem_dependencies_iff name e e' he he' := mem_dependencies_iff_of_rearranged H hg hh he he'
  mem_closure_iff o x := by
    rw [mem_closure_iff_transGen hg, mem_closure_iff_transGen hh,
      transGen_iff_of_rearranged H hg hh,
      σ.injective.ne_iff]
  cycles_eq_nil_iff := by
    rw [cycles_eq_nil_iff_not_transGen hg, cycles_eq_nil_iff_not_transGen hh]
    constructor
    · intro hacyclic a hround
      exact hacyclic (σ a) ((transGen_iff_of_rearranged H hg hh).2 hround)
    · intro hacyclic c hround
      obtain ⟨a, rfl⟩ := σ.surjective c
      exact hacyclic a ((transGen_iff_of_rearranged H hg hh).1 hround)

end Rearranged

/-- Two builds of the same modules in different orders, where no name is answered to by two active
modules. One yields a graph exactly if the other one does, and else they fail for the same kind of
reason. The modules of one stand among those of the other at positions given by a permutation, and
along any such permutation the graphs agree. -/
theorem build_perm {libraries : List String} (hperm : ms.Perm ns) (hnames : Unambiguous ms) :
    ((∃ b, Graph.build libraries false ms = .ok b) ↔
      ∃ b, Graph.build libraries false ns = .ok b) ∧
    (∀ f f', Graph.build libraries false ms = .error f →
      Graph.build libraries false ns = .error f' → f.error.SameKind f'.error) ∧
    (∃ σ, Rearranges σ ms ns) ∧
    ∀ b b', Graph.build libraries false ms = .ok b → Graph.build libraries false ns = .ok b' →
      ∀ σ, Rearranges σ ms ns → Agrees σ b.graph b'.graph := by
  refine ⟨⟨?_, ?_⟩, ?_, exists_rearranges hperm, ?_⟩
  · intro h
    obtain ⟨b, hb⟩ := h
    exact exists_build_of_perm hperm hb
  · intro h
    obtain ⟨b, hb⟩ := h
    exact exists_build_of_perm hperm.symm hb
  · intro f f' hf hf'
    exact sameKind_of_perm hperm hf hf'
  · intro b b' hb hb' σ hσ
    have H : Resolver.Rearranged σ (Resolver.ofModules libraries false ms)
        (Resolver.ofModules libraries false ns) :=
      { rearranges := hσ
        mem_iff := fun m => hperm.mem_iff.symm
        unambiguous := hnames
        unambiguous' := hnames.perm hperm
        libraries_iff := fun name => Resolver.mem_libraries_ofModules_of_perm hperm }
    exact agrees_of_rearranged H (isGraphOf_of_build hb) (isGraphOf_of_build hb')

/-- A toolchain that needs a library and, by the name of a target that it makes, the first of two
modules in a circle. -/
def shelf : List Module :=
  [.plainToolchain "t" ["z", "lib"],
    { Module.plain "a" ["b"] with linkableTargets := ["z"] },
    .plain "b" ["a"]]

theorem rearranges_shelf : Rearranges (Equiv.swap 0 2) shelf shelf.reverse := by
  intro a
  match a with
  | 0 => rfl
  | 1 => rfl
  | 2 => rfl
  | a + 3 =>
    rw [Equiv.swap_apply_of_ne_of_ne (by simp) (by simp)]
    rfl

theorem unambiguous_shelf : Unambiguous shelf :=
  unambiguous_of_disjoint (by decide)

/-- The modules of the shelf in reverse order. -/
theorem build_perm_shelf :
    shelf.Perm shelf.reverse ∧ Unambiguous shelf ∧
      ∃ b b', Graph.build ["lib"] false shelf = .ok b ∧
        Graph.build ["lib"] false shelf.reverse = .ok b' ∧
        Agrees (Equiv.swap 0 2) b.graph b'.graph ∧
        b'.graph.find? "t" = some 2 ∧ 1 ∈ b'.graph.closure 2 ∧ b'.graph.cycles ≠ [] := by
  have hview : (Graph.build ["lib"] false shelf).toOption.map (fun b =>
      (b.graph.find? "t", b.graph.dependencies 0, b.graph.cycles)) =
      some (some 0, [1], [[1, 2]]) := by
    decide +kernel
  have hperm : shelf.Perm shelf.reverse := (List.reverse_perm shelf).symm
  obtain ⟨b, hb, heq⟩ := exists_ok_of_map_eq_some hview
  simp only [Prod.mk.injEq] at heq
  obtain ⟨htoolchain, hdependencies, hcycles⟩ := heq
  obtain ⟨b', hb'⟩ := (build_perm hperm unambiguous_shelf).1.1 ⟨b, hb⟩
  have hagrees := (build_perm hperm unambiguous_shelf).2.2.2 b b' hb hb' _ rearranges_shelf
  refine ⟨hperm, unambiguous_shelf, b, b', hb, hb', hagrees, ?_, ?_, ?_⟩
  · rw [hagrees.find?_eq, htoolchain]
    rfl
  · have hstep : b.graph.Step 0 1 := mem_dependencies_iff.1 (hdependencies ▸ List.mem_cons_self)
    have hneeded : 1 ∈ b.graph.closure 0 :=
      (mem_closure_iff_transGen (isGraphOf_of_build hb)).2 ⟨by decide, .single hstep⟩
    exact (hagrees.mem_closure_iff 0 1).2 hneeded
  · rw [ne_eq, hagrees.cycles_eq_nil_iff, hcycles]
    exact List.cons_ne_nil _ _

end Graph

end BuildGraph
