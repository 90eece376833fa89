import BuildGraph.Graph.Build
set_option autoImplicit false

/-!
# What a name stands for

Each way in which a dependency name can be resolved, by the modules that answer to it and the names
that are registered: an active module comes before a library, and a library before an excluded
module. From these follow the edges, the placeholders and the missing names of one module.

Resolution looks at the modules and the libraries only, so that a strict build resolves a name to
what any other build does.
-/

namespace BuildGraph

namespace Resolver

variable {r : Resolver} {m : Module} {name : String} {id k : ModuleId}

/-! ## Modules by the names they answer to -/

theorem firstActive?_eq_some_iff {modules : List Module} :
    firstActive? modules name = some id ↔
      (∃ m, modules[id]? = some m ∧ m.isActive = true ∧ m.answersTo name = true) ∧
        ∀ k < id, ∀ m, modules[k]? = some m → m.isActive = true → m.answersTo name = false := by
  unfold firstActive?
  rw [List.findIdx?_eq_some_iff_getElem]
  constructor
  · rintro ⟨hlt, hid, hbefore⟩
    obtain ⟨hactive, hanswers⟩ := Bool.and_eq_true_iff.1 hid
    refine ⟨⟨modules[id], List.getElem?_eq_getElem hlt, hactive, hanswers⟩, ?_⟩
    intro k hk m hm ha
    obtain ⟨hkl, rfl⟩ := List.getElem?_eq_some_iff.1 hm
    have hnot := hbefore k hk
    rw [ha, Bool.true_and] at hnot
    exact Bool.eq_false_iff.2 hnot
  · rintro ⟨⟨m, hm, hactive, hanswers⟩, hbefore⟩
    obtain ⟨hlt, rfl⟩ := List.getElem?_eq_some_iff.1 hm
    refine ⟨hlt, Bool.and_eq_true_iff.2 ⟨hactive, hanswers⟩, ?_⟩
    intro k hk hboth
    obtain ⟨ha, hn⟩ := Bool.and_eq_true_iff.1 hboth
    have hkl : k < modules.length := Nat.lt_trans hk hlt
    have hfalse := hbefore k hk modules[k] (List.getElem?_eq_getElem hkl) ha
    rw [hfalse] at hn
    exact Bool.noConfusion hn

theorem firstActive?_eq_none_iff {modules : List Module} :
    firstActive? modules name = none ↔
      ∀ m ∈ modules, m.isActive = true → m.answersTo name = false := by
  unfold firstActive?
  rw [List.findIdx?_eq_none_iff]
  constructor
  · intro h m hm ha
    have hnot := h m hm
    rwa [ha, Bool.true_and] at hnot
  · intro h m hm
    cases ha : m.isActive with
    | false => rfl
    | true => exact h m hm ha

theorem lt_of_firstActive? {modules : List Module} (h : firstActive? modules name = some id) :
    id < modules.length := by
  obtain ⟨⟨m, hm, -⟩, -⟩ := firstActive?_eq_some_iff.1 h
  exact (List.getElem?_eq_some_iff.1 hm).1

/-! ## The outcomes of a resolution -/

theorem resolve_eq_module_iff :
    r.resolve name = .module id ↔ firstActive? r.modules name = some id := by
  unfold resolve
  cases firstActive? r.modules name with
  | some k => simp
  | none => simp only []; split <;> (try split) <;> simp

/-- Outside the active modules a name is a library, or excused by an excluded module, or missing. -/
theorem resolve_of_firstActive?_eq_none (h : firstActive? r.modules name = none) :
    r.resolve name =
      if name ∈ r.libraries then .system
      else if ∃ m ∈ r.modules, m.excluded = true ∧ m.answersTo name = true then .excluded
      else .missing := by
  unfold resolve
  rw [h]
  simp only [List.contains_iff_mem, List.any_eq_true, Bool.and_eq_true]

theorem resolve_eq_system_iff :
    r.resolve name = .system ↔ firstActive? r.modules name = none ∧ name ∈ r.libraries := by
  cases h : firstActive? r.modules name with
  | some k => simp [resolve_eq_module_iff.2 h]
  | none =>
    rw [resolve_of_firstActive?_eq_none h]
    by_cases hl : name ∈ r.libraries
    · simp [hl]
    · simp only [hl, if_false]
      split <;> simp

theorem resolve_eq_excluded_iff :
    r.resolve name = .excluded ↔
      firstActive? r.modules name = none ∧ name ∉ r.libraries ∧
        ∃ m ∈ r.modules, m.excluded = true ∧ m.answersTo name = true := by
  cases h : firstActive? r.modules name with
  | some k => simp [resolve_eq_module_iff.2 h]
  | none =>
    rw [resolve_of_firstActive?_eq_none h]
    by_cases hl : name ∈ r.libraries
    · simp [hl]
    · by_cases hx : ∃ m ∈ r.modules, m.excluded = true ∧ m.answersTo name = true
      · simp only [hl, hx, if_true, if_false, not_false_eq_true, and_self]
      · simp only [hl, hx, if_false, and_false, reduceCtorEq]

/-! ## The dependencies of one module -/

theorem mem_edges_iff :
    k ∈ r.edges id m ↔
      k ≠ id ∧ ∃ name ∈ m.dependencies.all, firstActive? r.modules name = some k := by
  unfold edges
  simp only [List.mem_filter, List.mem_range, Bool.and_eq_true, bne_iff_ne, ne_eq,
    List.contains_iff_mem, List.mem_map]
  constructor
  · rintro ⟨-, hne, name, hname, hresolve⟩
    exact ⟨hne, name, hname, resolve_eq_module_iff.1 hresolve⟩
  · rintro ⟨hne, name, hname, hfirst⟩
    exact ⟨lt_of_firstActive? hfirst, hne, name, hname, resolve_eq_module_iff.2 hfirst⟩

theorem lt_of_mem_edges (h : k ∈ r.edges id m) : k < r.modules.length := by
  obtain ⟨-, name, -, hfirst⟩ := mem_edges_iff.1 h
  exact lt_of_firstActive? hfirst

theorem mem_placeholders_iff :
    name ∈ r.placeholders m ↔
      name ∈ m.dependencies.all ∧ firstActive? r.modules name = none ∧ name ∈ r.libraries := by
  unfold placeholders
  rw [List.mem_filter, beq_iff_eq, resolve_eq_system_iff]

theorem firstMissing?_eq_none_iff :
    r.firstMissing? m = none ↔ ∀ name ∈ m.dependencies.all, r.resolve name ≠ .missing := by
  unfold firstMissing?
  simp only [List.find?_eq_none, beq_iff_eq, ne_eq]

/-! ## Strict builds -/

/-- The resolver with the given strictness. -/
def withStrict (r : Resolver) (strict : Bool) : Resolver :=
  { r with strict }

@[simp] theorem firstMissing?_withStrict (strict : Bool) :
    (r.withStrict strict).firstMissing? = r.firstMissing? :=
  rfl

end Resolver

end BuildGraph
