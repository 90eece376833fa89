import BuildGraph.Descriptor.Modules
import Mathlib.Data.List.Forall2
set_option autoImplicit false

/-!
# Modules made from declarations

A module is made in stages, and each of them may refuse the declaration: its name and its kind
are looked at, the empty module is created in the directory of the file, the first step of the
kind is taken, the declared lists are added, and in the end it is settled whether the module
takes part in the build. `Registry.instantiate_eq_ok_iff` takes the stages apart, so that a
statement about a module that was made is proved for one stage after the other.
-/

namespace BuildGraph

/-! ## Steps that may fail -/

theorem bind_eq_ok_iff {ε α β : Type} {x : Except ε α} {f : α → Except ε β} {b : β} :
    (x >>= f) = .ok b ↔ ∃ a, x = .ok a ∧ f a = .ok b := by
  cases x with
  | error e => simp [bind, Except.bind]
  | ok a => simp [bind, Except.bind]

/-- All elements of a list are taken through a step exactly if each of them is. -/
theorem mapM_eq_ok_iff {ε α β : Type} {f : α → Except ε β} {as : List α} {bs : List β} :
    as.mapM f = .ok bs ↔ List.Forall₂ (fun a b => f a = .ok b) as bs := by
  induction as generalizing bs with
  | nil => simp [pure, Except.pure, eq_comm]
  | cons a as ih =>
    simp only [List.mapM_cons, bind_eq_ok_iff, ih, List.forall₂_cons_left_iff, pure, Except.pure,
      Except.ok.injEq]
    constructor
    · intro h
      obtain ⟨b, hb, rest, hrest, hbs⟩ := h
      exact ⟨b, rest, hb, hrest, hbs.symm⟩
    · intro h
      obtain ⟨b, rest, hb, hrest, hbs⟩ := h
      exact ⟨b, hb, rest, hrest, hbs.symm⟩

/-- A run through a list succeeds exactly if the step succeeds on each element. -/
theorem exists_mapM_eq_ok_iff {ε α β : Type} {f : α → Except ε β} {as : List α} :
    (∃ bs, as.mapM f = .ok bs) ↔ ∀ a ∈ as, ∃ b, f a = .ok b := by
  simp only [mapM_eq_ok_iff]
  induction as with
  | nil => simp
  | cons a as ih =>
    rw [List.forall_mem_cons, ← ih]
    constructor
    · intro h
      obtain ⟨_, hall⟩ := h
      cases hall with
      | cons hfirst hrest => exact ⟨⟨_, hfirst⟩, _, hrest⟩
    · intro h
      obtain ⟨⟨b, hfirst⟩, bs, hrest⟩ := h
      exact ⟨b :: bs, .cons hfirst hrest⟩

/-- Where one step succeeds on an element, another one does too, and their results are related. Then
this holds of the two runs through a list. -/
theorem exists_mapM_eq_ok_of_forall {ε α β γ : Type} {f : α → Except ε β} {g : α → Except ε γ}
    {R : γ → β → Prop} (h : ∀ a b, f a = .ok b → ∃ c, g a = .ok c ∧ R c b) {as : List α}
    {bs : List β} (hf : as.mapM f = .ok bs) :
    ∃ cs, as.mapM g = .ok cs ∧ List.Forall₂ R cs bs := by
  rw [mapM_eq_ok_iff] at hf
  simp only [mapM_eq_ok_iff]
  induction hf with
  | nil => exact ⟨[], .nil, .nil⟩
  | cons hab _ ih =>
    obtain ⟨c, hc, hcb⟩ := h _ _ hab
    obtain ⟨cs, hcs, hrest⟩ := ih
    exact ⟨c :: cs, .cons hc hcs, .cons hcb hrest⟩

/-! ## One declaration -/

namespace Registry

variable {r : Registry} {c : Context} {file : String} {shared : Option String} {d : Declaration}
  {m : Module}

/-- A declaration makes a module exactly if it passes every stage. -/
theorem instantiate_eq_ok_iff :
    r.instantiate c file shared d = .ok m ↔
      Text.trim d.name ≠ "" ∧ ∃ rule, r.find? d.kind = some rule ∧
        ∃ created, Module.create? d.name rule.kind file d.attributes c = some created ∧
          ∃ started, rule.setup.apply d { created with qualifier := d.qualifier.or shared } =
              .ok started ∧
            ∃ listed, d.addLists file c started = .ok listed ∧ d.settle file c listed = .ok m := by
  unfold instantiate
  by_cases hname : Text.trim d.name = ""
  · simp [hname]
  · rw [if_neg hname]
    cases r.find? d.kind with
    | none => simp
    | some rule =>
      cases hcreated : Module.create? d.name rule.kind file d.attributes c with
      | none => simp [hcreated]
      | some created => simp [hname, hcreated, bind_eq_ok_iff]

end Registry

/-! ## Declarations at their places -/

/-- A declaration with the file in which it stands and the qualifier that the file shares. -/
structure Placed where
  file : String
  shared : Option String
  declaration : Declaration
  deriving Repr, Inhabited

/-- The modules of some declarations, in their order. -/
def Registry.instantiateAll (r : Registry) (c : Context) (ds : List Placed) :
    Except Error (List Module) :=
  ds.mapM fun d => r.instantiate c d.file d.shared d.declaration

/-- A descriptor file makes the modules of its declarations at their place. -/
theorem Registry.modulesOf_eq_instantiateAll {r : Registry} {c : Context} {file source : String}
    {d : Descriptor} (h : Descriptor.ofText source = .ok d) :
    r.modulesOf c file source =
      r.instantiateAll c (d.declarations.map (Placed.mk file d.qualifier)) := by
  unfold modulesOf instantiateAll
  rw [h, List.mapM_map]
  rfl

end BuildGraph
