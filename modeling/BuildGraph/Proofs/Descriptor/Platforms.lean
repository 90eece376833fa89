import BuildGraph.Proofs.Descriptor.Instantiation
import Mathlib.Data.String.Basic
set_option autoImplicit false

/-!
# Platforms of a declaration

Each stage in the making of a module may refuse its declaration, and only the last one looks at
the build for which the module is made. It takes the platforms of the declaration one by one up
to the first that is the platform of the build. A name that no platform has is therefore seen in
one build and missed in another one exactly when it stands behind the platform of the latter
alone. All other faults are found in every build.
-/

namespace BuildGraph

variable {r : Registry} {c c' : Context} {file : String} {shared : Option String} {d : Declaration}
  {m n : Module} {p : Platform} {names : List String}

/-! ## Names of platforms -/

namespace Declaration

/-- Some platform has the name. -/
def known (name : String) : Bool :=
  (Platform.ofName? name).isSome

/-- The platform is named in front of every name that no platform has. -/
def NamedInFront (p : Platform) (names : List String) : Prop :=
  ∃ name ∈ names.takeWhile known, Platform.ofName? name = some p

theorem exists_platform_eq_ok_iff (file : String) {name : String} :
    (∃ p, platform file name = .ok p) ↔ known name = true := by
  unfold platform known
  cases Platform.ofName? name <;> simp

/-- All names of a table by platforms are looked at, whatever the platform of the build. -/
theorem exists_valuesFor_eq_ok_iff (file : String) (p : Platform)
    (table : List (String × List String)) :
    (∃ values, valuesFor file p table = .ok values) ↔ ∀ entry ∈ table, known entry.1 = true := by
  induction table with
  | nil => simp [valuesFor]
  | cons entry table ih =>
    rw [List.forall_mem_cons, ← exists_platform_eq_ok_iff file, ← ih]
    simp only [valuesFor, bind_eq_ok_iff]
    constructor
    · intro h
      obtain ⟨_, q, hq, values, hvalues, -⟩ := h
      exact ⟨⟨q, hq⟩, values, hvalues⟩
    · intro h
      obtain ⟨⟨q, hq⟩, values, hvalues⟩ := h
      exact ⟨_, q, hq, values, hvalues, rfl⟩

/-- Names are looked at up to the first that is the platform's. -/
theorem exists_allows_go_eq_ok_iff :
    (∃ b, allows.go file p names = .ok b) ↔
      NamedInFront p names ∨ ∀ name ∈ names, known name = true := by
  induction names with
  | nil => simp [allows.go]
  | cons name names ih =>
    unfold allows.go platform
    cases hname : Platform.ofName? name with
    | none => simp [NamedInFront, known, hname, bind, Except.bind]
    | some q =>
      have hknown : known name = true := by
        simp [known, hname]
      by_cases hq : q = p
      · simp [NamedInFront, hknown, hname, hq, bind, Except.bind, pure, Except.pure]
      · simp only [bind, Except.bind, if_neg hq, ih]
        simp [NamedInFront, hknown, hname, hq]

theorem exists_allows_eq_ok_iff (file : String) :
    (∃ b, allows file p names = .ok b) ↔
      NamedInFront p names ∨ ∀ name ∈ names, known name = true := by
  cases names with
  | nil => simp [allows]
  | cons name names => exact exists_allows_go_eq_ok_iff

end Declaration

/-! ## Stages -/

theorem exists_create?_eq_some_iff {name : String} {kind : Kind} {a : Attributes} :
    (∃ m, Module.create? name kind file a c = some m) ↔
      ∃ directory, Path.parent? file = some directory ∧ directory ≠ "" := by
  unfold Module.create?
  cases Path.parent? file with
  | none => simp
  | some directory => by_cases h : directory = "" <;> simp [h]

/-- Whether the first step of a kind succeeds depends on the declaration alone. -/
theorem exists_apply_eq_ok_iff {s : Setup} :
    (∃ started, s.apply d m = .ok started) ↔ ∃ started, s.apply d n = .ok started := by
  cases s with
  | native =>
    unfold Setup.apply Setup.included
    cases d.subdirectory with
    | none => simp
    | some directory =>
      by_cases h : directory = ""
      · simp [h]
      · simp only [if_neg h, bind_eq_ok_iff]
        constructor
        · intro h
          obtain ⟨_, options, hoptions, -⟩ := h
          exact ⟨_, options, hoptions, rfl⟩
        · intro h
          obtain ⟨_, options, hoptions, -⟩ := h
          exact ⟨_, options, hoptions, rfl⟩
  | _ => exact iff_of_true ⟨_, rfl⟩ ⟨_, rfl⟩

namespace Declaration

theorem mem_sorted {table : List (String × List String)} {entry : String × List String} :
    entry ∈ sorted table ↔ entry ∈ table :=
  List.mem_mergeSort

theorem pairwise_sorted (table : List (String × List String)) :
    (sorted table).Pairwise fun p q => p.1 ≤ q.1 := by
  have hsorted : (sorted table).Pairwise fun p q => decide (p.1 ≤ q.1) = true := by
    refine List.pairwise_mergeSort (fun a b c hab hbc => ?_) (fun a b => ?_) _
    · simp only [decide_eq_true_eq] at hab hbc ⊢
      exact String.le_trans hab hbc
    · simpa using String.le_total a.1 b.1
  exact hsorted.imp fun hle => of_decide_eq_true hle

theorem exists_addLists_eq_ok_iff :
    (∃ listed, d.addLists file c m = .ok listed) ↔
      (∀ entry ∈ d.platformDefinitions, known entry.1 = true) ∧
        ∀ entry ∈ d.platformDependencies, known entry.1 = true := by
  have hdefinitions := exists_valuesFor_eq_ok_iff file c.platform (sorted d.platformDefinitions)
  have hdependencies := exists_valuesFor_eq_ok_iff file c.platform (sorted d.platformDependencies)
  simp only [mem_sorted] at hdefinitions hdependencies
  rw [← hdefinitions, ← hdependencies]
  simp only [addLists, bind_eq_ok_iff]
  constructor
  · intro h
    obtain ⟨_, definitions, hdefinitions, dependencies, hdependencies, -⟩ := h
    exact ⟨⟨definitions, hdefinitions⟩, dependencies, hdependencies⟩
  · intro h
    obtain ⟨⟨definitions, hdefinitions⟩, dependencies, hdependencies⟩ := h
    exact ⟨_, definitions, hdefinitions, dependencies, hdependencies, rfl⟩

/-- Only here the platform of the build has a part. -/
theorem exists_settle_eq_ok_iff :
    (∃ settled, d.settle file c m = .ok settled) ↔
      d.excluded = true ∨ NamedInFront c.platform d.platforms ∨
        ∀ name ∈ d.platforms, known name = true := by
  rw [← exists_allows_eq_ok_iff file]
  unfold settle
  cases d.excluded with
  | true => simp
  | false => cases allows file c.platform d.platforms <;> simp [Except.map]

/-- A declaration that passes all that does not depend on the build: it has a name, a known kind
whose first step takes it, a file in a directory, and names of platforms alone in its tables. -/
structure IsSound (r : Registry) (file : String) (d : Declaration) : Prop where
  name_ne : Text.trim d.name ≠ ""
  kind_known : ∃ rule, r.find? d.kind = some rule ∧
    ∃ started, rule.setup.apply d default = .ok started
  in_directory : ∃ directory, Path.parent? file = some directory ∧ directory ≠ ""
  definitions_known : ∀ entry ∈ d.platformDefinitions, known entry.1 = true
  dependencies_known : ∀ entry ∈ d.platformDependencies, known entry.1 = true

end Declaration

/-! ## Declarations that are accepted -/

namespace Registry

open Declaration

/-- The declaration makes a module. -/
def Accepts (r : Registry) (c : Context) (file : String) (shared : Option String)
    (d : Declaration) : Prop :=
  ∃ m, r.instantiate c file shared d = .ok m

/-- A sound declaration is accepted if it is left out of every build, or if all its platforms are
known, or if the platform of the build is named before the first that is not. -/
theorem accepts_iff : r.Accepts c file shared d ↔ d.IsSound r file ∧
    (d.excluded = true ∨ NamedInFront c.platform d.platforms ∨
      ∀ name ∈ d.platforms, known name = true) := by
  unfold Accepts
  simp only [instantiate_eq_ok_iff]
  constructor
  · intro h
    obtain ⟨m, hname, rule, hrule, created, hcreated, started, hstarted, listed, hlisted,
      hsettled⟩ := h
    obtain ⟨hdefinitions, hdependencies⟩ := exists_addLists_eq_ok_iff.1 ⟨listed, hlisted⟩
    refine ⟨⟨hname, ⟨rule, hrule, exists_apply_eq_ok_iff.1 ⟨started, hstarted⟩⟩,
      exists_create?_eq_some_iff.1 ⟨created, hcreated⟩, hdefinitions, hdependencies⟩, ?_⟩
    exact exists_settle_eq_ok_iff.1 ⟨m, hsettled⟩
  · intro h
    obtain ⟨⟨hname, ⟨rule, hrule, hstarts⟩, hdirectory, hdefinitions, hdependencies⟩,
      hplatforms⟩ := h
    obtain ⟨created, hcreated⟩ := exists_create?_eq_some_iff.2 hdirectory
    obtain ⟨started, hstarted⟩ := exists_apply_eq_ok_iff.1 hstarts
    obtain ⟨listed, hlisted⟩ := exists_addLists_eq_ok_iff.2 ⟨hdefinitions, hdependencies⟩
    obtain ⟨m, hsettled⟩ := exists_settle_eq_ok_iff.2 hplatforms
    exact ⟨m, hname, rule, hrule, created, hcreated, started, hstarted, listed, hlisted, hsettled⟩

/-- Two builds accept the same of a declaration, unless it is sound, not left out of every build,
and has a platform that is not known behind the platform of one build and in front of that of the
other. -/
theorem accepts_in_both_iff (r : Registry) (c c' : Context) (file : String)
    (shared : Option String) (d : Declaration) :
    (r.Accepts c file shared d ↔ r.Accepts c' file shared d) ↔
      ¬ (d.IsSound r file ∧ d.excluded = false ∧ (∃ name ∈ d.platforms, known name = false) ∧
        ¬ (NamedInFront c.platform d.platforms ↔ NamedInFront c'.platform d.platforms)) := by
  have hunknown : (∃ name ∈ d.platforms, known name = false) ↔
      ¬ ∀ name ∈ d.platforms, known name = true := by
    simp
  rw [accepts_iff, accepts_iff, hunknown]
  -- What is left is a matter of propositions.
  generalize d.IsSound r file = sound, (∀ name ∈ d.platforms, known name = true) = allKnown
  by_cases hsound : sound
  · by_cases hknown : allKnown
    · simp [hknown]
    · cases d.excluded <;> simp [hsound, hknown]
  · simp [hsound]

/-- A declaration with a platform that is not known behind another one that is. -/
def mistyped : Declaration :=
  let blank : Declaration := default
  { blank with name := "Dxc", kind := "interface", platforms := ["windows", "amiga"] }

/-- One platform accepts a declaration that the other one refuses. -/
theorem exists_accepted_in_one :
    ∃ (c c' : Context) (file : String) (d : Declaration),
      standard.Accepts c file none d ∧ ¬ standard.Accepts c' file none d := by
  refine ⟨⟨false, .windows⟩, ⟨false, .unix⟩, "/ws/Dxc/Dxc.module.toml", mistyped, ?_, ?_⟩
  · have hsound : mistyped.IsSound standard "/ws/Dxc/Dxc.module.toml" :=
      ⟨by decide, ⟨⟨.interface, .plain⟩, by decide, _, rfl⟩, ⟨"/ws/Dxc", by decide, by decide⟩,
        List.forall_mem_nil _, List.forall_mem_nil _⟩
    exact accepts_iff.2 ⟨hsound, .inr (.inl ⟨"windows", by decide, by decide⟩)⟩
  · intro h
    obtain ⟨-, hexcluded | ⟨name, hname, hunix⟩ | hknown⟩ := accepts_iff.1 h
    · exact absurd hexcluded (by decide)
    · revert name
      decide
    · exact absurd (hknown "amiga" (by decide)) (by decide)

end Registry

end BuildGraph
