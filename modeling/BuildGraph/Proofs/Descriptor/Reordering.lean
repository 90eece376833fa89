import BuildGraph.Proofs.Descriptor.Orders
import BuildGraph.Proofs.Descriptor.Platforms
set_option autoImplicit false

/-!
# Modules of descriptors in another order

The keys of a table may come in any order, at every depth of a descriptor: it is accepted or refused
as before, and makes the same modules or stops at the same error. The options of an included project
keep their order, since they are handed on in it. Inside an option there is one more key that counts
by its place: a table that starts with the name of moments is one.
-/

namespace BuildGraph

open Toml (Value)

variable {inner : Toml.Table → Toml.Table → Prop} {s : Spot} {v w : Value} {t u : Toml.Table}

open Schema

/-! ## Options -/

/-- A table starts with the name of moments. -/
def OpensMoment (t : Toml.Table) : Prop :=
  t.head?.map (·.1) = some Toml.momentKey

/-- Both tables start with the name of moments, or neither does. -/
def KeepsMoment (t u : Toml.Table) : Prop :=
  OpensMoment t ↔ OpensMoment u

/-- A place takes both values as options alike. -/
def SameOption (v w : Value) : Prop :=
  ∀ module name, Setup.option module (name, v) = Setup.option module (name, w)

theorem plainItems_eq_mapM (vs : List Value) : Toml.plainItems vs = vs.mapM Value.plain := by
  induction vs with
  | nil => rfl
  | cons v vs ih => rw [Toml.plainItems, List.mapM_cons, ih]

theorem plainEntries_eq_mapM (t : Toml.Table) :
    Toml.plainEntries t = t.mapM fun p => do return (p.1, ← p.2.plain) := by
  induction t with
  | nil => rfl
  | cons p t ih =>
    obtain ⟨name, v⟩ := p
    rw [Toml.plainEntries, List.mapM_cons, ih]
    cases v.plain with
    | error fault => rfl
    | ok v' => rfl

theorem exists_of_opensMoment (h : OpensMoment t) : ∃ v rest, t = (Toml.momentKey, v) :: rest := by
  cases t with
  | nil => cases h
  | cons p rest =>
    obtain ⟨name, v⟩ := p
    obtain rfl : name = Toml.momentKey := Option.some.inj h
    exact ⟨v, rest, rfl⟩

theorem plain_of_opensMoment (v : Value) (rest : Toml.Table) :
    (Value.table ((Toml.momentKey, v) :: rest)).plain = v.spelledMoment.map .moment := by
  rw [Value.plain, if_pos rfl]
  cases v.spelledMoment with
  | error fault => rfl
  | ok m => rfl

theorem plain_of_not_opensMoment (h : ¬ OpensMoment t) :
    (Value.table t).plain = (Toml.plainEntries t).map .table := by
  cases t with
  | nil => rfl
  | cons p t =>
    obtain ⟨name, v⟩ := p
    have hname : name ≠ Toml.momentKey := fun heq => h (congrArg some heq)
    rw [Value.plain, if_neg hname, Toml.plainEntries]
    cases v.plain with
    | error fault => rfl
    | ok v' =>
      cases Toml.plainEntries t with
      | error fault => rfl
      | ok t' => rfl

theorem respects_spelledMoment (h : Reordered inner s v w) :
    Agrees Eq v.spelledMoment w.spelledMoment := by
  cases h with
  | leaf => exact .refl (fun _ => rfl) _
  | array | table => exact .failed _ _

/-- An option that differs in the order of keys, but not in which tables stand for moments, is plain
as before and is taken or refused alike. -/
theorem agrees_plain (h : Reordered KeepsMoment .option v w) :
    Agrees SameOption v.plain w.plain := by
  generalize hs : Spot.option = s at h
  induction h with
  | leaf => exact .refl (fun _ _ _ => rfl) _
  | array hlength h ih =>
    subst hs
    rw [Value.plain, Value.plain, plainItems_eq_mapM, plainItems_eq_mapM]
    have hitems := Agrees.mapM (List.forall₂_iff_get.2 ⟨hlength, fun i hv hw => ih i hv hw rfl⟩)
    exact hitems.bind fun _ _ _ => .done fun _ _ => rfl
  | @table _ t u hallows hnames h ih =>
    subst hs
    by_cases hopens : OpensMoment t
    · obtain ⟨v, rest, rfl⟩ := exists_of_opensMoment hopens
      obtain ⟨w, rest', rfl⟩ := exists_of_opensMoment ((Iff.mp hallows) hopens)
      rw [plain_of_opensMoment, plain_of_opensMoment]
      have hvw := h _ v w List.mem_cons_self List.mem_cons_self
      exact (respects_spelledMoment hvw).map fun m m' heq _ _ => by rw [heq]
    · have hopens' : ¬ OpensMoment u := mt (Iff.mpr hallows) hopens
      rw [plain_of_not_opensMoment hopens, plain_of_not_opensMoment hopens',
        plainEntries_eq_mapM, plainEntries_eq_mapM]
      have hentries : SameEntries (fun _ v w => Agrees SameOption v.plain w.plain) t u :=
        ⟨hnames, fun name v w hv hw => ih name v w hv hw rfl⟩
      exact (hentries.mapM fun _ _ _ hvw => hvw).map fun _ _ _ _ _ => rfl

theorem respects_plainTable : Respects KeepsMoment .options
    (List.Forall₂ fun p q => p.1 = q.1 ∧ SameOption p.2 q.2) plainTable := by
  intro v w h
  cases h with
  | leaf => exact .refl (fun _ => List.forall₂_same.2 fun _ _ => ⟨rfl, fun _ _ => rfl⟩) _
  | array => exact .failed _ _
  | @table _ t u hallows hnames h =>
    have hentries : ReorderedEntries KeepsMoment .options t u := ⟨hnames, h⟩
    have hstep : List.Forall₂ (fun p q : String × Value =>
        Agrees (fun a b : String × Value => a.1 = b.1 ∧ SameOption a.2 b.2)
          (do return (p.1, ← p.2.plain) : Except Toml.Fault _)
          (do return (q.1, ← q.2.plain))) t u := by
      refine (hentries.forall₂ hallows).imp fun p q hpq => ?_
      exact (agrees_plain hpq.2).bind fun _ _ hab => .done ⟨hpq.1, hab⟩
    have hplain : Agrees (List.Forall₂ fun p q => p.1 = q.1 ∧ SameOption p.2 q.2)
        (Toml.plainEntries t) (Toml.plainEntries u) := by
      rw [plainEntries_eq_mapM, plainEntries_eq_mapM]
      exact .mapM hstep
    exact hplain.mapError

/-! ## Declarations -/

/-- The fields of a toolchain come in any order. -/
theorem respects_toolchain : Respects inner .other Eq ToolchainChoice.read := by
  have hfields : FieldsRespect inner .other ToolchainChoice.fields :=
    .cons respects_text <| .cons respects_text <| .cons respects_text <| .cons respects_text <|
      .cons respects_choice fieldsRespect_nil
  intro v w h
  refine (agrees_record (by decide) (fun _ _ => rfl) hfields h).bind fun t u htu => ?_
  refine (agrees_field?_eq htu respects_text).bind_eq fun solution => ?_
  refine (agrees_field?_eq htu respects_text).bind_eq fun intermediate => ?_
  refine (agrees_field?_eq htu respects_text).bind_eq fun binary => ?_
  refine (agrees_field?_eq htu respects_text).bind_eq fun folder => ?_
  exact (agrees_field htu respects_choice rfl).bind_eq fun priority => .done rfl

namespace Declaration

/-- Two declarations say the same, up to the order of the tables by platforms and to options that
are taken alike. -/
structure Alike (d e : Declaration) : Prop where
  same : e = { d with
    platformDefinitions := e.platformDefinitions
    platformDependencies := e.platformDependencies
    options := e.options }
  platformDefinitions :
    SameEntries (fun _ => Eq) d.platformDefinitions e.platformDefinitions
  platformDependencies :
    SameEntries (fun _ => Eq) d.platformDependencies e.platformDependencies
  options : List.Forall₂ (fun p q => p.1 = q.1 ∧ SameOption p.2 q.2) d.options e.options

theorem agrees_byScope (h : ReorderedEntries inner s t u) (name : String) :
    Agrees Eq (byScope t name) (byScope u name) := by
  refine (agrees_field h respects_texts rfl).bind_eq fun exposed => ?_
  exact (agrees_field h respects_texts rfl).bind_eq fun internal => .done rfl

theorem agrees_attributesOf (h : ReorderedEntries inner s t u) :
    Agrees Eq (attributesOf t) (attributesOf u) := by
  refine (agrees_field?_eq h respects_text).bind_eq fun name => ?_
  refine (agrees_field?_eq h respects_text).bind_eq fun folder => ?_
  refine (agrees_field h respects_flag rfl).bind_eq fun qualifier => ?_
  refine (agrees_field h respects_flag rfl).bind_eq fun interface => ?_
  exact (agrees_field h respects_flag rfl).bind_eq fun editor => .done rfl

theorem fieldsRespect_scopedFields (name : String) :
    FieldsRespect inner s (scopedFields name) :=
  .cons respects_texts (.cons respects_texts fieldsRespect_nil)

theorem fieldsRespect_fields : FieldsRespect KeepsMoment .module fields := by
  refine .append (.append (.append (.append (.append (.append ?_ (fieldsRespect_scopedFields _))
    (fieldsRespect_scopedFields _)) (fieldsRespect_scopedFields _)) (fieldsRespect_scopedFields _))
    (fieldsRespect_scopedFields _)) ?_
  · exact .cons respects_text <| .cons respects_text <| .cons respects_text <|
      .cons respects_text <| .cons respects_text <| .cons respects_flag <| .cons respects_flag <|
      .cons respects_flag <| .cons respects_texts <| .cons respects_flag fieldsRespect_nil
  · exact .cons respects_texts <| .cons respects_texts <|
      .cons (respects_mapping fun _ => respects_texts) <|
      .cons (respects_mapping fun _ => respects_texts) <| .cons respects_texts <|
      .cons respects_texts <| .cons respects_texts <| .cons respects_texts <|
      .cons respects_flag <| .cons respects_texts <| .cons respects_texts <|
      .cons respects_texts <| .cons respects_text <| .cons respects_plainTable <|
      .cons respects_toolchain fieldsRespect_nil

/-- The fields of a module come in any order. -/
theorem agrees_ofTable (h : ReorderedEntries KeepsMoment .module t u) :
    Agrees Alike (ofTable t) (ofTable u) := by
  have hmapping : ∀ name, Agrees (SameEntries fun _ => Eq) (field t name (mapping texts) [])
      (field u name (mapping texts) []) := fun name =>
    agrees_field h (respects_mapping fun _ => respects_texts) ⟨.nil, fun _ _ _ => nofun⟩
  have hoptions : Agrees (List.Forall₂ fun p q => p.1 = q.1 ∧ SameOption p.2 q.2)
      (field t "options" plainTable []) (field u "options" plainTable []) :=
    agrees_field h respects_plainTable .nil
  refine (agrees_field h respects_text rfl).bind_eq fun name => ?_
  refine (agrees_field h respects_text rfl).bind_eq fun kind => ?_
  refine (agrees_field?_eq h respects_text).bind_eq fun qualifier => ?_
  refine (agrees_attributesOf h).bind_eq fun attributes => ?_
  refine (agrees_field h respects_texts rfl).bind_eq fun platforms => ?_
  refine (agrees_field h respects_flag rfl).bind_eq fun excluded => ?_
  refine (agrees_byScope h _).bind_eq fun dependencies => ?_
  refine (agrees_byScope h _).bind_eq fun definitions => ?_
  refine (agrees_byScope h _).bind_eq fun includeDirectories => ?_
  refine (agrees_byScope h _).bind_eq fun precompiledHeaders => ?_
  refine (agrees_byScope h _).bind_eq fun linkDirectories => ?_
  refine (agrees_field h respects_texts rfl).bind_eq fun editorDependencies => ?_
  refine (agrees_field h respects_texts rfl).bind_eq fun editorDefinitions => ?_
  refine (hmapping _).bind fun definitionsBy definitionsBy' hdefinitions => ?_
  refine (hmapping _).bind fun dependenciesBy dependenciesBy' hdependencies => ?_
  refine (agrees_field h respects_texts rfl).bind_eq fun sources => ?_
  refine (agrees_field h respects_texts rfl).bind_eq fun sourceExtensions => ?_
  refine (agrees_field h respects_texts rfl).bind_eq fun exportedTargets => ?_
  refine (agrees_field h respects_texts rfl).bind_eq fun linkableTargets => ?_
  refine (agrees_field h respects_flag rfl).bind_eq fun exportsSharedLibraries => ?_
  refine (agrees_field h respects_texts rfl).bind_eq fun exportedSharedLibraries => ?_
  refine (agrees_field h respects_texts rfl).bind_eq fun systemLibraries => ?_
  refine (agrees_field h respects_texts rfl).bind_eq fun arguments => ?_
  refine (agrees_field?_eq h respects_text).bind_eq fun subdirectory => ?_
  refine hoptions.bind fun options options' hsame => ?_
  refine (agrees_field?_eq h respects_toolchain).bind_eq fun toolchain => ?_
  exact .done ⟨rfl, hdefinitions, hdependencies, hsame⟩

theorem respects_read : Respects KeepsMoment .module Alike read := by
  have hspot : ∀ i (hi : i < (fields.map (·.name)).length),
      Spot.module.item i = Spot.module.under (fields.map (·.name))[i] := by
    intro i hi
    rw [Spot.item, List.getElem?_eq_getElem hi]
    rfl
  intro v w h
  refine (agrees_record (by decide) hspot fieldsRespect_fields h).bind fun t u htu => ?_
  exact agrees_ofTable htu

end Declaration

/-! ## Descriptors -/

/-- Two descriptors share the qualifier, and their declarations say the same one by one. -/
def Descriptor.Alike (d e : Descriptor) : Prop :=
  d.qualifier = e.qualifier ∧ List.Forall₂ Declaration.Alike d.declarations e.declarations

theorem Descriptor.agrees_read (h : Reordered KeepsMoment .file (.table t) (.table u)) :
    Agrees Descriptor.Alike (Descriptor.read (.table t)) (Descriptor.read (.table u)) := by
  cases h with
  | leaf _ hleaf => cases hleaf
  | table _ hnames h =>
    have hmodules : Respects KeepsMoment .modules (List.Forall₂ Declaration.Alike)
        (list Declaration.read) :=
      respects_list fun _ => Declaration.respects_read
    have hfields : FieldsRespect KeepsMoment .file Descriptor.fields :=
      .cons respects_text <| .cons hmodules fieldsRespect_nil
    refine (agrees_record_of_entries rfl rfl hfields ⟨hnames, h⟩).bind fun t u htu => ?_
    refine (agrees_field?_eq htu respects_text).bind_eq fun qualifier => ?_
    have hdeclarations : Agrees (List.Forall₂ Declaration.Alike)
        (field t "module" (list Declaration.read) [])
        (field u "module" (list Declaration.read) []) :=
      agrees_field htu hmodules .nil
    exact hdeclarations.bind fun ds es hall => .done ⟨rfl, hall⟩

/-! ## Modules -/

namespace Declaration

variable {d e : Declaration}

/-- A table by platforms is sorted by its names, and these tell its entries apart. -/
theorem sorted_eq {a b : List (String × List String)} (h : SameEntries (fun _ => Eq) a b) :
    sorted a = sorted b := by
  have hperm : (sorted a).Perm (sorted b) :=
    (List.mergeSort_perm a _).trans (h.perm.trans (List.mergeSort_perm b _).symm)
  refine hperm.eq_of_pairwise (fun p q hp hq hpq hqp => ?_) (pairwise_sorted a) (pairwise_sorted b)
  have hname : p.1 = q.1 := String.le_antisymm hpq hqp
  have hvalues := h.values p.1 p.2 q.2 (List.mem_mergeSort.1 hp)
    (hname ▸ List.mem_mergeSort.1 hq)
  exact Prod.ext hname hvalues

theorem mapM_option_eq {o o' : Toml.Table}
    (h : List.Forall₂ (fun p q => p.1 = q.1 ∧ SameOption p.2 q.2) o o') (module : String) :
    o.mapM (Setup.option module) = o'.mapM (Setup.option module) := by
  induction h with
  | nil => rfl
  | @cons p q _ _ hpq _ ih =>
    obtain ⟨name, v⟩ := p
    obtain ⟨other, w⟩ := q
    obtain ⟨rfl, hsame⟩ := hpq
    rw [List.mapM_cons, List.mapM_cons, hsame, ih]

namespace Alike

theorem addLists_eq (h : Alike d e) (file : String) (c : Context) (m : Module) :
    d.addLists file c m = e.addLists file c m := by
  rw [addLists, addLists, sorted_eq h.platformDefinitions, sorted_eq h.platformDependencies, h.same]

theorem settle_eq (h : Alike d e) (file : String) (c : Context) (m : Module) :
    d.settle file c m = e.settle file c m := by
  rw [h.same]
  rfl

theorem apply_eq (h : Alike d e) (s : Setup) (m : Module) : s.apply d m = s.apply e m := by
  cases s with
  | native =>
    rw [Setup.apply, Setup.apply, Setup.included, Setup.included, mapM_option_eq h.options]
    rw [h.same]
  | toolchain =>
    rw [h.same]
    rfl
  | plain | compiled | shared => rfl

/-- Declarations that say the same make the same module or fail for the same reason. -/
theorem instantiate_eq (h : Alike d e) (r : Registry) (c : Context) (file : String)
    (shared : Option String) : r.instantiate c file shared d = r.instantiate c file shared e := by
  have hname : e.name = d.name := by rw [h.same]
  have hkind : e.kind = d.kind := by rw [h.same]
  have hattributes : e.attributes = d.attributes := by rw [h.same]
  have hqualifier : e.qualifier = d.qualifier := by rw [h.same]
  simp only [Registry.instantiate, hname, hkind, hattributes, hqualifier, h.apply_eq, h.addLists_eq,
    h.settle_eq]

end Alike

end Declaration

theorem Registry.instantiateAll_eq (r : Registry) (c : Context) (file : String)
    (shared : Option String) {ds es : List Declaration} (h : List.Forall₂ Declaration.Alike ds es) :
    r.instantiateAll c (ds.map (Placed.mk file shared)) =
      r.instantiateAll c (es.map (Placed.mk file shared)) := by
  unfold instantiateAll
  induction h with
  | nil => rfl
  | cons hfirst _ ih =>
    rw [List.map_cons, List.map_cons, List.mapM_cons, List.mapM_cons, ih,
      hfirst.instantiate_eq r c file shared]

/-- The keys of a descriptor may come in any order, but for those of the options of a module and for
the name of moments at the start of a table inside an option: the descriptor is accepted as before,
and if it is, it makes the same modules or fails for the same reason. -/
theorem modulesOf_reordered {source source' : String} (hparse : Toml.parse source = .ok t)
    (hparse' : Toml.parse source' = .ok u)
    (h : Reordered KeepsMoment .file (.table t) (.table u)) :
    ((∃ d, Descriptor.ofText source = .ok d) ↔ ∃ d, Descriptor.ofText source' = .ok d) ∧
      ((∃ d, Descriptor.ofText source = .ok d) → ∀ (r : Registry) (c : Context) (file : String),
        r.modulesOf c file source = r.modulesOf c file source') := by
  have hread := Descriptor.agrees_read h
  have haccepts : (∃ d, Descriptor.ofText source = .ok d) ↔
      ∃ d, Descriptor.ofText source' = .ok d := by
    simp only [ofText_descriptor_eq_ok_iff hparse, ofText_descriptor_eq_ok_iff hparse']
    exact hread.exists_iff
  refine ⟨haccepts, fun hd r c file => ?_⟩
  obtain ⟨d, hd⟩ := hd
  obtain ⟨e, he⟩ := haccepts.1 ⟨d, hd⟩
  rw [r.modulesOf_eq_instantiateAll hd, r.modulesOf_eq_instantiateAll he]
  rw [(ofText_descriptor_eq_ok_iff hparse).1 hd, (ofText_descriptor_eq_ok_iff hparse').1 he]
    at hread
  cases hread with
  | done halike =>
    obtain ⟨hqualifier, hdeclarations⟩ := halike
    rw [hqualifier]
    exact r.instantiateAll_eq c file e.qualifier hdeclarations

/-! ## Two orders of one document -/

/-- A document with one module. -/
def documentOf (entries : Toml.Table) : Toml.Table :=
  [("module", .array [.table entries])]

theorem reordered_documentOf {inner : Toml.Table → Toml.Table → Prop}
    (h : Reordered inner .module (.table t) (.table u)) :
    Reordered inner .file (.table (documentOf t)) (.table (documentOf u)) := by
  have hnames : ((documentOf t).map (·.1)).Nodup := List.nodup_singleton "module"
  refine (reordered_table_iff hnames).2 ⟨trivial, _, .refl _, .cons ⟨rfl, ?_⟩ .nil⟩
  refine .array rfl fun i hv hw => ?_
  obtain rfl : i = 0 := Nat.lt_one_iff.1 hv
  exact h

/-- What a text describes is known by comparison. -/
theorem parse_eq_of_toOption {source : String} (h : (Toml.parse source).toOption = some t) :
    Toml.parse source = .ok t := by
  cases hparse : Toml.parse source with
  | error fault =>
    rw [hparse] at h
    cases h
  | ok u =>
    rw [hparse] at h
    exact congrArg Except.ok (Option.some.inj h)

/-- Definitions for two names of one platform. -/
def platformValues : Toml.Table :=
  [("linux", .array [.text "GL"]), ("unix", .array [.text "X11"])]

/-- A module with definitions by platforms. -/
def platformEntries (values : Toml.Table) : Toml.Table :=
  [("name", .text "Gfx"), ("kind", .text "interface"), ("platform_definitions", .table values)]

def platformSource : String :=
  "[[module]]\nname = \"Gfx\"\nkind = \"interface\"\n[module.platform_definitions]\n" ++
    "linux = [\"GL\"]\nunix = [\"X11\"]\n"

/-- All tables of the same descriptor from their ends. -/
def platformSource' : String :=
  "[[module]]\nplatform_definitions = \x7b unix = [\"X11\"], linux = [\"GL\"] \x7d\n" ++
    "kind = \"interface\"\nname = \"Gfx\"\n"

theorem parse_platformSource :
    Toml.parse platformSource = .ok (documentOf (platformEntries platformValues)) ∧
      Toml.parse platformSource' =
        .ok (documentOf (platformEntries platformValues.reverse).reverse) := by
  refine ⟨parse_eq_of_toOption ?_, parse_eq_of_toOption ?_⟩ <;> decide +kernel

theorem reordered_platformSource : Reordered KeepsMoment .file
    (.table (documentOf (platformEntries platformValues)))
    (.table (documentOf (platformEntries platformValues.reverse).reverse)) := by
  have hvalues : Value.Distinct (.table platformValues) := by
    refine .table (by decide) (List.forall_mem_cons.2 ⟨?_, List.forall_mem_singleton.2 ?_⟩)
    · exact .array (List.forall_mem_singleton.2 (.text "GL"))
    · exact .array (List.forall_mem_singleton.2 (.text "X11"))
  refine reordered_documentOf ((reordered_table_iff (by decide)).2
    ⟨trivial, _, (List.reverse_perm _).symm, .cons ⟨rfl, ?_⟩ ?_⟩)
  · exact .of_perm (fun _ => Iff.rfl) hvalues (List.reverse_perm _).symm trivial
  · exact .cons ⟨rfl, .leaf _ trivial⟩ (.cons ⟨rfl, .leaf _ trivial⟩ .nil)

/-- Both texts are accepted and make the same modules in every build. -/
theorem modulesOf_reordered_platformSource : (∃ d, Descriptor.ofText platformSource = .ok d) ∧
    (∃ d, Descriptor.ofText platformSource' = .ok d) ∧
      ∀ (r : Registry) (c : Context) (file : String),
        r.modulesOf c file platformSource = r.modulesOf c file platformSource' := by
  obtain ⟨hparse, hparse'⟩ := parse_platformSource
  have hread : (Descriptor.read (.table (documentOf (platformEntries platformValues)))).toOption.map
      (fun d => d.qualifier) = some none := by
    decide +kernel
  obtain ⟨d, hd, -⟩ := exists_ok_of_map_eq_some hread
  have haccepts : ∃ d, Descriptor.ofText platformSource = .ok d :=
    ⟨d, (ofText_descriptor_eq_ok_iff hparse).2 hd⟩
  obtain ⟨hiff, hequal⟩ := modulesOf_reordered hparse hparse' reordered_platformSource
  exact ⟨haccepts, hiff.1 haccepts, hequal haccepts⟩

/-! ## A table that is a moment in one order -/

/-- A table that stands for a moment when its entries come in this order. -/
def momentEntries : Toml.Table :=
  [(Toml.momentKey, .text "1979-05-27"), ("note", .text "x")]

/-- An included project with one option. -/
def optionEntries (option : Toml.Table) : Toml.Table :=
  [("name", .text "Zlib"), ("kind", .text "native"), ("subdirectory", .text "zlib"),
    ("options", .table [("ZLIB_SINCE", .table option)])]

/-- The text of a descriptor in which the option has the given text. -/
def optionSource (option : String) : String :=
  "[[module]]\nname = \"Zlib\"\nkind = \"native\"\nsubdirectory = \"zlib\"\n" ++
    "options = \x7b ZLIB_SINCE = \x7b " ++ option ++ " \x7d \x7d\n"

def momentSource : String :=
  optionSource "\"$__toml_private_datetime\" = \"1979-05-27\", note = \"x\""

def noteSource : String :=
  optionSource "note = \"x\", \"$__toml_private_datetime\" = \"1979-05-27\""

theorem parse_optionSource :
    Toml.parse momentSource = .ok (documentOf (optionEntries momentEntries)) ∧
      Toml.parse noteSource = .ok (documentOf (optionEntries momentEntries.reverse)) := by
  refine ⟨parse_eq_of_toOption ?_, parse_eq_of_toOption ?_⟩ <;> decide +kernel

theorem reordered_optionSource : Reordered (fun _ _ => True) .file
    (.table (documentOf (optionEntries momentEntries)))
    (.table (documentOf (optionEntries momentEntries.reverse))) := by
  have hmoment : Value.Distinct (.table momentEntries) :=
    .table (by decide) (List.forall_mem_cons.2 ⟨.text _, List.forall_mem_singleton.2 (.text _)⟩)
  have hoption : Reordered (fun _ _ => True) .option (.table momentEntries)
      (.table momentEntries.reverse) :=
    .of_perm (fun _ => trivial) hmoment (List.reverse_perm _).symm trivial
  refine reordered_documentOf ((reordered_table_iff (by decide)).2
    ⟨trivial, _, .refl _, .cons ⟨rfl, .leaf _ trivial⟩ (.cons ⟨rfl, .leaf _ trivial⟩
      (.cons ⟨rfl, .leaf _ trivial⟩ (.cons ⟨rfl, ?_⟩ .nil)))⟩)
  exact (reordered_table_iff (by decide)).2 ⟨rfl, _, .refl _, .cons ⟨rfl, hoption⟩ .nil⟩

/-- The option that a descriptor is refused for, with its module and the kind of its value. -/
def refusedOption? : Except Error (List Module) → Option (String × String × String)
  | .error (.unsupportedOption option module found) => some (option, module, found)
  | _ => none

theorem eq_of_refusedOption? {result : Except Error (List Module)} {option module found : String}
    (h : refusedOption? result = some (option, module, found)) :
    result = .error (.unsupportedOption option module found) := by
  unfold refusedOption? at h
  split at h
  · obtain ⟨rfl, rfl, rfl⟩ := by simpa using h
    rfl
  · cases h

/-- A descriptor that is accepted and refused for an option, as far as its document tells. -/
theorem exists_refused_of_read {source option module found : String} {r : Registry} {c : Context}
    {file : String} (hparse : Toml.parse source = .ok t)
    (h : (Descriptor.read (.table t)).toOption.map (fun d => refusedOption?
      (r.instantiateAll c (d.declarations.map (Placed.mk file d.qualifier)))) =
        some (some (option, module, found))) :
    (∃ d, Descriptor.ofText source = .ok d) ∧
      r.modulesOf c file source = .error (.unsupportedOption option module found) := by
  obtain ⟨d, hread, hview⟩ := exists_ok_of_map_eq_some h
  have hd := (ofText_descriptor_eq_ok_iff hparse).2 hread
  exact ⟨⟨d, hd⟩, (r.modulesOf_eq_instantiateAll hd).trans (eq_of_refusedOption? hview)⟩

/-- If tables inside an option may come in any order, one and the same document is refused for a
moment in one order and for a table in the other. -/
theorem exists_reordered_with_other_error : ∃ (source source' : String) (t u : Toml.Table),
    Toml.parse source = .ok t ∧ Toml.parse source' = .ok u ∧
      Reordered (fun _ _ => True) .file (.table t) (.table u) ∧
      (∃ d, Descriptor.ofText source = .ok d) ∧ (∃ d, Descriptor.ofText source' = .ok d) ∧
      ∃ (r : Registry) (c : Context) (file : String),
        r.modulesOf c file source = .error (.unsupportedOption "ZLIB_SINCE" "Zlib" "datetime") ∧
        r.modulesOf c file source' = .error (.unsupportedOption "ZLIB_SINCE" "Zlib" "table") := by
  obtain ⟨hparse, hparse'⟩ := parse_optionSource
  have hmoment : (∃ d, Descriptor.ofText momentSource = .ok d) ∧
      Registry.standard.modulesOf ⟨false, .unix⟩ "/ws/Zlib/Zlib.module.toml" momentSource =
        .error (.unsupportedOption "ZLIB_SINCE" "Zlib" "datetime") :=
    exists_refused_of_read hparse (by decide +kernel)
  have htable : (∃ d, Descriptor.ofText noteSource = .ok d) ∧
      Registry.standard.modulesOf ⟨false, .unix⟩ "/ws/Zlib/Zlib.module.toml" noteSource =
        .error (.unsupportedOption "ZLIB_SINCE" "Zlib" "table") :=
    exists_refused_of_read hparse' (by decide +kernel)
  exact ⟨momentSource, noteSource, _, _, hparse, hparse', reordered_optionSource, hmoment.1,
    htable.1, .standard, ⟨false, .unix⟩, "/ws/Zlib/Zlib.module.toml", hmoment.2, htable.2⟩

end BuildGraph
