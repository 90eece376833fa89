import BuildGraph.Proofs.Graph.Built
import BuildGraph.Proofs.Toml.Distinct
import BuildGraph.Workspace.Settings
set_option autoImplicit false

/-!
# Keys that a file may hold

A descriptor has three levels whose fields are fixed: the file, its modules, and the toolchain of a
module. A file with settings has two, the file and the section in it. Where such a file is accepted,
every key at every level is a field of that level, with one exception: at the top of a file with
settings anything may stand beside the section, and whatever it is, it changes nothing.
-/

namespace BuildGraph

open Toml (Value)

/-! ## Readers that accept -/

namespace Schema

variable {α β : Type} {name : String} {fields : List Field} {reader : Reader α} {v : Value}
  {u : Toml.Table}

theorem record_eq_ok_iff :
    record name fields v = .ok u ↔
      entriesOf? fields v = some u ∧ checkEntries fields u = .ok () := by
  rw [record]
  cases entriesOf? fields v with
  | none => simp
  | some t =>
    rw [Option.some.injEq]
    constructor
    · intro h
      obtain ⟨_, hcheck, heq⟩ := bind_eq_ok_iff.1 h
      obtain rfl := Except.ok.inj heq
      exact ⟨rfl, hcheck⟩
    · intro h
      obtain ⟨rfl, hcheck⟩ := h
      exact bind_eq_ok_iff.2 ⟨(), hcheck, rfl⟩

/-- A reader that starts with a record accepts only values all entries of which fit. -/
theorem checkEntries_of_bind_record {make : Toml.Table → Except Misfit α} {a : α}
    (h : (record name fields v >>= make) = .ok a) (hentries : entriesOf? fields v = some u) :
    checkEntries fields u = .ok () := by
  obtain ⟨t, hrecord, -⟩ := bind_eq_ok_iff.1 h
  obtain ⟨heq, hcheck⟩ := record_eq_ok_iff.1 hrecord
  obtain rfl := Option.some.inj (hentries.symm.trans heq)
  exact hcheck

/-- A value that fits a field is one that the reader of the field accepts. -/
theorem exists_of_checkEntry (reader : Reader α)
    (hfind : fields.find? (fun f => f.name == name) = some (.of name reader))
    (h : checkEntry fields (name, v) = .ok ()) : ∃ a, reader v = .ok a := by
  rw [checkEntry, hfind] at h
  cases hreader : reader v with
  | error misfit =>
    simp only [Field.of, hreader] at h
    cases h
  | ok a => exact ⟨a, rfl⟩

/-- A list is accepted only if each of its values is. -/
theorem exists_of_list {vs : List Value} {as : List α} (h : list reader (.array vs) = .ok as)
    (hv : v ∈ vs) : ∃ a, reader v = .ok a :=
  exists_mapM_eq_ok_iff.1 ⟨as, h⟩ v hv

/-- A field that is given must be accepted. -/
theorem exists_of_field {a absent : α} (h : field u name reader absent = .ok a)
    (hlookup : u.lookup name = some v) : ∃ b, reader v = .ok b := by
  obtain ⟨found, hfound, -⟩ := bind_eq_ok_iff.1 h
  rw [field?, hlookup] at hfound
  cases hreader : reader v with
  | error misfit =>
    simp only [hreader] at hfound
    cases hfound
  | ok b => exact ⟨b, rfl⟩

end Schema

open Schema

/-! ## Levels -/

/-- The two kinds of files that are read by a schema. -/
inductive FileKind
  | descriptor
  | settings
  deriving DecidableEq, Repr

/-- The levels of the two kinds of files at which the fields are fixed. -/
inductive FileLevel
  | descriptor
  | module
  | toolchain
  | settings
  | «section»
  deriving DecidableEq, Repr

namespace FileKind

/-- The level of the whole file. -/
def top : FileKind → FileLevel
  | .descriptor => .descriptor
  | .settings => .settings

/-- Whether a text is accepted as a file of the kind. -/
def Accepts (kind : FileKind) (source : String) : Prop :=
  match kind with
  | .descriptor => ∃ d, Descriptor.ofText source = .ok d
  | .settings => ∃ s, Workspace.Settings.ofText source = .ok s

end FileKind

namespace FileLevel

/-- The fields that a level declares. -/
def fields : FileLevel → List Field
  | .descriptor => Descriptor.fields
  | .module => Declaration.fields
  | .toolchain => ToolchainChoice.fields
  | .settings => [.of "workspace" Workspace.Settings.read]
  | .section => Workspace.Settings.fields

/-- The names of the fields that a level declares. -/
def names (level : FileLevel) : List String :=
  level.fields.map (·.name)

end FileLevel

/-- The entries that stand at a level of a document, be they written as a table or as a list. -/
inductive StandsAt (kind : FileKind) (document : Toml.Table) : FileLevel → Toml.Table → Prop
  | top : StandsAt kind document kind.top document
  | module {t u : Toml.Table} {vs : List Value} {v : Value} :
    StandsAt kind document .descriptor t → ("module", .array vs) ∈ t → v ∈ vs →
      entriesOf? Declaration.fields v = some u → StandsAt kind document .module u
  | toolchain {t u : Toml.Table} {v : Value} :
    StandsAt kind document .module t → ("toolchain", v) ∈ t →
      entriesOf? ToolchainChoice.fields v = some u → StandsAt kind document .toolchain u
  | «section» {t u : Toml.Table} {v : Value} :
    StandsAt kind document .settings t → ("workspace", v) ∈ t →
      entriesOf? Workspace.Settings.fields v = some u → StandsAt kind document .section u

/-! ## Accepted files -/

variable {kind : FileKind} {level : FileLevel} {source : String} {document u : Toml.Table}

theorem ofText_descriptor_eq_ok_iff {d : Descriptor} (hparse : Toml.parse source = .ok document) :
    Descriptor.ofText source = .ok d ↔ Descriptor.read (.table document) = .ok d := by
  unfold Descriptor.ofText
  rw [hparse]
  cases h : Descriptor.read (.table document) with
  | error misfit => simp [Except.mapError, bind, Except.bind, h]
  | ok d' => simp [Except.mapError, bind, Except.bind, h]

theorem ofText_settings_eq_ok_iff {s : Workspace.Settings}
    (hparse : Toml.parse source = .ok document) :
    Workspace.Settings.ofText source = .ok s ↔
      field document "workspace" Workspace.Settings.read .default = .ok s := by
  unfold Workspace.Settings.ofText
  rw [hparse]
  cases h : field document "workspace" Workspace.Settings.read .default with
  | error misfit => simp [Except.mapError, bind, Except.bind, h]
  | ok s' => simp [Except.mapError, bind, Except.bind, h]

/-- The keys of a document are distinct, so that each entry is the one that is found. -/
theorem lookup_eq_some_of_mem {name : String} {v : Value}
    (hparse : Toml.parse source = .ok document) (h : (name, v) ∈ document) :
    document.lookup name = some v := by
  obtain ⟨hkeys, -⟩ := Value.distinct_table_iff.1 (Toml.distinct_of_parse hparse)
  exact (Lookup.lookup_eq_some_iff_mem (List.pairwise_map.1 hkeys)).2 h

theorem eq_of_standsAt_settings (h : StandsAt kind document .settings u) :
    kind = .settings ∧ u = document := by
  generalize hlevel : FileLevel.settings = level at h
  cases h with
  | top =>
    cases kind with
    | descriptor => cases hlevel
    | settings => exact ⟨rfl, rfl⟩
  | module | toolchain | «section» => cases hlevel

/-- At every level of an accepted file, except for the top of one with settings, all entries fit the
fields. -/
theorem checkEntries_of_standsAt (hparse : Toml.parse source = .ok document)
    (haccepts : kind.Accepts source) (h : StandsAt kind document level u)
    (hlevel : level ≠ .settings) : checkEntries level.fields u = .ok () := by
  induction h with
  | top =>
    cases kind with
    | descriptor =>
      obtain ⟨d, hd⟩ := haccepts
      exact checkEntries_of_bind_record ((ofText_descriptor_eq_ok_iff hparse).1 hd) rfl
    | settings => exact absurd rfl hlevel
  | module htop hentry hv hentries ih =>
    have hcheck := (checkEntries_eq_ok_iff _ _).1 (ih nofun) _ hentry
    obtain ⟨ds, hlist⟩ := exists_of_checkEntry (list Declaration.read) rfl hcheck
    obtain ⟨d, hread⟩ := exists_of_list hlist hv
    exact checkEntries_of_bind_record hread hentries
  | toolchain _ hentry hentries ih =>
    have hcheck := (checkEntries_eq_ok_iff _ _).1 (ih nofun) _ hentry
    obtain ⟨choice, hread⟩ := exists_of_checkEntry ToolchainChoice.read rfl hcheck
    exact checkEntries_of_bind_record hread hentries
  | «section» htop hentry hentries _ =>
    obtain ⟨rfl, rfl⟩ := eq_of_standsAt_settings htop
    obtain ⟨s, hs⟩ := haccepts
    have hfield := (ofText_settings_eq_ok_iff hparse).1 hs
    obtain ⟨s', hread⟩ := exists_of_field hfield (lookup_eq_some_of_mem hparse hentry)
    exact checkEntries_of_bind_record hread hentries

/-- Where a file is accepted, every key at every level is a field of that level. Only at the top of
a file with settings any key may stand beside the section; the settings do not depend on it. -/
theorem keys_are_fields (hparse : Toml.parse source = .ok document)
    (haccepts : kind.Accepts source) :
    (∀ level u, StandsAt kind document level u → level ≠ .settings → ∀ p ∈ u, p.1 ∈ level.names) ∧
      (kind = .settings →
        ((∀ level u, StandsAt kind document level u → ∀ p ∈ u, p.1 ∈ level.names) ↔
          ∀ p ∈ document, p.1 = "workspace") ∧
        ∀ source' document', Toml.parse source' = .ok document' →
          document'.lookup "workspace" = document.lookup "workspace" →
            Workspace.Settings.ofText source' = Workspace.Settings.ofText source) := by
  have hbelow : ∀ level u, StandsAt kind document level u → level ≠ .settings →
      ∀ p ∈ u, p.1 ∈ level.names := by
    intro level u hstands hlevel p hp
    have hcheck := checkEntries_of_standsAt hparse haccepts hstands hlevel
    exact mem_fields_of_checkEntry ((checkEntries_eq_ok_iff _ _).1 hcheck p hp)
  refine ⟨hbelow, fun hkind => ?_⟩
  subst hkind
  refine ⟨⟨fun h p hp => ?_, fun h level u hstands p hp => ?_⟩,
    fun source' document' hparse' hlookup => ?_⟩
  · exact List.mem_singleton.1 (h .settings document .top p hp)
  · by_cases hlevel : level = .settings
    · subst hlevel
      obtain ⟨-, rfl⟩ := eq_of_standsAt_settings hstands
      exact List.mem_singleton.2 (h p hp)
    · exact hbelow level u hstands hlevel p hp
  · obtain ⟨s, hs⟩ := haccepts
    have hfield := (ofText_settings_eq_ok_iff hparse).1 hs
    rw [hs, ofText_settings_eq_ok_iff hparse', ← hfield, field, field, field?, field?, hlookup]

/-! ## A descriptor and two files with settings -/

/-- A descriptor with a toolchain in a module. -/
def equippedSource : String :=
  "namespace = \"Engine\"\n[[module]]\nname = \"Tools\"\nkind = \"toolchain\"\n" ++
    "[module.toolchain]\npriority = \"primary\"\n"

/-- A file with settings in their section. -/
def strictSource : String :=
  "[workspace]\nstrict = true\n"

/-- A file in which the name of the section is misspelt. -/
def misspeltSource : String :=
  "[worksapce]\nstrict = true\n"

/-- The keys at the top of a document. -/
def topKeys (source : String) : Option (List String) :=
  (Toml.parse source).toOption.map fun t => t.map (·.1)

theorem topKeys_sources : topKeys equippedSource = some ["namespace", "module"] ∧
    topKeys strictSource = some ["workspace"] ∧ topKeys misspeltSource = some ["worksapce"] := by
  decide +kernel

theorem accepts_equipped : FileKind.descriptor.Accepts equippedSource := by
  have hname : (Descriptor.ofText equippedSource).toOption.map (fun d => d.qualifier) =
      some (some "Engine") := by
    decide +kernel
  obtain ⟨d, hd, -⟩ := exists_ok_of_map_eq_some hname
  exact ⟨d, hd⟩

theorem accepts_strict : FileKind.settings.Accepts strictSource := by
  have hstrict : (Workspace.Settings.ofText strictSource).toOption.map (fun s => s.strict) =
      some true := by
    decide +kernel
  obtain ⟨s, hs, -⟩ := exists_ok_of_map_eq_some hstrict
  exact ⟨s, hs⟩

/-- Both files are accepted, and all their keys are fields. -/
theorem keys_are_fields_spelt :
    (∃ document, Toml.parse equippedSource = .ok document ∧
      ∀ level u, StandsAt .descriptor document level u → level ≠ .settings →
        ∀ p ∈ u, p.1 ∈ level.names) ∧
    ∃ document, Toml.parse strictSource = .ok document ∧
      ∀ level u, StandsAt .settings document level u → ∀ p ∈ u, p.1 ∈ level.names := by
  obtain ⟨hequipped, hstrict, -⟩ := topKeys_sources
  obtain ⟨document, hparse, -⟩ := exists_ok_of_map_eq_some hequipped
  obtain ⟨document', hparse', hkeys'⟩ := exists_ok_of_map_eq_some hstrict
  refine ⟨⟨document, hparse, (keys_are_fields hparse accepts_equipped).1⟩, document', hparse', ?_⟩
  obtain ⟨htop, -⟩ := (keys_are_fields hparse' accepts_strict).2 rfl
  refine htop.2 fun p hp => ?_
  have hmem : p.1 ∈ document'.map (·.1) := List.mem_map_of_mem hp
  rw [hkeys'] at hmem
  exact List.mem_singleton.1 hmem

/-- A section with a misspelt name is passed over, and the settings are the usual ones. -/
theorem exists_ignored_key : ∃ source document, Toml.parse source = .ok document ∧
    Workspace.Settings.ofText source = .ok .default ∧
      StandsAt .settings document .settings document ∧
        ∃ p ∈ document, p.1 ∉ FileLevel.settings.names := by
  obtain ⟨-, -, hmisspelt⟩ := topKeys_sources
  obtain ⟨document, hparse, hkeys⟩ := exists_ok_of_map_eq_some hmisspelt
  have hdefault : (Workspace.Settings.ofText misspeltSource).toOption.map id = some .default := by
    decide +kernel
  obtain ⟨s, hsettings, rfl⟩ := exists_ok_of_map_eq_some hdefault
  have hmem : "worksapce" ∈ document.map (·.1) := by
    rw [hkeys]
    exact List.mem_singleton_self _
  obtain ⟨p, hp, hkey⟩ := List.mem_map.1 hmem
  refine ⟨misspeltSource, document, hparse, hsettings, .top, p, hp, ?_⟩
  rw [hkey]
  decide

end BuildGraph
