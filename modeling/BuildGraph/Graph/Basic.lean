import BuildGraph.Lookup
import BuildGraph.Module.Basic
set_option autoImplicit false

/-!
# Dependency graphs

A graph holds the modules of a workspace in the order in which they were found, and one entry per
name: a target name belongs to the module that was found last under it, and a name that is only a
system library has an entry without a module. The edges of a module are the entry under its own
target name, as long as the entry is its own: a module that lost its name to a later one has none.
-/

namespace BuildGraph

/-- The position of a module in the order in which the modules were found. -/
abbrev ModuleId := Nat

/-- What a name stands for in a graph. -/
inductive Entry
  /-- A module with the modules it depends on, in ascending order. -/
  | owned (owner : ModuleId) (dependencies : List ModuleId)
  /-- A library that no module provides. -/
  | system
  deriving DecidableEq, Repr, Inhabited

namespace Entry

/-- The module that an entry belongs to. -/
def owner? : Entry → Option ModuleId
  | owned id _ => some id
  | system => none

/-- The modules that an entry depends on. -/
def dependencies : Entry → List ModuleId
  | owned _ ds => ds
  | system => []

/-- Whether the entry is a library that no module provides. -/
def isSystem : Entry → Bool
  | owned _ _ => false
  | system => true

end Entry

/-- The entries of a graph by name; each name occurs once. -/
abbrev Entries := List (String × Entry)

namespace Entries

/-- The entry under a name. -/
def find? (es : Entries) (name : String) : Option Entry :=
  List.lookup name es

/-- The entries with one more, which takes the place of any other under its name. -/
def put (es : Entries) (name : String) (e : Entry) : Entries :=
  match es with
  | [] => [(name, e)]
  | (k, d) :: rest => if k = name then (name, e) :: rest else (k, d) :: put rest name e

/-- The entries with one for a system library, unless the name has an entry already. -/
def addSystem (es : Entries) (name : String) : Entries :=
  match find? es name with
  | some _ => es
  | none => put es name .system

theorem find?_put (es : Entries) (name key : String) (e : Entry) :
    find? (put es name e) key = if key = name then some e else find? es key := by
  unfold find?
  induction es with
  | nil => exact Lookup.lookup_cons_eq_ite key name e []
  | cons p rest ih =>
    obtain ⟨k, d⟩ := p
    unfold put
    by_cases hk : k = name
    · subst hk
      by_cases h : key = k <;> simp [Lookup.lookup_cons_eq_ite, h]
    · simp only [hk, if_false, Lookup.lookup_cons_eq_ite, ih]
      by_cases h : key = k
      · subst h
        simp [hk]
      · simp [h]

theorem find?_addSystem (es : Entries) (name key : String) :
    find? (addSystem es name) key =
      if key = name then some ((find? es name).getD .system) else find? es key := by
  unfold addSystem
  cases h : find? es name with
  | none => simp [find?_put]
  | some e =>
    by_cases hk : key = name
    · subst hk; simp [h]
    · simp [hk]

end Entries

/-- A resolved dependency graph. -/
structure Graph where
  modules : List Module
  entries : Entries
  /-- The module whose settings hold for the project. -/
  toolchain : ModuleId
  settings : Toolchain
  /-- The target names that a later module took over, once for each module that did. -/
  collisions : List String
  /-- The cycles that were found, each from its first module to its last. -/
  cycles : List (List ModuleId)
  deriving Repr, Inhabited

namespace Graph

/-- The target name of a module. -/
def targetNameOf (modules : List Module) (id : ModuleId) : String :=
  match modules[id]? with
  | some m => m.targetName
  | none => ""

/-- The target name of a module of the graph. -/
def targetName (g : Graph) (id : ModuleId) : String :=
  targetNameOf g.modules id

/-- The entry under the target name of a module, if it is the module's own. -/
def entryOf? (modules : List Module) (entries : Entries) (id : ModuleId) : Option Entry :=
  (entries.find? (targetNameOf modules id)).filter fun e => e.owner? == some id

/-- The modules that a module depends on directly. -/
def successors (modules : List Module) (entries : Entries) (id : ModuleId) : List ModuleId :=
  match entryOf? modules entries id with
  | some e => e.dependencies
  | none => []

/-- The modules that a module of the graph depends on directly. -/
def dependencies (g : Graph) (id : ModuleId) : List ModuleId :=
  successors g.modules g.entries id

/-- The entries in the order of their names. -/
def sortedEntries (g : Graph) : List (String × Entry) :=
  g.entries.mergeSort fun a b => decide (a.1 ≤ b.1)

/-- The modules that own an entry, in ascending order. -/
def owners (modules : List Module) (entries : Entries) : List ModuleId :=
  (List.range modules.length).filter fun id => (entryOf? modules entries id).isSome

/-- The module that a name belongs to. -/
def find? (g : Graph) (name : String) : Option ModuleId :=
  (g.entries.find? name).bind Entry.owner?

/-- The modules of a list with their ids. -/
def numbered (modules : List Module) : List (ModuleId × Module) :=
  (List.range modules.length).zip modules

/-- The modules that take part in the build, with their ids, in order. -/
def active (g : Graph) : List (ModuleId × Module) :=
  (numbered g.modules).filter fun p => p.2.isActive

/-- A cycle in words: the names on its way, back to the first. -/
def cycleText (modules : List Module) (cycle : List ModuleId) : String :=
  " -> ".intercalate ((cycle ++ cycle.take 1).map (targetNameOf modules))

/-- The cycles of the graph in words. -/
def cycleTexts (g : Graph) : List String :=
  g.cycles.map (cycleText g.modules)

end Graph

end BuildGraph
