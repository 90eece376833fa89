import BuildGraph.Error
import BuildGraph.Event
import BuildGraph.Graph.Closure
import BuildGraph.Graph.Cycle
set_option autoImplicit false

/-!
# Building a graph

The modules are taken in the order in which they were found. Each dependency name of an active
module is resolved: to the first active module that answers to it, or else to a system library, or
else to nothing when an excluded module answers to it; a name that is none of these stops the build.
The last active module of a target name keeps it. Among the toolchains the first one of the highest
priority is chosen.

A strict build stops at the first target name that is taken twice, and at the first cycle; any other
build reports them. What has been reported is part of the outcome, also of one that is an error.
-/

namespace BuildGraph

/-- An error, and what was reported before it. -/
structure Failure where
  error : Error
  events : List Event
  deriving Repr, Inhabited

/-- What resolves the names of a build. -/
structure Resolver where
  modules : List Module
  /-- The names that are system libraries. -/
  libraries : List String
  strict : Bool
  deriving Repr, Inhabited

/-- What a dependency name stands for. -/
inductive Resolution
  | module (id : ModuleId)
  | system
  /-- Only a module that takes no part in the build answers to the name. -/
  | excluded
  | missing
  deriving DecidableEq, Repr, Inhabited

namespace Resolver

/-- The first active module that answers to a name. -/
def firstActive? (modules : List Module) (name : String) : Option ModuleId :=
  modules.findIdx? fun m => m.isActive && m.answersTo name

/-- What a dependency name stands for. -/
def resolve (r : Resolver) (name : String) : Resolution :=
  match firstActive? r.modules name with
  | some id => .module id
  | none =>
    if r.libraries.contains name then .system
    else if r.modules.any fun m => m.excluded && m.answersTo name then .excluded
    else .missing

/-- The first dependency of a module that stands for nothing. -/
def firstMissing? (r : Resolver) (m : Module) : Option String :=
  m.dependencies.all.find? fun name => r.resolve name == .missing

/-- The dependencies of a module that are system libraries. -/
def placeholders (r : Resolver) (m : Module) : List String :=
  m.dependencies.all.filter fun name => r.resolve name == .system

/-- The dependencies of a module that are left out, up to the first that stands for nothing. -/
def omissions (r : Resolver) (m : Module) : List String :=
  (m.dependencies.all.takeWhile fun name => r.resolve name != .missing).filter fun name =>
    r.resolve name == .excluded

/-- The modules that a module depends on, each once, in ascending order and without itself. -/
def edges (r : Resolver) (id : ModuleId) (m : Module) : List ModuleId :=
  let found := m.dependencies.all.map r.resolve
  (List.range r.modules.length).filter fun k => k != id && found.contains (.module k)

end Resolver

/-- A toolchain that may be chosen. -/
structure Candidate where
  id : ModuleId
  target : String
  settings : Toolchain
  deriving DecidableEq, Repr, Inhabited

/-- What is known after some of the modules. -/
structure Progress where
  entries : Entries
  toolchain? : Option Candidate
  collisions : List String
  events : List Event
  deriving Repr, Inhabited

namespace Progress

/-- Nothing is known yet. -/
def initial : Progress := ⟨[], none, [], []⟩

/-- One more event. -/
def report (p : Progress) (e : Event) : Progress :=
  { p with events := p.events ++ [e] }

/-- Chooses between the toolchain chosen so far and one found later. Only a higher priority
replaces it; the same priority is worth a warning. -/
def considerToolchain (p : Progress) (c : Candidate) : Progress :=
  let p := p.report (.toolchainFound c.target)
  match p.toolchain? with
  | none => { p with toolchain? := some c }
  | some old =>
    if old.settings.priority.rank < c.settings.priority.rank then { p with toolchain? := some c }
    else if old.settings.priority = c.settings.priority then
      p.report (.toolchainSkipped old.settings.priority old.target c.target)
    else p

/-- Considers a module as the toolchain, if it is one. -/
def consider (p : Progress) (id : ModuleId) (m : Module) : Progress :=
  match m.toolchain with
  | some settings => p.considerToolchain ⟨id, m.targetName, settings⟩
  | none => p

/-- Gives a target name to a module. -/
def claim (p : Progress) (strict : Bool) (target : String) (e : Entry) :
    Except Failure Progress :=
  let taken := ((p.entries.find? target).bind Entry.owner?).isSome
  let claimed := { p with entries := p.entries.put target e }
  if !taken then .ok claimed
  else if strict then .error ⟨.targetCollision target, p.events⟩
  else
    .ok ({ claimed with collisions := p.collisions ++ [target] }.report (.targetCollision target))

/-- Takes in one active module. -/
def addActive (p : Progress) (r : Resolver) (id : ModuleId) (m : Module) :
    Except Failure Progress :=
  let target := m.targetName
  let p := p.consider id m
  let p := (r.omissions m).foldl (fun p name => p.report (.dependencyExcluded name target)) p
  match r.firstMissing? m with
  | some name => .error ⟨.unresolvedDependency name target, p.events⟩
  | none =>
    let p := { p with entries := (r.placeholders m).foldl Entries.addSystem p.entries }
    let dependencies := r.edges id m
    let p := p.report (.dependenciesResolved target dependencies.length)
    p.claim r.strict target (.owned id dependencies)

/-- Takes in one module. -/
def add (p : Progress) (r : Resolver) (id : ModuleId) (m : Module) : Except Failure Progress :=
  if m.isActive then p.addActive r id m else .ok (p.report (.moduleExcluded m.targetName))

end Progress

/-- A graph, and what was reported while it was built. -/
structure Built where
  graph : Graph
  events : List Event
  deriving Repr, Inhabited

/-- Takes in all modules in turn. -/
def Resolver.gather (r : Resolver) : Except Failure Progress :=
  (Graph.numbered r.modules).foldlM (fun p (id, m) => p.add r id m) .initial

/-- The graph of what is known after all modules. -/
def Resolver.finish (r : Resolver) (p : Progress) : Except Failure Built :=
  match p.toolchain? with
  | none => .error ⟨.noToolchain, p.events⟩
  | some c =>
    let cycles := findCycles (Graph.successors r.modules p.entries) r.modules.length
      (Graph.owners r.modules p.entries)
    let text := Graph.cycleText r.modules
    match r.strict, cycles with
    | true, first :: _ => .error ⟨.dependencyCycle (text first), p.events⟩
    | _, _ =>
      .ok {
        graph :=
          { modules := r.modules
            entries := p.entries
            toolchain := c.id
            settings := c.settings
            collisions := p.collisions
            cycles }
        events := p.events ++ cycles.map fun cycle => .dependencyCycle (text cycle) }

/-- The resolver of some modules: the names that they register count as system libraries beside
those that were registered before. -/
def Resolver.ofModules (libraries : List String) (strict : Bool) (modules : List Module) :
    Resolver :=
  ⟨modules, libraries ++ modules.flatMap (·.systemLibraries), strict⟩

/-- Builds the graph of some modules. -/
def Graph.build (libraries : List String) (strict : Bool) (modules : List Module) :
    Except Failure Built := do
  let r := Resolver.ofModules libraries strict modules
  r.finish (← r.gather)

end BuildGraph
