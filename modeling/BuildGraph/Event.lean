import BuildGraph.Module.Basic
set_option autoImplicit false

/-!
# Events

What a run reports while it works, as data: the texts are made from the events only when they are
shown. Three levels tell warnings from what is of interest to someone who looks closely.
-/

namespace BuildGraph

/-- How important an event is. -/
inductive Level
  | debug
  | info
  | warning
  deriving DecidableEq, Repr, Inhabited

/-- The name of a level at the start of a log line. -/
def Level.label : Level → String
  | .debug => "DEBUG"
  | .info => "INFO"
  | .warning => "WARN"

/-- Something that a run reports. -/
inductive Event
  | descriptorsFound (count : Nat)
  | descriptorLoaded (path : String) (modules : Nat)
  | moduleExcluded (target : String)
  | dependencyExcluded (dependency target : String)
  | dependenciesResolved (target : String) (count : Nat)
  | toolchainFound (target : String)
  /-- A toolchain is passed over for another one of the same priority. -/
  | toolchainSkipped (priority : Priority) (kept skipped : String)
  | targetCollision (target : String)
  | dependencyCycle (cycle : String)
  | linkTaken (path : String)
  | linkPointless (target : String)
  deriving DecidableEq, Repr, Inhabited

namespace Event

/-- The level of an event. -/
def level : Event → Level
  | descriptorsFound _ | toolchainFound _ => .info
  | toolchainSkipped .. | targetCollision _ | dependencyCycle _ => .warning
  | descriptorLoaded .. | moduleExcluded _ | dependencyExcluded .. | dependenciesResolved ..
  | linkTaken _ | linkPointless _ => .debug

/-- The event in words. -/
def message : Event → String
  | descriptorsFound count => "Found " ++ toString count ++ " module descriptors"
  | descriptorLoaded path modules => path ++ ": " ++ toString modules ++ " module(s)"
  | moduleExcluded target => "Module '" ++ target ++ "' is excluded from build"
  | dependencyExcluded dependency target =>
    "Dependency '" ++ dependency ++ "' of '" ++ target ++ "' is excluded from build, no edge added"
  | dependenciesResolved target count =>
    "Module '" ++ target ++ "' resolved " ++ toString count ++ " dependencies"
  | toolchainFound target => "Found toolchain module '" ++ target ++ "'"
  | toolchainSkipped priority kept skipped =>
    priority.label ++ " toolchain '" ++ kept ++ "' already exists. Skipping '" ++ skipped ++ "'"
  | targetCollision target =>
    "Target name '" ++ target ++ "' is declared by more than one module, keeping the last one"
  | dependencyCycle cycle => "Dependency cycle: " ++ cycle
  | linkTaken path => path ++ " already exists"
  | linkPointless target => "Nothing to link at " ++ target

/-- The texts of the warnings among some events, in order. -/
def warnings (events : List Event) : List String :=
  (events.filter fun e => e.level == .warning).map message

end Event

end BuildGraph
