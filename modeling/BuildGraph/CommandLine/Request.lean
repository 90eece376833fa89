set_option autoImplicit false

/-!
# Requests

The arguments of the program, read from left to right. There are switches with a long name, one of
which has a short one too, and one option with a value, which is required. A switch or option may be
given once. The requests for help and for the version are granted at once when they are met; a
fault in front of them comes first.
-/

namespace BuildGraph.CommandLine

/-- What can be switched on. -/
inductive Flag
  | editor
  | console
  | strict
  /-- The project is shown instead of written. -/
  | dryRun
  /-- The outline of the graph is shown too. -/
  | outline
  /-- Events of all levels are shown. -/
  | verbose
  deriving DecidableEq, Repr, Inhabited

namespace Flag

/-- Every switch with its name. -/
def names : List (String × Flag) :=
  [("editor", editor), ("console", console), ("strict", strict), ("dry-run", dryRun),
    ("tree", outline), ("verbose", verbose)]

end Flag

/-- A run with all that is known about it. -/
structure Options where
  root : String
  flags : List Flag
  deriving DecidableEq, Repr, Inhabited

/-- Whether a switch is on. -/
def Options.has (o : Options) (f : Flag) : Bool :=
  o.flags.contains f

/-- What the arguments ask for. -/
inductive Request
  | run (o : Options)
  | help
  | version
  /-- The arguments cannot be understood. -/
  | misuse
  deriving DecidableEq, Repr, Inhabited

/-- What has been read of the arguments. -/
structure Given where
  root? : Option String
  flags : List Flag
  deriving DecidableEq, Repr, Inhabited

namespace Given

/-- Nothing has been read. -/
def nothing : Given := ⟨none, []⟩

/-- One more switch, unless it has been given before. -/
def switch (g : Given) (f : Flag) : Option Given :=
  if g.flags.contains f then none else some { g with flags := g.flags ++ [f] }

/-- The root, unless it has been given before or is empty. -/
def setRoot (g : Given) (root : String) : Option Given :=
  if g.root?.isSome ∨ root = "" then none else some { g with root? := some root }

/-- The request when nothing follows. The root is required. -/
def finish (g : Given) : Request :=
  match g.root? with
  | some root => .run ⟨root, g.flags⟩
  | none => .misuse

end Given

/-- What comes of one argument: more is known, or the request is settled. -/
inductive Step
  | go (g : Given)
  | settled (r : Request)
  deriving DecidableEq, Repr, Inhabited

/-- Goes on with what is known now; when that is impossible the arguments are not understood. -/
def Step.ofGiven? : Option Given → Step
  | some g => .go g
  | none => .settled .misuse

/-- An argument with a long name, without its two dashes, but not the root on its own. -/
def longStep (g : Given) (name : String) : Step :=
  match name.toList with
  | 'r' :: 'o' :: 'o' :: 't' :: '=' :: value => .ofGiven? (g.setRoot (String.ofList value))
  | _ =>
    if name = "help" then .settled .help
    else if name = "version" then .settled .version
    else .ofGiven? ((Flag.names.lookup name).bind g.switch)

/-- Short names behind one dash. -/
def shortSteps (g : Given) : List Char → Step
  | [] => .go g
  | 'v' :: cs =>
    match g.switch .verbose with
    | some g => shortSteps g cs
    | none => .settled .misuse
  | 'h' :: _ => .settled .help
  | 'V' :: _ => .settled .version
  | _ :: _ => .settled .misuse

/-- Whether an argument can be the value of the option in front of it: it is not another option. -/
def isValue (argument : String) : Bool :=
  argument == "-" || argument.toList.head? != some '-'

/-- One argument that stands for itself. -/
def argumentStep (g : Given) (argument : String) : Step :=
  match argument.toList with
  | '-' :: '-' :: name => longStep g (String.ofList name)
  | '-' :: c :: cs => shortSteps g (c :: cs)
  | _ => .settled .misuse

/-- What arguments ask for, when some have been read. -/
def requestFrom (g : Given) : List String → Request
  | [] => g.finish
  | argument :: rest =>
    if argument = "--" then
      if rest = [] then g.finish else .misuse
    else if argument = "--root" then
      match rest with
      | [] => .misuse
      | value :: rest =>
        match if isValue value then g.setRoot value else none with
        | some g => requestFrom g rest
        | none => .misuse
    else match argumentStep g argument with
      | .go g => requestFrom g rest
      | .settled r => r

/-- What the arguments ask for. -/
def requestOf (arguments : List String) : Request :=
  requestFrom .nothing arguments

end BuildGraph.CommandLine
