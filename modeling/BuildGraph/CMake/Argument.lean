import BuildGraph.Module.Basic
set_option autoImplicit false

/-!
# Arguments of directives

Values are handed to a directive as lists in which every value ends with a semicolon, grouped by
scope. A relative path among them is seen from the directory of its module.
-/

namespace BuildGraph.CMake

/-- Who sees a property of a target. -/
inductive Scope
  | exposed
  | internal
  | interface
  deriving DecidableEq, Repr, Inhabited

/-- The word that opens the values of a scope. -/
def Scope.word : Scope → String
  | exposed => "PUBLIC"
  | internal => "PRIVATE"
  | interface => "INTERFACE"

/-- Values, each with a semicolon behind it. -/
def terminated (values : List String) : String :=
  String.join (values.map (· ++ ";"))

/-- Whether a path is absolute on any platform: it starts with a slash, a backslash or the letter
of a drive. -/
def isRooted (path : String) : Bool :=
  match path.toList with
  | '/' :: _ => true
  | '\\' :: _ => true
  | c :: ':' :: _ => c.isAlpha
  | _ => false

/-- A path seen from a directory, unless it is absolute. -/
def qualify (directory path : String) : String :=
  if isRooted path then path else directory ++ "/" ++ path

/-- The sources of a module as a project names them: seen from its directory, with slashes only. -/
def sourcePaths (m : Module) : List String :=
  m.sources.map fun source => Path.forward (qualify m.directory source)

/-- The values of a property, grouped by the scopes in which they are written. -/
abbrev Groups := List (Scope × List String)

/-- The group of a scope, which is left out when it has no values. -/
def group (scope : Scope) (values : List String) : Groups :=
  if values = [] then [] else [(scope, values)]

/-- The groups of a property of a module. A target that is used like an interface has only what
dependents see; kinds without scoped properties have none. -/
def groupsOf (m : Module) (values : Scoped) : Groups :=
  if m.isInterfaceLike then group .interface values.exposed
  else if m.kind.traits.scopedProperties then
    group .exposed values.exposed ++ group .internal values.internal
  else []

/-- Groups as they are written. -/
def groupsText (gs : Groups) : String :=
  " ".intercalate (gs.map fun g => g.1.word ++ " " ++ terminated g.2)

theorem mem_group {scope s : Scope} {values vs : List String} :
    (s, vs) ∈ group scope values ↔ s = scope ∧ vs = values ∧ values ≠ [] := by
  unfold group
  split <;> simp_all

end BuildGraph.CMake
