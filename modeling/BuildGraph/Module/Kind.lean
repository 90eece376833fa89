set_option autoImplicit false

/-!
# Kinds of modules

What a module becomes in the generated project, and the four traits by which the rest of the
library tells the kinds apart.
-/

namespace BuildGraph

/-- What a module becomes in the generated project. -/
inductive Kind
  /-- A static library. -/
  | staticLibrary
  /-- A shared library. -/
  | sharedLibrary
  /-- A target without code of its own, which only passes on what it declares. -/
  | interface
  /-- A project of its own that is included as a subdirectory. -/
  | native
  /-- A program. -/
  | executable
  /-- A collection of files that are not compiled. -/
  | customRules
  deriving DecidableEq, Repr, Inhabited

/-- What the kind of a module decides. -/
structure Traits where
  /-- It is compiled, and so linked with the toolchain. -/
  producesTarget : Bool
  /-- Its directory is searched for sources. -/
  scansSources : Bool
  /-- It asks for the language standard. -/
  languageStandard : Bool
  /-- It takes properties with a scope. -/
  scopedProperties : Bool
  deriving DecidableEq, Repr, Inhabited

namespace Kind

/-- The traits of a kind. -/
def traits : Kind → Traits
  | staticLibrary | sharedLibrary | executable => ⟨true, true, true, true⟩
  | native => ⟨false, false, true, true⟩
  | interface => ⟨false, false, false, true⟩
  | customRules => ⟨false, false, false, false⟩

/-- The short name of a kind. -/
def label : Kind → String
  | staticLibrary => "static"
  | sharedLibrary => "shared"
  | interface => "interface"
  | native => "native"
  | executable => "executable"
  | customRules => "custom-rules"

/-- Every kind once. -/
def all : List Kind :=
  [staticLibrary, sharedLibrary, interface, native, executable, customRules]

theorem mem_all (k : Kind) : k ∈ all := by
  cases k <;> decide

/-- The kind of a short name. -/
def ofLabel? (label : String) : Option Kind :=
  all.find? fun k => k.label == label

/-- What is compiled has sources, a language standard and scoped properties. -/
theorem producesTarget_le (k : Kind) (h : k.traits.producesTarget = true) :
    k.traits = ⟨true, true, true, true⟩ := by
  cases k <;> first | rfl | (revert h; decide)

end Kind

end BuildGraph
