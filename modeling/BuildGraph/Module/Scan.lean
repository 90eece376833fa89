import BuildGraph.Descriptor.Declaration
import BuildGraph.FileTree.Walk
import BuildGraph.Text.Search
set_option autoImplicit false

/-!
# Collecting sources

The sources of a module are found among the files below its directory: by the usual extensions when
the module is compiled, by the declared extensions otherwise, and descriptors beside them. Files
that stand in the folder of another platform are left out. Precompiled headers are found by the ends
of their names. What is listed already is not listed again.
-/

namespace BuildGraph

namespace Module

/-- The extensions of the sources of compiled modules. -/
def usualExtensions : List String := ["cpp", "h", "inl", "ixx", "cppm"]

/-- The end of the names of precompiled headers that dependents use too. -/
def exposedHeaderSuffix : String := ".PublicPch.h"

/-- The end of the names of precompiled headers of the module alone. -/
def internalHeaderSuffix : String := ".Pch.h"

/-- An extension without the dots in front of it. -/
def bareExtension (extension : String) : List Char :=
  extension.toList.dropWhile (· == '.')

/-- Whether what follows the last dot of a path is one of the extensions. -/
def hasExtension (extensions : List String) (path : String) : Bool :=
  match Text.afterLast? '.' path.toList with
  | some found => extensions.any fun e => bareExtension e == found
  | none => false

/-- How the folder of a platform looks inside a path. -/
def platformFolder (p : Platform) : String :=
  "/_" ++ p.folder ++ "/"

/-- Whether a path leads through the folder of another platform. -/
def isForeign (p : Platform) (path : String) : Bool :=
  Platform.all.any fun q => q != p && Text.occursIn (platformFolder q).toList path.toList

/-- The extensions by which the sources of a module are found. -/
def wantedExtensions (m : Module) : List String :=
  if m.scansSources then usualExtensions else m.sourceExtensions

/-- Whether a file is a source of a module. Nothing is when there are no extensions to look for. -/
def wantsSource (m : Module) (path : String) : Bool :=
  m.wantedExtensions != [] &&
    (Text.endsWith path Descriptor.fileSuffix || hasExtension m.wantedExtensions path) &&
    !isForeign m.platform path

/-- Whether a file is a precompiled header that dependents use too. -/
def isExposedHeader (path : String) : Bool :=
  Text.endsWith path exposedHeaderSuffix

/-- Whether a file is a precompiled header of the module alone. -/
def isInternalHeader (path : String) : Bool :=
  !isExposedHeader path && Text.endsWith path internalHeaderSuffix

/-- A list with the values behind it that it does not have yet. -/
def addNew (values : List String) : List String → List String
  | [] => values
  | v :: vs => addNew (if values.contains v then values else values ++ [v]) vs

/-- The files below a directory, with slashes only, in ascending order. -/
def filesIn (t : FileTree) (directory : String) : List String :=
  ((t.walkFiles directory).map Path.forward).mergeSort fun a b => decide (a ≤ b)

/-- The module with the sources and precompiled headers that are found among some files. -/
def addFiles (m : Module) (files : List String) : Module :=
  { m with
    sources := addNew m.sources (files.filter m.wantsSource)
    precompiledHeaders :=
      ⟨addNew m.precompiledHeaders.exposed (files.filter isExposedHeader),
        addNew m.precompiledHeaders.internal (files.filter isInternalHeader)⟩ }

/-- The module with the sources and precompiled headers that are found below its directory. -/
def collectSources (t : FileTree) (m : Module) : Module :=
  m.addFiles (filesIn t m.directory)

/-! ## Small laws -/

theorem mem_addNew {values new : List String} {v : String} :
    v ∈ addNew values new ↔ v ∈ values ∨ v ∈ new := by
  induction new generalizing values with
  | nil => simp [addNew]
  | cons w new ih =>
    unfold addNew
    rw [ih]
    split
    · rename_i h
      have hw : w ∈ values := by simpa using h
      constructor
      · rintro (h | h)
        · exact .inl h
        · exact .inr (List.mem_cons_of_mem w h)
      · rintro (h | h)
        · exact .inl h
        · rcases List.mem_cons.1 h with rfl | h
          · exact .inl hw
          · exact .inr h
    · simp [or_assoc]

end Module

end BuildGraph
