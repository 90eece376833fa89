set_option autoImplicit false

/-!
# Platforms

The operating systems that a project is generated for. A descriptor may spell each of them in
several ways and in any case; a source folder belongs to one of them when it carries its one folder
name behind an underscore.
-/

namespace BuildGraph

/-- The operating system that the project is generated for. -/
inductive Platform
  | windows
  | unix
  | mac
  | other
  deriving DecidableEq, Repr, Inhabited

namespace Platform

/-- Every platform once. -/
def all : List Platform := [windows, unix, mac, other]

theorem mem_all (p : Platform) : p ∈ all := by
  cases p <;> decide

/-- The spellings of the platforms, in lower case. -/
def spellings : List (String × Platform) :=
  [("windows", windows), ("win32", windows), ("win64", windows),
    ("unix", unix), ("linux", unix),
    ("mac", mac), ("macos", mac), ("osx", mac),
    ("other", other)]

/-- The platform of a spelling in any case. Only letters of the Latin alphabet have a lower case
that occurs in a spelling, so that no other letters need to be mapped. -/
def ofName? (name : String) : Option Platform :=
  spellings.lookup (String.ofList (name.toList.map Char.toLower))

/-- The name of the platform, as in the names of its source folders. -/
def folder : Platform → String
  | windows => "Windows"
  | unix => "Unix"
  | mac => "Mac"
  | other => "Other"

/-- A platform answers to its own folder name. -/
theorem ofName?_folder (p : Platform) : ofName? p.folder = some p := by
  cases p <;> decide

end Platform

end BuildGraph
