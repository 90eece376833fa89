import BuildGraph.FileTree.Basic
set_option autoImplicit false

/-!
# Where a path leads

A path is followed name by name from the root. One dot stays, two dots go back to the directory
above, and a link is replaced by its target; a link at the very end is replaced only on request. At
most forty links are followed on one way, so that links in a circle end in a fault. A slash at the
end of a path asks for a directory. A path that is too long, or that holds the character zero, leads
nowhere.
-/

namespace BuildGraph

/-- Why a path leads nowhere, or why what it leads to cannot be used as wanted. -/
inductive FileTree.Fault
  | notFound
  | alreadyExists
  | notDirectory
  | isDirectory
  | nameTooLong
  | zeroInName
  | tooManyLinks
  | notText
  deriving DecidableEq, Repr, Inhabited

/-- The fault in the words of the operating system. -/
def FileTree.Fault.message : FileTree.Fault → String
  | .notFound => "No such file or directory (os error 2)"
  | .alreadyExists => "File exists (os error 17)"
  | .notDirectory => "Not a directory (os error 20)"
  | .isDirectory => "Is a directory (os error 21)"
  | .nameTooLong => "File name too long (os error 36)"
  | .zeroInName => "file name contained an unexpected NUL byte"
  | .tooManyLinks => "Too many levels of symbolic links (os error 40)"
  | .notText => "stream did not contain valid UTF-8"

namespace FileTree

/-- Where a path leads: to something that exists, or to a free name in a directory. -/
inductive Place
  | existing (l : Location) (n : Node)
  | vacant (parent : Location) (name : String)
  deriving DecidableEq

/-- The names that a path goes through. A slash at the end counts as one more dot. -/
def steps (path : String) : List String :=
  let ps := Path.pieces '/' path.toList
  let names := (ps.filter fun p => !p.isEmpty).map String.ofList
  if names ≠ [] ∧ ps.getLast? = some [] then names ++ ["."] else names

/-- The greatest number of bytes in a name. -/
def nameLimit : Nat := 255

/-- The number of bytes from which on a path is too long. -/
def pathLimit : Nat := 4096

/-- The greatest number of links on one way. -/
def linkLimit : Nat := 40

/-- Follows names from a directory. Where a link is to be followed, the rest of the way is left to
another walk, which is told its start and its names. -/
def walkTo (t : FileTree) (followLast : Bool)
    (onLink : Location → List String → Except Fault Place) :
    Location → List String → Except Fault Place
  | l, [] => .ok (.existing l .directory)
  | l, name :: rest =>
    if name = "." then walkTo t followLast onLink l rest
    else if name = ".." then walkTo t followLast onLink l.dropLast rest
    else if nameLimit < name.utf8ByteSize then .error .nameTooLong
    else match t.get? (l ++ [name]) with
      | none => if rest = [] then .ok (.vacant l name) else .error .notFound
      | some .directory => walkTo t followLast onLink (l ++ [name]) rest
      | some (.file content) =>
        if rest = [] then .ok (.existing (l ++ [name]) (.file content)) else .error .notDirectory
      | some (.link target) =>
        if rest = [] ∧ !followLast then .ok (.existing (l ++ [name]) (.link target))
        else onLink (if Path.isAbsolute target then [] else l) (steps target ++ rest)

/-- Follows names from a directory, with a number of links still allowed. -/
def walk (t : FileTree) (followLast : Bool) :
    Nat → Location → List String → Except Fault Place
  | 0 => walkTo t followLast fun _ _ => .error .tooManyLinks
  | links + 1 => walkTo t followLast (walk t followLast links)

/-- Where an absolute path leads. The empty path leads nowhere. -/
def resolve (t : FileTree) (followLast : Bool) (path : String) : Except Fault Place :=
  if path = "" then .error .notFound
  else if path.toList.contains '\x00' then .error .zeroInName
  else if pathLimit ≤ path.utf8ByteSize then .error .nameTooLong
  else walk t followLast linkLimit [] (steps path)

/-- What an absolute path leads to, links followed to the end. -/
def locate (t : FileTree) (path : String) : Except Fault (Location × Node) :=
  match t.resolve true path with
  | .ok (.existing l n) => .ok (l, n)
  | .ok (.vacant _ _) => .error .notFound
  | .error e => .error e

/-- Whether there is something at the path, links followed. -/
def exists? (t : FileTree) (path : String) : Bool :=
  (t.locate path).toBool

/-- Whether the path leads to a directory. -/
def isDirectory (t : FileTree) (path : String) : Bool :=
  match t.locate path with
  | .ok (_, .directory) => true
  | _ => false

/-- Whether the path itself is taken, be it by a link that leads nowhere. -/
def isTaken (t : FileTree) (path : String) : Bool :=
  match t.resolve false path with
  | .ok (.existing _ _) => true
  | _ => false

/-- The bytes of the file at a path. -/
def readBytes (t : FileTree) (path : String) : Except Fault ByteArray :=
  match t.locate path with
  | .ok (_, .file content) => .ok content
  | .ok _ => .error .isDirectory
  | .error e => .error e

/-- The text of the file at a path. -/
def readText (t : FileTree) (path : String) : Except Fault String := do
  match String.fromUTF8? (← t.readBytes path) with
  | some s => .ok s
  | none => .error .notText

end FileTree

end BuildGraph
