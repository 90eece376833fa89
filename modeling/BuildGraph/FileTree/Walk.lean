import BuildGraph.FileTree.Resolve
set_option autoImplicit false

/-!
# Walks through a file tree

A walk visits everything below a directory without following links, in the order of the names. The
start of a walk may be a link itself; only then it is followed.
-/

namespace BuildGraph.FileTree

/-- The way from a directory to a location below it. -/
def below? (dir l : Location) : Option Location :=
  if dir.isPrefixOf l ∧ dir ≠ l then some (l.drop dir.length) else none

theorem below?_eq_some_iff {dir l rest : Location} :
    below? dir l = some rest ↔ l = dir ++ rest ∧ rest ≠ [] := by
  unfold below?
  constructor
  · intro h
    split at h
    · rename_i hp
      simp only [Option.some.injEq] at h
      obtain ⟨s, rfl⟩ := List.isPrefixOf_iff_prefix.1 hp.1
      rw [List.drop_left] at h
      subst h
      refine ⟨rfl, fun e => hp.2 ?_⟩
      simp [e]
    · simp at h
  · rintro ⟨rfl, hne⟩
    have h1 : dir.isPrefixOf (dir ++ rest) = true := by
      simp
    have h2 : dir ≠ dir ++ rest := by
      intro e
      apply hne
      have := congrArg List.length e
      simp at this
      exact this
    rw [if_pos ⟨h1, h2⟩, List.drop_left]

/-- Everything below a directory: the way to it, and what it is. -/
def descendants (t : FileTree) (dir : Location) : List (Location × Node) :=
  t.nodes.filterMap fun (l, n) => (below? dir l).map fun rest => (rest, n)

/-- The ways to the regular files below a directory. -/
def filesBelow (t : FileTree) (dir : Location) : List Location :=
  (t.descendants dir).filterMap fun (l, n) =>
    match n with
    | .file _ => some l
    | _ => none

/-- What a walk starts from: a directory, or a single file. -/
inductive Start
  | directory (l : Location)
  | file (l : Location)
  | nothing
  deriving DecidableEq, Repr

/-- The start of a walk from a path. -/
def start (t : FileTree) (path : String) : Start :=
  match t.resolve false path with
  | .ok (.existing l .directory) => .directory l
  | .ok (.existing l (.file _)) => .file l
  | .ok (.existing _ (.link _)) =>
    match t.locate path with
    | .ok (l, .directory) => .directory l
    | _ => .nothing
  | _ => .nothing

/-- The path of something below a directory that was reached by a path. -/
def pathBelow (path : String) (rest : Location) : String :=
  Path.join path ("/".intercalate rest)

/-- The paths of the regular files that a walk from a path visits, in the order of their names. -/
def walkFiles (t : FileTree) (path : String) : List String :=
  match t.start path with
  | .directory l => (t.filesBelow l).map (pathBelow path)
  | .file _ => [path]
  | .nothing => []

/-- Everything below a path, one line each: a directory with a slash behind it, a link with its
target, a file as it is. -/
def listing (t : FileTree) (path : String) : List String :=
  match t.start path with
  | .directory l => (t.descendants l).map fun (rest, n) =>
    let name := "/".intercalate rest
    match n with
    | .directory => name ++ "/"
    | .file _ => name
    | .link target => name ++ " -> " ++ target
  | _ => []

end BuildGraph.FileTree
