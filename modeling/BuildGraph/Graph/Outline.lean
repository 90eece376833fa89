import BuildGraph.Graph.Basic
import BuildGraph.Text.Lines
set_option autoImplicit false

/-!
# Outlines

An outline shows a graph as an indented list. Modules that no module depends on stand at the
margin, and what a module depends on stands below it, the modules in the order in which they were
found and then the system libraries. A module is expanded where it is met first; later it is only
named and marked, unless there is nothing below it. A module met inside its own expansion is marked
as a cycle. Modules that can only be reached through a cycle get a place at the margin in the end.

The lines are data first, and `Outline.text` writes them.
-/

namespace BuildGraph

/-- How a module is shown on a line. -/
inductive Mark
  | plain
  /-- It has been expanded on another line. -/
  | repeated
  /-- It is being expanded around the line. -/
  | cyclic
  deriving DecidableEq, Repr, Inhabited

/-- What a line of an outline shows. -/
inductive OutlineItem
  | module (id : ModuleId) (mark : Mark)
  | system (name : String)
  deriving DecidableEq, Repr, Inhabited

/-- A line of an outline. -/
structure OutlineLine where
  /-- For each line around this one, except at the margin, whether it is the last of its list. -/
  around : List Bool
  /-- Whether the line is the last of its list; nothing at the margin. -/
  last? : Option Bool
  item : OutlineItem
  deriving DecidableEq, Repr, Inhabited

/-- An outline in the making: the modules that have been shown, and the lines so far. -/
structure Outline where
  shown : List ModuleId
  lines : List OutlineLine
  deriving DecidableEq, Repr, Inhabited

/-- What stands below a module, before it is known how it is shown. -/
inductive OutlineChild
  | module (id : ModuleId)
  | system (name : String)
  deriving DecidableEq, Repr, Inhabited

namespace Graph

/-- Whether a name is a system library of the graph. -/
def isSystem (g : Graph) (name : String) : Bool :=
  (g.entries.find? name).any Entry.isSystem

/-- The system libraries among the declared dependencies of a module, each once. -/
def systemNames (g : Graph) (id : ModuleId) : List String :=
  match g.modules[id]? with
  | some m => (m.dependencies.all.filter g.isSystem).eraseDups
  | none => []

/-- What stands below a module. A module that lost its name has nothing below it. -/
def children (g : Graph) (id : ModuleId) : List OutlineChild :=
  match entryOf? g.modules g.entries id with
  | some e => e.dependencies.map .module ++ (g.systemNames id).map .system
  | none => []

/-- Whether a module that is met again is marked instead of named alone: it has dependencies. -/
def hasChildren (g : Graph) (id : ModuleId) : Bool :=
  !(g.dependencies id).isEmpty || !(g.systemNames id).isEmpty

/-- The modules at the margin: those that own an entry, the ones that no entry depends on first. -/
def marginCandidates (g : Graph) : List ModuleId :=
  let nodes := owners g.modules g.entries
  let needed := g.entries.flatMap fun e => e.2.dependencies
  (nodes.filter fun id => !needed.contains id) ++ nodes

end Graph

namespace Outline

/-- An outline without lines. -/
def blank : Outline := ⟨[], []⟩

/-- The outline with one more line. -/
def add (o : Outline) (line : OutlineLine) : Outline :=
  { o with lines := o.lines ++ [line] }

/-- The outline in which one more module has been shown. -/
def see (o : Outline) (id : ModuleId) : Outline :=
  { o with shown := id :: o.shown }

/-- The outline with the lines below a module, no deeper than allowed. The way holds the modules
that are being expanded, the module itself first. -/
def expand (g : Graph) : Nat → List Bool → List ModuleId → Outline → ModuleId → Outline
  | 0, _, _, o, _ => o
  | depth + 1, around, way, o, id =>
    let cs := g.children id
    cs.zipIdx.foldl
      (fun o (c, i) =>
        let last := i + 1 == cs.length
        match c with
        | .system name => o.add ⟨around, some last, .system name⟩
        | .module k =>
          if k ∈ way then o.add ⟨around, some last, .module k .cyclic⟩
          else if k ∈ o.shown ∧ g.hasChildren k = true then
            o.add ⟨around, some last, .module k .repeated⟩
          else
            expand g depth (around ++ [last]) (k :: way)
              ((o.see k).add ⟨around, some last, .module k .plain⟩) k)
      o

/-- The outline with a module at the margin and all below it, unless it has been shown. -/
def addRoot (g : Graph) (o : Outline) (id : ModuleId) : Outline :=
  if id ∈ o.shown then o
  else
    expand g (g.modules.length + 1) [] [id] ((o.see id).add ⟨[], none, .module id .plain⟩) id

/-- The outline of a graph. -/
def ofGraph (g : Graph) : Outline :=
  g.marginCandidates.foldl (addRoot g) .blank

/-! ## Text -/

/-- The strokes in front of a line for the lists around it. -/
def strokes (around : List Bool) : String :=
  String.join (around.map fun last => if last then "    " else "│   ")

/-- The stroke that leads to a line. -/
def branch : Option Bool → String
  | none => ""
  | some true => "└── "
  | some false => "├── "

/-- A module by its name and kind. -/
def label (g : Graph) (id : ModuleId) : String :=
  match g.modules[id]? with
  | some m => m.targetName ++ " (" ++ m.kind.label ++ ")"
  | none => ""

/-- What a mark adds to a line. -/
def markText : Mark → String
  | .plain => ""
  | .repeated => " (*)"
  | .cyclic => " (cycle)"

/-- What a line shows. -/
def itemText (g : Graph) : OutlineItem → String
  | .module id mark => label g id ++ markText mark
  | .system name => name ++ " (system)"

/-- A line of an outline. -/
def lineText (g : Graph) (line : OutlineLine) : String :=
  strokes line.around ++ branch line.last? ++ itemText g line.item

/-- The text of an outline. -/
def text (g : Graph) (o : Outline) : String :=
  Text.ofLines (o.lines.map (lineText g))

end Outline

/-- The outline of a graph in words. -/
def Graph.outline (g : Graph) : String :=
  (Outline.ofGraph g).text g

end BuildGraph
