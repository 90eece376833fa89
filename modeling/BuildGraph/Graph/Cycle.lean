import BuildGraph.Graph.Basic
set_option autoImplicit false

/-!
# Cycles

Cycles are found by a search in depth from each module in turn. The search keeps the way on which
it stands; a module met again on that way closes a cycle, which is reported from that module on.
A module met before and not on the way is not entered again, so that each closing edge is reported
once. The way never holds a module twice, which bounds the depth of the search by the number of
modules.
-/

namespace BuildGraph

/-- What the search knows: the modules it has entered, and the cycles it has met, in order. -/
structure CycleSearch where
  entered : List ModuleId
  cycles : List (List ModuleId)
  deriving DecidableEq, Repr, Inhabited

namespace CycleSearch

/-- A search that has seen nothing. -/
def fresh : CycleSearch := ⟨[], []⟩

/-- The search after it has entered a module. -/
def enter (s : CycleSearch) (id : ModuleId) : CycleSearch :=
  { s with entered := id :: s.entered }

/-- The search after it has met a module on the way to which it leads back. The way is given from
its end. -/
def close (s : CycleSearch) (way : List ModuleId) (id : ModuleId) : CycleSearch :=
  { s with cycles := s.cycles ++ [id :: (way.takeWhile (· != id)).reverse] }

/-- The search after it has visited a module at the end of a way, no deeper than allowed. -/
def visit (next : ModuleId → List ModuleId) :
    Nat → List ModuleId → CycleSearch → ModuleId → CycleSearch
  | 0, _, s, _ => s
  | depth + 1, way, s, id =>
    if id ∈ way then s.close way id
    else if id ∈ s.entered then s
    else (next id).foldl (visit next depth (id :: way)) (s.enter id)

end CycleSearch

/-- The cycles of a relation on the modules below a bound, searched from some modules in turn. -/
def findCycles (next : ModuleId → List ModuleId) (bound : Nat) (starts : List ModuleId) :
    List (List ModuleId) :=
  (starts.foldl (CycleSearch.visit next (bound + 1) []) .fresh).cycles

end BuildGraph
