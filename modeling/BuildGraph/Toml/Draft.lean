import BuildGraph.Toml.Value
set_option autoImplicit false

/-!
# Tables under construction

A table is written piece by piece: by its header, by dotted keys, or only implied by the header of
a table inside it. How it came about decides who may still add to it, so a table that is not yet
finished remembers its origin. Main definitions: `descend`, which walks a path of keys and makes the
missing tables on its way, and `Draft.toValue`, which forgets the origins.
-/

namespace BuildGraph.Toml

/-- How a table came about: implied by the path of a header, by a dotted key, or declared by a
header of its own. -/
inductive Origin
  | implied
  | dotted
  | declared
  deriving DecidableEq, Repr, Inhabited

/-- A value under construction. Of an array of tables only the last one is still open. -/
inductive Draft
  | value (v : Value)
  | table (origin : Origin) (entries : List (String × Draft))
  | tables (earlier : List Value) (last : List (String × Draft))
  deriving Repr, Inhabited

/-- The entries of a table under construction. -/
abbrev DraftTable := List (String × Draft)

mutual

/-- The finished value of a draft. -/
def Draft.toValue : Draft → Value
  | .value v => v
  | .table _ entries => .table (finish entries)
  | .tables earlier last => .array (earlier ++ [.table (finish last)])

/-- The finished table of its drafts, in the same order. -/
def finish : DraftTable → Table
  | [] => []
  | (k, d) :: entries => (k, d.toValue) :: finish entries

end

/-- A finished table has the keys of its draft. -/
theorem map_fst_finish (t : DraftTable) : (finish t).map (·.1) = t.map (·.1) := by
  induction t with
  | nil => simp [finish]
  | cons p t ih => obtain ⟨k, d⟩ := p; simp [finish, ih]

namespace DraftTable

/-- The draft under a key. -/
def find? (t : DraftTable) (key : String) : Option Draft :=
  List.lookup key t

/-- The table with another draft under a key that it has. -/
def replace (t : DraftTable) (key : String) (d : Draft) : DraftTable :=
  t.map fun p => if p.1 == key then (key, d) else p

/-- The table without a key. -/
def erase (t : DraftTable) (key : String) : DraftTable :=
  t.filter fun p => p.1 != key

end DraftTable

open DraftTable in
/-- Walks a path of keys from a table, makes the tables that are missing, and changes the table at
its end. A path goes through the last table of an array of tables, and never into a finished value;
a dotted key does not reach into a table that has a header of its own. -/
def descend {α : Type} (dotted : Bool)
    (change : Origin → DraftTable → Except Fault (DraftTable × α)) :
    List String → Origin → DraftTable → Except Fault (DraftTable × α)
  | [], origin, t => change origin t
  | key :: path, _, t =>
    match find? t key with
    | none => do
      let origin := if dotted then .dotted else .implied
      let (sub, a) ← descend dotted change path origin []
      .ok (t ++ [(key, .table origin sub)], a)
    | some (.value _) => .error (.notExtensible key)
    | some (.tables earlier last) => do
      let (sub, a) ← descend dotted change path .declared last
      .ok (replace t key (.tables earlier sub), a)
    | some (.table origin entries) =>
      if dotted ∧ origin = .declared then .error (.duplicateKey key)
      else do
        let (sub, a) ← descend dotted change path origin entries
        .ok (replace t key (.table origin sub), a)

/-- A key with the tables it is written under: `a.b.c` has the path `a`, `b` and the name `c`. -/
structure DottedKey where
  path : List String
  name : String
  deriving DecidableEq, Repr, Inhabited

open DraftTable in
/-- Adds a value under a dotted key. The last table on the way must have come about by dotted keys
too, unless the key is plain, and must not have the key yet. -/
def DraftTable.assign (t : DraftTable) (key : DottedKey) (v : Value) : Except Fault DraftTable := do
  let add (origin : Origin) (entries : DraftTable) : Except Fault (DraftTable × Unit) :=
    if (origin == .dotted) == key.path.isEmpty then .error (.duplicateKey key.name)
    else if (find? entries key.name).isSome then .error (.duplicateKey key.name)
    else .ok (entries ++ [(key.name, .value v)], ())
  let (t, _) ← descend (!key.path.isEmpty) add key.path .declared t
  return t

open DraftTable in
/-- Takes out the entries that a header opens: those of a table that was so far only implied, or
none. A header cannot open anything else a second time. -/
def DraftTable.opened (t : DraftTable) (key : DottedKey) :
    Except Fault (DraftTable × DraftTable) :=
  let take (_ : Origin) (entries : DraftTable) : Except Fault (DraftTable × DraftTable) :=
    match find? entries key.name with
    | none => .ok (entries, [])
    | some (.table .implied inner) => .ok (erase entries key.name, inner)
    | some _ => .error (.duplicateKey key.name)
  descend false take key.path .declared t

open DraftTable in
/-- Puts a table that its header and the lines below have completed in its place, at the end of
the table around it. -/
def DraftTable.close (t : DraftTable) (key : DottedKey) (body : DraftTable) :
    Except Fault DraftTable := do
  let put (_ : Origin) (entries : DraftTable) : Except Fault (DraftTable × Unit) :=
    .ok (entries ++ [(key.name, .table .declared body)], ())
  let (t, _) ← descend false put key.path .declared t
  return t

open DraftTable in
/-- Adds a completed table to an array of tables, which it starts if there is none. -/
def DraftTable.push (t : DraftTable) (key : DottedKey) (body : DraftTable) :
    Except Fault DraftTable := do
  let put (_ : Origin) (entries : DraftTable) : Except Fault (DraftTable × Unit) :=
    match find? entries key.name with
    | none => .ok (entries ++ [(key.name, .tables [] body)], ())
    | some (.tables earlier last) =>
      .ok (replace entries key.name (.tables (earlier ++ [.table (finish last)]) body), ())
    | some _ => .error (.duplicateKey key.name)
  let (t, _) ← descend false put key.path .declared t
  return t

end BuildGraph.Toml
