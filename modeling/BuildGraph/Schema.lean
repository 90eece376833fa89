import BuildGraph.Text.Quoted
import BuildGraph.Toml.Plain
set_option autoImplicit false

/-!
# Fitting a document to a schema

A schema says which fields a record has and what each of them holds. A document that does not fit is
refused at the first place, in the order in which it is written, that is not as the schema says.
Reading a record therefore takes two steps: `Schema.record` walks over the entries in their order
and stops at the first one that does not fit, and then `Schema.field` picks the fields by name.

Three rules widen what fits. A list of values stands for the record that has them in the order of
its fields. A moment stands for a table with one text under a name of its own. A choice may be
written as its name or as a table with the name as its only key and nothing inside. Where any value
fits, it is read as a plain one.
-/

namespace BuildGraph

open BuildGraph.Toml (Value)

/-- Why a value does not fit a schema. -/
inductive Misfit
  | wrongType (found : Value) (wanted : String)
  | unknownField (name : String) (fields : List String)
  | unknownVariant (name : String) (variants : List String)
  | noChoice
  | choiceCount (many : Bool)
  | choiceContent (wanted : String)
  | notPlain (fault : Toml.Fault)
  deriving Repr, Inhabited

namespace Misfit

/-- A name as messages quote it. -/
def ticked (name : String) : String :=
  "`" ++ name ++ "`"

/-- The value that was found where another was wanted. -/
def describe : Value → String
  | .text s => "string " ++ Text.quoted s
  | .integer n => "integer " ++ ticked (toString n)
  | .float x => "floating point " ++ ticked x.text
  | .boolean b => "boolean " ++ ticked (if b then "true" else "false")
  | .array _ => "sequence"
  | .moment _ => "map"
  | .table _ => "map"

/-- The alternatives that would have been accepted. -/
def alternatives : List String → String
  | [] => "there are no fields"
  | [a] => "expected " ++ ticked a
  | [a, b] => "expected " ++ ticked a ++ " or " ++ ticked b
  | names => "expected one of " ++ ", ".intercalate (names.map ticked)

/-- The misfit in words. -/
def message : Misfit → String
  | .wrongType found wanted => "invalid type: " ++ describe found ++ ", expected " ++ wanted
  | .unknownField name fields => "unknown field " ++ ticked name ++ ", " ++ alternatives fields
  | .unknownVariant name variants =>
    "unknown variant " ++ ticked name ++ ", " ++ alternatives variants
  | .noChoice => "wanted string or table"
  | .choiceCount false => "wanted exactly 1 element, found 0 elements"
  | .choiceCount true => "wanted exactly 1 element, more than 1 element"
  | .choiceContent wanted => wanted
  | .notPlain fault => fault.message

end Misfit

namespace Schema

/-- Reads a value as something of type `α`, or tells why it does not fit. -/
abbrev Reader (α : Type) := Value → Except Misfit α

/-! ## Plain values -/

/-- A text. -/
def text : Reader String
  | .text s => .ok s
  | v => .error (.wrongType v "a string")

/-- A truth value. -/
def flag : Reader Bool
  | .boolean b => .ok b
  | v => .error (.wrongType v "a boolean")

/-- A list of values that all fit the same schema. -/
def list {α : Type} (item : Reader α) : Reader (List α)
  | .array vs => vs.mapM item
  | v => .error (.wrongType v "a sequence")

/-- Any table. -/
def table : Reader Toml.Table
  | .table t => .ok t
  | .moment m => .ok m.toTable
  | v => .error (.wrongType v "a map")

/-- A table of plain values. -/
def plainTable : Reader Toml.Table := fun v => do
  (Toml.plainEntries (← table v)).mapError .notPlain

/-- A table whose values all fit the same schema. -/
def mapping {α : Type} (item : Reader α) : Reader (List (String × α)) := fun v => do
  (← table v).mapM fun (k, v) => do return (k, ← item v)

/-- One of some named choices. -/
def choice {α : Type} (choices : List (String × α)) : Reader α
  | .text s => pick s
  | .table [(name, content)] => do
    let a ← pick name
    match content with
    | .array [] => return a
    | .table [] => return a
    | .array _ => .error (.choiceContent "expected empty array")
    | .table _ => .error (.choiceContent "expected empty table")
    | v => .error (.choiceContent ("expected table, found " ++ v.kindName))
  | .table t => .error (.choiceCount (!t.isEmpty))
  | _ => .error .noChoice
where
  /-- The choice of a name. -/
  pick (name : String) : Except Misfit α :=
    match choices.lookup name with
    | some a => .ok a
    | none => .error (.unknownVariant name (choices.map (·.1)))

/-! ## Records -/

/-- A field of a record: its name and what its value must fit. -/
structure Field where
  name : String
  check : Value → Except Misfit Unit

/-- The field of the name, whose values a reader accepts. -/
def Field.of {α : Type} (name : String) (reader : Reader α) : Field where
  name := name
  check v := (reader v).map fun _ => ()

/-- Checks one entry: its name must be a field, and its value must fit the field. -/
def checkEntry (fields : List Field) (entry : String × Value) : Except Misfit Unit :=
  match fields.find? fun f => f.name == entry.1 with
  | some f => f.check entry.2
  | none => .error (.unknownField entry.1 (fields.map (·.name)))

/-- Checks all entries in their order. -/
def checkEntries (fields : List Field) (t : Toml.Table) : Except Misfit Unit :=
  t.forM (checkEntry fields)

/-- The entries that a value gives to a record, if it has the form of one. -/
def entriesOf? (fields : List Field) : Value → Option Toml.Table
  | .table t => some t
  | .array vs => some ((fields.map (·.name)).zip vs)
  | .moment m => some m.toTable
  | _ => none

/-- The entries of a record, all of which fit its fields. -/
def record (name : String) (fields : List Field) : Reader Toml.Table := fun v =>
  match entriesOf? fields v with
  | some t => do
    checkEntries fields t
    return t
  | none => .error (.wrongType v ("struct " ++ name))

/-- The value of a field that may be missing. -/
def field? {α : Type} (t : Toml.Table) (name : String) (reader : Reader α) :
    Except Misfit (Option α) :=
  match t.lookup name with
  | some v => (reader v).map some
  | none => .ok none

/-- The value of a field, or what stands for it when it is missing. -/
def field {α : Type} (t : Toml.Table) (name : String) (reader : Reader α) (absent : α) :
    Except Misfit α := do
  return (← field? t name reader).getD absent

/-! ## Small laws -/

theorem checkEntries_nil (fields : List Field) : checkEntries fields [] = .ok () := rfl

theorem checkEntries_cons (fields : List Field) (e : String × Value) (t : Toml.Table) :
    checkEntries fields (e :: t) = (checkEntry fields e >>= fun _ => checkEntries fields t) := rfl

/-- A table fits exactly when each of its entries does. -/
theorem checkEntries_eq_ok_iff (fields : List Field) (t : Toml.Table) :
    checkEntries fields t = .ok () ↔ ∀ e ∈ t, checkEntry fields e = .ok () := by
  induction t with
  | nil => simp [checkEntries_nil]
  | cons e t ih =>
    rw [checkEntries_cons]
    cases h : checkEntry fields e with
    | error m => simp [bind, Except.bind, h]
    | ok u => simp [bind, Except.bind, h, ih]

/-- The name of an entry that fits is the name of a field. -/
theorem mem_fields_of_checkEntry {fields : List Field} {e : String × Value}
    (h : checkEntry fields e = .ok ()) : e.1 ∈ fields.map (·.name) := by
  unfold checkEntry at h
  split at h
  · rename_i f hf
    have hmem := List.mem_of_find?_eq_some hf
    have hname := List.find?_some hf
    simp only [beq_iff_eq] at hname
    exact List.mem_map.2 ⟨f, hmem, hname⟩
  · simp at h

end Schema

end BuildGraph
