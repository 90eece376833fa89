import BuildGraph.Toml.Value
set_option autoImplicit false

/-!
# Plain values

Where a value of any kind may stand, it is read as a plain value. An integer must then fit into 64
bits with a sign, which is less than a document may hold. A table whose first key is the name that
moments go by is the moment that its text spells, and is refused when there is none. A document is
sound when all its values are plain. Main statement: a table that is sound keeps its keys
(`map_fst_of_plainEntries`).
-/

namespace BuildGraph.Toml

/-- The name that a moment goes by where a table is wanted. -/
def momentKey : String := "$__toml_private_datetime"

/-- The table that stands for a moment. -/
def Moment.toTable (m : Moment) : Table := [(momentKey, .text m.text)]

/-- Whether a whole number fits into 64 bits with a sign. -/
def fitsWord (n : Int) : Bool :=
  -0x8000000000000000 ≤ n && n < 0x8000000000000000

/-- The moment that a value spells. -/
def Value.spelledMoment : Value → Except Fault Moment
  | .text s =>
    match readMoment? s.toList with
    | some m => .ok m
    | none => .error .notMoment
  | _ => .error .notMoment

mutual

/-- A value as a plain one. -/
def Value.plain : Value → Except Fault Value
  | .integer n =>
    if fitsWord n then .ok (.integer n) else .error (.integerOutOfRange (toString n))
  | .array vs => do return .array (← plainItems vs)
  | .table [] => .ok (.table [])
  | .table ((k, v) :: t) =>
    if k = momentKey then do return .moment (← v.spelledMoment)
    else do
      let v ← v.plain
      let t ← plainEntries t
      return .table ((k, v) :: t)
  | .text s => .ok (.text s)
  | .float x => .ok (.float x)
  | .boolean b => .ok (.boolean b)
  | .moment m => .ok (.moment m)

/-- The plain values of a list. -/
def plainItems : List Value → Except Fault (List Value)
  | [] => .ok []
  | v :: vs => do
    let v ← v.plain
    let vs ← plainItems vs
    return v :: vs

/-- The plain values of a table, under the same keys. -/
def plainEntries : List (String × Value) → Except Fault (List (String × Value))
  | [] => .ok []
  | (k, v) :: t => do
    let v ← v.plain
    let t ← plainEntries t
    return (k, v) :: t

end

/-- What keeps the values of a document from being plain, if anything does. -/
def unsound? (t : Table) : Option Fault :=
  match plainEntries t with
  | .ok _ => none
  | .error f => some f

theorem map_fst_of_plainEntries {t u : Table} (h : plainEntries t = .ok u) :
    u.map (·.1) = t.map (·.1) := by
  induction t generalizing u with
  | nil =>
    simp only [plainEntries, Except.ok.injEq] at h
    simp [← h]
  | cons p t ih =>
    obtain ⟨k, v⟩ := p
    simp only [plainEntries, bind, Except.bind] at h
    split at h
    · simp at h
    · split at h
      · simp at h
      · rename_i w hw
        simp only [pure, Except.pure, Except.ok.injEq] at h
        simp [← h, ih hw]

end BuildGraph.Toml
