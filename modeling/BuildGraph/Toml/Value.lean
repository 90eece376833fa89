import BuildGraph.Decimal.Shortest
import BuildGraph.Toml.Moment
set_option autoImplicit false

/-!
# Values of a document

A document is a table of named values. Tables keep the order in which their keys were written,
since the first key that does not fit is the one that a message names.
-/

namespace BuildGraph.Toml

open BuildGraph.Decimal (Binary)

/-- A value of a document. -/
inductive Value
  | text (s : String)
  | integer (n : Int)
  | float (x : Binary)
  | boolean (b : Bool)
  | moment (m : Moment)
  | array (items : List Value)
  | table (entries : List (String × Value))
  deriving Repr, Inhabited

/-- Named values in the order of their keys. -/
abbrev Table := List (String × Value)

namespace Value

/-- The name of the kind of value. -/
def kindName : Value → String
  | .text _ => "string"
  | .integer _ => "integer"
  | .float _ => "float"
  | .boolean _ => "boolean"
  | .moment _ => "datetime"
  | .array _ => "array"
  | .table _ => "table"

end Value

/-! ## Equality -/

mutual

/-- Whether two values are the same. -/
def Value.beq : Value → Value → Bool
  | .text s, .text s' => s == s'
  | .integer n, .integer n' => n == n'
  | .float x, .float x' => decide (x = x')
  | .boolean b, .boolean b' => b == b'
  | .moment m, .moment m' => decide (m = m')
  | .array vs, .array ws => beqItems vs ws
  | .table t, .table u => beqEntries t u
  | _, _ => false

/-- Whether two lists of values are the same. -/
def beqItems : List Value → List Value → Bool
  | [], [] => true
  | v :: vs, w :: ws => v.beq w && beqItems vs ws
  | _, _ => false

/-- Whether two lists of named values are the same. -/
def beqEntries : List (String × Value) → List (String × Value) → Bool
  | [], [] => true
  | (k, v) :: t, (l, w) :: u => k == l && v.beq w && beqEntries t u
  | _, _ => false

end

mutual

theorem Value.beq_iff : ∀ {v w : Value}, v.beq w = true ↔ v = w
  | .text s, w => by cases w <;> simp [Value.beq]
  | .integer n, w => by cases w <;> simp [Value.beq]
  | .float x, w => by cases w <;> simp [Value.beq]
  | .boolean b, w => by cases w <;> simp [Value.beq]
  | .moment m, w => by cases w <;> simp [Value.beq]
  | .array vs, w => by cases w <;> simp [Value.beq, beqItems_iff]
  | .table t, w => by cases w <;> simp [Value.beq, beqEntries_iff]

theorem beqItems_iff : ∀ {vs ws : List Value}, beqItems vs ws = true ↔ vs = ws
  | [], ws => by cases ws <;> simp [beqItems]
  | v :: vs, ws => by cases ws <;> simp [beqItems, Value.beq_iff, beqItems_iff]

theorem beqEntries_iff : ∀ {t u : List (String × Value)}, beqEntries t u = true ↔ t = u
  | [], u => by cases u <;> simp [beqEntries]
  | (k, v) :: t, u => by
    cases u <;> simp [beqEntries, Prod.ext_iff, Value.beq_iff, beqEntries_iff, and_assoc]

end

instance : DecidableEq Value := fun v w => decidable_of_iff (v.beq w = true) Value.beq_iff

/-- Why a text is no document. -/
inductive Fault
  | unexpectedEnd
  | unexpected (found : Char)
  | invalidEscape
  | invalidScalar (written : String)
  | integerOutOfRange (written : String)
  | floatOutOfRange (written : String)
  | notMoment
  | tooDeep
  | duplicateKey (key : String)
  | notExtensible (key : String)
  deriving DecidableEq, Repr, Inhabited

/-- The fault in words. -/
def Fault.message : Fault → String
  | .unexpectedEnd => "the text ends too early"
  | .unexpected c => "unexpected character " ++ String.singleton c
  | .invalidEscape => "invalid escape sequence"
  | .invalidScalar s => "invalid value " ++ s
  | .integerOutOfRange s => "integer " ++ s ++ " is out of range"
  | .floatOutOfRange s => "number " ++ s ++ " is too large"
  | .notMoment => "expected a date or a time"
  | .tooDeep => "values are nested too deeply"
  | .duplicateKey k => "key " ++ k ++ " is given twice"
  | .notExtensible k => "key " ++ k ++ " cannot be extended"

end BuildGraph.Toml
