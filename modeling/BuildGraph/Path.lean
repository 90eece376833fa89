set_option autoImplicit false

/-!
# Paths

A path is text. Its components are what stands between slashes; an empty component and a component
that is a single dot count for nothing, except a dot at the very start of a relative path. The
text itself is never tidied up: the parent of a path is a piece of it.
-/

namespace BuildGraph.Path

/-- The pieces of a text between the occurrences of a character. -/
def pieces (mark : Char) : List Char → List (List Char)
  | [] => [[]]
  | c :: cs =>
    if c = mark then [] :: pieces mark cs
    else match pieces mark cs with
      | [] => [[c]]
      | p :: ps => (c :: p) :: ps

/-- Pieces joined by a character. -/
def joined (mark : Char) : List (List Char) → List Char
  | [] => []
  | [p] => p
  | p :: ps => p ++ mark :: joined mark ps

theorem pieces_ne_nil (mark : Char) (cs : List Char) : pieces mark cs ≠ [] := by
  cases cs with
  | nil => simp [pieces]
  | cons c cs =>
    unfold pieces
    split
    · simp
    · split <;> simp

theorem joined_cons {mark : Char} {p : List Char} {ps : List (List Char)} (h : ps ≠ []) :
    joined mark (p :: ps) = p ++ mark :: joined mark ps := by
  cases ps with
  | nil => exact absurd rfl h
  | cons q qs => rfl

/-- Cutting a text at a character loses nothing else. -/
theorem joined_pieces (mark : Char) (cs : List Char) : joined mark (pieces mark cs) = cs := by
  induction cs with
  | nil => rfl
  | cons c cs ih =>
    unfold pieces
    split
    · rename_i h
      subst h
      rw [joined_cons (pieces_ne_nil c cs), ih]
      rfl
    · cases hp : pieces mark cs with
      | nil => exact absurd hp (pieces_ne_nil mark cs)
      | cons p ps =>
        rw [hp] at ih
        cases ps with
        | nil => simp_all [joined]
        | cons q qs => simp_all [joined]

/-! ## Slashes -/

/-- Whether the path starts at the root. -/
def isAbsolute (path : String) : Bool :=
  path.toList.head? == some '/'

/-- A character with the backslash turned into a slash. -/
def forwardChar (c : Char) : Char :=
  if c = '\\' then '/' else c

/-- A path with slashes for its backslashes. -/
def forward (path : String) : String :=
  String.ofList (path.toList.map forwardChar)

theorem forwardChar_ne (c : Char) : forwardChar c ≠ '\\' := by
  unfold forwardChar
  split
  · decide
  · assumption

/-- A path without backslashes is left as it is. -/
theorem forward_eq_self {path : String} (h : '\\' ∉ path.toList) : forward path = path := by
  have : path.toList.map forwardChar = path.toList := by
    rw [List.map_congr_left (g := id), List.map_id]
    intro c hc
    have : c ≠ '\\' := fun e => h (e ▸ hc)
    simp [forwardChar, this]
  rw [forward, this, String.ofList_toList]

/-- Turning the slashes a second time changes nothing. -/
theorem forward_forward (path : String) : forward (forward path) = forward path := by
  apply forward_eq_self
  simp only [forward, String.toList_ofList, List.mem_map, not_exists, not_and]
  exact fun c _ => forwardChar_ne c

/-! ## Components -/

/-- Whether a piece of a path is no component. -/
def isVoid (piece : List Char) : Bool :=
  piece == [] || piece == ['.']

/-- The components of a path, in order; a dot at the start of a relative path is one of them. -/
def components (path : String) : List String :=
  let ps := pieces '/' path.toList
  let named := ps.filter fun p => !isVoid p
  let named := if ps.head? = some ['.'] then ['.'] :: named else named
  named.map String.ofList

/-- Pieces without those at the end that are no components. The first of a relative path stays when
it is a dot. -/
def dropVoidEnd (absolute : Bool) (ps : List (List Char)) : List (List Char) :=
  let rest := (ps.reverse.dropWhile isVoid).reverse
  if rest = [] ∧ !absolute ∧ ps.head? = some ['.'] then [['.']] else rest

/-- The pieces of a path below its root, if it has one. -/
def body (path : String) : List (List Char) :=
  match path.toList with
  | '/' :: cs => pieces '/' cs
  | cs => pieces '/' cs

/-- A path from its pieces. -/
def assembled (absolute : Bool) (ps : List (List Char)) : String :=
  String.ofList (if absolute then '/' :: joined '/' ps else joined '/' ps)

/-- The path without its last component; `none` when it has none, as the root and the empty path.
The parent of a single name is the empty path. -/
def parent? (path : String) : Option String :=
  let absolute := isAbsolute path
  match dropVoidEnd absolute (body path) with
  | [] => none
  | ps => some (assembled absolute (dropVoidEnd absolute ps.dropLast))

/-- The last component, if it is a name and not one or two dots. -/
def fileName? (path : String) : Option String :=
  match (dropVoidEnd (isAbsolute path) (body path)).getLast? with
  | none => none
  | some p => if p = ['.'] ∨ p = ['.', '.'] then none else some (String.ofList p)

/-- A path seen from a directory: an absolute one stands alone. -/
def join (dir path : String) : String :=
  if isAbsolute path then path
  else if dir.toList.getLast? = none ∨ dir.toList.getLast? = some '/' then dir ++ path
  else dir ++ "/" ++ path

end BuildGraph.Path
