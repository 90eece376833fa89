import BuildGraph.Lookup
import BuildGraph.Path
set_option autoImplicit false

/-!
# File trees

A file tree is a value: a finite map from locations to what stands there, kept in the order of the
locations. A location is the list of names that leads to it from the root, and locations are
compared name by name, so that everything below a directory follows it at once and the tree read
from front to back is a walk in depth, sorted by name.

Nothing is kept of permissions and owners, and there is always room: whatever stands in a tree can
be read, and whatever is wanted can be written, as far as names and what stands there allow it.

Main statements: `get?_put` and `get?_remove` say what the two basic changes do to each location.
-/

namespace BuildGraph

/-- The names that lead from the root to a place in a file tree. -/
abbrev Location := List String

/-- The absolute path of a location. -/
def Location.path (l : Location) : String :=
  "/" ++ "/".intercalate l

/-- What stands at a location. -/
inductive Node
  | directory
  | file (content : ByteArray)
  | link (target : String)

/-- Nodes are compared by their content. -/
instance : DecidableEq Node
  | .directory, .directory => isTrue rfl
  | .file a, .file b =>
    if h : a.data = b.data then isTrue (by cases a; cases b; simp_all)
    else isFalse (by
      intro e
      injection e with e
      exact h (congrArg ByteArray.data e))
  | .link a, .link b =>
    if h : a = b then isTrue (congrArg Node.link h)
    else isFalse (by
      intro e
      injection e with e
      exact h e)
  | .directory, .file _ => isFalse nofun
  | .directory, .link _ => isFalse nofun
  | .file _, .directory => isFalse nofun
  | .file _, .link _ => isFalse nofun
  | .link _, .directory => isFalse nofun
  | .link _, .file _ => isFalse nofun

instance : Inhabited Node := ⟨.directory⟩

/-- A location stands before another when it is met first in a walk in depth, sorted by name. -/
def Precedes (a b : Location × Node) : Prop := a.1 < b.1

theorem Precedes.trans {a b c : Location × Node} (h : Precedes a b) (k : Precedes b c) :
    Precedes a c :=
  List.lt_trans h k

theorem Precedes.ne {a b : Location × Node} (h : Precedes a b) : a.1 ≠ b.1 := by
  intro e
  unfold Precedes at h
  rw [e] at h
  exact List.lt_irrefl b.1 h

/-- Of two locations one stands before the other. -/
theorem lt_of_not_lt {l k : Location} (h : ¬ l < k) (hne : l ≠ k) : k < l :=
  Classical.byContradiction fun hk => hne (List.le_antisymm hk h)

/-- A file tree. The root is a directory and is not listed. -/
structure FileTree where
  nodes : List (Location × Node)
  /-- The locations ascend, and so each of them occurs once. -/
  ordered : nodes.Pairwise Precedes
  deriving DecidableEq

namespace FileTree

/-- The tree that has nothing below its root. -/
def empty : FileTree := ⟨[], .nil⟩

instance : Inhabited FileTree := ⟨empty⟩

/-- What stands at a location, if anything. -/
def get? (t : FileTree) (l : Location) : Option Node :=
  if l = [] then some .directory else t.nodes.lookup l

/-! ## Changes -/

/-- A list of nodes with one more, which takes the place of any other at its location. -/
def insertNode (l : Location) (n : Node) : List (Location × Node) → List (Location × Node)
  | [] => [(l, n)]
  | (k, m) :: rest =>
    if l = k then (l, n) :: rest
    else if l < k then (l, n) :: (k, m) :: rest
    else (k, m) :: insertNode l n rest

theorem mem_insertNode {l : Location} {n : Node} {nodes : List (Location × Node)}
    {p : Location × Node} (h : p ∈ insertNode l n nodes) : p = (l, n) ∨ p ∈ nodes := by
  induction nodes with
  | nil => exact .inl (by simpa [insertNode] using h)
  | cons q rest ih =>
    obtain ⟨k, m⟩ := q
    unfold insertNode at h
    split at h
    · rcases List.mem_cons.1 h with h | h
      · exact .inl h
      · exact .inr (List.mem_cons_of_mem _ h)
    · split at h
      · rcases List.mem_cons.1 h with h | h
        · exact .inl h
        · exact .inr h
      · rcases List.mem_cons.1 h with h | h
        · exact .inr (h ▸ List.mem_cons_self)
        · rcases ih h with h | h
          · exact .inl h
          · exact .inr (List.mem_cons_of_mem _ h)

theorem pairwise_insertNode (l : Location) (n : Node) {nodes : List (Location × Node)}
    (h : nodes.Pairwise Precedes) : (insertNode l n nodes).Pairwise Precedes := by
  induction nodes with
  | nil => exact List.pairwise_singleton _ _
  | cons q rest ih =>
    obtain ⟨k, m⟩ := q
    obtain ⟨hk, hrest⟩ := List.pairwise_cons.1 h
    unfold insertNode
    split
    · rename_i e
      subst e
      exact List.pairwise_cons.2 ⟨fun p hp => hk p hp, hrest⟩
    · rename_i hne
      split
      · rename_i hlt
        refine List.pairwise_cons.2 ⟨fun p hp => ?_, h⟩
        rcases List.mem_cons.1 hp with rfl | hp
        · exact hlt
        · exact List.lt_trans hlt (hk p hp)
      · rename_i hge
        refine List.pairwise_cons.2 ⟨fun p hp => ?_, ih hrest⟩
        rcases mem_insertNode hp with rfl | hp
        · exact lt_of_not_lt hge hne
        · exact hk p hp

/-- The tree with a node at a location below the root. -/
def put (t : FileTree) (l : Location) (n : Node) : FileTree :=
  ⟨insertNode l n t.nodes, pairwise_insertNode l n t.ordered⟩

/-- The tree of some nodes. They are put in place from the last to the first, so that each goes to
the front. -/
def ofNodes (nodes : List (Location × Node)) : FileTree :=
  (nodes.mergeSort fun a b => !decide (a.1 < b.1)).foldl (fun t p => t.put p.1 p.2) empty

/-- The tree without a location and everything below it. -/
def remove (t : FileTree) (l : Location) : FileTree :=
  ⟨t.nodes.filter fun p => !l.isPrefixOf p.1, t.ordered.filter _⟩

/-! ## What the changes do -/

theorem lookup_insertNode (l k : Location) (n : Node) (nodes : List (Location × Node)) :
    (insertNode l n nodes).lookup k = if k = l then some n else nodes.lookup k := by
  induction nodes with
  | nil => exact Lookup.lookup_cons_eq_ite k l n []
  | cons p rest ih =>
    obtain ⟨j, m⟩ := p
    unfold insertNode
    split
    · rename_i hj
      subst hj
      by_cases h : k = l <;> simp [Lookup.lookup_cons_eq_ite, h]
    · split
      · exact Lookup.lookup_cons_eq_ite k l n ((j, m) :: rest)
      · rename_i hne _
        simp only [Lookup.lookup_cons_eq_ite, ih]
        by_cases hk : k = j
        · subst hk
          have : ¬ k = l := fun e => hne e.symm
          simp [this]
        · simp [hk]

/-- After a change there is the new node at its location, and all else is as before. -/
theorem get?_put (t : FileTree) (l k : Location) (n : Node) (h : l ≠ []) :
    (t.put l n).get? k = if k = l then some n else t.get? k := by
  unfold get? put
  by_cases hk : k = []
  · subst hk
    have : ¬ ([] : Location) = l := fun e => h e.symm
    simp [this]
  · simp only [hk, if_false]
    exact lookup_insertNode l k n t.nodes

/-- After a removal nothing stands at the location or below it, and all else is as before. -/
theorem get?_remove (t : FileTree) (l k : Location) (hk : k ≠ []) :
    (t.remove l).get? k = if l.isPrefixOf k then none else t.get? k := by
  have h := Lookup.lookup_filter_key (fun j => !l.isPrefixOf j) k t.nodes
  unfold get? remove
  simp only [hk, if_false]
  rw [h]
  cases l.isPrefixOf k <;> simp

/-- What stands below the root is what the tree lists. -/
theorem get?_eq_some_iff (t : FileTree) {l : Location} (hl : l ≠ []) {n : Node} :
    t.get? l = some n ↔ (l, n) ∈ t.nodes := by
  unfold get?
  rw [if_neg hl]
  exact Lookup.lookup_eq_some_iff_mem (t.ordered.imp Precedes.ne)

end FileTree

end BuildGraph
