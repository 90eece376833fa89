import BuildGraph.Proofs.FileTree.Leads
set_option autoImplicit false

/-!
# Trees that grow

Almost all that a run does to a file tree is to add to it. `Grows` says that whatever stood still
stands, and `Adds` says in addition what came in and where. A tree in which only the content of
files has changed is kept in a weaker sense, `Keeps`. Paths lead in the later tree where they led
in the earlier one, and a free name leads to what has taken it.
-/

namespace BuildGraph.FileTree

variable {t t' t'' : FileTree} {followLast : Bool} {links : Nat} {l d parent : Location}
  {name path : String} {names : List String} {p : Place} {n : Node}
  {P Q : Location → Node → Prop}

/-! ## Relations between trees -/

/-- Directories and links stand as before, and files are still files. -/
def Keeps (t t' : FileTree) : Prop :=
  ∀ l n, t.get? l = some n →
    t'.get? l = some n ∨ ∃ content content', n = .file content ∧ t'.get? l = some (.file content')

/-- Whatever stood still stands. -/
def Grows (t t' : FileTree) : Prop :=
  ∀ l n, t.get? l = some n → t'.get? l = some n

/-- The trees differ in nothing but what has come in at free places, of which `P` holds. -/
def Adds (P : Location → Node → Prop) (t t' : FileTree) : Prop :=
  ∀ l, t'.get? l = t.get? l ∨ t.get? l = none ∧ ∃ n, t'.get? l = some n ∧ P l n

theorem Keeps.directory (h : Keeps t t') (hget : t.get? l = some .directory) :
    t'.get? l = some .directory := by
  obtain hsame | ⟨_, _, hfile, -⟩ := h l _ hget
  · exact hsame
  · cases hfile

theorem Keeps.link {target : String} (h : Keeps t t') (hget : t.get? l = some (.link target)) :
    t'.get? l = some (.link target) := by
  obtain hsame | ⟨_, _, hfile, -⟩ := h l _ hget
  · exact hsame
  · cases hfile

theorem Keeps.file {content : ByteArray} (h : Keeps t t')
    (hget : t.get? l = some (.file content)) : ∃ content', t'.get? l = some (.file content') := by
  obtain hsame | ⟨_, content', -, hfile⟩ := h l _ hget
  · exact ⟨content, hsame⟩
  · exact ⟨content', hfile⟩

theorem Keeps.exists_get? (h : Keeps t t') (hget : t.get? l = some n) :
    ∃ n', t'.get? l = some n' := by
  obtain hsame | ⟨_, _, -, hfile⟩ := h l n hget
  · exact ⟨n, hsame⟩
  · exact ⟨_, hfile⟩

theorem Grows.refl (t : FileTree) : Grows t t :=
  fun _ _ hget => hget

theorem Grows.trans (h : Grows t t') (h' : Grows t' t'') : Grows t t'' :=
  fun l n hget => h' l n (h l n hget)

theorem Grows.keeps (h : Grows t t') : Keeps t t' :=
  fun l n hget => .inl (h l n hget)

theorem Grows.get?_eq_none (h : Grows t t') (hnone : t'.get? l = none) : t.get? l = none := by
  cases hget : t.get? l with
  | none => rfl
  | some n =>
    rw [h l n hget] at hnone
    cases hnone

theorem Adds.refl (P : Location → Node → Prop) (t : FileTree) : Adds P t t :=
  fun _ => .inl rfl

theorem Adds.grows (h : Adds P t t') : Grows t t' := by
  intro l n hget
  obtain hsame | ⟨hnone, -⟩ := h l
  · rw [hsame, hget]
  · rw [hget] at hnone
    cases hnone

theorem Adds.mono (h : Adds P t t') (hPQ : ∀ l n, P l n → Q l n) : Adds Q t t' := by
  intro l
  obtain hsame | ⟨hnone, n, hget, hP⟩ := h l
  · exact .inl hsame
  · exact .inr ⟨hnone, n, hget, hPQ l n hP⟩

theorem Adds.trans (h : Adds P t t') (h' : Adds P t' t'') : Adds P t t'' := by
  intro l
  obtain hsame' | ⟨hnone', n, hget, hP⟩ := h' l
  · rw [hsame']
    exact h l
  · obtain hsame | ⟨-, m, hget', -⟩ := h l
    · exact .inr ⟨hsame ▸ hnone', n, hget, hP⟩
    · rw [hnone'] at hget'
      cases hget'

/-! ## One more node -/

theorem get?_put_self (t : FileTree) (hl : l ≠ []) (n : Node) : (t.put l n).get? l = some n := by
  rw [get?_put t l l n hl, if_pos rfl]

theorem adds_put (hnone : t.get? l = none) (hP : P l n) : Adds P t (t.put l n) := by
  have hl : l ≠ [] := by
    rintro rfl
    cases hnone
  intro k
  rw [get?_put t l k n hl]
  split
  · rename_i heq
    subst heq
    exact .inr ⟨hnone, n, rfl, hP⟩
  · exact .inl rfl

theorem grows_put (hnone : t.get? l = none) (n : Node) : Grows t (t.put l n) :=
  (adds_put (P := fun _ _ => True) hnone trivial).grows

theorem keeps_put_file {content : ByteArray} (hget : ∀ n, t.get? l = some n → ∃ c, n = .file c)
    (hl : l ≠ []) : Keeps t (t.put l (.file content)) := by
  intro k n hk
  rw [get?_put t l k _ hl]
  split
  · rename_i heq
    subst heq
    obtain ⟨c, rfl⟩ := hget n hk
    exact .inr ⟨c, content, rfl, rfl⟩
  · exact .inl hk

/-! ## Walks in the later tree -/

/-- The location of a place. -/
def Place.location : Place → Location
  | .existing l _ => l
  | .vacant parent name => parent ++ [name]

/-- A place as it is in another tree. -/
def Place.inTree (t : FileTree) (p : Place) : Place :=
  match t.get? p.location with
  | some n => .existing p.location n
  | none => p

theorem Place.inTree_of_get? (hget : t.get? p.location = some n) :
    p.inTree t = .existing p.location n := by
  rw [Place.inTree, hget]

/-- A later tree has no link at a place that was free, or it would not be followed there. -/
def Place.Unlinked (t : FileTree) (followLast : Bool) : Place → Prop
  | .existing _ _ => True
  | .vacant parent name =>
    ∀ target, t.get? (parent ++ [name]) = some (.link target) → followLast = false

/-- Names lead to the same location in a later tree, unless the last one has been taken by a link
that would be followed. -/
theorem Leads.keep (h : Leads t followLast links l names p) (hk : Keeps t t') (hl : t.IsWay l)
    (hlink : p.Unlinked t' followLast) : Leads t' followLast links l names (p.inTree t') := by
  induction h with
  | here links l =>
    rw [Place.inTree_of_get? (p := .existing l .directory) (hk.directory hl.get?)]
    exact .here links l
  | stay _ ih => exact .stay (ih hl hlink)
  | up _ ih => exact .up (ih hl.dropLast hlink)
  | @free links l name hname hget =>
    cases hnow : t'.get? (l ++ [name]) with
    | none =>
      rw [Place.inTree, Place.location, hnow]
      exact .free links hname hnow
    | some n =>
      rw [Place.inTree_of_get? (p := .vacant l name) hnow]
      cases n with
      | directory => exact .down hname hnow (.here links _)
      | file content => exact .file links hname hnow
      | link target => exact .link links hname hnow (hlink target hnow)
  | down hname hget _ ih => exact .down hname (hk.directory hget) (ih (hl.append hget) hlink)
  | file links hname hget =>
    obtain ⟨content', hnow⟩ := hk.file hget
    rw [Place.inTree_of_get? (p := .existing _ _) hnow]
    exact .file links hname hnow
  | link links hname hget hlast =>
    rw [Place.inTree_of_get? (p := .existing _ _) (hk.link hget)]
    exact .link links hname (hk.link hget) hlast
  | follow hname hget hgo _ ih =>
    exact .follow hname (hk.link hget) hgo (ih (hl.linkBase _) hlink)

/-! ## Paths -/

/-- A path that can lead somewhere. -/
structure IsPath (path : String) : Prop where
  ne_empty : path ≠ ""
  zero_not_mem : '\x00' ∉ path.toList
  size_lt : path.utf8ByteSize < pathLimit

theorem resolve_of_isPath (h : IsPath path) :
    t.resolve followLast path = t.walk followLast linkLimit [] (steps path) := by
  rw [resolve, if_neg h.ne_empty, if_neg (by simpa using h.zero_not_mem),
    if_neg (Nat.not_le.2 h.size_lt)]

theorem isPath_of_resolve (h : t.resolve followLast path = .ok p) : IsPath path := by
  unfold resolve at h
  split at h
  · cases h
  · rename_i hempty
    split at h
    · cases h
    · rename_i hzero
      split at h
      · cases h
      · rename_i hsize
        exact ⟨hempty, by simpa using hzero, Nat.not_le.1 hsize⟩

/-- A path leads where its steps lead from the root. -/
theorem resolve_eq_ok_iff : t.resolve followLast path = .ok p ↔
    IsPath path ∧ Leads t followLast linkLimit [] (steps path) p := by
  constructor
  · intro h
    have hpath := isPath_of_resolve h
    rw [resolve_of_isPath hpath, walk_eq_ok_iff] at h
    exact ⟨hpath, h⟩
  · intro ⟨hpath, h⟩
    rw [resolve_of_isPath hpath, walk_eq_ok_iff]
    exact h

theorem holds_of_resolve (h : t.resolve followLast path = .ok p) : p.Holds t :=
  (resolve_eq_ok_iff.1 h).2.holds isWay_nil

theorem resolve_keep (h : t.resolve followLast path = .ok p) (hk : Keeps t t')
    (hlink : p.Unlinked t' followLast) : t'.resolve followLast path = .ok (p.inTree t') := by
  obtain ⟨hpath, hleads⟩ := resolve_eq_ok_iff.1 h
  exact resolve_eq_ok_iff.2 ⟨hpath, hleads.keep hk isWay_nil hlink⟩

/-- A path that led to something leads to what is there now. -/
theorem resolve_of_keeps {n' : Node} (h : t.resolve followLast path = .ok (.existing l n))
    (hk : Keeps t t') (hnow : t'.get? l = some n') :
    t'.resolve followLast path = .ok (.existing l n') := by
  have hkept := resolve_keep h hk trivial
  rwa [Place.inTree_of_get? (p := .existing l n) hnow] at hkept

theorem exists_resolve_of_keeps (h : t.resolve followLast path = .ok (.existing l n))
    (hk : Keeps t t') : ∃ n', t'.resolve followLast path = .ok (.existing l n') := by
  obtain ⟨n', hnow⟩ := hk.exists_get? (holds_of_resolve h).1
  exact ⟨n', resolve_of_keeps h hk hnow⟩

/-- A path that led to something leads to the same in a tree that has grown. -/
theorem resolve_of_grows (h : t.resolve followLast path = .ok (.existing l n)) (hg : Grows t t') :
    t'.resolve followLast path = .ok (.existing l n) :=
  resolve_of_keeps h hg.keeps (hg l n (holds_of_resolve h).1)

/-- A path that led to a free name leads to what has taken it, unless that is a link to be
followed. -/
theorem resolve_of_taken (h : t.resolve followLast path = .ok (.vacant parent name))
    (hk : Keeps t t') (hnow : t'.get? (parent ++ [name]) = some n)
    (hlink : ∀ target, n = .link target → followLast = false) :
    t'.resolve followLast path = .ok (.existing (parent ++ [name]) n) := by
  have hunlinked : (Place.vacant parent name).Unlinked t' followLast := by
    intro target htarget
    exact hlink target (Option.some.inj (hnow.symm.trans htarget))
  have hkept := resolve_keep h hk hunlinked
  rwa [Place.inTree_of_get? (p := .vacant parent name) hnow] at hkept

/-- A path that led to a free name still does when nothing has taken it. -/
theorem resolve_of_untaken (h : t.resolve followLast path = .ok (.vacant parent name))
    (hk : Keeps t t') (hnow : t'.get? (parent ++ [name]) = none) :
    t'.resolve followLast path = .ok (.vacant parent name) := by
  have hunlinked : (Place.vacant parent name).Unlinked t' followLast := by
    intro target htarget
    rw [hnow] at htarget
    cases htarget
  have hkept := resolve_keep h hk hunlinked
  rwa [Place.inTree, Place.location, hnow] at hkept

theorem resolve_vacant_unfollowed (h : t.resolve false path = .ok (.vacant parent name))
    (followLast : Bool) : t.resolve followLast path = .ok (.vacant parent name) := by
  obtain ⟨hpath, hleads⟩ := resolve_eq_ok_iff.1 h
  exact resolve_eq_ok_iff.2 ⟨hpath, hleads.vacant_unfollowed followLast⟩

/-! ## What exists -/

theorem locate_eq_ok_iff :
    t.locate path = .ok (l, n) ↔ t.resolve true path = .ok (.existing l n) := by
  unfold locate
  split <;> simp_all

theorem exists?_iff : t.exists? path = true ↔ ∃ l n, t.resolve true path = .ok (.existing l n) := by
  unfold exists? locate
  split <;> simp_all [Except.toBool]

theorem isTaken_iff :
    t.isTaken path = true ↔ ∃ l n, t.resolve false path = .ok (.existing l n) := by
  unfold isTaken
  split <;> simp_all

theorem isDirectory_iff :
    t.isDirectory path = true ↔ ∃ l, t.locate path = .ok (l, .directory) := by
  unfold isDirectory
  split <;> simp_all

theorem exists?_of_keeps (h : t.exists? path = true) (hk : Keeps t t') :
    t'.exists? path = true := by
  obtain ⟨l, n, hresolve⟩ := exists?_iff.1 h
  exact exists?_iff.2 ⟨l, exists_resolve_of_keeps hresolve hk⟩

theorem isTaken_of_keeps (h : t.isTaken path = true) (hk : Keeps t t') :
    t'.isTaken path = true := by
  obtain ⟨l, n, hresolve⟩ := isTaken_iff.1 h
  exact isTaken_iff.2 ⟨l, exists_resolve_of_keeps hresolve hk⟩

theorem locate_of_keeps (h : t.locate path = .ok (l, .directory)) (hk : Keeps t t') :
    t'.locate path = .ok (l, .directory) := by
  have hresolve := locate_eq_ok_iff.1 h
  exact locate_eq_ok_iff.2
    (resolve_of_keeps hresolve hk (hk.directory (holds_of_resolve hresolve).1))

theorem isDirectory_of_keeps (h : t.isDirectory path = true) (hk : Keeps t t') :
    t'.isDirectory path = true := by
  obtain ⟨l, hlocate⟩ := isDirectory_iff.1 h
  exact isDirectory_iff.2 ⟨l, locate_of_keeps hlocate hk⟩

/-- Where something exists, the path is taken. -/
theorem isTaken_of_exists? (h : t.exists? path = true) : t.isTaken path = true := by
  obtain ⟨l, n, hresolve⟩ := exists?_iff.1 h
  obtain ⟨hpath, hleads⟩ := resolve_eq_ok_iff.1 hresolve
  obtain ⟨d, m, hunfollowed⟩ := hleads.exists_unfollowed nofun
  exact isTaken_iff.2 ⟨d, m, resolve_eq_ok_iff.2 ⟨hpath, hunfollowed⟩⟩

end BuildGraph.FileTree
