import BuildGraph.FileTree.Walk
import BuildGraph.Proofs.FileTree.Directories
import Mathlib.Data.List.Sort
set_option autoImplicit false

/-!
# Walks through a tree in which one file was written

A tree that has grown by directories, links and a single file is walked as it was before: a walk has
the same start, unless there was none, and visits the same files, except perhaps the new one. All
other files are read as before, and writing the same content once more changes nothing.
-/

namespace BuildGraph.FileTree

variable {t t' : FileTree} {l k place rest : Location} {path text : String} {content : ByteArray}

/-! ## Files below a directory -/

theorem mem_filesBelow_iff :
    rest ∈ t.filesBelow l ↔ rest ≠ [] ∧ ∃ content, t.get? (l ++ rest) = some (.file content) := by
  have hdescendant : ∀ n, (rest, n) ∈ t.descendants l ↔ rest ≠ [] ∧ (l ++ rest, n) ∈ t.nodes := by
    intro n
    simp only [descendants, List.mem_filterMap, Prod.exists, Option.map_eq_some_iff,
      below?_eq_some_iff, Prod.mk.injEq]
    constructor
    · intro h
      obtain ⟨_, _, hmem, _, ⟨rfl, hne⟩, rfl, rfl⟩ := h
      exact ⟨hne, hmem⟩
    · intro h
      exact ⟨_, _, h.2, rest, ⟨rfl, h.1⟩, rfl, rfl⟩
  have hfile : rest ∈ t.filesBelow l ↔ ∃ content, (rest, .file content) ∈ t.descendants l := by
    simp only [filesBelow, List.mem_filterMap, Prod.exists]
    constructor
    · intro h
      obtain ⟨way, n, hmem, hway⟩ := h
      cases n with
      | file content => exact ⟨content, Option.some.inj hway ▸ hmem⟩
      | directory | link => cases hway
    · intro h
      obtain ⟨content, hmem⟩ := h
      exact ⟨_, _, hmem, rfl⟩
  rw [hfile]
  simp only [hdescendant, exists_and_left]
  refine and_congr_right fun hne => exists_congr fun content => ?_
  rw [get?_eq_some_iff t (List.append_ne_nil_of_right_ne_nil l hne)]

/-- Below one directory locations are in order exactly as the ways to them are. -/
theorem lt_of_append_lt_append {a b : Location} (h : l ++ a < l ++ b) : a < b := by
  by_contra hnot
  by_cases heq : a = b
  · rw [heq] at h
    exact List.lt_irrefl _ h
  · have hgreater : l ++ b < l ++ a := List.append_left_lt (lt_of_not_lt hnot heq)
    exact List.lt_irrefl _ (List.lt_trans h hgreater)

theorem pairwise_filesBelow (t : FileTree) (l : Location) :
    (t.filesBelow l).Pairwise (· < ·) := by
  have hdescendants : (t.descendants l).Pairwise Precedes := by
    refine t.ordered.filterMap _ fun p q hpq a ha b hb => ?_
    obtain ⟨way, hway, rfl⟩ := Option.map_eq_some_iff.1 ha
    obtain ⟨way', hway', rfl⟩ := Option.map_eq_some_iff.1 hb
    rw [Precedes, (below?_eq_some_iff.1 hway).1, (below?_eq_some_iff.1 hway').1] at hpq
    exact lt_of_append_lt_append hpq
  refine hdescendants.filterMap _ fun p q hpq a ha b hb => ?_
  obtain ⟨way, n⟩ := p
  obtain ⟨way', n'⟩ := q
  cases n with
  | file =>
    cases n' with
    | file => exact Option.some.inj ha ▸ Option.some.inj hb ▸ hpq
    | directory | link => cases hb
  | directory | link => cases ha

/-! ## One new file -/

/-- Whatever stood still stands, and no file came in or changed, except at one place. -/
structure GrowsBut (place : Location) (t t' : FileTree) : Prop where
  keeps : Keeps t t'
  same : ∀ k, k ≠ place → ∀ n, t.get? k = some n → t'.get? k = some n
  files : ∀ k, k ≠ place → ∀ content, t'.get? k = some (.file content) →
    t.get? k = some (.file content)

namespace GrowsBut

theorem isFile_iff (h : GrowsBut place t t') (hk : k ≠ place) :
    (∃ content, t'.get? k = some (.file content)) ↔ ∃ content, t.get? k = some (.file content) :=
  ⟨fun ⟨content, hget⟩ => ⟨content, h.files k hk content hget⟩,
    fun ⟨content, hget⟩ => ⟨content, h.same k hk _ hget⟩⟩

/-- The files that are visited are the same, except the one at the place. -/
theorem mem_filesBelow_iff (h : GrowsBut place t t')
    (hplace : t'.get? place = some (.file content)) :
    rest ∈ t'.filesBelow l ↔ rest ∈ t.filesBelow l ∨ rest ≠ [] ∧ place = l ++ rest := by
  rw [FileTree.mem_filesBelow_iff, FileTree.mem_filesBelow_iff]
  by_cases hk : l ++ rest = place
  · subst hk
    simp only [hplace, Option.some.injEq, Node.file.injEq, exists_eq', and_true]
    exact (or_iff_right_of_imp And.left).symm
  · simp only [h.isFile_iff hk, Ne.symm hk, and_false, or_false]

/-- Ways that do not end at the place are found as before. -/
theorem filter_filesBelow_eq (h : GrowsBut place t t') {p : Location → Bool}
    (hp : ∀ rest, p rest = true → l ++ rest ≠ place) :
    (t'.filesBelow l).filter p = (t.filesBelow l).filter p := by
  refine ((pairwise_filesBelow t' l).filter p).eq_of_mem_iff ((pairwise_filesBelow t l).filter p) ?_
  intro rest
  simp only [List.mem_filter, FileTree.mem_filesBelow_iff]
  refine and_congr_left fun hrest => and_congr_right fun _ => ?_
  exact h.isFile_iff (hp rest hrest)

/-- What stood elsewhere and is still found is read as before. -/
theorem readText_eq (h : GrowsBut place t t') (hexists : t.exists? path = true)
    (helsewhere : ∀ n, t'.locate path ≠ .ok (place, n)) : t'.readText path = t.readText path := by
  obtain ⟨l, n, hresolve⟩ := exists?_iff.1 hexists
  obtain ⟨hget, -⟩ := holds_of_resolve hresolve
  obtain ⟨n', hget'⟩ := h.keeps.exists_get? hget
  have hlocate := locate_eq_ok_iff.2 (resolve_of_keeps hresolve h.keeps hget')
  have hl : l ≠ place := by
    rintro rfl
    exact helsewhere n' hlocate
  obtain rfl : n' = n := Option.some.inj (hget'.symm.trans (h.same l hl n hget))
  rw [readText, readText, readBytes, readBytes, hlocate, locate_eq_ok_iff.2 hresolve]

end GrowsBut

/-! ## Starts -/

/-- A walk that does not end at a link is the same when a link at its end would be followed. -/
theorem Leads.followed {links : Nat} {names : List String} {p : Place}
    (h : Leads t false links l names p) (hp : ∀ k target, p ≠ .existing k (.link target)) :
    Leads t true links l names p := by
  induction h with
  | here links l => exact .here links l
  | stay _ ih => exact .stay (ih hp)
  | up _ ih => exact .up (ih hp)
  | free links hname hget => exact .free links hname hget
  | down hname hget _ ih => exact .down hname hget (ih hp)
  | file links hname hget => exact .file links hname hget
  | link => exact absurd rfl (hp _ _)
  | follow hname hget _ _ ih => exact .follow hname hget (.inr rfl) (ih hp)

theorem locate_of_unfollowed {n : Node} (h : t.resolve false path = .ok (.existing l n))
    (hn : ∀ target, n ≠ .link target) : t.locate path = .ok (l, n) := by
  obtain ⟨hpath, hleads⟩ := resolve_eq_ok_iff.1 h
  refine locate_eq_ok_iff.2 (resolve_eq_ok_iff.2 ⟨hpath, hleads.followed fun k target hp => ?_⟩)
  obtain ⟨-, hlink⟩ := Place.existing.inj hp
  exact hn target hlink

theorem exists?_of_locate {n : Node} (h : t.locate path = .ok (l, n)) : t.exists? path = true := by
  rw [exists?, h]
  rfl

/-- A walk from a path that leads nowhere has no start. -/
theorem start_of_missing (h : t.exists? path = false) : t.start path = .nothing := by
  have hlocate : ∀ l n, t.locate path ≠ .ok (l, n) := by
    intro l n hlocate
    rw [exists?_of_locate hlocate] at h
    cases h
  unfold start
  split
  · rename_i hresolve
    exact absurd (locate_of_unfollowed hresolve nofun) (hlocate _ _)
  · rename_i hresolve
    exact absurd (locate_of_unfollowed hresolve nofun) (hlocate _ _)
  · split
    · rename_i hdirectory
      exact absurd hdirectory (hlocate _ _)
    · rfl
  · rfl

/-- A walk has the start that it had, unless it had none and has one now. -/
theorem start_of_keeps (hk : Keeps t t')
    (hmissing : t'.exists? path = true → t.exists? path = true) : t'.start path = t.start path := by
  cases hexists : t.exists? path with
  | false =>
    have hexists' : t'.exists? path = false := by
      by_contra hnow
      rw [hmissing (Bool.eq_true_of_not_eq_false hnow)] at hexists
      cases hexists
    rw [start_of_missing hexists, start_of_missing hexists']
  | true =>
    obtain ⟨l, n, hresolve⟩ := isTaken_iff.1 (isTaken_of_exists? hexists)
    obtain ⟨hget, -⟩ := holds_of_resolve hresolve
    cases n with
    | directory =>
      have hresolve' := resolve_of_keeps hresolve hk (hk.directory hget)
      simp only [start, hresolve, hresolve']
    | file content =>
      obtain ⟨content', hget'⟩ := hk.file hget
      have hresolve' := resolve_of_keeps hresolve hk hget'
      simp only [start, hresolve, hresolve']
    | link target =>
      have hresolve' := resolve_of_keeps hresolve hk (hk.link hget)
      obtain ⟨d, m, hend⟩ := exists?_iff.1 hexists
      obtain ⟨hgetEnd, -⟩ := holds_of_resolve hend
      simp only [start, hresolve, hresolve', locate_eq_ok_iff.2 hend]
      cases m with
      | directory =>
        rw [locate_eq_ok_iff.2 (resolve_of_keeps hend hk (hk.directory hgetEnd))]
      | file content =>
        obtain ⟨content', hgetEnd'⟩ := hk.file hgetEnd
        rw [locate_eq_ok_iff.2 (resolve_of_keeps hend hk hgetEnd')]
      | link target =>
        rw [locate_eq_ok_iff.2 (resolve_of_keeps hend hk (hk.link hgetEnd))]

/-- The paths that a walk visits are the same, except one to the place. -/
theorem GrowsBut.mem_walkFiles_iff (h : GrowsBut place t t')
    (hplace : t'.get? place = some (.file content)) {dir : String}
    (hmissing : t'.exists? dir = true → t.exists? dir = true) :
    path ∈ t'.walkFiles dir ↔ path ∈ t.walkFiles dir ∨ ∃ l rest,
      t.start dir = .directory l ∧ rest ≠ [] ∧ place = l ++ rest ∧ path = pathBelow dir rest := by
  unfold walkFiles
  rw [start_of_keeps h.keeps hmissing]
  cases t.start dir with
  | directory l =>
    simp only [List.mem_map, h.mem_filesBelow_iff hplace]
    constructor
    · intro hpath
      obtain ⟨rest, hold | ⟨hne, hnew⟩, rfl⟩ := hpath
      · exact .inl ⟨rest, hold, rfl⟩
      · exact .inr ⟨l, rest, rfl, hne, hnew, rfl⟩
    · intro hpath
      obtain ⟨rest, hold, rfl⟩ | ⟨_, rest, ⟨⟩, hne, hnew, rfl⟩ := hpath
      · exact ⟨rest, .inl hold, rfl⟩
      · exact ⟨rest, .inr ⟨hne, hnew⟩, rfl⟩
  | file l => simp
  | nothing => simp

/-! ## The same content once more -/

/-- A node that is put where it stands changes nothing. -/
theorem insertNode_eq_self {n : Node} {nodes : List (Location × Node)}
    (hordered : nodes.Pairwise Precedes) (h : (l, n) ∈ nodes) : insertNode l n nodes = nodes := by
  induction nodes with
  | nil => cases h
  | cons p rest ih =>
    obtain ⟨k, m⟩ := p
    obtain ⟨hfirst, hrest⟩ := List.pairwise_cons.1 hordered
    unfold insertNode
    rcases List.mem_cons.1 h with heq | hmem
    · obtain ⟨rfl, rfl⟩ := Prod.mk.inj heq
      rw [if_pos rfl]
    · have hlt : k < l := hfirst _ hmem
      have hne : l ≠ k := by
        rintro rfl
        exact List.lt_irrefl _ hlt
      rw [if_neg hne, if_neg fun hgt => List.lt_irrefl _ (List.lt_trans hlt hgt), ih hrest hmem]

theorem put_eq_self {n : Node} (hl : l ≠ []) (h : t.get? l = some n) : t.put l n = t := by
  obtain ⟨nodes, hordered⟩ := t
  have hmem := (get?_eq_some_iff _ hl).1 h
  unfold put
  congr
  exact insertNode_eq_self hordered hmem

/-- Where a text is in its file, writing it changes nothing. -/
theorem writeText_eq_self (h : t.locate path = .ok (l, .file text.toUTF8)) :
    t.writeText path text = .ok t := by
  have hresolve := locate_eq_ok_iff.1 h
  obtain ⟨hget, -⟩ := holds_of_resolve hresolve
  have hl : l ≠ [] := by
    rintro rfl
    cases hget
  rw [writeText, writeBytes, hresolve]
  exact congrArg Except.ok (put_eq_self hl hget)

end BuildGraph.FileTree
