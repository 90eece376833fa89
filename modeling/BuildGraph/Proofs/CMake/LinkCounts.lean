import BuildGraph.Proofs.CMake.LinkTargets
import Mathlib.Data.Finset.Card
set_option autoImplicit false

/-!
# How many links are made

In a tree without links, the links of a project are made in its directory alone. As long as no
module is looked for through a name that is free there, making one link decides nothing about the
targets of the others, so that the whole outcome can be told from the tree in which the first
link is made: at each path where nothing stands and for which some planned link has a target
there comes one link, to the first of these targets, and their number is what is reported. Making
the links once more makes none.
-/

namespace BuildGraph

open FileTree

namespace FileTree

variable {t t' : FileTree} {followLast : Bool} {links : Nat} {l d parent : Location}
  {names : List String} {dir path name last : String} {p : Place} {c : Char}

/-! ## Trees without links -/

/-- No link stands in the tree. -/
def HasNoLinks (t : FileTree) : Prop :=
  ∀ l target, t.get? l ≠ some (.link target)

theorem hasNoLinks_of_nodes (h : ∀ q ∈ t.nodes, (q.2 matches .link _) = false) : t.HasNoLinks := by
  intro l target hget
  have hl : l ≠ [] := by
    rintro rfl
    cases hget
  exact absurd (h _ ((get?_eq_some_iff t hl).1 hget)) (by simp)

/-- Without links a way ends at its last name if that is free. -/
theorem HasNoLinks.getLast?_eq (ht : t.HasNoLinks)
    (h : Leads t followLast links l names (.vacant parent last)) : names.getLast? = some last := by
  generalize hp : Place.vacant parent last = p at h
  induction h with
  | here | file | link => cases hp
  | stay _ ih | up _ ih | down _ _ _ ih => rw [List.getLast?_cons, ih hp, Option.getD_some]
  | free =>
    obtain ⟨-, rfl⟩ := Place.vacant.inj hp
    rfl
  | follow _ hget => exact absurd hget (ht _ _)

/-- Nothing is found behind a free name. -/
theorem HasNoLinks.walk_append_ne (ht : t.HasNoLinks)
    (h : Leads t true links l names (.vacant parent last)) (more : List String) (k : Location)
    (n : Node) : t.walk true links l (names ++ more) ≠ .ok (.existing k n) := by
  generalize hp : Place.vacant parent last = p at h
  induction h with
  | here | file | link => cases hp
  | stay _ ih =>
    rw [List.cons_append, walk_cons, if_pos rfl]
    exact ih hp
  | up _ ih =>
    rw [List.cons_append, walk_cons, if_neg (by decide), if_pos rfl]
    exact ih hp
  | free links hname hget =>
    rw [List.cons_append, walk_cons_of_isEntryName hname, hget]
    dsimp only
    split <;> exact nofun
  | down hname hget _ ih =>
    rw [List.cons_append, walk_cons_of_isEntryName hname, hget]
    exact ih hp
  | follow _ hget => exact absurd hget (ht _ _)

/-- In a tree that has grown names lead where they did, unless some of them led to a free name
that has been taken. -/
theorem HasNoLinks.walk_eq (ht : t.HasNoLinks) (hg : Grows t t')
    (hfree : ∀ front parent last, front <+: names →
      t.walk true links l front = .ok (.vacant parent last) → t'.get? (parent ++ [last]) = none) :
    t'.walk true links l names = t.walk true links l names := by
  induction names generalizing l with
  | nil => rw [walk_nil, walk_nil]
  | cons name rest ih =>
    -- What some of the rest lead to from the next directory, all up to them lead to from here.
    have hrest : ∀ k, (∀ front, t.walk true links l (name :: front) = t.walk true links k front) →
        t'.walk true links k rest = t.walk true links k rest := by
      intro k hk
      refine ih fun front parent last hfront hwalk => hfree (name :: front) parent last ?_ ?_
      · exact List.cons_prefix_cons.2 ⟨rfl, hfront⟩
      · rw [hk front, hwalk]
    rw [walk_cons, walk_cons]
    by_cases hdot : name = "."
    · rw [if_pos hdot, if_pos hdot]
      exact hrest l fun front => by rw [walk_cons, if_pos hdot]
    by_cases hdots : name = ".."
    · rw [if_neg hdot, if_neg hdot, if_pos hdots, if_pos hdots]
      exact hrest _ fun front => by rw [walk_cons, if_neg hdot, if_pos hdots]
    by_cases hsize : nameLimit < name.utf8ByteSize
    · simp only [if_neg hdot, if_neg hdots, if_pos hsize]
    have hname : IsEntryName name := ⟨hdot, hdots, Nat.not_lt.1 hsize⟩
    simp only [if_neg hdot, if_neg hdots, if_neg hsize]
    cases hget : t.get? (l ++ [name]) with
    | none =>
      have hwalk : t.walk true links l [name] = .ok (.vacant l name) := by
        rw [walk_cons_of_isEntryName hname, hget, if_pos rfl]
      rw [hfree [name] l name (List.cons_prefix_cons.2 ⟨rfl, List.nil_prefix⟩) hwalk]
    | some n =>
      rw [hg _ _ hget]
      cases n with
      | directory =>
        exact hrest _ fun front => by rw [walk_cons_of_isEntryName hname, hget]
      | file content => rfl
      | link target => exact absurd hget (ht _ _)

/-- What exists at a path exists already before, unless its names led to a free name that has been
taken. -/
theorem HasNoLinks.exists?_eq (ht : t.HasNoLinks) (hg : Grows t t')
    (hfree : ∀ front parent last, front <+: steps path →
      t.walk true linkLimit [] front = .ok (.vacant parent last) →
        t'.get? (parent ++ [last]) = none) :
    t'.exists? path = t.exists? path := by
  rw [exists?, exists?, locate, locate, resolve, resolve, ht.walk_eq hg hfree]

/-! ## Plain names in a directory -/

/-- On the way along a path there is a free name of a directory: some of its first names lead to
it. -/
def PassesFree (t : FileTree) (dir path : String) : Prop :=
  ∃ d front name, t.locate dir = .ok (d, .directory) ∧ front <+: steps path ∧
    t.walk true linkLimit [] front = .ok (.vacant d name)

/-- Where something exists, no free name is passed. -/
theorem HasNoLinks.not_passesFree (ht : t.HasNoLinks) (h : t.exists? path = true) (dir : String) :
    ¬ t.PassesFree dir path := by
  intro hpasses
  obtain ⟨d, front, name, -, ⟨more, hsteps⟩, hwalk⟩ := hpasses
  obtain ⟨l, n, hresolve⟩ := exists?_iff.1 h
  obtain ⟨-, hleads⟩ := resolve_eq_ok_iff.1 hresolve
  rw [← hsteps] at hleads
  exact ht.walk_append_ne (walk_eq_ok_iff.1 hwalk) more l n (walk_of_leads hleads)

/-- A plain name is the last step of each path that ends in it. -/
theorem IsPlainName.steps_join (h : IsPlainName name) (dir : String) :
    steps (Path.join dir name) = namesOf dir.toList ++ [name] := by
  have hne : name.toList ≠ [] := fun hnil => h.ne_empty (String.toList_eq_nil_iff.1 hnil)
  have htext : namesOf (Path.join dir name).toList = namesOf dir.toList ++ [name] ∧
      (Path.pieces '/' (Path.join dir name).toList).getLast? = some name.toList := by
    have hbehind : ∀ front, namesOf (front ++ '/' :: name.toList) = namesOf front ++ [name] ∧
        (Path.pieces '/' (front ++ '/' :: name.toList)).getLast? = some name.toList := by
      intro front
      rw [namesOf_append_slash, h.namesOf_eq, Path.pieces_append_cons, h.pieces_eq,
        List.getLast?_concat]
      exact ⟨rfl, rfl⟩
    cases hlast : dir.toList.getLast? with
    | none =>
      have hnil : dir.toList = [] := List.getLast?_eq_none_iff.1 hlast
      have hjoin : (Path.join dir name).toList = name.toList := by
        simp [Path.join, h.isAbsolute_eq, hnil]
      rw [hjoin, hnil, h.namesOf_eq, h.pieces_eq]
      exact ⟨rfl, rfl⟩
    | some c =>
      by_cases hc : c = '/'
      · subst hc
        obtain ⟨front, hfront⟩ := List.getLast?_eq_some_iff.1 hlast
        have hjoin : (Path.join dir name).toList = front ++ '/' :: name.toList := by
          simp [Path.join, h.isAbsolute_eq, hfront]
        have hslash : namesOf (front ++ ['/']) = namesOf front := by
          rw [namesOf_append_slash]
          exact List.append_nil _
        rw [hjoin, hfront, hslash]
        exact hbehind front
      · rw [Path.toList_join hlast hc h.isAbsolute_eq]
        exact hbehind dir.toList
  rw [FileTree.steps_eq, htext.1, htext.2, if_neg]
  exact fun hslash => hne (Option.some.inj hslash.2)

/-- What a plain name leads to stands under it. -/
theorem IsPlainName.location_eq (h : IsPlainName name)
    (hlocate : t.locate dir = .ok (d, .directory))
    (hdir : dir.toList.getLast? = some c) (hc : c ≠ '/')
    (hresolve : t.resolve false (Path.join dir name) = .ok p) : p.location = d ++ [name] := by
  obtain ⟨hpath, hleads⟩ := resolve_eq_ok_iff.1 hresolve
  rw [h.resolve_join (h.isEntryName_of_leads hleads) hpath hdir hc hlocate] at hresolve
  cases hget : t.get? (d ++ [name]) with
  | none =>
    rw [hget] at hresolve
    obtain rfl := Except.ok.inj hresolve
    rfl
  | some n =>
    rw [hget] at hresolve
    obtain rfl := Except.ok.inj hresolve
    rfl

end FileTree

namespace CMake

variable {t : FileTree} {s next : Linking} {links done : List ModuleLink} {link first : ModuleLink}
  {dir path : String} {d l : Location} {c : Char}

/-! ## Links that are wanted -/

/-- Nothing stands at the path of the link, and its target exists. -/
def ModuleLink.IsWanted (t : FileTree) (link : ModuleLink) : Bool :=
  !t.isTaken link.path && t.exists? link.target

/-- The first of the wanted links that have the path. -/
def firstWanted? (t : FileTree) (links : List ModuleLink) (path : String) : Option ModuleLink :=
  links.find? fun link => link.path == path && link.IsWanted t

/-- The paths of the wanted links, each once. -/
def wantedPaths (t : FileTree) (links : List ModuleLink) : Finset String :=
  ((links.filter (ModuleLink.IsWanted t)).map ModuleLink.path).toFinset

theorem of_firstWanted?_eq_some (h : firstWanted? t links path = some first) :
    first ∈ links ∧ first.path = path ∧ first.IsWanted t = true := by
  have hfound := List.find?_some h
  rw [Bool.and_eq_true, beq_iff_eq] at hfound
  exact ⟨List.mem_of_find?_eq_some h, hfound⟩

theorem mem_wantedPaths_iff :
    path ∈ wantedPaths t links ↔ ∃ first, firstWanted? t links path = some first := by
  rw [← Option.isSome_iff_exists, firstWanted?, List.find?_isSome]
  simp [wantedPaths, and_comm, and_left_comm]

theorem firstWanted?_concat (done : List ModuleLink) (link : ModuleLink) (path : String) :
    firstWanted? t (done ++ [link]) path = (firstWanted? t done path).or
      (if link.path = path ∧ link.IsWanted t = true then some link else none) := by
  rw [firstWanted?, List.find?_append, List.find?_singleton]
  simp [firstWanted?]

theorem wantedPaths_concat (done : List ModuleLink) (link : ModuleLink) :
    wantedPaths t (done ++ [link]) =
      if link.IsWanted t then insert link.path (wantedPaths t done) else wantedPaths t done := by
  unfold wantedPaths
  split <;> simp [*]

/-- A link that is not wanted, or whose path is wanted already, makes no difference. -/
theorem firstWanted?_concat_of_mem (h : link.IsWanted t = true → link.path ∈ wantedPaths t done)
    (path : String) : firstWanted? t (done ++ [link]) path = firstWanted? t done path := by
  rw [firstWanted?_concat]
  split
  · rename_i hlink
    obtain ⟨rfl, hwanted⟩ := hlink
    obtain ⟨first, hfirst⟩ := mem_wantedPaths_iff.1 (h hwanted)
    rw [hfirst, Option.some_or]
  · exact Option.or_none

theorem wantedPaths_concat_of_mem (h : link.IsWanted t = true → link.path ∈ wantedPaths t done) :
    wantedPaths t (done ++ [link]) = wantedPaths t done := by
  rw [wantedPaths_concat]
  split
  · rename_i hwanted
    exact Finset.insert_eq_of_mem (h hwanted)
  · rfl

/-! ## Links that cannot meet -/

/-- The link has a plain name in the directory and leads to what has that name in another one, on
the way to which there is no free name of the first. -/
def IsOrderly (t : FileTree) (dir : String) (link : ModuleLink) : Prop :=
  ∃ name other, IsPlainName name ∧ link = ⟨Path.join dir name, Path.join other name⟩ ∧
    link.path.utf8ByteSize < pathLimit ∧ ¬ t.PassesFree dir other

/-- Where a path leads there is a link, to the first target that was wanted there. -/
def IsWantedLink (t t' : FileTree) (links : List ModuleLink) (l : Location) (n : Node) : Prop :=
  ∃ path first, firstWanted? t links path = some first ∧ n = .link first.target ∧
    t'.resolve false path = .ok (.existing l n)

/-- How things stand when some links have had their turn, told from the tree in which the first was
made. -/
structure Tallied (t : FileTree) (done : List ModuleLink) (s : Linking) : Prop where
  error?_eq : s.error? = none
  created_eq : s.created = (wantedPaths t done).card
  leads : ∀ path first, firstWanted? t done path = some first →
    ∃ l, s.tree.resolve false path = .ok (.existing l (.link first.target))
  adds : Adds (IsWantedLink t s.tree done) t s.tree

theorem tallied_nil (t : FileTree) : Tallied t [] ⟨t, 0, [], none⟩ where
  error?_eq := rfl
  created_eq := rfl
  leads _ _ h := nomatch h
  adds := Adds.refl _ t

namespace Tallied

/-- A link that adds nothing was not wanted, or is one of several at its path. -/
theorem skip (h : Tallied t done s) (htree : next.tree = s.tree)
    (hcreated : next.created = s.created) (herror : next.error? = s.error?)
    (hlink : link.IsWanted t = true → link.path ∈ wantedPaths t done) :
    Tallied t (done ++ [link]) next where
  error?_eq := herror.trans h.error?_eq
  created_eq := by rw [wantedPaths_concat_of_mem hlink, hcreated, h.created_eq]
  leads path first hfirst := by
    rw [firstWanted?_concat_of_mem hlink] at hfirst
    exact htree ▸ h.leads path first hfirst
  adds := by
    rw [htree]
    refine h.adds.mono fun l n hnew => ?_
    obtain ⟨path, first, hfirst, hnode⟩ := hnew
    exact ⟨path, first, (firstWanted?_concat_of_mem hlink path).trans hfirst, hnode⟩

/-- A link that is made is wanted, and the first one at its path. -/
theorem made {parent : Location} {name : String} (h : Tallied t done s)
    (hwanted : link.IsWanted t = true) (hnew : link.path ∉ wantedPaths t done)
    (hvacant : s.tree.resolve false link.path = .ok (.vacant parent name)) :
    Tallied t (done ++ [link])
      { s with
        tree := s.tree.put (parent ++ [name]) (.link link.target)
        created := s.created + 1 } := by
  obtain ⟨-, -, hnone⟩ := holds_of_resolve hvacant
  have hgrows := grows_put hnone (.link link.target)
  have hplaced := resolve_of_taken hvacant hgrows.keeps
    (get?_put_self _ ne_nil_of_vacant (.link link.target)) fun _ _ => rfl
  have hfirst : firstWanted? t done link.path = none := by
    rw [Option.eq_none_iff_forall_ne_some]
    exact fun first hfirst => hnew (mem_wantedPaths_iff.2 ⟨first, hfirst⟩)
  have hown : firstWanted? t (done ++ [link]) link.path = some link := by
    rw [firstWanted?_concat, hfirst, if_pos ⟨rfl, hwanted⟩, Option.none_or]
  have hother : ∀ path first, firstWanted? t done path = some first →
      firstWanted? t (done ++ [link]) path = some first := by
    intro path first hsome
    rw [firstWanted?_concat, hsome, Option.some_or]
  refine ⟨h.error?_eq, ?_, fun path first hsome => ?_, ?_⟩
  · rw [wantedPaths_concat, if_pos hwanted, Finset.card_insert_of_notMem hnew, ← h.created_eq]
  · by_cases hpath : path = link.path
    · subst hpath
      obtain rfl := Option.some.inj (hown.symm.trans hsome)
      exact ⟨_, hplaced⟩
    · rw [firstWanted?_concat, if_neg fun heq => hpath heq.1.symm, Option.or_none] at hsome
      obtain ⟨l, hresolve⟩ := h.leads path first hsome
      exact ⟨l, resolve_of_grows hresolve hgrows⟩
  · refine (h.adds.mono fun l n hold => ?_).trans
      (adds_put hnone ⟨link.path, link, hown, rfl, hplaced⟩)
    obtain ⟨path, first, hsome, hn, hresolve⟩ := hold
    exact ⟨path, first, hother path first hsome, hn, resolve_of_grows hresolve hgrows⟩

section Orderly

variable (hlocate : t.locate dir = .ok (d, .directory)) (hdir : dir.toList.getLast? = some c)
  (hc : c ≠ '/') (h : Tallied t done s) (hdone : ∀ link ∈ done, IsOrderly t dir link)
include hlocate hdir hc h hdone

/-- What has come in has a name in the directory, and its path is wanted. -/
theorem exists_name_of_new {n : Node} (hnone : t.get? l = none) (hget : s.tree.get? l = some n) :
    ∃ name, l = d ++ [name] ∧ Path.join dir name ∈ wantedPaths t done ∧
      s.tree.isTaken (Path.join dir name) = true := by
  obtain hsame | ⟨-, n', -, path, first, hfirst, -, hresolve⟩ := h.adds l
  · rw [hsame, hnone] at hget
    cases hget
  · obtain ⟨hmem, rfl, -⟩ := of_firstWanted?_eq_some hfirst
    obtain ⟨name, other, hname, hlink, -, -⟩ := hdone first hmem
    have hpath : first.path = Path.join dir name := by rw [hlink]
    rw [hpath] at hfirst hresolve
    exact ⟨name, hname.location_eq (locate_of_keeps hlocate h.adds.grows.keeps) hdir hc hresolve,
      mem_wantedPaths_iff.2 ⟨first, hfirst⟩, isTaken_iff.2 ⟨l, n', hresolve⟩⟩

/-- As long as the path of a link is free, its target exists only if it did so from the start. -/
theorem exists?_target_eq (ht : t.HasNoLinks) (hlink : IsOrderly t dir link)
    (hfree : s.tree.isTaken link.path = false) :
    s.tree.exists? link.target = t.exists? link.target := by
  obtain ⟨name, other, hname, rfl, -, hpasses⟩ := hlink
  refine ht.exists?_eq h.adds.grows fun front parent last hfront hwalk => ?_
  cases hget : s.tree.get? (parent ++ [last]) with
  | none => rfl
  | some n =>
    -- What has come in where the way passes is in the directory of the links.
    have hleads := walk_eq_ok_iff.1 hwalk
    obtain ⟨-, -, hnone⟩ := hleads.holds isWay_nil
    obtain ⟨new, hplace, -, htaken⟩ := h.exists_name_of_new hlocate hdir hc hdone hnone hget
    obtain ⟨rfl, hlast⟩ := List.append_inj' hplace rfl
    obtain rfl := List.singleton_inj.1 hlast
    rw [hname.steps_join, List.prefix_concat_iff] at hfront
    cases hfront with
    | inl hall =>
      obtain rfl : name = last := by
        have hend := ht.getLast?_eq hleads
        rw [hall, List.getLast?_concat] at hend
        exact Option.some.inj hend
      rw [htaken] at hfree
      cases hfree
    | inr hbefore =>
      refine absurd ⟨_, front, last, hlocate, hbefore.trans ?_, hwalk⟩ hpasses
      rw [steps_eq]
      split
      · exact List.prefix_append _ _
      · exact List.prefix_rfl

/-- A wanted link whose path is taken is not the first one there. -/
theorem mem_wantedPaths_of_isTaken (hlink : IsOrderly t dir link)
    (hwanted : link.IsWanted t = true) (htaken : s.tree.isTaken link.path = true) :
    link.path ∈ wantedPaths t done := by
  obtain ⟨name, other, hname, rfl, hsize, -⟩ := hlink
  rw [ModuleLink.IsWanted, Bool.and_eq_true, Bool.not_eq_true'] at hwanted
  have hlocate' := locate_of_keeps hlocate h.adds.grows.keeps
  obtain ⟨l, n, hresolve⟩ := isTaken_iff.1 htaken
  have hl : l = d ++ [name] := hname.location_eq hlocate' hdir hc hresolve
  have hnone : t.get? l = none := by
    obtain ⟨parent, last, hvacant⟩ | ⟨k, m, hexisting, hnew⟩ :=
      (hname.resolves_join hlocate hdir hc hwanted.2 hsize).later h.adds.grows
    · rw [hvacant] at hresolve
      cases hresolve
    · obtain ⟨rfl, -⟩ := Place.existing.inj (Except.ok.inj (hresolve.symm.trans hexisting))
      exact hnew hwanted.1
  obtain ⟨new, hplace, hmem, -⟩ :=
    h.exists_name_of_new hlocate hdir hc hdone hnone (holds_of_resolve hresolve).1
  obtain ⟨-, hlast⟩ := List.append_inj' (hl.symm.trans hplace) rfl
  rwa [List.singleton_inj.1 hlast]

theorem makeLink (ht : t.HasNoLinks) (hlink : IsOrderly t dir link) :
    Tallied t (done ++ [link]) (Output.makeLink s link) := by
  have hgrows := h.adds.grows
  have hstep := linkStep_makeLink s link
  generalize Output.makeLink s link = next at hstep ⊢
  cases hstep with
  | taken htaken =>
    exact h.skip rfl rfl rfl fun hwanted =>
      h.mem_wantedPaths_of_isTaken hlocate hdir hc hdone hlink hwanted htaken
  | pointless _ hmissing =>
    refine h.skip rfl rfl rfl fun hwanted => ?_
    rw [ModuleLink.IsWanted, Bool.and_eq_true] at hwanted
    rw [exists?_of_keeps hwanted.2 hgrows.keeps] at hmissing
    cases hmissing
  | made htarget hvacant =>
    have hfree : s.tree.isTaken link.path = false := by
      rw [isTaken, hvacant]
    have hwanted : link.IsWanted t = true := by
      have hbefore : t.isTaken link.path = false := Bool.eq_false_iff.2 fun htaken => by
        rw [isTaken_of_keeps htaken hgrows.keeps] at hfree
        cases hfree
      rw [ModuleLink.IsWanted, hbefore,
        ← h.exists?_target_eq hlocate hdir hc hdone ht hlink hfree, htarget]
      rfl
    refine h.made hwanted (fun hmem => ?_) hvacant
    obtain ⟨first, hfirst⟩ := mem_wantedPaths_iff.1 hmem
    obtain ⟨l, hresolve⟩ := h.leads link.path first hfirst
    rw [hresolve] at hvacant
    cases hvacant
  | failed htarget hnowhere =>
    obtain ⟨name, other, hname, rfl, hsize, -⟩ := hlink
    obtain ⟨p, hp⟩ :=
      hname.resolves_join (locate_of_keeps hlocate hgrows.keeps) hdir hc htarget hsize
    rw [hp] at hnowhere
    cases hnowhere

end Orderly

end Tallied

/-- Links that cannot meet are made as they were wanted from the start. -/
theorem tallied_makeLinks (hlocate : t.locate dir = .ok (d, .directory))
    (hdir : dir.toList.getLast? = some c) (hc : c ≠ '/') (ht : t.HasNoLinks)
    (hlinks : ∀ link ∈ links, IsOrderly t dir link) :
    Tallied t links (Output.makeLinks ⟨t, 0, [], none⟩ links) := by
  obtain ⟨done, -, htallied, hall⟩ := makeLinks_induction links (I := Tallied t) rfl (tallied_nil t)
    fun done link s hdone _ hs => by
      have hsub : ∀ other ∈ done ++ [link], IsOrderly t dir other :=
        fun other hother => hlinks other (hdone.subset hother)
      exact hs.makeLink hlocate hdir hc
        (fun other hother => hsub other (List.mem_append_left _ hother)) ht
        (hsub link (List.mem_append_right _ (List.mem_singleton_self link)))
  exact hall htallied.error?_eq ▸ htallied

/-! ## The links of a graph -/

variable {g : Graph} {root : String} {o : Output}

theorem hasNoLinks_prepared (ht : t.HasNoLinks) (o : Output) : (o.prepared t).HasNoLinks := by
  intro l target hget
  obtain hsame | ⟨-, n, hnew, hdirectory, -⟩ := o.prepared_adds t l
  · exact ht l target (hsame ▸ hget)
  · rw [hnew, hdirectory] at hget
    cases hget

/-- Let there be no links in the tree, let the directory of a project be made, and let every
planned link have a plain name and a path that is not too long; and let no directory of a module
whose link is planned be looked for through a free name in the directory of the project. Then no
link fails. The links that are made are as many as there are paths at which nothing stands once
the directory is there and for which some planned link has a target then; at each of these there
is a link, to the first such target, and nothing else has changed. Making the links once more
makes none and changes nothing. -/
theorem linkModules_makes_wanted (ho : o = .ofRoot root g.settings) (hmade : (o.prepare t).2 = none)
    (ht : t.HasNoLinks)
    (hnames : ∀ p ∈ g.active, ∀ name, Output.linkName? p.2 = some name → IsPlainName name ∧
      (Path.join o.directory name).utf8ByteSize < pathLimit ∧
      ¬ (o.prepared t).PassesFree o.directory p.2.directory) :
    (o.linkModules g t).error? = none ∧
    (o.linkModules g t).created = (wantedPaths (o.prepared t) (o.plannedLinks g)).card ∧
    (∀ path ∈ wantedPaths (o.prepared t) (o.plannedLinks g), ∃ l first,
      firstWanted? (o.prepared t) (o.plannedLinks g) path = some first ∧
        (o.linkModules g t).tree.resolve false path = .ok (.existing l (.link first.target))) ∧
    Adds (IsWantedLink (o.prepared t) (o.linkModules g t).tree (o.plannedLinks g)) (o.prepared t)
      (o.linkModules g t).tree ∧
    (o.linkModules g (o.linkModules g t).tree).error? = none ∧
    (o.linkModules g (o.linkModules g t).tree).created = 0 ∧
    (o.linkModules g (o.linkModules g t).tree).tree = (o.linkModules g t).tree := by
  obtain ⟨d, hlocate⟩ := isDirectory_iff.1 (Output.isDirectory_prepared hmade)
  have hdir : o.directory.toList.getLast? = some 's' :=
    ho ▸ getLast?_directory_ofRoot root g.settings
  have ht' := hasNoLinks_prepared ht o
  have horderly : ∀ link ∈ o.plannedLinks g, IsOrderly (o.prepared t) o.directory link := by
    intro link hlink
    obtain ⟨p, hp, name, hname, rfl⟩ := mem_plannedLinks_iff.1 hlink
    obtain ⟨hplain, hsize, hpasses⟩ := hnames p hp name hname
    exact ⟨name, p.2.directory, hplain, rfl, hsize, hpasses⟩
  have htallied := tallied_makeLinks hlocate hdir (by decide) ht' horderly
  have hsettled := settled_makeLinks (s := ⟨o.prepared t, 0, [], none⟩) (Grows.refl _) rfl
    htallied.error?_eq
  rw [Output.linkModules_eq hmade]
  generalize
    Output.makeLinks ⟨o.prepared t, 0, [], none⟩ (o.plannedLinks g) = s at htallied hsettled ⊢
  have hagain : ∀ link ∈ o.plannedLinks g,
      s.tree.isTaken link.path = true ∨ s.tree.exists? link.target = false := by
    intro link hlink
    cases htaken : s.tree.isTaken link.path with
    | true => exact .inl rfl
    | false =>
      have hmissing := (hsettled link hlink).resolve_left (by simp [htaken])
      exact .inr ((htallied.exists?_target_eq hlocate hdir (by decide) horderly ht'
        (horderly link hlink) htaken).trans hmissing)
  have hdirectory : s.tree.isDirectory o.directory = true :=
    isDirectory_iff.2 ⟨d, locate_of_keeps hlocate htallied.adds.grows.keeps⟩
  obtain ⟨herror, htree, hcreated⟩ := Output.linkModules_of_settled hdirectory hagain
  refine ⟨htallied.error?_eq, htallied.created_eq, fun path hpath => ?_, htallied.adds, herror,
    hcreated, htree⟩
  obtain ⟨first, hfirst⟩ := mem_wantedPaths_iff.1 hpath
  obtain ⟨l, hresolve⟩ := htallied.leads path first hfirst
  exact ⟨l, first, hfirst, hresolve⟩

/-! ## Two projects in one place, and directories that are not where they seem -/

theorem exists_build_namesakes_directories :
    ∃ b : Built, Graph.build [] true namesakes = .ok b ∧
      ∀ p ∈ b.graph.active, ∀ name, Output.linkName? p.2 = some name →
        p.2.directory ∈ ["/ws/a", "/ws/b"] := by
  have hview : (Graph.build [] true namesakes).toOption.map (fun b =>
      b.graph.active.all fun p =>
        (Output.linkName? p.2).isNone || ["/ws/a", "/ws/b"].contains p.2.directory) =
      some true := by
    decide +kernel
  obtain ⟨b, hb, heq⟩ := exists_ok_of_map_eq_some hview
  refine ⟨b, hb, fun p hp name hname => ?_⟩
  have hdirectory := List.all_eq_true.1 heq p hp
  rw [hname] at hdirectory
  simpa using hdirectory

/-- One link is made for both, to the target of the first. -/
theorem linkModules_makes_wanted_namesakes :
    ∃ (b : Built) (o : Output), Graph.build [] true namesakes = .ok b ∧
      o = .ofRoot "/ws" b.graph.settings ∧
      (o.linkModules b.graph namesakesTree).error? = none ∧
      (o.linkModules b.graph namesakesTree).created = 1 ∧
      (∃ l, (o.linkModules b.graph namesakesTree).tree.resolve false
        "/ws/Intermediate/ProjectFiles/lib" = .ok (.existing l (.link "/ws/a/lib"))) ∧
      (o.linkModules b.graph (o.linkModules b.graph namesakesTree).tree).created = 0 := by
  obtain ⟨b, hb, houtput, hnames, hlinks, -⟩ := exists_build_namesakes
  obtain ⟨b', hb', hdirectories⟩ := exists_build_namesakes_directories
  obtain rfl := Except.ok.inj (hb.symm.trans hb')
  have hunlinked : namesakesTree.HasNoLinks := hasNoLinks_of_nodes (by decide)
  have hprepared := hasNoLinks_prepared hunlinked namesakesOutput
  obtain ⟨herror, hcreated, hleads, -, -, hagain, -⟩ :=
    linkModules_makes_wanted houtput.symm prepare_namesakes hunlinked fun p hp name hname => by
      obtain rfl := hnames p hp name hname
      refine ⟨by decide, by decide, hprepared.not_passesFree ?_ _⟩
      have hdirectory := hdirectories p hp "lib" hname
      simp only [List.mem_cons, List.not_mem_nil, or_false] at hdirectory
      obtain hdirectory | hdirectory := hdirectory <;> rw [hdirectory] <;> rfl
  have hpaths : wantedPaths (namesakesOutput.prepared namesakesTree) namesakesLinks =
      {"/ws/Intermediate/ProjectFiles/lib"} := by
    decide +kernel
  rw [hlinks, hpaths] at hcreated hleads
  obtain ⟨l, first, hfirst, hresolve⟩ := hleads _ (Finset.mem_singleton_self _)
  have htarget : (firstWanted? (namesakesOutput.prepared namesakesTree) namesakesLinks
      "/ws/Intermediate/ProjectFiles/lib").map ModuleLink.target = some "/ws/a/lib" := by
    decide +kernel
  rw [hfirst, Option.map_some, Option.some.injEq] at htarget
  rw [htarget] at hresolve
  exact ⟨b, namesakesOutput, hb, houtput.symm, herror, hcreated, ⟨l, hresolve⟩, hagain⟩

/-- The path leads to a place at or below that of a directory. -/
def leadsInside (t : FileTree) (dir path : String) : Bool :=
  match t.locate dir, t.locate path with
  | .ok (d, _), .ok (l, _) => d.isPrefixOf l
  | _, _ => false

/-- The links that are made are not as many as there are paths at which nothing stands before the
directory is made and for which some planned link has a target once it is there, although no link
stands in the tree, each name is plain and in the end no module is in the directory or below
it. -/
def Miscounts (modules : List Module) (t : FileTree) : Prop :=
  ∃ (b : Built) (o : Output), Graph.build [] true modules = .ok b ∧
    o = .ofRoot "/ws" b.graph.settings ∧ (o.prepare t).2 = none ∧ t.HasNoLinks ∧
    (∀ p ∈ b.graph.active, ∀ name, Output.linkName? p.2 = some name → IsPlainName name) ∧
    (∀ p ∈ b.graph.active,
      leadsInside (o.linkModules b.graph t).tree o.directory p.2.directory = false) ∧
    (o.linkModules b.graph t).created ≠ (((o.plannedLinks b.graph).filter fun link =>
      !t.isTaken link.path && (o.prepared t).exists? link.target).map ModuleLink.path).toFinset.card

/-- A toolchain that puts what is generated into the given directory, and included projects by their
directories and names. -/
def placed (intermediate : String) (projects : List (String × String)) : List Module :=
  { Module.plain "t" [] with
    toolchain := some { Toolchain.default with intermediateDirectory := intermediate } } ::
    projects.map fun p =>
      { Module.plain p.1 [] with kind := .native, directory := p.1, subdirectory := some p.2 }

/-- A tree of directories. -/
def treeOf (locations : List Location) : FileTree :=
  locations.foldl (fun t l => t.put l .directory) .empty

theorem miscounts_of_view {modules : List Module} {t : FileTree}
    (hlinks : ∀ q ∈ t.nodes, (q.2 matches .link _) = false)
    (h : (Graph.build [] true modules).toOption.map (fun b =>
      let o := Output.ofRoot "/ws" b.graph.settings
      (o.prepare t).2.isNone &&
        ((b.graph.active.filterMap fun p => Output.linkName? p.2).all fun name =>
          decide (IsPlainName name)) &&
        (b.graph.active.all fun p =>
          !leadsInside (o.linkModules b.graph t).tree o.directory p.2.directory) &&
        decide ((o.linkModules b.graph t).created ≠ (((o.plannedLinks b.graph).filter fun link =>
          !t.isTaken link.path && (o.prepared t).exists? link.target).map
            ModuleLink.path).toFinset.card)) = some true) : Miscounts modules t := by
  obtain ⟨b, hb, heq⟩ := exists_ok_of_map_eq_some h
  simp only [Bool.and_eq_true, List.all_eq_true, decide_eq_true_eq, Option.isNone_iff_eq_none,
    Bool.not_eq_true', List.mem_filterMap, forall_exists_index, and_imp] at heq
  obtain ⟨⟨⟨hmade, hplain⟩, houtside⟩, hcount⟩ := heq
  exact ⟨b, _, hb, rfl, hmade, hasNoLinks_of_nodes hlinks,
    fun p hp name hname => hplain name p hp hname, houtside, hcount⟩

/-- When its directory is made, directories come in that its path only passes, and one of them
may take the place of a link. And a module that was nowhere may be found through a link that has
just been made. -/
theorem exists_miscount :
    Miscounts (placed "ProjectFiles/glfw/../.." [("/ws/a", "glfw")])
      (treeOf [["ws"], ["ws", "a"], ["ws", "a", "glfw"]]) ∧
    Miscounts (placed "Intermediate"
        [("/ws/a", "glfw"), ("/ws/Intermediate/ProjectFiles/glfw/../../b", "x")])
      (treeOf [["ws"], ["ws", "a"], ["ws", "a", "glfw"], ["ws", "b"], ["ws", "b", "x"]]) := by
  refine ⟨miscounts_of_view (by decide) ?_, miscounts_of_view (by decide) ?_⟩
  · decide +kernel
  · decide +kernel

end CMake

end BuildGraph
