import BuildGraph.Proofs.CMake.Scaffold
import BuildGraph.Proofs.Graph.Built
set_option autoImplicit false

/-!
# Where links lead

Links are made only where nothing stands, so among planned links whose paths lead to one place
the first that finds its target there wins, and it keeps the place. As long as the path of each
link with a target leads somewhere, making links never fails, and afterwards every such path that
was free is the path of a link: to the target of the first one. In a directory that is new, each
name that is one ordinary component is free.
-/

namespace BuildGraph

open FileTree

namespace FileTree

variable {t t' : FileTree} {path : String}

/-- The path leads to something, or to a free name. -/
def Resolves (t : FileTree) (path : String) : Prop :=
  ∃ p, t.resolve false path = .ok p

/-- Later the path leads to a free name, or to something that has come in since if the name was
free. -/
theorem Resolves.later (h : t.Resolves path) (hg : Grows t t') :
    (∃ parent name, t'.resolve false path = .ok (.vacant parent name)) ∨
      ∃ l n, t'.resolve false path = .ok (.existing l n) ∧
        (t.isTaken path = false → t.get? l = none) := by
  obtain ⟨p, hp⟩ := h
  cases p with
  | existing l n =>
    refine .inr ⟨l, n, resolve_of_grows hp hg, fun hfree => ?_⟩
    rw [isTaken_iff.2 ⟨l, n, hp⟩] at hfree
    cases hfree
  | vacant parent name =>
    obtain ⟨-, -, hnone⟩ := holds_of_resolve hp
    cases hnow : t'.get? (parent ++ [name]) with
    | none => exact .inl ⟨parent, name, resolve_of_untaken hp hg.keeps hnow⟩
    | some n =>
      exact .inr ⟨_, n, resolve_of_taken hp hg.keeps hnow fun _ _ => rfl, fun _ => hnone⟩

/-- A plain name under which there is something in one directory leads in another one to an entry
or to a free name, if its path there is not too long. -/
theorem IsPlainName.resolves_join {c : Char} {dir other name : String} {d : Location}
    (hname : IsPlainName name) (hlocate : t.locate dir = .ok (d, .directory))
    (hdir : dir.toList.getLast? = some c) (hc : c ≠ '/')
    (hexists : t'.exists? (Path.join other name) = true)
    (hlength : (Path.join dir name).utf8ByteSize < pathLimit) :
    t.Resolves (Path.join dir name) := by
  obtain ⟨hdirectory, -⟩ := resolve_eq_ok_iff.1 (locate_eq_ok_iff.1 hlocate)
  obtain ⟨l, n, hresolve⟩ := exists?_iff.1 hexists
  obtain ⟨htarget, hleads⟩ := resolve_eq_ok_iff.1 hresolve
  have hpath := hdirectory.join hdir hc hname.isAbsolute_eq htarget hlength
  have hentry : IsEntryName name := hname.isEntryName_of_leads hleads
  rw [Resolves, hname.resolve_join hentry hpath hdir hc hlocate]
  cases t.get? (d ++ [name]) with
  | none => exact ⟨_, rfl⟩
  | some n => exact ⟨_, rfl⟩

end FileTree

namespace CMake

variable {t₀ t t' : FileTree} {s : Linking} {links done : List ModuleLink}
  {link winner : ModuleLink} {l : Location} {j : Nat}

/-! ## The first link of a place -/

/-- The link that a place has gone to. Whatever comes before it among the planned links and had a
target from the start stands elsewhere. -/
structure WinsPlace (t₀ t : FileTree) (links : List ModuleLink) (l : Location) (j : Nat)
    (winner : ModuleLink) : Prop where
  getElem?_eq : links[j]? = some winner
  resolve_eq : t.resolve false winner.path = .ok (.existing l (.link winner.target))
  elsewhere : ∀ k < j, ∀ other : ModuleLink, links[k]? = some other →
    t₀.exists? other.target = true →
      ∃ l' n, l' ≠ l ∧ t.resolve false other.path = .ok (.existing l' n)

theorem WinsPlace.grow (h : WinsPlace t₀ t links l j winner) (hg : Grows t t') :
    WinsPlace t₀ t' links l j winner where
  getElem?_eq := h.getElem?_eq
  resolve_eq := resolve_of_grows h.resolve_eq hg
  elsewhere k hk other hother htarget := by
    obtain ⟨l', n, hne, hresolve⟩ := h.elsewhere k hk other hother htarget
    exact ⟨l', n, hne, resolve_of_grows hresolve hg⟩

theorem WinsPlace.append (h : WinsPlace t₀ t done l j winner) (more : List ModuleLink) :
    WinsPlace t₀ t (done ++ more) l j winner where
  getElem?_eq := by
    obtain ⟨hj, -⟩ := List.getElem?_eq_some_iff.1 h.getElem?_eq
    rw [List.getElem?_append_left hj, h.getElem?_eq]
  resolve_eq := h.resolve_eq
  elsewhere k hk other hother := by
    obtain ⟨hj, -⟩ := List.getElem?_eq_some_iff.1 h.getElem?_eq
    rw [List.getElem?_append_left (Nat.lt_trans hk hj)] at hother
    exact h.elsewhere k hk other hother

/-- How things stand when some links have had their turn: `t₀` is the tree at the very start and `t`
the one in which the first link was made. -/
structure Linked (t₀ t : FileTree) (done : List ModuleLink) (s : Linking) : Prop where
  grows : Grows t s.tree
  /-- What has come in has won its place. -/
  won : ∀ l n, t.get? l = none → s.tree.get? l = some n →
    ∃ j winner, WinsPlace t₀ s.tree done l j winner
  /-- Links that had a target have found their places. -/
  placed : s.error? = none → ∀ link ∈ done, t₀.exists? link.target = true →
    ∃ l n, s.tree.resolve false link.path = .ok (.existing l n) ∧
      (t.isTaken link.path = false → t.get? l = none)

theorem linked_nil (t₀ t : FileTree) : Linked t₀ t [] ⟨t, 0, [], none⟩ where
  grows := Grows.refl t
  won l n hnone hget := by
    rw [hnone] at hget
    cases hget
  placed _ _ hlink := absurd hlink List.not_mem_nil

/-- A link that adds nothing leaves things as they stand, if it has found its place. -/
theorem Linked.skip {next : Linking} (h : Linked t₀ t done s) (htree : next.tree = s.tree)
    (herror : next.error? = none → s.error? = none)
    (hlink : next.error? = none → t₀.exists? link.target = true →
      ∃ l n, s.tree.resolve false link.path = .ok (.existing l n) ∧
        (t.isTaken link.path = false → t.get? l = none)) :
    Linked t₀ t (done ++ [link]) next where
  grows := htree ▸ h.grows
  won l n hnone hget := by
    rw [htree] at hget ⊢
    obtain ⟨j, winner, hwins⟩ := h.won l n hnone hget
    exact ⟨j, winner, hwins.append [link]⟩
  placed hnext other hother htarget := by
    rw [htree]
    rcases List.mem_append.1 hother with hother | hother
    · exact h.placed (herror hnext) other hother htarget
    · obtain rfl := List.mem_singleton.1 hother
      exact hlink hnext htarget

/-- A link that has just been made has won its place: those before it stand elsewhere. -/
theorem Linked.winsPlace {parent : Location} {name : String} (h : Linked t₀ t done s)
    (hs : s.error? = none) (hvacant : s.tree.resolve false link.path = .ok (.vacant parent name)) :
    WinsPlace t₀ (s.tree.put (parent ++ [name]) (.link link.target)) (done ++ [link])
      (parent ++ [name]) done.length link := by
  obtain ⟨-, -, hnone⟩ := holds_of_resolve hvacant
  have hgrows := grows_put hnone (.link link.target)
  refine ⟨List.getElem?_concat_length, ?_, fun k hk other hother htarget => ?_⟩
  · exact resolve_of_taken hvacant hgrows.keeps (get?_put_self _ ne_nil_of_vacant _) fun _ _ => rfl
  · rw [List.getElem?_append_left hk] at hother
    obtain ⟨l, n, hresolve, -⟩ := h.placed hs other (List.mem_of_getElem? hother) htarget
    refine ⟨l, n, ?_, resolve_of_grows hresolve hgrows⟩
    rintro rfl
    rw [(holds_of_resolve hresolve).1] at hnone
    cases hnone

theorem Linked.makeLink (h : Linked t₀ t done s) (hs : s.error? = none) (h₀ : Grows t₀ t)
    (hresolves : t₀.exists? link.target = true → t.Resolves link.path) :
    Linked t₀ t (done ++ [link]) (Output.makeLink s link) := by
  have hstep := linkStep_makeLink s link
  have hadds := makeLink_adds s link
  generalize Output.makeLink s link = next at hstep hadds ⊢
  cases hstep with
  | taken htaken =>
    refine h.skip rfl id fun _ htarget => ?_
    obtain ⟨l, n, hresolve⟩ := isTaken_iff.1 htaken
    obtain ⟨parent, name, hvacant⟩ | hplaced := (hresolves htarget).later h.grows
    · rw [hvacant] at hresolve
      cases hresolve
    · exact hplaced
  | pointless _ hmissing =>
    refine h.skip rfl id fun _ htarget => ?_
    rw [exists?_of_keeps htarget (h₀.trans h.grows).keeps] at hmissing
    cases hmissing
  | failed => exact h.skip rfl (fun hnone => nomatch hnone) fun hnone => nomatch hnone
  | @made parent name htarget hvacant =>
    obtain ⟨-, -, hnone⟩ := holds_of_resolve hvacant
    have hgrows := hadds.grows
    have hwins := h.winsPlace hs hvacant
    refine ⟨h.grows.trans hgrows, fun l n hl hget => ?_, fun _ other hother htarget' => ?_⟩
    · cases hbefore : s.tree.get? l with
      | none =>
        have hnew : l = parent ++ [name] := by
          by_contra hne
          rw [get?_put _ _ _ _ ne_nil_of_vacant, if_neg hne, hbefore] at hget
          cases hget
        subst hnew
        exact ⟨done.length, link, hwins⟩
      | some m =>
        obtain ⟨j, winner, hwon⟩ := h.won l m hl hbefore
        exact ⟨j, winner, (hwon.append [link]).grow hgrows⟩
    · rcases List.mem_append.1 hother with hother | hother
      · obtain ⟨l, n, hresolve, hl⟩ := h.placed hs other hother htarget'
        exact ⟨l, n, resolve_of_grows hresolve hgrows, hl⟩
      · obtain rfl := List.mem_singleton.1 hother
        exact ⟨_, _, hwins.resolve_eq, fun _ => h.grows.get?_eq_none hnone⟩

/-- Where the paths of links with a target lead somewhere, all of them are made or find their place
taken, and a place that was free has gone to the first of them. -/
theorem linked_makeLinks (h₀ : Grows t₀ t)
    (hresolves : ∀ link ∈ links,
      (Output.makeLinks ⟨t, 0, [], none⟩ links).tree.exists? link.target = true →
        t.Resolves link.path) :
    (Output.makeLinks ⟨t, 0, [], none⟩ links).error? = none ∧
      Linked t₀ t links (Output.makeLinks ⟨t, 0, [], none⟩ links) := by
  have hgrows := (makeLinks_adds (s := ⟨t, 0, [], none⟩) links rfl).grows
  have hsuccess : (Output.makeLinks ⟨t, 0, [], none⟩ links).error? = none := by
    cases herror : (Output.makeLinks ⟨t, 0, [], none⟩ links).error? with
    | none => rfl
    | some e =>
      obtain ⟨link, hlink, fault, -, htarget, hnowhere⟩ := exists_of_makeLinks_error rfl herror
      obtain ⟨parent, name, hvacant⟩ | ⟨l, n, hexisting, -⟩ :=
        (hresolves link hlink htarget).later hgrows
      · rw [hvacant] at hnowhere
        cases hnowhere
      · rw [hexisting] at hnowhere
        cases hnowhere
  obtain ⟨done, -, hlinked, hall⟩ := makeLinks_induction links (I := Linked t₀ t) rfl
    (linked_nil t₀ t) fun done link s hdone hs hlinked => by
      refine hlinked.makeLink hs h₀ fun htarget => ?_
      have hlink : link ∈ links := hdone.subset (List.mem_append_right done List.mem_cons_self)
      exact hresolves link hlink (exists?_of_keeps htarget (h₀.trans hgrows).keeps)
  obtain rfl := hall hsuccess
  exact ⟨hsuccess, hlinked⟩

/-- The path of a link that had a target and a free place is now the path of a link: to the
target of the first one of that place. -/
theorem Linked.exists_winsPlace {i : Nat} (h : Linked t₀ t links s) (hs : s.error? = none)
    (hi : links[i]? = some link) (htarget : t₀.exists? link.target = true)
    (hfree : t.isTaken link.path = false) :
    ∃ l j winner, j ≤ i ∧ WinsPlace t₀ s.tree links l j winner ∧
      s.tree.resolve false link.path = .ok (.existing l (.link winner.target)) := by
  obtain ⟨l, n, hresolve, hnone⟩ := h.placed hs link (List.mem_of_getElem? hi) htarget
  obtain ⟨j, winner, hwins⟩ := h.won l n (hnone hfree) (holds_of_resolve hresolve).1
  obtain rfl : n = .link winner.target := by
    have hwinner := (holds_of_resolve hwins.resolve_eq).1
    exact Option.some.inj ((holds_of_resolve hresolve).1.symm.trans hwinner)
  refine ⟨l, j, winner, Nat.le_of_not_lt fun hlater => ?_, hwins, hresolve⟩
  -- A link that came after this one would not stand at the same place.
  obtain ⟨l', n', hne, hresolve'⟩ := hwins.elsewhere i hlater link hi htarget
  rw [hresolve] at hresolve'
  obtain ⟨rfl, -⟩ := Place.existing.inj (Except.ok.inj hresolve')
  exact hne rfl

/-! ## The links of a graph -/

/-- A directory in which nothing stands. -/
def IsEmptyDirectory (t : FileTree) (path : String) : Prop :=
  ∃ d, t.locate path = .ok (d, .directory) ∧ ∀ name, t.get? (d ++ [name]) = none

/-- In the directory of a project a plain name under which a module has something leads to an
entry or to a free name, if its path is not too long. -/
theorem resolves_join_of_isPlainName {root directory name : String} {settings : Toolchain}
    (hdirectory : ∃ d, t.locate (Output.ofRoot root settings).directory = .ok (d, .directory))
    (hname : IsPlainName name) (hexists : t'.exists? (Path.join directory name) = true)
    (hlength : (Path.join (Output.ofRoot root settings).directory name).utf8ByteSize < pathLimit) :
    t.Resolves (Path.join (Output.ofRoot root settings).directory name) := by
  obtain ⟨d, hlocate⟩ := hdirectory
  exact hname.resolves_join hlocate (getLast?_directory_ofRoot root settings) (by decide) hexists
    hlength

/-- In an empty directory nothing stands under a plain name. -/
theorem isTaken_join_of_isEmptyDirectory {root name : String} {settings : Toolchain}
    (hempty : IsEmptyDirectory t (Output.ofRoot root settings).directory) (hname : IsPlainName name)
    (hresolves : t.Resolves (Path.join (Output.ofRoot root settings).directory name)) :
    t.isTaken (Path.join (Output.ofRoot root settings).directory name) = false := by
  obtain ⟨d, hlocate, hnone⟩ := hempty
  obtain ⟨p, hp⟩ := hresolves
  obtain ⟨hpath, hleads⟩ := resolve_eq_ok_iff.1 hp
  have hentry : IsEntryName name := hname.isEntryName_of_leads hleads
  have hvacant := hname.resolve_join hentry hpath (getLast?_directory_ofRoot root settings)
    (by decide) hlocate
  rw [hnone name] at hvacant
  rw [isTaken, hvacant]

/-- Let the directory of a project be made, and let every planned link that finds a target have a
plain name, or another path that leads to something or to a free name. Then no link fails, and
each planned link whose target existed from the start and whose path was free, as under any plain
name in a directory that is empty, has a link at its path: to the target of the first planned
link of that place that found one, which comes no later than the link itself. -/
theorem links_lead_to_first_target {g : Graph} {root : String} {o : Output}
    (ho : o = .ofRoot root g.settings) (hmade : (o.prepare t).2 = none)
    (hnames : ∀ p ∈ g.active, ∀ name, Output.linkName? p.2 = some name →
      (o.linkModules g t).tree.exists? (Path.join p.2.directory name) = true →
        IsPlainName name ∧ (Path.join o.directory name).utf8ByteSize < pathLimit ∨
          (o.prepared t).Resolves (Path.join o.directory name)) :
    (o.linkModules g t).error? = none ∧
      ∀ i link, (o.plannedLinks g)[i]? = some link → t.exists? link.target = true →
        ((o.prepared t).isTaken link.path = false ∨
          IsEmptyDirectory (o.prepared t) o.directory ∧
            ∃ name, IsPlainName name ∧ link.path = Path.join o.directory name) →
        ∃ l j winner, j ≤ i ∧ WinsPlace t (o.linkModules g t).tree (o.plannedLinks g) l j winner ∧
          (o.linkModules g t).tree.resolve false link.path =
            .ok (.existing l (.link winner.target)) := by
  have hdirectory := isDirectory_iff.1 (Output.isDirectory_prepared hmade)
  rw [Output.linkModules_eq hmade] at hnames ⊢
  subst ho
  have hresolves : ∀ link ∈ (Output.ofRoot root g.settings).plannedLinks g,
      (Output.makeLinks ⟨(Output.ofRoot root g.settings).prepared t, 0, [], none⟩
        ((Output.ofRoot root g.settings).plannedLinks g)).tree.exists? link.target = true →
      ((Output.ofRoot root g.settings).prepared t).Resolves link.path := by
    intro link hlink htarget
    obtain ⟨p, hp, name, hname, rfl⟩ := mem_plannedLinks_iff.1 hlink
    obtain ⟨hplain, hlength⟩ | hresolves := hnames p hp name hname htarget
    · exact resolves_join_of_isPlainName hdirectory hplain htarget hlength
    · exact hresolves
  obtain ⟨hsuccess, hlinked⟩ := linked_makeLinks (Output.grows_prepared _ t) hresolves
  refine ⟨hsuccess, fun i link hi htarget hplace => ?_⟩
  have hfree : ((Output.ofRoot root g.settings).prepared t).isTaken link.path = false := by
    obtain hfree | ⟨hempty, name, hname, hpath⟩ := hplace
    · exact hfree
    · rw [hpath]
      refine isTaken_join_of_isEmptyDirectory hempty hname
        (hpath ▸ hresolves link (List.mem_of_getElem? hi) ?_)
      exact exists?_of_keeps htarget ((Output.grows_prepared _ t).trans hlinked.grows).keeps
  exact hlinked.exists_winsPlace hsuccess hi htarget hfree

/-! ## Two projects with directories of one name -/

/-- A toolchain and two included projects in directories of one name. -/
def namesakes : List Module :=
  [.plainToolchain "t" [],
    { Module.plain "a" [] with kind := .native, directory := "/ws/a", subdirectory := some "lib" },
    { Module.plain "b" [] with kind := .native, directory := "/ws/b", subdirectory := some "lib" }]

/-- A workspace that holds both directories. -/
def namesakesTree : FileTree :=
  ([["ws"], ["ws", "a"], ["ws", "a", "lib"], ["ws", "b"], ["ws", "b", "lib"]] : List Location).foldl
    (fun t l => t.put l .directory) .empty

/-- Where their project goes. -/
def namesakesOutput : Output := ⟨"/ws/Intermediate/ProjectFiles"⟩

/-- The links planned for them. -/
def namesakesLinks : List ModuleLink :=
  [⟨"/ws/Intermediate/ProjectFiles/lib", "/ws/a/lib"⟩,
    ⟨"/ws/Intermediate/ProjectFiles/lib", "/ws/b/lib"⟩]

theorem prepare_namesakes : (namesakesOutput.prepare namesakesTree).2 = none := by
  rfl

/-- What the build of the two projects comes to. -/
theorem exists_build_namesakes :
    ∃ b : Built, Graph.build [] true namesakes = .ok b ∧
      Output.ofRoot "/ws" b.graph.settings = namesakesOutput ∧
      (∀ p ∈ b.graph.active, ∀ name, Output.linkName? p.2 = some name → name = "lib") ∧
      namesakesOutput.plannedLinks b.graph = namesakesLinks ∧
      namesakesOutput.linkModules b.graph namesakesTree =
        Output.makeLinks ⟨namesakesOutput.prepared namesakesTree, 0, [], none⟩ namesakesLinks := by
  have hview : (Graph.build [] true namesakes).toOption.map (fun b =>
      (Output.ofRoot "/ws" b.graph.settings, b.graph.active.filterMap fun p => Output.linkName? p.2,
        namesakesOutput.plannedLinks b.graph)) =
      some (namesakesOutput, ["lib", "lib"], namesakesLinks) := by
    decide +kernel
  obtain ⟨b, hb, heq⟩ := exists_ok_of_map_eq_some hview
  obtain ⟨houtput, heq⟩ := Prod.mk.inj heq
  obtain ⟨hnames, hlinks⟩ := Prod.mk.inj heq
  refine ⟨b, hb, houtput, fun p hp name hname => ?_, hlinks,
    hlinks ▸ Output.linkModules_eq prepare_namesakes⟩
  have hmem : name ∈ ["lib", "lib"] := hnames ▸ List.mem_filterMap.2 ⟨p, hp, hname⟩
  simpa using hmem

theorem isEmptyDirectory_namesakes :
    IsEmptyDirectory (namesakesOutput.prepared namesakesTree) namesakesOutput.directory := by
  refine ⟨["ws", "Intermediate", "ProjectFiles"], by rfl, fun name => ?_⟩
  have hnodes : (namesakesOutput.prepared namesakesTree).nodes.map Prod.fst =
      [["ws"], ["ws", "Intermediate"], ["ws", "Intermediate", "ProjectFiles"], ["ws", "a"],
        ["ws", "a", "lib"], ["ws", "b"], ["ws", "b", "lib"]] := by
    rfl
  refine Option.eq_none_iff_forall_ne_some.2 fun n hget => ?_
  have hmem := List.mem_map_of_mem (f := Prod.fst) ((get?_eq_some_iff _ (by simp)).1 hget)
  rw [hnodes] at hmem
  simp at hmem

/-- The second link finds its place taken, and its path leads where the first one does. -/
theorem links_lead_to_first_target_namesakes :
    ∃ (b : Built) (o : Output), Graph.build [] true namesakes = .ok b ∧
      o = .ofRoot "/ws" b.graph.settings ∧
      (o.linkModules b.graph namesakesTree).error? = none ∧
      ∃ l j winner, j ≤ 1 ∧
        WinsPlace namesakesTree (o.linkModules b.graph namesakesTree).tree
          (o.plannedLinks b.graph) l j winner ∧
        (o.linkModules b.graph namesakesTree).tree.resolve false
          "/ws/Intermediate/ProjectFiles/lib" = .ok (.existing l (.link winner.target)) := by
  obtain ⟨b, hb, houtput, hnames, hlinks, -⟩ := exists_build_namesakes
  obtain ⟨hsuccess, hlead⟩ := links_lead_to_first_target houtput.symm prepare_namesakes
    fun p hp name hname _ => by
      obtain rfl := hnames p hp name hname
      exact .inl ⟨by decide, by decide⟩
  refine ⟨b, namesakesOutput, hb, houtput.symm, hsuccess, ?_⟩
  exact hlead 1 ⟨"/ws/Intermediate/ProjectFiles/lib", "/ws/b/lib"⟩ (by rw [hlinks]; rfl) (by rfl)
    (.inr ⟨isEmptyDirectory_namesakes, "lib", by decide, by decide⟩)

/-- In a strict build too two included projects may want one name for their links. The second one
then gets no link, although its directory exists. -/
theorem exists_link_to_other_target :
    ∃ (b : Built) (o : Output), Graph.build [] true namesakes = .ok b ∧
      o = .ofRoot "/ws" b.graph.settings ∧
      namesakesTree.exists? o.directory = false ∧ (o.prepare namesakesTree).2 = none ∧
      ∃ link : ModuleLink, link ∈ o.plannedLinks b.graph ∧
        namesakesTree.exists? link.target = true ∧
        ¬ ∃ l, (o.linkModules b.graph namesakesTree).tree.resolve false link.path =
          .ok (.existing l (.link link.target)) := by
  obtain ⟨b, hb, houtput, -, hlinks, hrun⟩ := exists_build_namesakes
  have hresolve : (Output.makeLinks ⟨namesakesOutput.prepared namesakesTree, 0, [], none⟩
      namesakesLinks).tree.resolve false "/ws/Intermediate/ProjectFiles/lib" =
      .ok (.existing ["ws", "Intermediate", "ProjectFiles", "lib"] (.link "/ws/a/lib")) := by
    rfl
  refine ⟨b, namesakesOutput, hb, houtput.symm, by rfl, prepare_namesakes,
    ⟨"/ws/Intermediate/ProjectFiles/lib", "/ws/b/lib"⟩, ?_, by rfl, ?_⟩
  · rw [hlinks]
    exact List.mem_cons_of_mem _ List.mem_cons_self
  · intro hlink
    obtain ⟨l, hlink⟩ := hlink
    rw [hrun, hresolve] at hlink
    obtain ⟨-, hnode⟩ := Place.existing.inj (Except.ok.inj hlink)
    exact absurd (Node.link.inj hnode) (by decide)

end CMake

end BuildGraph
