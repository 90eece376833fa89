import BuildGraph.CMake.Output
import BuildGraph.Proofs.FileTree.Directories
set_option autoImplicit false

/-!
# Making links

Links are made one after the other, each unless its name is taken or its target does not exist, and
the first that cannot be made ends it. Where all could be made, making them again changes nothing.
-/

namespace BuildGraph.CMake

open FileTree

variable {t₀ : FileTree} {s : Linking} {link : ModuleLink} {links : List ModuleLink}

/-! ## One link -/

/-- What becomes of one link. -/
inductive LinkStep (s : Linking) (link : ModuleLink) : Linking → Prop
  /-- There is something at its path. -/
  | taken (h : s.tree.isTaken link.path = true) :
      LinkStep s link { s with events := s.events ++ [.linkTaken link.path] }
  /-- Its target does not exist. -/
  | pointless (hfree : s.tree.isTaken link.path = false)
      (htarget : s.tree.exists? link.target = false) :
      LinkStep s link { s with events := s.events ++ [.linkPointless link.target] }
  | made {parent : Location} {name : String} (htarget : s.tree.exists? link.target = true)
      (hfree : s.tree.resolve false link.path = .ok (.vacant parent name)) :
      LinkStep s link
        { s with
          tree := s.tree.put (parent ++ [name]) (.link link.target)
          created := s.created + 1 }
  /-- Its path leads nowhere. -/
  | failed {fault : Fault} (htarget : s.tree.exists? link.target = true)
      (hnowhere : s.tree.resolve false link.path = .error fault) :
      LinkStep s link { s with error? := some (.io link.path fault) }

theorem linkStep_makeLink (s : Linking) (link : ModuleLink) :
    LinkStep s link (Output.makeLink s link) := by
  unfold Output.makeLink
  cases htaken : s.tree.isTaken link.path with
  | true => exact .taken htaken
  | false =>
    cases htarget : s.tree.exists? link.target with
    | false => exact .pointless htaken htarget
    | true =>
      simp only [Bool.false_eq_true, if_false, Bool.not_true, FileTree.makeLink]
      cases hresolve : s.tree.resolve false link.path with
      | error fault => exact .failed htarget hresolve
      | ok p =>
        cases p with
        | existing l n =>
          rw [isTaken_iff.2 ⟨l, n, hresolve⟩] at htaken
          cases htaken
        | vacant parent name => exact .made htarget hresolve

/-! ## All links -/

/-- What holds before the first link and is kept by each holds where it ends: behind all links, or
behind those up to the one that could not be made. -/
theorem makeLinks_induction (links : List ModuleLink) {I : List ModuleLink → Linking → Prop}
    (hs : s.error? = none) (hstart : I [] s)
    (hstep : ∀ done link s, done ++ [link] <+: links → s.error? = none → I done s →
      I (done ++ [link]) (Output.makeLink s link)) :
    ∃ done, done <+: links ∧ I done (Output.makeLinks s links) ∧
      ((Output.makeLinks s links).error? = none → done = links) := by
  suffices H : ∀ rest done s, done ++ rest = links → s.error? = none → I done s →
      ∃ done', done' <+: links ∧ I done' (Output.makeLinks s rest) ∧
        ((Output.makeLinks s rest).error? = none → done' = links) from
    H links [] s rfl hs hstart
  intro rest
  induction rest with
  | nil =>
    intro done s hlinks _ hI
    rw [List.append_nil] at hlinks
    subst hlinks
    exact ⟨done, List.prefix_rfl, hI, fun _ => rfl⟩
  | cons link rest ih =>
    intro done s hlinks hs hI
    have hsplit : done ++ [link] ++ rest = links := by
      rw [List.append_assoc, List.singleton_append, hlinks]
    have hdone : done ++ [link] <+: links := ⟨rest, hsplit⟩
    have hnext := hstep done link s hdone hs hI
    rw [Output.makeLinks]
    cases herror : (Output.makeLink s link).error? with
    | none =>
      simp only [Option.isSome_none, Bool.false_eq_true, if_false]
      exact ih (done ++ [link]) _ hsplit herror hnext
    | some e =>
      simp only [Option.isSome_some, if_true]
      refine ⟨done ++ [link], hdone, hnext, fun hnone => ?_⟩
      rw [hnone] at herror
      cases herror

/-- Links that stand where the paths of some planned ones lead. Their targets exist, and no link
leads to itself. -/
def LeadsToLink (t : FileTree) (links : List ModuleLink) (l : Location) (n : Node) : Prop :=
  ∃ link ∈ links, n = .link link.target ∧ link.path ≠ link.target ∧
    t.exists? link.target = true ∧ t.resolve false link.path = .ok (.existing l n)

theorem LeadsToLink.keep {t t' : FileTree} {more : List ModuleLink} {l : Location} {n : Node}
    (h : LeadsToLink t links l n) (hk : Keeps t t') (hsub : links ⊆ more) :
    LeadsToLink t' more l n := by
  obtain ⟨link, hlink, hn, hne, htarget, hresolve⟩ := h
  have hnow := hk.link (hn ▸ (holds_of_resolve hresolve).1)
  exact ⟨link, hsub hlink, hn, hne, exists?_of_keeps htarget hk,
    resolve_of_keeps hresolve hk (hn ▸ hnow)⟩

theorem makeLink_adds (s : Linking) (link : ModuleLink) :
    Adds (LeadsToLink (Output.makeLink s link).tree [link]) s.tree
      (Output.makeLink s link).tree := by
  have hstep := linkStep_makeLink s link
  generalize Output.makeLink s link = next at hstep ⊢
  cases hstep with
  | taken => exact Adds.refl _ _
  | pointless => exact Adds.refl _ _
  | failed => exact Adds.refl _ _
  | made htarget hfree =>
    obtain ⟨-, -, hnone⟩ := holds_of_resolve hfree
    have hgrows := grows_put hnone (.link link.target)
    refine adds_put hnone ⟨link, List.mem_singleton_self link, rfl, fun hself => ?_,
      exists?_of_keeps htarget hgrows.keeps, ?_⟩
    · obtain ⟨l, n, htaken⟩ := isTaken_iff.1 (isTaken_of_exists? htarget)
      rw [hself, htaken] at hfree
      cases hfree
    · exact resolve_of_taken hfree hgrows.keeps (get?_put_self _ ne_nil_of_vacant _) fun _ _ => rfl

/-- Making links adds links that were planned, each where its path leads afterwards, and nothing
else, wherever it ends. -/
theorem makeLinks_adds (links : List ModuleLink) (hs : s.error? = none) :
    Adds (LeadsToLink (Output.makeLinks s links).tree links) s.tree
      (Output.makeLinks s links).tree := by
  obtain ⟨done, hdone, hadds, -⟩ := makeLinks_induction links
    (I := fun done next => Adds (LeadsToLink next.tree done) s.tree next.tree) hs (Adds.refl _ _)
    fun done link next _ _ hadds => by
      have hlast := makeLink_adds next link
      refine (hadds.mono fun l n hnew => ?_).trans (hlast.mono fun l n hnew => ?_)
      · exact hnew.keep hlast.grows.keeps (List.subset_append_left done [link])
      · exact hnew.keep (Grows.refl _).keeps (List.subset_append_right done [link])
  exact hadds.mono fun l n hnew => hnew.keep (Grows.refl _).keeps hdone.subset

/-- It ends early only at a link whose target exists and whose path leads nowhere. -/
theorem exists_of_makeLinks_error {e : Error} (hs : s.error? = none)
    (h : (Output.makeLinks s links).error? = some e) :
    ∃ link ∈ links, ∃ fault, e = .io link.path fault ∧
      (Output.makeLinks s links).tree.exists? link.target = true ∧
      (Output.makeLinks s links).tree.resolve false link.path = .error fault := by
  obtain ⟨done, hdone, hcause, -⟩ := makeLinks_induction links
    (I := fun done next => ∀ e, next.error? = some e → ∃ link ∈ done, ∃ fault,
      e = .io link.path fault ∧ next.tree.exists? link.target = true ∧
        next.tree.resolve false link.path = .error fault) hs
    (fun e he => by rw [hs] at he; cases he)
    fun done link next _ hnone _ e he => by
      have hstep := linkStep_makeLink next link
      generalize Output.makeLink next link = after at hstep he ⊢
      cases hstep with
      | taken => rw [hnone] at he; cases he
      | pointless => rw [hnone] at he; cases he
      | made => rw [hnone] at he; cases he
      | failed htarget hnowhere =>
        obtain rfl := Option.some.inj he
        exact ⟨link, List.mem_append_right done (List.mem_singleton_self link), _, rfl, htarget,
          hnowhere⟩
  obtain ⟨link, hlink, hcause⟩ := hcause e h
  exact ⟨link, hdone.subset hlink, hcause⟩

/-! ## Making links again -/

/-- Links that could all be made have found their places, but for those without a target. -/
theorem settled_makeLinks (h₀ : Grows t₀ s.tree) (hs : s.error? = none)
    (h : (Output.makeLinks s links).error? = none) :
    ∀ link ∈ links, (Output.makeLinks s links).tree.isTaken link.path = true ∨
      t₀.exists? link.target = false := by
  obtain ⟨done, -, ⟨-, hsettled⟩, hall⟩ := makeLinks_induction links
    (I := fun done next => Grows t₀ next.tree ∧ (next.error? = none → ∀ link ∈ done,
      next.tree.isTaken link.path = true ∨ t₀.exists? link.target = false)) hs
    ⟨h₀, fun _ _ hlink => absurd hlink List.not_mem_nil⟩
    fun done link next _ hnext hdone => by
      obtain ⟨hgrows, hsettled⟩ := hdone
      have hstep := linkStep_makeLink next link
      have hmore := (makeLink_adds next link).grows
      generalize Output.makeLink next link = after at hstep hmore ⊢
      refine ⟨hgrows.trans hmore, fun hafter other hother => ?_⟩
      rcases List.mem_append.1 hother with hother | hother
      · exact (hsettled hnext other hother).imp_left fun htaken =>
          isTaken_of_keeps htaken hmore.keeps
      · obtain rfl := List.mem_singleton.1 hother
        cases hstep with
        | taken htaken => exact .inl htaken
        | pointless _ hmissing =>
          refine .inr (Bool.eq_false_iff.2 fun hexists => ?_)
          rw [exists?_of_keeps hexists hgrows.keeps] at hmissing
          cases hmissing
        | made htarget hfree =>
          have hplaced := resolve_of_taken hfree hmore.keeps
            (get?_put_self _ ne_nil_of_vacant (.link other.target)) fun _ _ => rfl
          exact .inl (isTaken_iff.2 ⟨_, _, hplaced⟩)
        | failed => cases hafter
  obtain rfl := hall h
  exact hsettled h

theorem makeLink_of_settled {link : ModuleLink}
    (h : s.tree.isTaken link.path = true ∨ s.tree.exists? link.target = false) :
    (Output.makeLink s link).tree = s.tree ∧ (Output.makeLink s link).created = s.created ∧
      (Output.makeLink s link).error? = s.error? := by
  unfold Output.makeLink
  cases htaken : s.tree.isTaken link.path with
  | true => exact ⟨rfl, rfl, rfl⟩
  | false =>
    rw [htaken] at h
    have hmissing := h.resolve_left Bool.false_ne_true
    simp [hmissing]

/-- Where each link has its place or no target, making them changes nothing. -/
theorem makeLinks_of_settled (hs : s.error? = none)
    (h : ∀ link ∈ links, s.tree.isTaken link.path = true ∨ s.tree.exists? link.target = false) :
    (Output.makeLinks s links).error? = none ∧ (Output.makeLinks s links).tree = s.tree ∧
      (Output.makeLinks s links).created = s.created := by
  obtain ⟨-, -, hsame, -⟩ := makeLinks_induction links
    (I := fun _ next => next.error? = none ∧ next.tree = s.tree ∧ next.created = s.created) hs
    ⟨hs, rfl, rfl⟩
    fun done link next hdone _ hsame => by
      obtain ⟨hnext, htree, hcreated⟩ := hsame
      have hsettled := h link (hdone.subset (List.mem_append_right done List.mem_cons_self))
      rw [← htree] at hsettled
      obtain ⟨htree', hcreated', hnext'⟩ := makeLink_of_settled hsettled
      exact ⟨hnext'.trans hnext, htree'.trans htree, hcreated'.trans hcreated⟩
  exact hsame

end BuildGraph.CMake
