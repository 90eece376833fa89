import BuildGraph.Lookup
import BuildGraph.Proofs.Descriptor.Instantiation
import BuildGraph.Workspace.Search
set_option autoImplicit false

/-!
# Files that are read side by side

The order in which descriptors are read has no part in what is found: as long as each of them can
be read, the modules and the graph are the same along every schedule, and only what is reported
comes in another order. If some cannot be read there is no graph along any schedule. The reason
that is given is that of one of them, and each of them is the one along some schedule
(`exists_searchAlong_error_iff`).
-/

namespace BuildGraph

/-! ## Pairs of a name and a value -/

theorem Lookup.lookup_map_of_mem {κ ν : Type} [BEq κ] [LawfulBEq κ] (f : κ → ν) {key : κ}
    {keys : List κ} (h : key ∈ keys) : (keys.map fun k => (k, f k)).lookup key = some (f key) := by
  induction keys with
  | nil => exact absurd h List.not_mem_nil
  | cons k keys ih =>
    rw [List.map_cons, List.lookup_cons]
    cases hkey : key == k with
    | true => rw [eq_of_beq hkey]
    | false =>
      refine ih ((List.mem_cons.1 h).resolve_left fun heq => ?_)
      rw [heq, beq_self_eq_true] at hkey
      cases hkey

namespace Workspace

variable {σ τ : Schedule} {t : FileTree} {root path : String} {ignored files : List String}
  {r : Registry} {c : Context} {w : Workspace} {s : Settings} {p q : Reading} {found : Found}
  {f : Failure} {e : Error}

theorem Schedule.mem_order : path ∈ σ.order files ↔ path ∈ files :=
  (σ.perm files).mem_iff

/-! ## Reading along a list -/

/-- The modules that a file declares, if it can be read. -/
def declaredIn (t : FileTree) (r : Registry) (c : Context) (path : String) : List Module :=
  (readFile t r c path).toOption.getD []

/-- What is reported of a file that has been read. -/
def loadedEvent (t : FileTree) (r : Registry) (c : Context) (path : String) : Event :=
  .descriptorLoaded path (declaredIn t r c path).length

/-- A file can be read, and its modules are taken in. -/
def IsReadable (t : FileTree) (r : Registry) (c : Context) (path : String) : Prop :=
  ∃ ms, readFile t r c path = .ok ms

theorem readFile_of_isReadable (h : IsReadable t r c path) :
    readFile t r c path = .ok (declaredIn t r c path) := by
  obtain ⟨ms, hms⟩ := h
  rw [declaredIn, hms]
  rfl

theorem add_of_isReadable (h : IsReadable t r c path) :
    p.add t r c path = .ok ⟨p.declared ++ [(path, declaredIn t r c path)],
      p.events ++ [loadedEvent t r c path]⟩ := by
  rw [Reading.add, readFile_of_isReadable h]
  rfl

theorem add_of_error (h : readFile t r c path = .error e) :
    p.add t r c path = .error ⟨e, p.events⟩ := by
  rw [Reading.add, h]

theorem isReadable_or_error (t : FileTree) (r : Registry) (c : Context) (path : String) :
    IsReadable t r c path ∨ ∃ e, readFile t r c path = .error e := by
  cases hread : readFile t r c path with
  | ok ms => exact .inl ⟨ms, hread⟩
  | error e => exact .inr ⟨e, rfl⟩

/-- What has been read once all files of a list were read. -/
theorem foldlM_add_of_isReadable (h : ∀ path ∈ files, IsReadable t r c path) :
    files.foldlM (fun (p : Reading) path => p.add t r c path) p =
      .ok ⟨p.declared ++ files.map fun path => (path, declaredIn t r c path),
        p.events ++ files.map (loadedEvent t r c)⟩ := by
  induction files generalizing p with
  | nil => simp [pure, Except.pure]
  | cons path files ih =>
    obtain ⟨hpath, hfiles⟩ := List.forall_mem_cons.1 h
    rw [List.foldlM_cons, add_of_isReadable hpath]
    refine (ih hfiles).trans ?_
    simp

theorem isReadable_of_foldlM_add
    (h : files.foldlM (fun (p : Reading) path => p.add t r c path) p = .ok q) :
    ∀ path ∈ files, IsReadable t r c path := by
  induction files generalizing p with
  | nil => exact fun _ hmem => absurd hmem List.not_mem_nil
  | cons path files ih =>
    rw [List.foldlM_cons] at h
    rcases isReadable_or_error t r c path with hread | ⟨e, hread⟩
    · rw [add_of_isReadable hread] at h
      exact List.forall_mem_cons.2 ⟨hread, ih h⟩
    · rw [add_of_error hread] at h
      cases h

/-- Where reading comes to an end early, one of the files cannot be read. -/
theorem exists_error_of_foldlM_add
    (h : files.foldlM (fun (p : Reading) path => p.add t r c path) p = .error f) :
    ∃ path ∈ files, readFile t r c path = .error f.error := by
  induction files generalizing p with
  | nil => cases h
  | cons path files ih =>
    rw [List.foldlM_cons] at h
    rcases isReadable_or_error t r c path with hread | ⟨e, hread⟩
    · rw [add_of_isReadable hread] at h
      obtain ⟨other, hmem, hother⟩ := ih h
      exact ⟨other, List.mem_cons_of_mem path hmem, hother⟩
    · rw [add_of_error hread] at h
      obtain rfl := Except.error.inj h
      exact ⟨path, List.mem_cons_self, hread⟩

/-! ## Searching along a schedule -/

/-- What a search finds if all descriptors can be read: what they declare, in the order of their
paths whatever the schedule, and with a report of each in the order of the schedule. -/
def foundAlong (σ : Schedule) (t : FileTree) (root : String) (ignored : List String) (r : Registry)
    (c : Context) : Found where
  modules := ((descriptorFiles t root ignored).flatMap (declaredIn t r c)).map (complete t)
  events := .descriptorsFound (descriptorFiles t root ignored).length ::
    (σ.order (descriptorFiles t root ignored)).map (loadedEvent t r c)

theorem modules_of_declared (files : List String) (events : List Event) :
    (Reading.mk ((σ.order files).map fun path => (path, declaredIn t r c path))
      events).modules files = files.flatMap (declaredIn t r c) := by
  refine List.flatMap_congr fun path hpath => ?_
  rw [Lookup.lookup_map_of_mem _ (Schedule.mem_order.2 hpath), Option.getD_some]

theorem searchAlong_eq_ok_iff : searchAlong σ t root ignored r c = .ok found ↔
    (∀ path ∈ descriptorFiles t root ignored, IsReadable t r c path) ∧
      found = foundAlong σ t root ignored r c := by
  unfold searchAlong
  rw [bind_eq_ok_iff]
  constructor
  · rintro ⟨reading, hread, hfound⟩
    have hall : ∀ path ∈ descriptorFiles t root ignored, IsReadable t r c path :=
      fun path hpath => isReadable_of_foldlM_add hread path (Schedule.mem_order.2 hpath)
    rw [foldlM_add_of_isReadable fun path hpath => hall path (Schedule.mem_order.1 hpath)] at hread
    obtain rfl := Except.ok.inj hread
    obtain rfl := Except.ok.inj hfound
    exact ⟨hall, by rw [Reading.start, List.nil_append, modules_of_declared]; rfl⟩
  · rintro ⟨hall, rfl⟩
    refine ⟨_,
      foldlM_add_of_isReadable fun path hpath => hall path (Schedule.mem_order.1 hpath), ?_⟩
    rw [Reading.start, List.nil_append, modules_of_declared]
    rfl

/-- A file below a root that is a descriptor by its name cannot be read, for a reason. -/
structure IsBroken (t : FileTree) (root : String) (ignored : List String) (r : Registry)
    (c : Context) (path : String) (e : Error) : Prop where
  mem : path ∈ descriptorFiles t root ignored
  readFile_eq : readFile t r c path = .error e

theorem IsBroken.not_isReadable (h : IsBroken t root ignored r c path e) :
    ¬ IsReadable t r c path := by
  rintro ⟨ms, hms⟩
  rw [h.readFile_eq] at hms
  cases hms

theorem IsBroken.error_eq {e' : Error} (h : IsBroken t root ignored r c path e)
    (h' : IsBroken t root ignored r c path e') : e = e' :=
  Except.error.inj (h.readFile_eq.symm.trans h'.readFile_eq)

/-- A search comes to an end early only at a file that cannot be read. -/
theorem exists_isBroken_of_searchAlong (h : searchAlong σ t root ignored r c = .error f) :
    ∃ path, IsBroken t root ignored r c path f.error := by
  unfold searchAlong at h
  dsimp only at h
  cases hread : (σ.order (descriptorFiles t root ignored)).foldlM
      (fun (p : Reading) path => p.add t r c path) (.start (descriptorFiles t root ignored)) with
  | error f' =>
    rw [hread] at h
    obtain rfl := Except.error.inj h
    obtain ⟨path, hpath, hbroken⟩ := exists_error_of_foldlM_add hread
    exact ⟨path, Schedule.mem_order.1 hpath, hbroken⟩
  | ok reading =>
    rw [hread] at h
    cases h

/-- Whichever file cannot be read, a search that starts with it reports it. -/
theorem IsBroken.searchAlong_startingWith (h : IsBroken t root ignored r c path e) :
    searchAlong (.startingWith path) t root ignored r c =
      .error ⟨e, [.descriptorsFound (descriptorFiles t root ignored).length]⟩ := by
  have horder : (Schedule.startingWith path).order (descriptorFiles t root ignored) =
      path :: (descriptorFiles t root ignored).erase path := if_pos h.mem
  unfold searchAlong
  dsimp only
  rw [horder, List.foldlM_cons, add_of_error h.readFile_eq]
  rfl

/-- The reasons for which a search may come to an end early are those for which its files cannot be
read, each of them along some schedule. -/
theorem exists_searchAlong_error_iff :
    (∃ σ events, searchAlong σ t root ignored r c = .error ⟨e, events⟩) ↔
      ∃ path, IsBroken t root ignored r c path e := by
  constructor
  · rintro ⟨σ, events, h⟩
    exact exists_isBroken_of_searchAlong h
  · rintro ⟨path, h⟩
    exact ⟨.startingWith path, _, h.searchAlong_startingWith⟩

/-! ## Graphs along a schedule -/

theorem graphAlong_eq_ok_iff {b : Built} : w.graphAlong σ t s = .ok b ↔
    ∃ found, searchAlong σ t w.root s.ignored .standard w.context = .ok found ∧
      ∃ b₀, Graph.build s.systemLibraries w.strict found.modules = .ok b₀ ∧
        b = { b₀ with events := found.events ++ b₀.events } := by
  unfold graphAlong
  rw [bind_eq_ok_iff]
  refine exists_congr fun found => and_congr_right fun _ => ?_
  cases Graph.build s.systemLibraries w.strict found.modules with
  | ok b₀ => simp [pure, Except.pure, eq_comm]
  | error f => simp

/-- The graph of a workspace is the same along every schedule. -/
theorem exists_graphAlong_eq_ok {b : Built} (h : w.graphAlong σ t s = .ok b) (τ : Schedule) :
    ∃ events, w.graphAlong τ t s = .ok { b with events := events } := by
  obtain ⟨found, hfound, b₀, hbuild, rfl⟩ := graphAlong_eq_ok_iff.1 h
  obtain ⟨hall, rfl⟩ := searchAlong_eq_ok_iff.1 hfound
  exact ⟨_, graphAlong_eq_ok_iff.2 ⟨_, searchAlong_eq_ok_iff.2 ⟨hall, rfl⟩, b₀, hbuild, rfl⟩⟩

/-- Whichever file cannot be read, there is no graph for that reason if it is read first. -/
theorem IsBroken.graphAlong_startingWith
    (h : IsBroken t w.root s.ignored .standard w.context path e) :
    w.graphAlong (.startingWith path) t s =
      .error ⟨e, [.descriptorsFound (descriptorFiles t w.root s.ignored).length]⟩ := by
  unfold graphAlong
  rw [h.searchAlong_startingWith]
  rfl

/-- There is no graph if a file cannot be read, or if what was found cannot be resolved. -/
theorem of_graphAlong_eq_error (h : w.graphAlong σ t s = .error f) :
    (∃ path, IsBroken t w.root s.ignored .standard w.context path f.error) ∨
      (∀ path ∈ descriptorFiles t w.root s.ignored, IsReadable t .standard w.context path) ∧
        ∃ f₀, f₀.error = f.error ∧ Graph.build s.systemLibraries w.strict
          (foundAlong σ t w.root s.ignored .standard w.context).modules = .error f₀ := by
  unfold graphAlong at h
  cases hfound : searchAlong σ t w.root s.ignored .standard w.context with
  | error f' =>
    rw [hfound] at h
    obtain rfl := Except.error.inj h
    exact .inl (exists_isBroken_of_searchAlong hfound)
  | ok found =>
    rw [hfound] at h
    obtain ⟨hall, rfl⟩ := searchAlong_eq_ok_iff.1 hfound
    dsimp only [bind, Except.bind] at h
    split at h
    · cases h
    · rename_i f₀ hbuild
      obtain rfl := Except.error.inj h
      exact .inr ⟨hall, f₀, rfl, hbuild⟩

/-- Where there is no graph along one schedule there is none along any other. The reason is the same
if all files can be read, and otherwise each time that of a file that cannot be read. -/
theorem exists_graphAlong_eq_error (h : w.graphAlong σ t s = .error f) (τ : Schedule) :
    ∃ f', w.graphAlong τ t s = .error f' ∧
      ((∀ path ∈ descriptorFiles t w.root s.ignored, IsReadable t .standard w.context path) ∧
          f.error = f'.error ∨
        ∃ path path', IsBroken t w.root s.ignored .standard w.context path f.error ∧
          IsBroken t w.root s.ignored .standard w.context path' f'.error) := by
  cases hτ : w.graphAlong τ t s with
  | ok b =>
    obtain ⟨events, hσ⟩ := exists_graphAlong_eq_ok hτ σ
    rw [h] at hσ
    cases hσ
  | error f' =>
    refine ⟨f', rfl, ?_⟩
    rcases of_graphAlong_eq_error h, of_graphAlong_eq_error hτ with
      ⟨⟨path, hbroken⟩ | ⟨hall, f₀, heq, hbuild⟩, ⟨path', hbroken'⟩ | ⟨hall', f₀', heq', hbuild'⟩⟩
    · exact .inr ⟨path, path', hbroken, hbroken'⟩
    · exact absurd (hall' path hbroken.mem) hbroken.not_isReadable
    · exact absurd (hall path' hbroken'.mem) hbroken'.not_isReadable
    · obtain rfl : f₀ = f₀' := Except.error.inj (hbuild.symm.trans hbuild')
      exact .inl ⟨hall, heq.symm.trans heq'⟩

end Workspace

end BuildGraph
