import BuildGraph.Module.Scan
import BuildGraph.Proofs.FileTree.Steps
import BuildGraph.Proofs.FileTree.Walks
set_option autoImplicit false

/-!
# Sources after one file was written

What a module collects depends on nothing but which files there are below its directory: they are
sorted, and what is listed is not listed again. So when one file has come in, the module collects
what it did before exactly if it does not look for that file or has it listed already.
-/

namespace BuildGraph

open FileTree

/-! ## Ends of paths -/

/-- A joined path ends with the second one, be it absolute or not. -/
theorem Path.exists_toList_join_eq_append (dir name : String) :
    ∃ front, (join dir name).toList = front ++ name.toList := by
  cases habsolute : isAbsolute name with
  | true => exact ⟨[], by rw [join, if_pos habsolute, List.nil_append]⟩
  | false =>
    obtain htext | ⟨front, htext⟩ := exists_toList_join dir habsolute
    · exact ⟨[], by rw [htext, List.nil_append]⟩
    · exact ⟨front ++ ['/'], by rw [htext, List.append_assoc, List.singleton_append]⟩

/-- A path to something below a directory ends with its name. -/
theorem FileTree.exists_toList_pathBelow {rest : Location} {name : String} (dir : String)
    (hrest : rest.getLast? = some name) :
    ∃ front, (pathBelow dir rest).toList = front ++ name.toList := by
  obtain ⟨way, rfl⟩ := List.getLast?_eq_some_iff.1 hrest
  obtain ⟨front, hfront⟩ := Path.exists_toList_join_eq_append dir ("/".intercalate (way ++ [name]))
  rw [pathBelow, hfront]
  by_cases hway : way = []
  · exact ⟨front, by rw [hway, List.nil_append, String.intercalate_singleton]⟩
  · rw [String.intercalate_append_of_ne_nil hway (List.cons_ne_nil _ _),
      String.intercalate_singleton, String.toList_append, ← List.append_assoc]
    exact ⟨_, rfl⟩

/-- Two texts with different last characters do not end alike. -/
theorem Text.endsWith_eq_false {s ending : String} {c d : Char} (hs : s.toList.getLast? = some c)
    (hending : ending.toList.getLast? = some d) (hne : c ≠ d) : endsWith s ending = false := by
  by_contra hends
  obtain ⟨front, hfront⟩ := endsWith_iff.1 (Bool.eq_true_of_not_eq_false hends)
  rw [hfront, List.getLast?_append, hending, Option.some_or] at hs
  exact hne (Option.some.inj hs).symm

namespace Module

variable {t t' : FileTree} {place rest : Location} {content : ByteArray}
  {values xs ys : List String} {m : Module} {path name : String} {c : Char}

/-- The path by which a module would list a file below its directory. -/
def listedPath (m : Module) (rest : Location) : String :=
  Path.forward (pathBelow m.directory rest)

theorem exists_toList_listedPath (m : Module) (hrest : rest.getLast? = some name) :
    ∃ front, (m.listedPath rest).toList = front ++ (Path.forward name).toList := by
  obtain ⟨front, hfront⟩ := exists_toList_pathBelow m.directory hrest
  refine ⟨front.map Path.forwardChar, ?_⟩
  simp only [listedPath, Path.forward, hfront, String.toList_ofList, List.map_append]

theorem getLast?_listedPath (m : Module) (hrest : rest.getLast? = some name)
    (hname : (Path.forward name).toList.getLast? = some c) :
    (m.listedPath rest).toList.getLast? = some c := by
  obtain ⟨front, hfront⟩ := m.exists_toList_listedPath hrest
  rw [hfront, List.getLast?_append, hname, Option.some_or]

/-- A file whose name does not end like one of a header is none. -/
theorem isHeader_eq_false (hpath : path.toList.getLast? = some c) (hc : c ≠ 'h') :
    isExposedHeader path = false ∧ isInternalHeader path = false := by
  have hexposed : Text.endsWith path exposedHeaderSuffix = false :=
    Text.endsWith_eq_false hpath (by decide : _ = some 'h') hc
  have hinternal : Text.endsWith path internalHeaderSuffix = false :=
    Text.endsWith_eq_false hpath (by decide : _ = some 'h') hc
  simp [isExposedHeader, isInternalHeader, hexposed, hinternal]

/-! ## New values in order -/

/-- New values come in behind the others, each once and in their order. -/
theorem exists_addNew_eq (values new : List String) :
    ∃ more, addNew values new = values ++ more ∧ more.Sublist new ∧ more.Nodup ∧
      ∀ v, v ∈ more ↔ v ∉ values ∧ v ∈ new := by
  induction new generalizing values with
  | nil => exact ⟨[], (List.append_nil values).symm, .slnil, .nil, by simp⟩
  | cons w new ih =>
    by_cases hw : w ∈ values
    · obtain ⟨more, heq, hsub, hnodup, hmem⟩ := ih values
      refine ⟨more, ?_, hsub.cons w, hnodup, by grind⟩
      rw [addNew, if_pos (by simpa using hw), heq]
    · obtain ⟨more, heq, hsub, hnodup, hmem⟩ := ih (values ++ [w])
      have hnew : w ∉ more := by
        simp [hmem]
      refine ⟨w :: more, ?_, hsub.cons_cons w, List.nodup_cons.2 ⟨hnew, hnodup⟩, by grind⟩
      rw [addNew, if_neg (by simpa using hw), heq, List.append_assoc, List.singleton_append]

/-- Of values in ascending order only those matter that are not there yet, however often they
come. -/
theorem addNew_congr (hxs : xs.Pairwise (· ≤ ·)) (hys : ys.Pairwise (· ≤ ·))
    (h : ∀ v, v ∉ values → (v ∈ xs ↔ v ∈ ys)) : addNew values xs = addNew values ys := by
  obtain ⟨more, heq, hsub, hnodup, hmem⟩ := exists_addNew_eq values xs
  obtain ⟨more', heq', hsub', hnodup', hmem'⟩ := exists_addNew_eq values ys
  have hperm : more.Perm more' := by
    rw [List.perm_ext_iff_of_nodup hnodup hnodup']
    intro v
    rw [hmem, hmem']
    exact and_congr_right (h v)
  rw [heq, heq', hperm.eq_of_pairwise' (hxs.sublist hsub) (hys.sublist hsub')]

/-! ## Collecting -/

theorem pairwise_filesIn (t : FileTree) (directory : String) :
    (filesIn t directory).Pairwise (· ≤ ·) := by
  have hsorted : (filesIn t directory).Pairwise fun a b => decide (a ≤ b) = true := by
    refine List.pairwise_mergeSort (fun a b c hab hbc => ?_) (fun a b => ?_) _
    · simp only [decide_eq_true_eq] at hab hbc ⊢
      exact String.le_trans hab hbc
    · simpa using String.le_total a b
  exact hsorted.imp fun hle => of_decide_eq_true hle

theorem mem_filesIn_iff {directory : String} :
    path ∈ filesIn t directory ↔ ∃ p ∈ t.walkFiles directory, Path.forward p = path := by
  rw [filesIn, List.mem_mergeSort, List.mem_map]

/-- If the module looks for the file at a place, then the file is among its sources. -/
def HasListed (t : FileTree) (place : Location) (m : Module) : Prop :=
  ∀ l rest, t.start m.directory = .directory l → rest ≠ [] → place = l ++ rest →
    m.wantsSource (m.listedPath rest) = true → m.listedPath rest ∈ m.sources

/-- A module that does not look for files with the extension of a name has nothing to list. -/
theorem hasListed_of_hasExtension {ext : List Char} (t : FileTree)
    (hname : place.getLast? = some name) (hc : (Path.forward name).toList.getLast? = some c)
    (hdescriptor : c ≠ 'l') (hext : Text.afterLast? '.' (Path.forward name).toList = some ext)
    (h : hasExtension m.wantedExtensions (Path.forward name) = false) : HasListed t place m := by
  intro l rest _ hrest hbelow hwants
  rw [hbelow, List.getLast?_append_of_ne_nil l hrest] at hname
  have hsuffix : Text.endsWith (m.listedPath rest) Descriptor.fileSuffix = false :=
    Text.endsWith_eq_false (m.getLast?_listedPath hname hc) (by decide : _ = some 'l') hdescriptor
  have hpath : Text.afterLast? '.' (m.listedPath rest).toList = some ext := by
    obtain ⟨front, hfront⟩ := m.exists_toList_listedPath hname
    obtain ⟨before, hbefore, hnot⟩ := Text.afterLast?_eq_some_iff.1 hext
    refine Text.afterLast?_eq_some_iff.2 ⟨front ++ before, ?_, hnot⟩
    rw [hfront, hbefore, List.append_assoc]
  have hnone : hasExtension m.wantedExtensions (m.listedPath rest) = false := by
    rw [hasExtension, hext] at h
    rw [hasExtension, hpath, h]
  simp [wantsSource, hsuffix, hnone] at hwants

/-- The files of a module are the same, except perhaps the one at the place. -/
theorem mem_filesIn_iff_of_growsBut (h : GrowsBut place t t')
    (hplace : t'.get? place = some (.file content))
    (hmissing : t'.exists? m.directory = true → t.exists? m.directory = true) :
    path ∈ filesIn t' m.directory ↔ path ∈ filesIn t m.directory ∨ ∃ l rest,
      t.start m.directory = .directory l ∧ rest ≠ [] ∧ place = l ++ rest ∧
        path = m.listedPath rest := by
  simp only [mem_filesIn_iff, h.mem_walkFiles_iff hplace hmissing]
  constructor
  · intro hpath
    obtain ⟨p, hold | ⟨l, rest, hstart, hrest, hbelow, rfl⟩, rfl⟩ := hpath
    · exact .inl ⟨p, hold, rfl⟩
    · exact .inr ⟨l, rest, hstart, hrest, hbelow, rfl⟩
  · intro hpath
    obtain ⟨p, hold, rfl⟩ | ⟨l, rest, hstart, hrest, hbelow, rfl⟩ := hpath
    · exact ⟨p, .inl hold, rfl⟩
    · exact ⟨_, .inr ⟨l, rest, hstart, hrest, hbelow, rfl⟩, rfl⟩

/-- Values that are picked from the files come in as before if the file at the place adds none. -/
theorem addNew_filter_filesIn_eq (h : GrowsBut place t t')
    (hplace : t'.get? place = some (.file content))
    (hmissing : t'.exists? m.directory = true → t.exists? m.directory = true) {p : String → Bool}
    (hp : ∀ l rest, t.start m.directory = .directory l → rest ≠ [] → place = l ++ rest →
      p (m.listedPath rest) = true →
        m.listedPath rest ∈ addNew values ((filesIn t m.directory).filter p)) :
    addNew values ((filesIn t' m.directory).filter p) =
      addNew values ((filesIn t m.directory).filter p) := by
  refine addNew_congr ((pairwise_filesIn _ _).filter p) ((pairwise_filesIn _ _).filter p) ?_
  intro v hv
  simp only [List.mem_filter, mem_filesIn_iff_of_growsBut h hplace hmissing]
  constructor
  · intro hnew
    obtain ⟨hold | ⟨l, rest, hstart, hrest, hbelow, rfl⟩, hpicked⟩ := hnew
    · exact ⟨hold, hpicked⟩
    · have hlisted := hp l rest hstart hrest hbelow hpicked
      exact List.mem_filter.1 ((mem_addNew.1 hlisted).resolve_left hv)
  · intro hold
    exact ⟨.inl hold.1, hold.2⟩

/-- When one file has come in that is no header by its name, a module collects what it did before
exactly if it does not look for the file or has it among its sources. -/
theorem collectSources_eq_iff (h : GrowsBut place t t')
    (hplace : t'.get? place = some (.file content))
    (hmissing : t'.exists? m.directory = true → t.exists? m.directory = true)
    (hname : place.getLast? = some name) (hc : (Path.forward name).toList.getLast? = some c)
    (hheader : c ≠ 'h') :
    m.collectSources t' = m.collectSources t ↔ HasListed t place (m.collectSources t) := by
  constructor
  · intro heq l rest hstart hrest hbelow hwants
    rw [← heq]
    refine mem_addNew.2 (.inr (List.mem_filter.2 ⟨?_, hwants⟩))
    exact (mem_filesIn_iff_of_growsBut h hplace hmissing).2
      (.inr ⟨l, rest, hstart, hrest, hbelow, rfl⟩)
  · intro hlisted
    have hnone : ∀ l rest, rest ≠ [] → place = l ++ rest →
        isExposedHeader (m.listedPath rest) = false ∧
          isInternalHeader (m.listedPath rest) = false := by
      intro l rest hrest hbelow
      rw [hbelow, List.getLast?_append_of_ne_nil l hrest] at hname
      exact isHeader_eq_false (m.getLast?_listedPath hname hc) hheader
    have hsources : addNew m.sources ((filesIn t' m.directory).filter m.wantsSource) =
        addNew m.sources ((filesIn t m.directory).filter m.wantsSource) :=
      addNew_filter_filesIn_eq h hplace hmissing hlisted
    have hheaders : ∀ (values : List String) (p : String → Bool),
        (∀ l rest, rest ≠ [] → place = l ++ rest → p (m.listedPath rest) = false) →
          addNew values ((filesIn t' m.directory).filter p) =
            addNew values ((filesIn t m.directory).filter p) := by
      intro values p hp
      refine addNew_filter_filesIn_eq h hplace hmissing fun l rest _ hrest hbelow hpicked => ?_
      rw [hp l rest hrest hbelow] at hpicked
      cases hpicked
    unfold collectSources addFiles
    rw [hsources, hheaders _ _ fun l rest hrest hbelow => (hnone l rest hrest hbelow).1,
      hheaders _ _ fun l rest hrest hbelow => (hnone l rest hrest hbelow).2]

end Module

end BuildGraph
