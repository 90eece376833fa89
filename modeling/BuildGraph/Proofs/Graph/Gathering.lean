import BuildGraph.Proofs.Graph.Resolution
import Mathlib.Data.List.Induction
set_option autoImplicit false

/-!
# What is known after some of the modules

A build takes in the modules one after the other. `Resolver.after` is what is known after a list of
them, and `Progress.Added` says everything that taking in one active module can do. Every statement
about a whole build follows from the two by `Resolver.after_induction`.

The entries after some modules have a closed form, `Resolver.entryAfter`: a name belongs to the last
active module that has it as its target name, and a name without such a module is a system library
once an active module has asked for it. The collisions are the target names that were taken over.
-/

namespace BuildGraph

open BuildGraph.Graph (numbered)

/-! ## Modules with their positions -/

theorem numbered_append_singleton (ms : List Module) (m : Module) :
    numbered (ms ++ [m]) = numbered ms ++ [(ms.length, m)] := by
  unfold Graph.numbered
  rw [List.length_append, List.length_singleton, List.range_succ,
    List.zip_append (by rw [List.length_range])]
  rfl

theorem mem_numbered_iff {ms : List Module} {id : ModuleId} {m : Module} :
    (id, m) ∈ numbered ms ↔ ms[id]? = some m := by
  induction ms using List.reverseRecOn with
  | nil => simp [Graph.numbered]
  | append_singleton ms x ih =>
    rw [numbered_append_singleton, List.mem_append, List.mem_singleton, ih, Prod.mk.injEq]
    rcases Nat.lt_trichotomy id ms.length with hlt | rfl | hgt
    · rw [List.getElem?_append_left hlt]
      exact or_iff_left fun h => Nat.ne_of_lt hlt h.1
    · rw [List.getElem?_concat_length, List.getElem?_eq_none (Nat.le_refl _)]
      simp [eq_comm]
    · rw [List.getElem?_eq_none (Nat.le_of_lt hgt), List.getElem?_eq_none]
      · simp [Nat.ne_of_gt hgt]
      · rw [List.length_append, List.length_singleton]
        exact hgt

theorem getElem?_append_singleton_eq_some_iff {ms : List Module} {x y : Module} {k : ModuleId} :
    (ms ++ [x])[k]? = some y ↔ ms[k]? = some y ∨ k = ms.length ∧ y = x := by
  rw [← mem_numbered_iff, numbered_append_singleton, List.mem_append, List.mem_singleton,
    mem_numbered_iff, Prod.mk.injEq]

/-- Whether an active module of a list has a target name. -/
def hasActive (ms : List Module) (name : String) : Bool :=
  ms.any fun m => m.isActive && m.targetName == name

theorem hasActive_iff {ms : List Module} {name : String} :
    hasActive ms name = true ↔ ∃ m ∈ ms, m.isActive = true ∧ m.targetName = name := by
  unfold hasActive
  simp only [List.any_eq_true, Bool.and_eq_true, beq_iff_eq]

theorem hasActive_append_singleton (ms : List Module) (m : Module) (name : String) :
    hasActive (ms ++ [m]) name = (hasActive ms name || (m.isActive && m.targetName == name)) := by
  unfold hasActive
  rw [List.any_append, List.any_cons, List.any_nil, Bool.or_false]

theorem hasActive_take_iff {ms : List Module} {j : Nat} {name : String} :
    hasActive (ms.take j) name = true ↔
      ∃ i x, i < j ∧ ms[i]? = some x ∧ x.isActive = true ∧ x.targetName = name := by
  rw [hasActive_iff]
  constructor
  · rintro ⟨x, hx, hactive, hname⟩
    obtain ⟨i, hi⟩ := List.mem_iff_getElem?.1 hx
    rw [List.getElem?_take] at hi
    by_cases hij : i < j
    · rw [if_pos hij] at hi
      exact ⟨i, x, hij, hi, hactive, hname⟩
    · rw [if_neg hij] at hi
      cases hi
  · rintro ⟨i, x, hij, hi, hactive, hname⟩
    refine ⟨x, List.mem_iff_getElem?.2 ⟨i, ?_⟩, hactive, hname⟩
    rw [List.getElem?_take, if_pos hij]
    exact hi

/-- The last active module of a list with a target name, and its position. -/
def lastNamed? (ms : List Module) (name : String) : Option (ModuleId × Module) :=
  ((numbered ms).filter fun p => p.2.isActive && p.2.targetName == name).getLast?

theorem lastNamed?_append_singleton (ms : List Module) (m : Module) (name : String) :
    lastNamed? (ms ++ [m]) name =
      if m.isActive = true ∧ m.targetName = name then some (ms.length, m)
      else lastNamed? ms name := by
  unfold lastNamed?
  rw [numbered_append_singleton, List.filter_append, List.getLast?_append, List.filter_cons,
    List.filter_nil]
  by_cases h : m.isActive = true ∧ m.targetName = name
  · simp [h.1, h.2]
  · have hb : (m.isActive && m.targetName == name) = false := by
      simpa using h
    simp [h, hb]

theorem of_lastNamed? {ms : List Module} {name : String} {id : ModuleId} {m : Module}
    (h : lastNamed? ms name = some (id, m)) :
    ms[id]? = some m ∧ m.isActive = true ∧ m.targetName = name := by
  have hmem := List.mem_of_getLast? h
  obtain ⟨hnum, hboth⟩ := List.mem_filter.1 hmem
  obtain ⟨hactive, hname⟩ := Bool.and_eq_true_iff.1 hboth
  exact ⟨mem_numbered_iff.1 hnum, hactive, beq_iff_eq.1 hname⟩

theorem lastNamed?_isSome (ms : List Module) (name : String) :
    (lastNamed? ms name).isSome = hasActive ms name := by
  induction ms using List.reverseRecOn with
  | nil => rfl
  | append_singleton ms m ih =>
    rw [lastNamed?_append_singleton, hasActive_append_singleton, ← ih]
    by_cases h : m.isActive = true ∧ m.targetName = name
    · simp [h.1, h.2]
    · have hb : (m.isActive && m.targetName == name) = false := by
        simpa using h
      simp [h, hb]

/-- The target names that an active module takes over from an earlier one, once for each module
that does, in order. -/
def takeovers (ms : List Module) : List String :=
  ((numbered ms).filter fun p =>
    p.2.isActive && hasActive (ms.take p.1) p.2.targetName).map fun p => p.2.targetName

theorem takeovers_append_singleton (ms : List Module) (m : Module) :
    takeovers (ms ++ [m]) =
      takeovers ms ++
        if m.isActive = true ∧ hasActive ms m.targetName = true then [m.targetName] else [] := by
  unfold takeovers
  have hold : (numbered ms).filter (fun p =>
        p.2.isActive && hasActive ((ms ++ [m]).take p.1) p.2.targetName) =
      (numbered ms).filter fun p => p.2.isActive && hasActive (ms.take p.1) p.2.targetName := by
    apply List.filter_congr
    rintro ⟨id, x⟩ hx
    have hlt : id < ms.length := (List.getElem?_eq_some_iff.1 (mem_numbered_iff.1 hx)).1
    rw [List.take_append_of_le_length (Nat.le_of_lt hlt)]
  rw [numbered_append_singleton, List.filter_append, List.map_append, hold, List.filter_cons,
    List.filter_nil]
  by_cases h : m.isActive = true ∧ hasActive ms m.targetName = true
  · simp [h.1, h.2]
  · have hb : (m.isActive && hasActive ms m.targetName) = false := by
      simpa using h
    simp [h, hb]

/-! ## Entries -/

/-- Placeholders fill the names that have no entry yet and leave all others alone. -/
theorem Entries.find?_foldl_addSystem (names : List String) (es : Entries) (key : String) :
    (names.foldl Entries.addSystem es).find? key =
      match es.find? key with
      | some e => some e
      | none => if key ∈ names then some .system else none := by
  induction names generalizing es with
  | nil => cases h : es.find? key <;> simp [h]
  | cons name names ih =>
    rw [List.foldl_cons, ih, Entries.find?_addSystem]
    by_cases hk : key = name
    · subst hk
      cases es.find? key <;> simp
    · cases es.find? key <;> simp [hk]

/-! ## Taking in one module -/

namespace Progress

variable {r : Resolver} {p q : Progress} {id : ModuleId} {m : Module}

/-- Whether a name belongs to a module. -/
def taken (p : Progress) (name : String) : Bool :=
  ((p.entries.find? name).bind Entry.owner?).isSome

theorem entries_foldl_report (f : String → Event) (names : List String) (p : Progress) :
    (names.foldl (fun p name => p.report (f name)) p).entries = p.entries ∧
      (names.foldl (fun p name => p.report (f name)) p).toolchain? = p.toolchain? ∧
      (names.foldl (fun p name => p.report (f name)) p).collisions = p.collisions := by
  induction names generalizing p with
  | nil => exact ⟨rfl, rfl, rfl⟩
  | cons name names ih => exact ih (p.report (f name))

theorem entries_consider (p : Progress) (id : ModuleId) (m : Module) :
    (p.consider id m).entries = p.entries ∧ (p.consider id m).collisions = p.collisions := by
  unfold consider
  split
  · unfold considerToolchain
    dsimp only
    split
    · exact ⟨rfl, rfl⟩
    · split
      · exact ⟨rfl, rfl⟩
      · split <;> exact ⟨rfl, rfl⟩
  · exact ⟨rfl, rfl⟩

/-- What is known when the dependencies of an active module have been resolved and its target name
is about to be given to it. -/
def resolved (p : Progress) (r : Resolver) (id : ModuleId) (m : Module) : Progress :=
  let q := (r.omissions m).foldl
    (fun q name => q.report (.dependencyExcluded name m.targetName)) (p.consider id m)
  { q with entries := (r.placeholders m).foldl Entries.addSystem q.entries }.report
    (.dependenciesResolved m.targetName (r.edges id m).length)

theorem entries_resolved (p : Progress) (r : Resolver) (id : ModuleId) (m : Module) :
    (p.resolved r id m).entries = (r.placeholders m).foldl Entries.addSystem p.entries := by
  have hfold := (entries_foldl_report (fun name => .dependencyExcluded name m.targetName)
    (r.omissions m) (p.consider id m)).1
  exact congrArg (fun es => (r.placeholders m).foldl Entries.addSystem es)
    (hfold.trans (entries_consider p id m).1)

theorem toolchain?_resolved (p : Progress) (r : Resolver) (id : ModuleId) (m : Module) :
    (p.resolved r id m).toolchain? = (p.consider id m).toolchain? :=
  (entries_foldl_report _ _ _).2.1

theorem collisions_resolved (p : Progress) (r : Resolver) (id : ModuleId) (m : Module) :
    (p.resolved r id m).collisions = p.collisions :=
  (entries_foldl_report _ _ _).2.2.trans (entries_consider p id m).2

theorem taken_resolved (p : Progress) (r : Resolver) (id : ModuleId) (m : Module)
    (name : String) : (p.resolved r id m).taken name = p.taken name := by
  unfold taken
  rw [entries_resolved, Entries.find?_foldl_addSystem]
  cases p.entries.find? name with
  | some e => rfl
  | none => simp only []; split <;> rfl

/-- Taking in an active module, in terms of what is known when its name is given to it. -/
theorem add_of_active (hactive : m.isActive = true) :
    p.add r id m =
      match r.firstMissing? m with
      | some name =>
        .error ⟨.unresolvedDependency name m.targetName,
          ((r.omissions m).foldl (fun q name => q.report (.dependencyExcluded name m.targetName))
            (p.consider id m)).events⟩
      | none =>
        (p.resolved r id m).claim r.strict m.targetName (.owned id (r.edges id m)) := by
  unfold add
  rw [if_pos hactive]
  rfl

theorem add_of_inactive (hactive : m.isActive = false) :
    p.add r id m = .ok (p.report (.moduleExcluded m.targetName)) := by
  unfold add
  rw [hactive]
  rfl

/-- Giving a name to a module fails only for a name that is taken, in a strict build. -/
theorem claim_eq (p : Progress) (strict : Bool) (target : String) (e : Entry) :
    p.claim strict target e =
      if p.taken target = true then
        if strict = true then .error ⟨.targetCollision target, p.events⟩
        else .ok ({ p with
          entries := p.entries.put target e
          collisions := p.collisions ++ [target] }.report (.targetCollision target))
      else .ok { p with entries := p.entries.put target e } := by
  unfold claim taken
  cases ((p.entries.find? target).bind Entry.owner?).isSome <;> cases strict <;> rfl

theorem of_claim_eq_ok {strict : Bool} {target : String} {e : Entry}
    (h : p.claim strict target e = .ok q) :
    q.entries = p.entries.put target e ∧ q.toolchain? = p.toolchain? ∧
      q.collisions = p.collisions ++ (if p.taken target = true then [target] else []) ∧
      (strict = true → p.taken target = false) := by
  rw [claim_eq] at h
  cases htaken : p.taken target with
  | false =>
    rw [htaken, if_neg Bool.false_ne_true] at h
    obtain rfl := Except.ok.inj h
    exact ⟨rfl, rfl, (List.append_nil _).symm, fun _ => rfl⟩
  | true =>
    rw [htaken, if_pos rfl] at h
    cases strict with
    | true => cases h
    | false =>
      obtain rfl := Except.ok.inj h
      exact ⟨rfl, rfl, rfl, fun hs => absurd hs Bool.false_ne_true⟩

theorem of_claim_eq_error {strict : Bool} {target : String} {e : Entry} {f : Failure}
    (h : p.claim strict target e = .error f) :
    strict = true ∧ p.taken target = true ∧ f.error = .targetCollision target := by
  rw [claim_eq] at h
  cases htaken : p.taken target with
  | false =>
    rw [htaken, if_neg Bool.false_ne_true] at h
    cases h
  | true =>
    rw [htaken, if_pos rfl] at h
    cases strict with
    | true =>
      obtain rfl := Except.error.inj h
      exact ⟨rfl, rfl, rfl⟩
    | false => cases h

/-- What taking in an active module does: its dependencies are resolved and it gets its name, which
in a strict build nobody has before. -/
structure Added (r : Resolver) (id : ModuleId) (m : Module) (p q : Progress) : Prop where
  resolves : r.firstMissing? m = none
  entries_eq : q.entries =
    ((r.placeholders m).foldl Entries.addSystem p.entries).put m.targetName
      (.owned id (r.edges id m))
  toolchain_eq : q.toolchain? = (p.consider id m).toolchain?
  collisions_eq : q.collisions =
    p.collisions ++ if p.taken m.targetName = true then [m.targetName] else []
  untaken : r.strict = true → p.taken m.targetName = false

theorem added_of_add (hactive : m.isActive = true) (h : p.add r id m = .ok q) :
    Added r id m p q := by
  rw [add_of_active hactive] at h
  cases hmissing : r.firstMissing? m with
  | some name =>
    rw [hmissing] at h
    cases h
  | none =>
    rw [hmissing] at h
    obtain ⟨hentries, htoolchain, hcollisions, huntaken⟩ := of_claim_eq_ok h
    rw [entries_resolved] at hentries
    rw [toolchain?_resolved] at htoolchain
    rw [collisions_resolved, taken_resolved] at hcollisions
    rw [taken_resolved] at huntaken
    exact ⟨hmissing, hentries, htoolchain, hcollisions, huntaken⟩

/-- The two ways in which taking in a module can fail. -/
theorem of_add_eq_error {f : Failure} (h : p.add r id m = .error f) :
    m.isActive = true ∧
      ((∃ name, r.firstMissing? m = some name ∧
          f.error = .unresolvedDependency name m.targetName) ∨
        (r.firstMissing? m = none ∧ r.strict = true ∧ p.taken m.targetName = true ∧
          f.error = .targetCollision m.targetName)) := by
  cases hactive : m.isActive with
  | false =>
    rw [add_of_inactive hactive] at h
    cases h
  | true =>
    refine ⟨rfl, ?_⟩
    rw [add_of_active hactive] at h
    cases hmissing : r.firstMissing? m with
    | some name =>
      rw [hmissing] at h
      obtain rfl := Except.error.inj h
      exact .inl ⟨name, rfl, rfl⟩
    | none =>
      rw [hmissing] at h
      obtain ⟨hstrict, htaken, herror⟩ := of_claim_eq_error h
      rw [taken_resolved] at htaken
      exact .inr ⟨rfl, hstrict, htaken, herror⟩

end Progress

/-! ## Taking in modules in turn -/

namespace Resolver

variable {r : Resolver} {p : Progress} {pre : List Module} {m : Module} {name : String}

/-- What is known after some modules. -/
def after (r : Resolver) (pre : List Module) : Except Failure Progress :=
  (numbered pre).foldlM (fun p (id, m) => p.add r id m) .initial

theorem gather_eq_after (r : Resolver) : r.gather = r.after r.modules :=
  rfl

theorem after_append_singleton (r : Resolver) (pre : List Module) (m : Module) :
    r.after (pre ++ [m]) =
      match r.after pre with
      | .ok p => p.add r pre.length m
      | .error f => .error f := by
  unfold after
  rw [numbered_append_singleton, List.foldlM_append]
  cases (numbered pre).foldlM (fun p (id, m) => p.add r id m) Progress.initial with
  | error f => rfl
  | ok p => exact bind_pure (p.add r pre.length m)

/-- What holds at first and is kept by each module that is taken in holds after all of them. -/
theorem after_induction {motive : List Module → Progress → Prop} (nil : motive [] .initial)
    (snoc : ∀ (pre : List Module) (m : Module) (p q : Progress), r.after pre = .ok p →
      motive pre p → p.add r pre.length m = .ok q → motive (pre ++ [m]) q)
    (h : r.after pre = .ok p) : motive pre p := by
  induction pre using List.reverseRecOn generalizing p with
  | nil =>
    obtain rfl := Except.ok.inj h
    exact nil
  | append_singleton pre m ih =>
    rw [after_append_singleton] at h
    cases hpre : r.after pre with
    | error f =>
      rw [hpre] at h
      cases h
    | ok q =>
      rw [hpre] at h
      exact snoc pre m q p hpre (ih hpre) h

/-- Modules that cannot all be taken in have a first one that cannot. -/
theorem exists_add_eq_error {f : Failure} (h : r.after pre = .error f) :
    ∃ ms m rest p, pre = ms ++ m :: rest ∧ r.after ms = .ok p ∧
      p.add r ms.length m = .error f := by
  induction pre using List.reverseRecOn with
  | nil => cases h
  | append_singleton pre m ih =>
    rw [after_append_singleton] at h
    cases hpre : r.after pre with
    | error e =>
      rw [hpre] at h
      obtain rfl := Except.error.inj h
      obtain ⟨ms, x, rest, p, rfl, hms, hx⟩ := ih hpre
      exact ⟨ms, x, rest ++ [m], p, by simp, hms, hx⟩
    | ok p =>
      rw [hpre] at h
      exact ⟨pre, m, [], p, rfl, hpre, h⟩

/-! ## Closed forms -/

/-- The entry under a name after some modules. -/
def entryAfter (r : Resolver) (pre : List Module) (name : String) : Option Entry :=
  match lastNamed? pre name with
  | some (id, m) => some (.owned id (r.edges id m))
  | none =>
    if pre.any fun m => m.isActive && (r.placeholders m).contains name then some .system
    else none

theorem entryAfter_append_singleton (r : Resolver) (pre : List Module) (m : Module)
    (name : String) :
    r.entryAfter (pre ++ [m]) name =
      if m.isActive = true ∧ m.targetName = name then
        some (.owned pre.length (r.edges pre.length m))
      else match r.entryAfter pre name with
        | some e => some e
        | none =>
          if m.isActive = true ∧ name ∈ r.placeholders m then some .system else none := by
  unfold entryAfter
  rw [lastNamed?_append_singleton]
  by_cases hname : m.isActive = true ∧ m.targetName = name
  · rw [if_pos hname, if_pos hname]
  · rw [if_neg hname, if_neg hname, List.any_append]
    cases lastNamed? pre name with
    | some found => rfl
    | none =>
      dsimp only
      cases pre.any fun m => m.isActive && (r.placeholders m).contains name with
      | true => rfl
      | false => simp

/-- The entries are those of the closed form. -/
theorem find?_after (h : r.after pre = .ok p) (name : String) :
    p.entries.find? name = r.entryAfter pre name := by
  refine after_induction (motive := fun pre p => p.entries.find? name = r.entryAfter pre name)
    rfl ?_ h
  intro pre m p q _ ih hadd
  rw [entryAfter_append_singleton]
  cases hactive : m.isActive with
  | false =>
    rw [Progress.add_of_inactive hactive] at hadd
    obtain rfl := Except.ok.inj hadd
    rw [if_neg fun h => Bool.false_ne_true h.1, if_neg fun h => Bool.false_ne_true h.1, ← ih]
    cases hfind : p.entries.find? name <;> exact hfind
  | true =>
    have hadded := Progress.added_of_add hactive hadd
    rw [hadded.entries_eq, Entries.find?_put, Entries.find?_foldl_addSystem, ih]
    by_cases hname : m.targetName = name
    · rw [if_pos hname.symm, if_pos ⟨rfl, hname⟩]
    · have hnot : ¬(true = true ∧ m.targetName = name) := fun h => hname h.2
      rw [if_neg (Ne.symm hname), if_neg hnot]
      cases r.entryAfter pre name <;> simp

/-- A name belongs to a module once an active module has it. -/
theorem taken_after (h : r.after pre = .ok p) (name : String) :
    p.taken name = hasActive pre name := by
  unfold Progress.taken
  rw [find?_after h, ← lastNamed?_isSome]
  unfold entryAfter
  cases lastNamed? pre name with
  | some found => rfl
  | none => dsimp only; split <;> rfl

/-- The collisions are the names that were taken over. -/
theorem collisions_after (h : r.after pre = .ok p) : p.collisions = takeovers pre := by
  refine after_induction (motive := fun pre p => p.collisions = takeovers pre) rfl ?_ h
  intro pre m p q hpre ih hadd
  rw [takeovers_append_singleton, ← ih]
  cases hactive : m.isActive with
  | false =>
    rw [Progress.add_of_inactive hactive] at hadd
    obtain rfl := Except.ok.inj hadd
    rw [if_neg fun h => Bool.false_ne_true h.1, List.append_nil]
    rfl
  | true =>
    rw [(Progress.added_of_add hactive hadd).collisions_eq, taken_after hpre]
    simp only [true_and]

/-- The dependencies of the modules that have been taken in are resolved. -/
theorem firstMissing?_after (h : r.after pre = .ok p) :
    ∀ m ∈ pre, m.isActive = true → r.firstMissing? m = none := by
  refine after_induction
    (motive := fun pre _ => ∀ m ∈ pre, m.isActive = true → r.firstMissing? m = none)
    (fun m hm => absurd hm List.not_mem_nil) ?_ h
  intro pre x p q _ ih hadd m hm hactive
  rcases List.mem_append.1 hm with hm | hm
  · exact ih m hm hactive
  · obtain rfl := List.mem_singleton.1 hm
    exact (Progress.added_of_add hactive hadd).resolves

end Resolver

end BuildGraph
