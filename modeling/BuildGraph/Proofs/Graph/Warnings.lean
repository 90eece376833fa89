import BuildGraph.Proofs.Graph.Selection
import Mathlib.Data.List.Count
import Mathlib.Data.List.MinMax
set_option autoImplicit false

/-!
# What a build warns about

Three things are worth a warning: a toolchain that is passed over for one of the same priority, a
target name that is taken over, and a cycle. The first two are reported while the modules are
taken in, and they follow from the modules in front alone (`warningsAt`); the cycles are reported
behind all of them. No two kinds share a text, so that each collision and each cycle of the graph
can be told from the texts alone.
-/

namespace BuildGraph

open BuildGraph.Graph (numbered activeOf)

variable {r : Resolver} {p q : Progress} {pre ms : List Module} {m : Module} {id : ModuleId}

/-! ## Texts of warnings -/

namespace Event

variable {e : Event} {name cycle : String}

/-- The events of a level, in order. -/
def ofLevel (level : Level) (events : List Event) : List Event :=
  events.filter fun e => e.level == level

theorem warnings_eq (events : List Event) :
    warnings events = (ofLevel .warning events).map message :=
  rfl

theorem ofLevel_append (level : Level) (xs ys : List Event) :
    ofLevel level (xs ++ ys) = ofLevel level xs ++ ofLevel level ys := by
  unfold ofLevel
  exact List.filter_append xs ys

theorem level_eq_of_mem_ofLevel {level : Level} {events : List Event}
    (h : e ∈ ofLevel level events) :
    e.level = level :=
  beq_iff_eq.1 (List.mem_filter.1 h).2

theorem targetCollision_message_inj {a b : String}
    (h : (targetCollision a).message = (targetCollision b).message) : a = b := by
  unfold message at h
  simpa using h

theorem dependencyCycle_message_inj {a b : String}
    (h : (dependencyCycle a).message = (dependencyCycle b).message) : a = b := by
  unfold message at h
  simpa using h

theorem head?_append_of_head? {s : String} {c : Char} (h : s.toList.head? = some c) (t : String) :
    (s ++ t).toList.head? = some c := by
  rw [String.toList_append, List.head?_append, h]
  rfl

/-- The letter with which the text of a warning starts. -/
def initial? : Event → Option Char
  | toolchainSkipped .primary .. => some 'P'
  | toolchainSkipped .secondary .. => some 'S'
  | targetCollision _ => some 'T'
  | dependencyCycle _ => some 'D'
  | _ => none

theorem head?_message (he : e.level = .warning) : e.message.toList.head? = e.initial? := by
  cases e with
  | targetCollision name => exact head?_append_of_head? (head?_append_of_head? rfl _) _
  | dependencyCycle cycle => exact head?_append_of_head? rfl _
  | toolchainSkipped priority kept skipped =>
    have hlabel : ∀ c, priority.label.toList.head? = some c →
        (toolchainSkipped priority kept skipped).message.toList.head? = some c := fun c hc =>
      head?_append_of_head? (head?_append_of_head? (head?_append_of_head?
        (head?_append_of_head? (head?_append_of_head? hc _) _) _) _) _
    cases priority with
    | primary => exact hlabel 'P' rfl
    | secondary => exact hlabel 'S' rfl
  | _ => cases he

/-- Warnings with the same text start with the same letter. -/
theorem initial?_eq_of_message_eq {e' : Event} (he : e.level = .warning) (he' : e'.level = .warning)
    (h : e.message = e'.message) : e.initial? = e'.initial? := by
  rw [← head?_message he, ← head?_message he', h]

/-- The text of a warning tells whether a name was taken over. -/
theorem message_eq_targetCollision_iff (he : e.level = .warning) :
    e.message = (targetCollision name).message ↔ e = targetCollision name := by
  refine ⟨fun h => ?_, congrArg message⟩
  have hletter := initial?_eq_of_message_eq he rfl h
  cases e with
  | targetCollision other => rw [targetCollision_message_inj h]
  | dependencyCycle cycle => cases hletter
  | toolchainSkipped priority kept skipped => cases priority <;> cases hletter
  | _ => cases he

/-- The text of a warning tells whether a cycle was met. -/
theorem message_eq_dependencyCycle_iff (he : e.level = .warning) :
    e.message = (dependencyCycle cycle).message ↔ e = dependencyCycle cycle := by
  refine ⟨fun h => ?_, congrArg message⟩
  have hletter := initial?_eq_of_message_eq he rfl h
  cases e with
  | dependencyCycle other => rw [dependencyCycle_message_inj h]
  | targetCollision name => cases hletter
  | toolchainSkipped priority kept skipped => cases priority <;> cases hletter
  | _ => cases he

/-- A text that tells one event from all other warnings is counted as often as the event. -/
theorem count_map_message {x : Event} {events : List Event}
    (h : ∀ e ∈ events, e.message = x.message ↔ e = x) :
    (events.map message).count x.message = events.count x := by
  rw [List.count_eq_countP, List.countP_map, List.count_eq_countP]
  refine List.countP_congr fun e he => ?_
  rw [Function.comp_apply, beq_iff_eq, beq_iff_eq]
  exact h e he

end Event

/-! ## The toolchain selected so far -/

/-- The active modules that carry settings, in order. -/
def candidatesOf (ms : List Module) : List Candidate :=
  (activeOf ms).filterMap fun p => p.2.toolchain.map fun s => ⟨p.1, p.2.targetName, s⟩

/-- The toolchain that is selected after some modules: the first one of the highest priority. -/
def selected? (ms : List Module) : Option Candidate :=
  (candidatesOf ms).argmax fun c => c.settings.priority.rank

theorem activeOf_append_singleton (ms : List Module) (m : Module) :
    activeOf (ms ++ [m]) = activeOf ms ++ if m.isActive = true then [(ms.length, m)] else [] := by
  unfold Graph.activeOf
  rw [numbered_append_singleton, List.filter_append, List.filter_cons, List.filter_nil]

theorem candidatesOf_append_singleton_of_inactive (h : m.isActive = false) :
    candidatesOf (ms ++ [m]) = candidatesOf ms := by
  unfold candidatesOf
  rw [activeOf_append_singleton, h, if_neg Bool.false_ne_true, List.append_nil]

theorem candidatesOf_append_singleton_of_active (h : m.isActive = true) :
    candidatesOf (ms ++ [m]) =
      candidatesOf ms ++ (m.toolchain.map fun s => ⟨ms.length, m.targetName, s⟩).toList := by
  unfold candidatesOf
  rw [activeOf_append_singleton, h, if_pos rfl, List.filterMap_append, List.filterMap_cons,
    List.filterMap_nil]
  cases m.toolchain <;> rfl

/-- Taking in an active module selects among all toolchains if it did so among those in front. -/
theorem toolchain?_consider_eq_selected? (h : p.toolchain? = selected? ms)
    (hactive : m.isActive = true) :
    (p.consider ms.length m).toolchain? = selected? (ms ++ [m]) := by
  unfold selected? at h ⊢
  unfold Progress.consider
  rw [candidatesOf_append_singleton_of_active hactive]
  cases m.toolchain with
  | none => rw [Option.map_none, Option.toList_none, List.append_nil, ← h]
  | some s =>
    rw [Option.map_some, Option.toList_some, List.argmax_concat, ← h]
    refine (Progress.toolchain?_considerToolchain p _).trans ?_
    cases p.toolchain? <;> rfl

theorem Resolver.toolchain?_after (h : r.after pre = .ok p) : p.toolchain? = selected? pre := by
  refine after_induction (motive := fun pre p => p.toolchain? = selected? pre) rfl ?_ h
  intro pre m p q _ ih hadd
  cases hactive : m.isActive with
  | false =>
    rw [Progress.add_of_inactive hactive] at hadd
    obtain rfl := Except.ok.inj hadd
    rw [selected?, candidatesOf_append_singleton_of_inactive hactive]
    exact ih
  | true =>
    rw [(Progress.added_of_add hactive hadd).toolchain_eq]
    exact toolchain?_consider_eq_selected? ih hactive

/-! ## Warnings of a module -/

/-- The warning that a toolchain is passed over, which has the priority of the one selected so
far. -/
def passedOver? (selected? : Option Candidate) (m : Module) : Option Event :=
  match selected?, m.toolchain with
  | some old, some settings =>
    if settings.priority = old.settings.priority then
      some (.toolchainSkipped old.settings.priority old.target m.targetName)
    else none
  | _, _ => none

/-- The warning that a target name is taken over from an active module in front. -/
def takenOver? (before : List Module) (m : Module) : Option Event :=
  if hasActive before m.targetName then some (.targetCollision m.targetName) else none

/-- What an active module is warned about, in order, behind some other modules. -/
def warningsAt (before : List Module) (m : Module) : List Event :=
  (passedOver? (selected? before) m).toList ++ (takenOver? before m).toList

/-- What some modules are warned about, in order. -/
def warningsOf (ms : List Module) : List Event :=
  (activeOf ms).flatMap fun p => warningsAt (ms.take p.1) p.2

theorem warningsOf_append_singleton (ms : List Module) (m : Module) :
    warningsOf (ms ++ [m]) =
      warningsOf ms ++ if m.isActive = true then warningsAt ms m else [] := by
  have hfront : (activeOf ms).flatMap (fun p => warningsAt ((ms ++ [m]).take p.1) p.2) =
      warningsOf ms := by
    refine List.flatMap_congr fun p hp => ?_
    have hlt : p.1 < ms.length := (List.getElem?_eq_some_iff.1 (Graph.mem_activeOf_iff.1 hp).1).1
    rw [List.take_append_of_le_length (Nat.le_of_lt hlt)]
  have hself : (ms ++ [m]).take ms.length = ms := List.take_left
  rw [warningsOf, activeOf_append_singleton, List.flatMap_append, hfront]
  split
  · rw [List.flatMap_singleton, hself]
  · rfl

namespace Progress

open Event (ofLevel)

theorem events_foldl_report (f : String → Event) (names : List String) (p : Progress) :
    (names.foldl (fun p name => p.report (f name)) p).events = p.events ++ names.map f := by
  induction names generalizing p with
  | nil => exact (List.append_nil _).symm
  | cons name names ih =>
    rw [List.foldl_cons, ih, List.map_cons, report, List.append_assoc, List.singleton_append]

/-- Considering a module as the toolchain is worth a warning only if it is passed over. -/
theorem ofLevel_consider (p : Progress) (id : ModuleId) (m : Module) :
    ofLevel .warning (p.consider id m).events =
      ofLevel .warning p.events ++ (passedOver? p.toolchain? m).toList := by
  unfold consider passedOver?
  cases m.toolchain with
  | none => cases p.toolchain? <;> exact (List.append_nil _).symm
  | some settings =>
    have hfound : ofLevel .warning (p.events ++ [.toolchainFound m.targetName]) =
        ofLevel .warning p.events := by
      rw [Event.ofLevel_append]
      exact List.append_nil _
    unfold considerToolchain
    dsimp only [report]
    cases p.toolchain? with
    | none => rw [hfound, Option.toList_none, List.append_nil]
    | some old =>
      dsimp only
      by_cases hsame : settings.priority = old.settings.priority
      · rw [hsame, if_neg (Nat.lt_irrefl _), if_pos rfl, if_pos rfl, Event.ofLevel_append, hfound]
        rfl
      · rw [if_neg hsame, if_neg (Ne.symm hsame), Option.toList_none, List.append_nil]
        split <;> exact hfound

theorem events_resolved (p : Progress) (r : Resolver) (id : ModuleId) (m : Module) :
    (p.resolved r id m).events =
      (p.consider id m).events ++ (r.omissions m).map (.dependencyExcluded · m.targetName) ++
        [.dependenciesResolved m.targetName (r.edges id m).length] :=
  congrArg (· ++ [_]) (events_foldl_report _ _ _)

/-- Resolving the dependencies of a module is worth no warning. -/
theorem ofLevel_resolved (p : Progress) (r : Resolver) (id : ModuleId) (m : Module) :
    ofLevel .warning (p.resolved r id m).events =
      ofLevel .warning p.events ++ (passedOver? p.toolchain? m).toList := by
  have homitted :
      ofLevel .warning ((r.omissions m).map (.dependencyExcluded · m.targetName)) = [] := by
    refine List.filter_eq_nil_iff.2 fun e he => ?_
    obtain ⟨name, -, rfl⟩ := List.mem_map.1 he
    exact Bool.false_ne_true
  rw [events_resolved, Event.ofLevel_append, Event.ofLevel_append, homitted, ofLevel_consider,
    List.append_nil]
  exact List.append_nil _

theorem events_of_claim {strict : Bool} {target : String} {e : Entry}
    (h : p.claim strict target e = .ok q) :
    q.events = p.events ++ if p.taken target = true then [.targetCollision target] else [] := by
  rw [claim_eq] at h
  cases htaken : p.taken target with
  | false =>
    rw [htaken, if_neg Bool.false_ne_true] at h
    obtain rfl := Except.ok.inj h
    exact (List.append_nil _).symm
  | true =>
    rw [htaken, if_pos rfl] at h
    cases strict with
    | true => cases h
    | false =>
      obtain rfl := Except.ok.inj h
      rfl

/-- Taking in an active module warns about a toolchain that is passed over, and then about a name
that is taken over. -/
theorem ofLevel_of_add (hactive : m.isActive = true) (h : p.add r id m = .ok q) :
    ofLevel .warning q.events =
      ofLevel .warning p.events ++ (passedOver? p.toolchain? m).toList ++
        if p.taken m.targetName = true then [.targetCollision m.targetName] else [] := by
  have hresolves := (added_of_add hactive h).resolves
  rw [add_of_active hactive, hresolves] at h
  rw [events_of_claim h, Event.ofLevel_append, ofLevel_resolved, taken_resolved]
  split <;> rfl

end Progress

/-- The warnings that come up while modules are taken in. -/
theorem Resolver.ofLevel_after (h : r.after pre = .ok p) :
    Event.ofLevel .warning p.events = warningsOf pre := by
  refine after_induction (motive := fun pre p => Event.ofLevel .warning p.events = warningsOf pre)
    rfl ?_ h
  intro pre m p q hpre ih hadd
  rw [warningsOf_append_singleton]
  cases hactive : m.isActive with
  | false =>
    rw [Progress.add_of_inactive hactive] at hadd
    obtain rfl := Except.ok.inj hadd
    rw [if_neg Bool.false_ne_true, ← ih]
    exact Event.ofLevel_append _ _ _
  | true =>
    rw [Progress.ofLevel_of_add hactive hadd, ih, toolchain?_after hpre, taken_after hpre,
      if_pos rfl,
      List.append_assoc, warningsAt, takenOver?]
    cases hasActive pre m.targetName <;> rfl

/-! ## Counting -/

theorem count_targetCollision_warningsAt (before : List Module) (m : Module) (name : String) :
    (warningsAt before m).count (.targetCollision name) =
      (if hasActive before m.targetName = true then [m.targetName] else []).count name := by
  have hrival : (passedOver? (selected? before) m).toList.count (.targetCollision name) = 0 := by
    unfold passedOver?
    split
    · split <;> rfl
    · rfl
  rw [warningsAt, List.count_append, hrival, Nat.zero_add, takenOver?]
  split
  · rw [Option.toList_some, List.count_singleton, List.count_singleton]
    congr 1
    simp
  · rfl

/-- A name is warned about as often as it is taken over. -/
theorem count_targetCollision_warningsOf (ms : List Module) (name : String) :
    (warningsOf ms).count (.targetCollision name) = (takeovers ms).count name := by
  induction ms using List.reverseRecOn with
  | nil => rfl
  | append_singleton ms m ih =>
    rw [warningsOf_append_singleton, takeovers_append_singleton, List.count_append,
      List.count_append,
      ih]
    cases hactive : m.isActive with
    | false => simp
    | true => simp [count_targetCollision_warningsAt]

/-- No cycle is met while modules are taken in. -/
theorem dependencyCycle_not_mem_warningsOf (ms : List Module) (cycle : String) :
    .dependencyCycle cycle ∉ warningsOf ms := by
  intro h
  obtain ⟨p, -, hp⟩ := List.mem_flatMap.1 h
  rcases List.mem_append.1 hp with hrival | htaken
  · rw [Option.mem_toList] at hrival
    unfold passedOver? at hrival
    split at hrival
    · split at hrival <;> cases hrival
    · cases hrival
  · rw [Option.mem_toList] at htaken
    unfold takenOver? at htaken
    split at htaken <;> cases htaken

namespace Graph

variable {libraries : List String} {strict : Bool} {modules : List Module} {b : Built}

/-- The warnings of a build that succeeds, as events. -/
theorem ofLevel_of_build (h : Graph.build libraries strict modules = .ok b) :
    Event.ofLevel .warning b.events =
      warningsOf modules ++ b.graph.cycleTexts.map .dependencyCycle := by
  obtain ⟨p, c, hp, -, rfl⟩ := of_build_eq_ok h
  have hcycles : Event.ofLevel .warning
      (((Resolver.ofModules libraries strict modules).cyclesAfter p).map fun cycle =>
        .dependencyCycle (cycleText modules cycle)) =
      ((Resolver.ofModules libraries strict modules).cyclesAfter p).map fun cycle =>
        .dependencyCycle (cycleText modules cycle) := by
    refine List.filter_eq_self.2 fun e he => ?_
    obtain ⟨cycle, -, rfl⟩ := List.mem_map.1 he
    rfl
  unfold cycleTexts
  rw [List.map_map]
  unfold Resolver.outcome
  dsimp only
  rw [Event.ofLevel_append, Resolver.ofLevel_after hp]
  exact congrArg _ hcycles

/-- The warnings of a build that succeeds are, for each active module in the order in which they
were found, that it is a toolchain of the same priority as the one selected so far, if it is one,
and then that an active module in front has its target name, if one has; and behind all of them
one for each cycle of the graph, in order. So the text of a collision comes up as often as the
name is among the collisions of the graph, and that of a cycle as often as the cycle is among its
cycles. -/
theorem warnings_exact (h : Graph.build libraries strict modules = .ok b) :
    Event.warnings b.events =
        ((activeOf modules).flatMap fun p =>
          (warningsAt (modules.take p.1) p.2).map Event.message) ++
          b.graph.cycleTexts.map ("Dependency cycle: " ++ ·) ∧
      (∀ name, (Event.warnings b.events).count (Event.targetCollision name).message =
        b.graph.collisions.count name) ∧
      ∀ cycle, (Event.warnings b.events).count (Event.dependencyCycle cycle).message =
        b.graph.cycleTexts.count cycle := by
  have hevents := ofLevel_of_build h
  have hlevel : ∀ e ∈ Event.ofLevel .warning b.events, e.level = .warning := fun _ =>
    Event.level_eq_of_mem_ofLevel
  have hnone : ∀ name, .targetCollision name ∉ b.graph.cycleTexts.map Event.dependencyCycle := by
    intro name hmem
    obtain ⟨cycle, -, hcycle⟩ := List.mem_map.1 hmem
    cases hcycle
  refine ⟨?_, fun name => ?_, fun cycle => ?_⟩
  · rw [Event.warnings_eq, hevents, List.map_append, warningsOf, List.map_flatMap, List.map_map]
    rfl
  · rw [Event.warnings_eq, Event.count_map_message fun e he =>
      Event.message_eq_targetCollision_iff (hlevel e he), hevents, List.count_append,
      count_targetCollision_warningsOf, List.count_eq_zero_of_not_mem (hnone name),
      (isGraphOf_of_build h).collisions_eq]
    rfl
  · rw [Event.warnings_eq, Event.count_map_message fun e he =>
      Event.message_eq_dependencyCycle_iff (hlevel e he), hevents, List.count_append,
      List.count_eq_zero_of_not_mem (dependencyCycle_not_mem_warningsOf modules cycle),
      Nat.zero_add]
    exact List.count_map_of_injective _ _ (fun _ _ => Event.dependencyCycle.inj) cycle

/-- Toolchains that take over the names of one another, one that is left out, and a circle. -/
def crowd : List Module :=
  [rivalNamed "s" .secondary, rivalNamed "t" .secondary, rivalNamed "t" .primary,
    (rivalNamed "u" .primary).exclude, rivalNamed "s" .primary, .plain "a" ["b"], .plain "b" ["a"]]

/-- The toolchain found second is passed over for the first one, and the last one for the third,
which has been selected in between. -/
theorem warnings_exact_crowd :
    ∃ b, Graph.build [] false crowd = .ok b ∧
      Event.warnings b.events =
        ["Secondary toolchain 's' already exists. Skipping 't'",
          "Target name 't' is declared by more than one module, keeping the last one",
          "Primary toolchain 't' already exists. Skipping 's'",
          "Target name 's' is declared by more than one module, keeping the last one",
          "Dependency cycle: a -> b -> a"] ∧
      (Event.warnings b.events).count (Event.targetCollision "s").message = 1 ∧
      (Event.warnings b.events).count (Event.dependencyCycle "a -> b -> a").message = 1 := by
  have hview : (Graph.build [] false crowd).toOption.map (fun b =>
      (b.graph.collisions, b.graph.cycleTexts)) = some (["t", "s"], ["a -> b -> a"]) := by
    decide +kernel
  obtain ⟨b, hb, heq⟩ := exists_ok_of_map_eq_some hview
  obtain ⟨hcollisions, hcycles⟩ := Prod.mk.inj heq
  obtain ⟨hwarnings, htaken, hmet⟩ := warnings_exact hb
  refine ⟨b, hb, ?_, ?_, ?_⟩
  · rw [hwarnings, hcycles]
    decide +kernel
  · rw [htaken, hcollisions]
    decide
  · rw [hmet, hcycles]
    decide

end Graph

end BuildGraph
