import BuildGraph.Proofs.Graph.Built
set_option autoImplicit false

/-!
# Strict builds

A strict build of some modules is compared with the other build of the same modules, module by
module. As long as no target name has been taken twice the two know the same, errors included. The
first name that is taken twice stops the strict build; what the other one still finds out about
later modules no longer matters. Only a cycle stops a strict build that has taken in all modules.
-/

namespace BuildGraph

/-! ## Repeated names -/

/-- Two active modules of the list have one target name. -/
def Repeats (ms : List Module) : Prop :=
  ∃ i j : Nat, ∃ x y : Module, i < j ∧ ms[i]? = some x ∧ ms[j]? = some y ∧
    x.isActive = true ∧ y.isActive = true ∧ x.targetName = y.targetName

/-- A name is taken over exactly if it is repeated. -/
theorem takeovers_eq_nil_iff {ms : List Module} : takeovers ms = [] ↔ ¬ Repeats ms := by
  unfold takeovers
  rw [List.map_eq_nil_iff, List.filter_eq_nil_iff]
  constructor
  · rintro hnone ⟨i, j, x, y, hij, hx, hy, hxa, hya, hname⟩
    refine hnone (j, y) (mem_numbered_iff.2 hy) (Bool.and_eq_true_iff.2 ⟨hya, ?_⟩)
    exact hasActive_take_iff.2 ⟨i, x, hij, hx, hxa, hname⟩
  · rintro hrepeats ⟨j, y⟩ hmem hboth
    obtain ⟨hya, hearlier⟩ := Bool.and_eq_true_iff.1 hboth
    obtain ⟨i, x, hij, hx, hxa, hname⟩ := hasActive_take_iff.1 hearlier
    exact hrepeats ⟨i, j, x, y, hij, hx, mem_numbered_iff.1 hmem, hxa, hya, hname⟩

/-! ## One module -/

namespace Progress

variable {r : Resolver} {p q : Progress} {id : ModuleId} {m : Module}

/-- A strict build takes in a module like any other build, unless its name is taken. -/
theorem add_strict_of_untaken (h : m.isActive = true → p.taken m.targetName = false) :
    p.add (r.withStrict true) id m = p.add (r.withStrict false) id m := by
  cases hactive : m.isActive with
  | false => rw [add_of_inactive hactive, add_of_inactive hactive]
  | true =>
    rw [add_of_active hactive, add_of_active hactive, Resolver.firstMissing?_withStrict,
      Resolver.firstMissing?_withStrict]
    cases r.firstMissing? m with
    | some name => rfl
    | none =>
      dsimp only
      rw [claim_eq, claim_eq, taken_resolved, taken_resolved, h hactive]
      rfl

/-- Names that stand for nothing are found before the target name is given away. -/
theorem add_strict_of_missing {name : String} (h : r.firstMissing? m = some name) :
    p.add (r.withStrict true) id m = p.add (r.withStrict false) id m := by
  cases hactive : m.isActive with
  | false => rw [add_of_inactive hactive, add_of_inactive hactive]
  | true =>
    rw [add_of_active hactive, add_of_active hactive, Resolver.firstMissing?_withStrict,
      Resolver.firstMissing?_withStrict, h]
    rfl

/-- A strict build stops at a module that any other build takes in under a name that is taken. -/
theorem add_strict_of_taken (hactive : m.isActive = true) (htaken : p.taken m.targetName = true)
    (h : p.add (r.withStrict false) id m = .ok q) :
    ∃ f, p.add (r.withStrict true) id m = .error f ∧ f.error = .targetCollision m.targetName := by
  have hmissing : r.firstMissing? m = none := (added_of_add hactive h).resolves
  rw [add_of_active hactive, Resolver.firstMissing?_withStrict, hmissing]
  dsimp only
  rw [claim_eq, taken_resolved, htaken, if_pos rfl]
  exact ⟨_, if_pos rfl, rfl⟩

end Progress

/-! ## All modules -/

namespace Resolver

variable {r : Resolver} {p : Progress} {pre : List Module} {name : String}

theorem after_append_of_error {f : Failure} (h : r.after pre = .error f) (rest : List Module) :
    r.after (pre ++ rest) = .error f := by
  induction rest using List.reverseRecOn with
  | nil => rwa [List.append_nil]
  | append_singleton rest m ih => rw [← List.append_assoc, after_append_singleton, ih]

/-- Before a name is taken twice, a strict build knows what any other build knows. -/
theorem after_strict_of_takeovers_eq_nil (h : takeovers pre = []) :
    (r.withStrict true).after pre = (r.withStrict false).after pre := by
  induction pre using List.reverseRecOn with
  | nil => rfl
  | append_singleton pre m ih =>
    rw [takeovers_append_singleton] at h
    obtain ⟨hpre, hlast⟩ := List.append_eq_nil_iff.1 h
    rw [after_append_singleton, after_append_singleton, ih hpre]
    cases hp : (r.withStrict false).after pre with
    | error f => rfl
    | ok p =>
      refine Progress.add_strict_of_untaken fun hactive => ?_
      rw [taken_after hp, Bool.eq_false_iff]
      intro hname
      rw [if_pos ⟨hactive, hname⟩] at hlast
      cases hlast

/-- A strict build stops at the first name that is taken twice, if any other build gets as far. -/
theorem after_strict_of_takeovers {rest : List String} (hp : (r.withStrict false).after pre = .ok p)
    (h : takeovers pre = name :: rest) :
    ∃ f, (r.withStrict true).after pre = .error f ∧ f.error = .targetCollision name := by
  induction pre using List.reverseRecOn generalizing p rest with
  | nil => cases h
  | append_singleton pre m ih =>
    rw [after_append_singleton] at hp
    cases hq : (r.withStrict false).after pre with
    | error f =>
      rw [hq] at hp
      cases hp
    | ok q =>
      rw [hq] at hp
      cases hpre : takeovers pre with
      | cons first others =>
        rw [takeovers_append_singleton, hpre] at h
        obtain rfl := (List.cons.inj h).1
        obtain ⟨f, hf, herror⟩ := ih hq hpre
        exact ⟨f, after_append_of_error hf [m], herror⟩
      | nil =>
        rw [takeovers_append_singleton, hpre, List.nil_append] at h
        by_cases htwice : m.isActive = true ∧ hasActive pre m.targetName = true
        · rw [if_pos htwice] at h
          obtain rfl := (List.cons.inj h).1
          rw [after_append_singleton, after_strict_of_takeovers_eq_nil hpre, hq]
          exact Progress.add_strict_of_taken htwice.1 ((taken_after hq _).trans htwice.2) hp
        · rw [if_neg htwice] at h
          cases h

/-- A module stops a build if it is the first active one with a dependency that stands for
nothing. -/
def StopsAt (r : Resolver) (k : ModuleId) (m : Module) (name : String) : Prop :=
  r.modules[k]? = some m ∧ m.isActive = true ∧ r.firstMissing? m = some name ∧
    ∀ x ∈ r.modules.take k, x.isActive = true → r.firstMissing? x = none

/-- A build that is not strict stops only at a dependency that stands for nothing, and a strict
build of the same modules stops there too, unless a name has been repeated before. -/
theorem of_after_eq_error {f : Failure} (h : (r.withStrict false).after r.modules = .error f) :
    ∃ k m name, r.StopsAt k m name ∧ f.error = .unresolvedDependency name m.targetName ∧
      (∃ p, (r.withStrict false).after (r.modules.take k) = .ok p) ∧
      (takeovers (r.modules.take k) = [] → (r.withStrict true).after r.modules = .error f) := by
  obtain ⟨ms, m, rest, p, hsplit, hms, hadd⟩ := exists_add_eq_error h
  obtain ⟨hactive, ⟨name, hmissing, herror⟩ | ⟨-, hstrict, -⟩⟩ := Progress.of_add_eq_error hadd
  · have htake : r.modules.take ms.length = ms := by
      rw [hsplit, List.take_left]
    have hget : r.modules[ms.length]? = some m := by
      rw [hsplit, List.getElem?_append_right (Nat.le_refl _), Nat.sub_self, List.getElem?_cons_zero]
    refine ⟨ms.length, m, name, ⟨hget, hactive, hmissing, ?_⟩, herror, ?_, ?_⟩
    · rw [htake]
      intro x hx hxactive
      exact firstMissing?_after hms x hx hxactive
    · rw [htake]
      exact ⟨p, hms⟩
    · rw [htake]
      intro hnone
      have hstop : (r.withStrict true).after (ms ++ [m]) = .error f := by
        rw [after_append_singleton, after_strict_of_takeovers_eq_nil hnone, hms]
        exact (Progress.add_strict_of_missing hmissing).trans hadd
      have hall : r.modules = (ms ++ [m]) ++ rest := by
        rw [hsplit, List.append_assoc, List.singleton_append]
      rw [hall]
      exact after_append_of_error hstop rest
  · exact absurd hstrict Bool.false_ne_true

end Resolver

/-! ## Whole builds -/

namespace Graph

variable {libraries : List String} {modules : List Module} {strict : Bool} {p : Progress}
  {b : Built} {f : Failure}

theorem build_of_after_eq_ok
    (h : (Resolver.ofModules libraries strict modules).after modules = .ok p) :
    Graph.build libraries strict modules =
      (Resolver.ofModules libraries strict modules).finish p := by
  rw [build_eq, h]

theorem build_of_after_eq_error
    (h : (Resolver.ofModules libraries strict modules).after modules = .error f) :
    Graph.build libraries strict modules = .error f := by
  rw [build_eq, h]

theorem after_strict_of_not_repeats (h : ¬ Repeats modules) :
    (Resolver.ofModules libraries true modules).after modules =
      (Resolver.ofModules libraries false modules).after modules :=
  Resolver.after_strict_of_takeovers_eq_nil (r := Resolver.ofModules libraries false modules)
    (takeovers_eq_nil_iff.2 h)

/-- A collision of a build that is not strict is the error of the strict build. -/
theorem build_strict_of_collisions {name : String} {rest : List String}
    (h : Graph.build libraries false modules = .ok b)
    (hcollisions : b.graph.collisions = name :: rest) :
    ∃ f, Graph.build libraries true modules = .error f ∧ f.error = .targetCollision name := by
  obtain ⟨p, c, hp, -, -⟩ := of_build_eq_ok h
  have htakeovers : takeovers modules = name :: rest :=
    (isGraphOf_of_build h).collisions_eq.symm.trans hcollisions
  obtain ⟨f, hf, herror⟩ := Resolver.after_strict_of_takeovers
    (r := Resolver.ofModules libraries false modules) hp htakeovers
  exact ⟨f, build_of_after_eq_error hf, herror⟩

theorem build_strict_of_cycles {first : List ModuleId} {rest : List (List ModuleId)}
    (h : Graph.build libraries false modules = .ok b) (hcollisions : b.graph.collisions = [])
    (hcycles : b.graph.cycles = first :: rest) :
    ∃ f, Graph.build libraries true modules = .error f ∧
      f.error = .dependencyCycle (cycleText modules first) := by
  obtain ⟨p, c, hp, hc, rfl⟩ := of_build_eq_ok h
  have hrepeats : ¬ Repeats modules :=
    takeovers_eq_nil_iff.1 ((isGraphOf_of_build h).collisions_eq.symm.trans hcollisions)
  have hfirst : (Resolver.ofModules libraries true modules).cyclesAfter p = first :: rest := hcycles
  rw [build_of_after_eq_ok ((after_strict_of_not_repeats hrepeats).trans hp), Resolver.finish_eq,
    hc, hfirst]
  exact ⟨_, rfl, rfl⟩

theorem build_strict_of_nothing_reported (h : Graph.build libraries false modules = .ok b)
    (hcollisions : b.graph.collisions = []) (hcycles : b.graph.cycles = []) :
    Graph.build libraries true modules = .ok b := by
  obtain ⟨p, c, hp, hc, rfl⟩ := of_build_eq_ok h
  have hrepeats : ¬ Repeats modules :=
    takeovers_eq_nil_iff.1 ((isGraphOf_of_build h).collisions_eq.symm.trans hcollisions)
  have hnone : (Resolver.ofModules libraries true modules).cyclesAfter p = [] := hcycles
  rw [build_of_after_eq_ok ((after_strict_of_not_repeats hrepeats).trans hp), Resolver.finish_eq,
    hc, hnone]
  rfl

/-- A name that is repeated among the modules that the other build takes in stops the strict one. -/
theorem build_strict_of_repeats {k : Nat}
    (hp : (Resolver.ofModules libraries false modules).after (modules.take k) = .ok p)
    (h : Repeats (modules.take k)) :
    ∃ f target, Graph.build libraries true modules = .error f ∧
      f.error = .targetCollision target := by
  obtain ⟨target, rest, htakeovers⟩ :=
    List.exists_cons_of_ne_nil fun hnil => takeovers_eq_nil_iff.1 hnil h
  obtain ⟨f, hf, herror⟩ := Resolver.after_strict_of_takeovers
    (r := Resolver.ofModules libraries false modules) hp htakeovers
  have hall := Resolver.after_append_of_error hf (modules.drop k)
  rw [List.take_append_drop] at hall
  exact ⟨f, target, build_of_after_eq_error hall, herror⟩

/-- A build fails after some of its modules: all of them if it lacks a toolchain, and those before
the first active one with a dependency that stands for nothing otherwise. -/
def FailsAfter (libraries : List String) (modules : List Module) (k : Nat) (e : Error) : Prop :=
  (e = .noToolchain ∧ k = modules.length) ∨
    ∃ m name, (Resolver.ofModules libraries false modules).StopsAt k m name ∧
      e = .unresolvedDependency name m.targetName

/-- Where a build that is not strict fails, the strict build fails with the same error, unless a
name has been repeated before. -/
theorem build_strict_of_error (h : Graph.build libraries false modules = .error f) :
    ∃ k, FailsAfter libraries modules k f.error ∧
      (Repeats (modules.take k) → ∃ e target, Graph.build libraries true modules = .error e ∧
        e.error = .targetCollision target) ∧
      (¬ Repeats (modules.take k) → Graph.build libraries true modules = .error f) := by
  cases hafter : (Resolver.ofModules libraries false modules).after modules with
  | error e =>
    obtain rfl := Except.error.inj ((build_of_after_eq_error hafter).symm.trans h)
    obtain ⟨k, m, name, hstop, herror, ⟨p, hp⟩, hsame⟩ :=
      Resolver.of_after_eq_error (r := Resolver.ofModules libraries false modules) hafter
    refine ⟨k, .inr ⟨m, name, hstop, herror⟩, ?_, ?_⟩
    · exact build_strict_of_repeats hp
    · intro hrepeats
      exact build_of_after_eq_error (hsame (takeovers_eq_nil_iff.2 hrepeats))
  | ok p =>
    have hfinish := (build_of_after_eq_ok hafter).symm.trans h
    rw [Resolver.finish_eq] at hfinish
    cases hc : p.toolchain? with
    | some c =>
      rw [hc] at hfinish
      cases hfinish
    | none =>
      rw [hc] at hfinish
      obtain rfl := Except.error.inj hfinish
      refine ⟨modules.length, .inl ⟨rfl, rfl⟩, ?_, ?_⟩
      · intro hrepeats
        refine build_strict_of_repeats (p := p) ?_ hrepeats
        rw [List.take_length]
        exact hafter
      · intro hrepeats
        rw [List.take_length] at hrepeats
        rw [build_of_after_eq_ok ((after_strict_of_not_repeats hrepeats).trans hafter),
          Resolver.finish_eq, hc]

/-- A strict build that yields a graph is like the other one, which has nothing to report. -/
theorem of_build_strict_eq_ok (h : Graph.build libraries true modules = .ok b) :
    Graph.build libraries false modules = .ok b ∧ b.graph.collisions = [] ∧
      b.graph.cycles = [] := by
  cases hbuild : Graph.build libraries false modules with
  | error f =>
    obtain ⟨k, -, hrepeated, hsame⟩ := build_strict_of_error hbuild
    by_cases hrepeats : Repeats (modules.take k)
    · obtain ⟨e, target, he, -⟩ := hrepeated hrepeats
      cases he.symm.trans h
    · cases (hsame hrepeats).symm.trans h
  | ok other =>
    cases hcollisions : other.graph.collisions with
    | cons name rest =>
      obtain ⟨f, hf, -⟩ := build_strict_of_collisions hbuild hcollisions
      cases hf.symm.trans h
    | nil =>
      cases hcycles : other.graph.cycles with
      | cons first rest =>
        obtain ⟨f, hf, -⟩ := build_strict_of_cycles hbuild hcollisions hcycles
        cases hf.symm.trans h
      | nil =>
        have hsame := build_strict_of_nothing_reported hbuild hcollisions hcycles
        obtain rfl := Except.ok.inj (hsame.symm.trans h)
        exact ⟨rfl, hcollisions, hcycles⟩

/-- A strict build compared with the other build of the same modules. It yields a graph exactly if
the other one does and has neither collisions nor cycles to report, and then the same. Otherwise it
fails with the first collision or else with the first cycle. If the other build fails, so does the
strict one, with the same error unless a target name has been repeated before. -/
theorem build_strict (libraries : List String) (modules : List Module) :
    (∀ b, Graph.build libraries true modules = .ok b ↔
      Graph.build libraries false modules = .ok b ∧
        b.graph.collisions = [] ∧ b.graph.cycles = []) ∧
    (∀ b name rest, Graph.build libraries false modules = .ok b →
      b.graph.collisions = name :: rest →
        ∃ f, Graph.build libraries true modules = .error f ∧ f.error = .targetCollision name) ∧
    (∀ b text rest, Graph.build libraries false modules = .ok b →
      b.graph.collisions = [] → b.graph.cycleTexts = text :: rest →
        ∃ f, Graph.build libraries true modules = .error f ∧ f.error = .dependencyCycle text) ∧
    (∀ f, Graph.build libraries false modules = .error f →
      ∃ k, FailsAfter libraries modules k f.error ∧
        (Repeats (modules.take k) → ∃ e target, Graph.build libraries true modules = .error e ∧
          e.error = .targetCollision target) ∧
        (¬ Repeats (modules.take k) → Graph.build libraries true modules = .error f)) := by
  refine ⟨fun b => ⟨?_, ?_⟩, ?_, ?_, ?_⟩
  · exact of_build_strict_eq_ok
  · rintro ⟨h, hcollisions, hcycles⟩
    exact build_strict_of_nothing_reported h hcollisions hcycles
  · intro b name rest h hcollisions
    exact build_strict_of_collisions h hcollisions
  · intro b text rest h hcollisions htexts
    obtain ⟨first, others, hcycles, hfirst, -⟩ := List.map_eq_cons_iff.1 htexts
    obtain ⟨f, hf, herror⟩ := build_strict_of_cycles h hcollisions hcycles
    rw [(isGraphOf_of_build h).modules_eq] at hfirst
    exact ⟨f, hf, hfirst ▸ herror⟩
  · intro f h
    exact build_strict_of_error h

/-- A name that is taken twice counts before a cycle, and before a dependency of a later module
that stands for nothing; in a module itself the dependency counts first. -/
theorem build_strict_order_of_errors :
    (∃ f, Graph.build [] true
        [.plainToolchain "a" ["b"], .plain "b" ["a"], .plain "a" ["b"]] = .error f ∧
      f.error = .targetCollision "a") ∧
    (∃ f, Graph.build [] true [.plainToolchain "a" ["b"], .plain "b" ["a"]] = .error f ∧
      f.error = .dependencyCycle "a -> b -> a") ∧
    (∃ f target, Graph.build [] true
        [.plainToolchain "a" [], .plain "a" [], .plain "b" ["x"]] = .error f ∧
      f.error = .targetCollision target) := by
  refine ⟨?_, ?_, ?_⟩
  · have hview : (Graph.build [] false
        [.plainToolchain "a" ["b"], .plain "b" ["a"], .plain "a" ["b"]]).toOption.map
          (fun b => b.graph.collisions) = some ["a"] := by
      decide +kernel
    obtain ⟨b, hb, hcollisions⟩ := exists_ok_of_map_eq_some hview
    exact (build_strict _ _).2.1 b "a" [] hb hcollisions
  · have hview : (Graph.build [] false
        [.plainToolchain "a" ["b"], .plain "b" ["a"]]).toOption.map
          (fun b => (b.graph.collisions, b.graph.cycleTexts)) = some ([], ["a -> b -> a"]) := by
      decide +kernel
    obtain ⟨b, hb, heq⟩ := exists_ok_of_map_eq_some hview
    obtain ⟨hcollisions, htexts⟩ := Prod.mk.injEq .. ▸ heq
    exact (build_strict _ _).2.2.1 b _ [] hb hcollisions htexts
  · cases hb : Graph.build [] false
        [.plainToolchain "a" [], .plain "a" [], .plain "b" ["x"]] with
    | ok b =>
      have hfails : (Graph.build [] false
          [.plainToolchain "a" [], .plain "a" [], .plain "b" ["x"]]).isOk = false := by
        decide +kernel
      rw [hb] at hfails
      cases hfails
    | error f =>
      obtain ⟨k, hfails, hrepeated, -⟩ := (build_strict _ _).2.2.2 f hb
      have hk : 2 ≤ k := by
        rcases hfails with ⟨-, rfl⟩ | ⟨m, name, ⟨hm, -, hmissing, -⟩, -⟩
        · decide
        · match k with
          | 0 => cases hm; cases hmissing
          | 1 => cases hm; cases hmissing
          | k + 2 => exact Nat.le_add_left 2 k
      obtain ⟨rest, rfl⟩ := Nat.exists_eq_add_of_le' hk
      exact hrepeated ⟨0, 1, _, _, by decide, rfl, rfl, by decide, by decide, rfl⟩

end Graph

end BuildGraph
