import BuildGraph.Proofs.Graph.Gathering
set_option autoImplicit false

/-!
# The choice of a toolchain

Of the active modules that carry settings the first one of the highest priority is chosen. The
modules are taken in one after the other and only a higher priority replaces the choice made so far,
so that at any time it is the first of the best so far.
-/

namespace BuildGraph

variable {ms : List Module} {x : Module} {a b : ModuleId} {settings settings' : Toolchain}

/-- The module is active and carries the settings. No other module that is active and carries
settings has a higher priority, and those in front of it have a lower one. -/
structure IsChoice (ms : List Module) (a : ModuleId) (settings : Toolchain) : Prop where
  carries : ∃ m, ms[a]? = some m ∧ m.isActive = true ∧ m.toolchain = some settings
  best : ∀ k x s, ms[k]? = some x → x.isActive = true → x.toolchain = some s →
    s.priority.rank ≤ settings.priority.rank ∧
      (k < a → s.priority.rank < settings.priority.rank)

theorem IsChoice.unique (h : IsChoice ms a settings) (h' : IsChoice ms b settings') :
    a = b ∧ settings = settings' := by
  obtain ⟨⟨m, hm, hactive, hsettings⟩, hbest⟩ := h
  obtain ⟨⟨m', hm', hactive', hsettings'⟩, hbest'⟩ := h'
  obtain ⟨hle, hlt⟩ := hbest b m' settings' hm' hactive' hsettings'
  obtain ⟨hle', hlt'⟩ := hbest' a m settings hm hactive hsettings
  rcases Nat.lt_trichotomy a b with hab | rfl | hba
  · exact absurd (hlt' hab) (Nat.not_lt.2 hle)
  · obtain rfl := Option.some.inj (hm.symm.trans hm')
    exact ⟨rfl, Option.some.inj (hsettings.symm.trans hsettings')⟩
  · exact absurd (hlt hba) (Nat.not_lt.2 hle')

/-- A choice stays as it is when a module without a higher priority follows. -/
theorem IsChoice.append_singleton (h : IsChoice ms a settings)
    (hx : ∀ s, x.isActive = true → x.toolchain = some s →
      s.priority.rank ≤ settings.priority.rank) : IsChoice (ms ++ [x]) a settings := by
  obtain ⟨⟨m, hm, hcarries⟩, hbest⟩ := h
  refine ⟨⟨m, getElem?_append_singleton_eq_some_iff.2 (.inl hm), hcarries⟩, ?_⟩
  intro k y s hy hactive hs
  rcases getElem?_append_singleton_eq_some_iff.1 hy with hy | ⟨rfl, rfl⟩
  · exact hbest k y s hy hactive hs
  · have hlt : a < ms.length := (List.getElem?_eq_some_iff.1 hm).1
    exact ⟨hx s hactive hs, fun hgt => absurd hgt (Nat.lt_asymm hlt)⟩

/-- A module with a higher priority than all in front of it is the choice. -/
theorem isChoice_append_singleton (hactive : x.isActive = true) (hx : x.toolchain = some settings)
    (hlower : ∀ y ∈ ms, ∀ s, y.isActive = true → y.toolchain = some s →
      s.priority.rank < settings.priority.rank) : IsChoice (ms ++ [x]) ms.length settings := by
  refine ⟨⟨x, List.getElem?_concat_length, hactive, hx⟩, ?_⟩
  intro k y s hy hyactive hs
  rcases getElem?_append_singleton_eq_some_iff.1 hy with hy | ⟨rfl, rfl⟩
  · have hlt := hlower y (List.mem_of_getElem? hy) s hyactive hs
    exact ⟨Nat.le_of_lt hlt, fun _ => hlt⟩
  · obtain rfl := Option.some.inj (hs.symm.trans hx)
    exact ⟨Nat.le_refl _, fun hlt => absurd hlt (Nat.lt_irrefl _)⟩

/-- What has been chosen after some modules: nothing if none of them is active and carries
settings. -/
def Chosen (ms : List Module) : Option Candidate → Prop
  | none => ∀ m ∈ ms, m.isActive = true → m.toolchain = none
  | some c => IsChoice ms c.id c.settings

/-- A module that is left out or carries no settings does not change the choice. -/
theorem Chosen.append_singleton {c? : Option Candidate} (h : Chosen ms c?)
    (hx : x.isActive = true → x.toolchain = none) : Chosen (ms ++ [x]) c? := by
  cases c? with
  | none =>
    intro m hm hactive
    rcases List.mem_append.1 hm with hm | hm
    · exact h m hm hactive
    · obtain rfl := List.mem_singleton.1 hm
      exact hx hactive
  | some c =>
    apply IsChoice.append_singleton h
    intro s hactive hs
    rw [hx hactive] at hs
    cases hs

namespace Progress

/-- Only a higher priority replaces the toolchain chosen so far. -/
theorem toolchain?_considerToolchain (p : Progress) (c : Candidate) :
    (p.considerToolchain c).toolchain? =
      match p.toolchain? with
      | none => some c
      | some old =>
        if old.settings.priority.rank < c.settings.priority.rank then some c else some old := by
  unfold considerToolchain
  dsimp only [report]
  cases hold : p.toolchain? with
  | none => rfl
  | some old =>
    dsimp only
    split
    · rfl
    · split <;> rfl

theorem chosen_consider {p : Progress} (h : Chosen ms p.toolchain?) (hactive : x.isActive = true) :
    Chosen (ms ++ [x]) (p.consider ms.length x).toolchain? := by
  unfold consider
  cases hx : x.toolchain with
  | none => exact h.append_singleton fun _ => hx
  | some settings =>
    dsimp only
    rw [toolchain?_considerToolchain]
    cases hold : p.toolchain? with
    | none =>
      rw [hold] at h
      apply isChoice_append_singleton hactive hx
      intro y hy s hyactive hs
      rw [h y hy hyactive] at hs
      cases hs
    | some old =>
      rw [hold] at h
      dsimp only
      split
      · rename_i hhigher
        apply isChoice_append_singleton hactive hx
        intro y hy s hyactive hs
        obtain ⟨k, hk⟩ := List.mem_iff_getElem?.1 hy
        exact Nat.lt_of_le_of_lt (h.best k y s hk hyactive hs).1 hhigher
      · rename_i hnot
        apply IsChoice.append_singleton h
        intro s _ hs
        obtain rfl := Option.some.inj (hx.symm.trans hs)
        exact Nat.not_lt.1 hnot

end Progress

theorem Resolver.chosen_after {r : Resolver} {pre : List Module} {p : Progress}
    (h : r.after pre = .ok p) : Chosen pre p.toolchain? := by
  refine after_induction (motive := fun pre p => Chosen pre p.toolchain?) ?_ ?_ h
  · intro m hm
    exact absurd hm List.not_mem_nil
  · intro pre x p q _ ih hadd
    cases hactive : x.isActive with
    | false =>
      rw [Progress.add_of_inactive hactive] at hadd
      obtain rfl := Except.ok.inj hadd
      exact ih.append_singleton fun hx => absurd hx (Bool.eq_false_iff.1 hactive)
    | true =>
      rw [(Progress.added_of_add hactive hadd).toolchain_eq]
      exact Progress.chosen_consider ih hactive

theorem Resolver.isChoice_after {r : Resolver} {pre : List Module} {p : Progress} {c : Candidate}
    (h : r.after pre = .ok p) (hc : p.toolchain? = some c) : IsChoice pre c.id c.settings := by
  have hchosen := chosen_after h
  rw [hc] at hchosen
  exact hchosen

end BuildGraph
