import BuildGraph.Graph.Cycle
import Mathlib.Data.List.Chain
import Mathlib.Data.List.Nodup
import Mathlib.Logic.Relation
import Mathlib.Data.List.Perm.Subperm
set_option autoImplicit false

/-!
# The search for cycles

`Searches` says what the search for cycles does without a bound on its depth, one rule for each
thing that can happen to the next module to visit. The bounded search follows it, since a way of
distinct modules below the bound never gets too long.

Two facts about a search follow by induction on its rules. Every cycle that it reports is one. And
the modules that it has left stand in an order, the one left last first, in which each of their
edges leads on to a later module or closes a reported cycle (`Settled`). Without the closing edges
nothing can therefore lead back to where it came from.
-/

namespace BuildGraph

open Relation

variable {next : ModuleId → List ModuleId} {way todo order : List ModuleId}
  {s t : CycleSearch} {cycles : List (List ModuleId)} {a b id : ModuleId}

/-! ## The search without a bound -/

/-- A search from a state, at the end of a way given from its end, visits some modules in turn. -/
inductive Searches (next : ModuleId → List ModuleId) :
    List ModuleId → List ModuleId → CycleSearch → CycleSearch → Prop
  | done {way : List ModuleId} {s : CycleSearch} : Searches next way [] s s
  /-- The module stands on the way. -/
  | close {way todo : List ModuleId} {id : ModuleId} {s t : CycleSearch} :
    id ∈ way → Searches next way todo (s.close way id) t → Searches next way (id :: todo) s t
  /-- The module has been left before. -/
  | skip {way todo : List ModuleId} {id : ModuleId} {s t : CycleSearch} :
    id ∉ way → id ∈ s.entered → Searches next way todo s t → Searches next way (id :: todo) s t
  /-- The module is new: what it leads to is visited before the rest. -/
  | enter {way todo : List ModuleId} {id : ModuleId} {s u t : CycleSearch} :
    id ∉ way → id ∉ s.entered → Searches next (id :: way) (next id) (s.enter id) u →
      Searches next way todo u t → Searches next way (id :: todo) s t

/-- Distinct modules below a bound are no more than the bound. -/
theorem length_le_of_nodup_of_lt {bound : Nat} (hnodup : way.Nodup) (hlt : ∀ x ∈ way, x < bound) :
    way.length ≤ bound := by
  have hsub : way ⊆ List.range bound := fun x hx => List.mem_range.2 (hlt x hx)
  have hle := (List.subperm_of_subset hnodup hsub).length_le
  rwa [List.length_range] at hle

/-- A search that may go as deep as there are modules is not stopped by its bound. -/
theorem searches_foldl_visit {bound depth : Nat} (hnext : ∀ x, ∀ y ∈ next x, y < bound)
    (hnodup : way.Nodup) (hway : ∀ x ∈ way, x < bound) (htodo : ∀ x ∈ todo, x < bound)
    (hdepth : bound < way.length + depth) :
    Searches next way todo s (todo.foldl (CycleSearch.visit next depth way) s) := by
  induction depth generalizing way todo s with
  | zero =>
    have hle := length_le_of_nodup_of_lt hnodup hway
    omega
  | succ depth ih =>
    induction todo generalizing s with
    | nil => exact .done
    | cons id todo ihtodo =>
      have hrest := fun u => ihtodo (s := u) fun x hx => htodo x (List.mem_cons_of_mem id hx)
      rw [List.foldl_cons]
      unfold CycleSearch.visit
      by_cases hid : id ∈ way
      · rw [if_pos hid]
        exact .close hid (hrest _)
      · rw [if_neg hid]
        by_cases hentered : id ∈ s.entered
        · rw [if_pos hentered]
          exact .skip hid hentered (hrest _)
        · rw [if_neg hentered]
          have hcons : ∀ x ∈ id :: way, x < bound := by
            intro x hx
            rcases List.mem_cons.1 hx with rfl | hx
            · exact htodo x List.mem_cons_self
            · exact hway x hx
          have hdeeper : bound < (id :: way).length + depth := by
            rw [List.length_cons]
            omega
          exact .enter hid hentered
            (ih (List.nodup_cons.2 ⟨hid, hnodup⟩) hcons (hnext id) hdeeper) (hrest _)

theorem exists_searches_findCycles {bound : Nat} {starts : List ModuleId}
    (hnext : ∀ x, ∀ y ∈ next x, y < bound) (hstarts : ∀ x ∈ starts, x < bound) :
    ∃ t, Searches next [] starts .fresh t ∧ findCycles next bound starts = t.cycles := by
  have hdepth : bound < ([] : List ModuleId).length + (bound + 1) := by
    rw [List.length_nil]
    omega
  refine ⟨_, searches_foldl_visit hnext List.nodup_nil ?_ hstarts hdepth, rfl⟩
  intro x hx
  exact absurd hx List.not_mem_nil

/-- A search without a bound leaves no choice. -/
theorem Searches.unique {u : CycleSearch} (h : Searches next way todo s t)
    (h' : Searches next way todo s u) : t = u := by
  induction h generalizing u with
  | done =>
    cases h' with
    | done => rfl
  | close hid _ ih =>
    cases h' with
    | close _ hrest => exact ih hrest
    | skip hnot => exact absurd hid hnot
    | enter hnot => exact absurd hid hnot
  | skip hnot hentered _ ih =>
    cases h' with
    | close hid => exact absurd hid hnot
    | skip _ _ hrest => exact ih hrest
    | enter _ hnew => exact absurd hentered hnew
  | enter hnot hnew _ _ ihbelow ihrest =>
    cases h' with
    | close hid => exact absurd hid hnot
    | skip _ hentered => exact absurd hentered hnew
    | enter _ _ hbelow hrest =>
      obtain rfl := ihbelow hbelow
      exact ihrest hrest

/-- A search forgets no cycle. -/
theorem Searches.subset_cycles (h : Searches next way todo s t) : s.cycles ⊆ t.cycles := by
  induction h with
  | done => exact List.Subset.refl _
  | close _ _ ih => exact fun c hc => ih (List.mem_append_left _ hc)
  | skip _ _ _ ih => exact ih
  | enter _ _ _ _ ihbelow ihrest => exact fun c hc => ihrest (ihbelow hc)

/-! ## What closes a cycle -/

/-- The edge that closes a cycle leads from its last module back to its first. -/
def Closes (c : List ModuleId) (a b : ModuleId) : Prop :=
  c.getLast? = some a ∧ c.head? = some b

/-- An edge closes one of some cycles. -/
def ClosedBy (cycles : List (List ModuleId)) (a b : ModuleId) : Prop :=
  ∃ c ∈ cycles, Closes c a b

theorem ClosedBy.mono {more : List (List ModuleId)} (hsub : cycles ⊆ more)
    (h : ClosedBy cycles a b) : ClosedBy more a b := by
  obtain ⟨c, hc, hcloses⟩ := h
  exact ⟨c, hsub hc, hcloses⟩

/-- The part of a way above a module on it, and the rest below. -/
theorem eq_takeWhile_append_of_mem (h : id ∈ way) :
    ∃ below, way = way.takeWhile (· != id) ++ id :: below := by
  induction way with
  | nil => exact absurd h List.not_mem_nil
  | cons x way ih =>
    by_cases hx : x = id
    · subst hx
      exact ⟨way, by simp⟩
    · obtain ⟨below, hbelow⟩ := ih ((List.mem_cons.1 h).resolve_left (Ne.symm hx))
      refine ⟨below, ?_⟩
      have hne : (x != id) = true := bne_iff_ne.2 hx
      rw [List.takeWhile_cons, if_pos hne, List.cons_append, ← hbelow]

theorem cycle_eq_reverse :
    id :: (way.takeWhile (· != id)).reverse = (way.takeWhile (· != id) ++ [id]).reverse := by
  rw [List.reverse_append]
  rfl

/-- A cycle that is reported at the end of a way is closed by the edge from that end. -/
theorem closes_of_mem_way (h : id ∈ way) (ha : way.head? = some a) :
    Closes (id :: (way.takeWhile (· != id)).reverse) a id := by
  refine ⟨?_, rfl⟩
  obtain ⟨below, hbelow⟩ := eq_takeWhile_append_of_mem h
  rw [cycle_eq_reverse, List.getLast?_reverse, ← ha]
  conv_rhs => rw [hbelow]
  cases way.takeWhile (· != id) <;> rfl

/-! ## Reported cycles are cycles -/

/-- Distinct modules, each with an edge to the next and the last with an edge to the first. -/
structure IsCycle (next : ModuleId → List ModuleId) (c : List ModuleId) : Prop where
  nodup : c.Nodup
  chain : c.IsChain fun x y => y ∈ next x
  closed : ∃ a b, Closes c a b ∧ b ∈ next a

/-- Each module of a cycle leads to another one of it, or to itself. -/
theorem IsCycle.exists_mem_next {c : List ModuleId} (h : IsCycle next c) (ha : a ∈ c) :
    ∃ b ∈ c, b ∈ next a := by
  obtain ⟨above, below, rfl⟩ := List.append_of_mem ha
  cases below with
  | nil =>
    obtain ⟨last, first, ⟨hlast, hfirst⟩, hedge⟩ := h.closed
    rw [List.getLast?_concat] at hlast
    obtain rfl := Option.some.inj hlast
    exact ⟨first, List.mem_of_mem_head? hfirst, hedge⟩
  | cons b below =>
    have hedge : b ∈ next a := by
      have hchain := (List.isChain_append.1 h.chain).2.1
      exact (List.isChain_cons_cons.1 hchain).1
    exact ⟨b, List.mem_append_right _ (List.mem_cons_of_mem a List.mem_cons_self), hedge⟩

/-- A cycle leads from one of its modules back to that module. -/
theorem IsCycle.exists_transGen {c : List ModuleId} (h : IsCycle next c) :
    ∃ a, TransGen (fun x y => y ∈ next x) a a := by
  obtain ⟨a, b, ⟨hlast, hfirst⟩, hedge⟩ := h.closed
  have hne : c ≠ [] := List.ne_nil_of_mem (List.mem_of_mem_head? hfirst)
  have hway := List.relationReflTransGen_of_exists_isChain c h.chain hne
  rw [List.head?_eq_some_head hne] at hfirst
  rw [List.getLast?_eq_some_getLast hne] at hlast
  rw [Option.some.inj hfirst, Option.some.inj hlast] at hway
  exact ⟨a, TransGen.head' hedge hway⟩

/-- The cycle that a module on the way closes with the part of the way above it. -/
theorem isCycle_of_mem_way (hnodup : way.Nodup) (hchain : way.IsChain fun x y => x ∈ next y)
    (hid : id ∈ way) (hedge : ∀ a, way.head? = some a → id ∈ next a) :
    IsCycle next (id :: (way.takeWhile (· != id)).reverse) := by
  obtain ⟨below, hbelow⟩ := eq_takeWhile_append_of_mem hid
  have hsplit : way.takeWhile (· != id) ++ [id] <+: way :=
    ⟨below, by rw [List.append_assoc, List.singleton_append, ← hbelow]⟩
  obtain ⟨a, above, rfl⟩ := List.exists_cons_of_ne_nil (List.ne_nil_of_mem hid)
  refine ⟨?_, ?_, a, id, closes_of_mem_way hid rfl, hedge a rfl⟩
  · rw [cycle_eq_reverse, List.nodup_reverse]
    exact hnodup.sublist hsplit.sublist
  · rw [cycle_eq_reverse, List.isChain_reverse]
    exact hchain.prefix hsplit

/-- A search along a way on which each module leads to the one above it reports only cycles. -/
theorem isCycle_of_searches (h : Searches next way todo s t) (hnodup : way.Nodup)
    (hchain : way.IsChain fun x y => x ∈ next y)
    (htodo : ∀ id ∈ todo, ∀ a, way.head? = some a → id ∈ next a)
    (hs : ∀ c ∈ s.cycles, IsCycle next c) : ∀ c ∈ t.cycles, IsCycle next c := by
  induction h with
  | done => exact hs
  | @close way todo id s t hid _ ih =>
    refine ih hnodup hchain (fun x hx => htodo x (List.mem_cons_of_mem id hx)) ?_
    intro c hc
    rcases List.mem_append.1 hc with hc | hc
    · exact hs c hc
    · obtain rfl := List.mem_singleton.1 hc
      exact isCycle_of_mem_way hnodup hchain hid (htodo id List.mem_cons_self)
  | @skip way todo id s t _ _ _ ih =>
    exact ih hnodup hchain (fun x hx => htodo x (List.mem_cons_of_mem id hx)) hs
  | @enter way todo id s u t hid _ _ _ ihbelow ihrest =>
    refine ihrest hnodup hchain (fun x hx => htodo x (List.mem_cons_of_mem id hx)) ?_
    refine ihbelow (List.nodup_cons.2 ⟨hid, hnodup⟩) ?_ ?_ hs
    · cases way with
      | nil => exact .singleton id
      | cons top way => exact .cons_cons (htodo id List.mem_cons_self top rfl) hchain
    · intro x hx a ha
      obtain rfl := Option.some.inj ha
      exact hx

/-! ## The order in which modules are left -/

/-- Each edge of a listed module leads on to a later one or closes a cycle. -/
def Settled (next : ModuleId → List ModuleId) (cycles : List (List ModuleId)) :
    List ModuleId → Prop
  | [] => True
  | a :: order => (∀ b ∈ next a, b ∈ order ∨ ClosedBy cycles a b) ∧ Settled next cycles order

theorem Settled.mono {more : List (List ModuleId)} (hsub : cycles ⊆ more)
    (h : Settled next cycles order) : Settled next more order := by
  induction order with
  | nil => exact trivial
  | cons a order ih =>
    exact ⟨fun b hb => (h.1 b hb).imp_right (ClosedBy.mono hsub), ih h.2⟩

/-- What a search has entered stands on the way or has been left, and is then listed, the one left
last first. A search that visits some modules lists each of them, unless the edge to it from the
end of the way closes a cycle. -/
theorem settled_of_searches (h : Searches next way todo s t)
    (hentered : ∀ x, x ∈ s.entered ↔ x ∈ way ∨ x ∈ order) (hs : Settled next s.cycles order) :
    ∃ longer, order ⊆ longer ∧ (∀ x, x ∈ t.entered ↔ x ∈ way ∨ x ∈ longer) ∧
      Settled next t.cycles longer ∧
      ∀ id ∈ todo, id ∈ longer ∨ ∃ a, way.head? = some a ∧ ClosedBy t.cycles a id := by
  induction h generalizing order with
  | done =>
    exact ⟨order, List.Subset.refl _, hentered, hs, fun id hid => absurd hid List.not_mem_nil⟩
  | @close way todo id s t hid hrest ih =>
    have hsub : s.cycles ⊆ (s.close way id).cycles := fun c hc => List.mem_append_left _ hc
    obtain ⟨longer, horder, hlonger, hsettled, hvisited⟩ := ih hentered (hs.mono hsub)
    refine ⟨longer, horder, hlonger, hsettled, ?_⟩
    intro x hx
    rcases List.mem_cons.1 hx with rfl | hx
    · obtain ⟨top, way, rfl⟩ := List.exists_cons_of_ne_nil (List.ne_nil_of_mem hid)
      have hreported : ClosedBy (s.close (top :: way) x).cycles top x :=
        ⟨_, List.mem_append_right _ List.mem_cons_self, closes_of_mem_way hid rfl⟩
      exact .inr ⟨top, rfl, hreported.mono hrest.subset_cycles⟩
    · exact hvisited x hx
  | @skip way todo id s t hid hmet _ ih =>
    obtain ⟨longer, horder, hlonger, hsettled, hvisited⟩ := ih hentered hs
    refine ⟨longer, horder, hlonger, hsettled, ?_⟩
    intro x hx
    rcases List.mem_cons.1 hx with rfl | hx
    · exact .inl (horder (((hentered x).1 hmet).resolve_left hid))
    · exact hvisited x hx
  | @enter way todo id s u t hid hnew _ _ ihbelow ihrest =>
    have hbelow : ∀ x, x ∈ (s.enter id).entered ↔ x ∈ id :: way ∨ x ∈ order := by
      intro x
      change x ∈ id :: s.entered ↔ _
      rw [List.mem_cons, List.mem_cons, hentered x, or_assoc]
    obtain ⟨left, horder, hleft, hsettled, hnext⟩ := ihbelow hbelow hs
    -- The module is left once all that it leads to has been visited, so it goes to the front.
    have hfront : Settled next u.cycles (id :: left) := by
      refine ⟨fun b hb => (hnext b hb).imp_right ?_, hsettled⟩
      rintro ⟨a, ha, hclosed⟩
      obtain rfl := Option.some.inj ha
      exact hclosed
    have hmet : ∀ x, x ∈ u.entered ↔ x ∈ way ∨ x ∈ id :: left := by
      intro x
      rw [hleft x, List.mem_cons, List.mem_cons, or_assoc, or_left_comm]
    obtain ⟨longer, hsub, hlonger, hsettled, hvisited⟩ := ihrest hmet hfront
    refine ⟨longer, fun x hx => hsub (List.mem_cons_of_mem id (horder hx)), hlonger, hsettled, ?_⟩
    intro x hx
    rcases List.mem_cons.1 hx with rfl | hx
    · exact .inl (hsub List.mem_cons_self)
    · exact hvisited x hx

/-! ## Edges that remain -/

/-- An edge that closes none of some cycles. -/
def Remains (next : ModuleId → List ModuleId) (cycles : List (List ModuleId))
    (a b : ModuleId) : Prop :=
  b ∈ next a ∧ ¬ ClosedBy cycles a b

/-- The remaining edges of the first of the listed modules lead on to later ones. -/
theorem mem_of_remains_cons (h : Settled next cycles (a :: order)) (hab : Remains next cycles a b) :
    b ∈ order :=
  (h.1 b hab.1).resolve_right hab.2

/-- The remaining edges of a listed module lead to listed modules. -/
theorem mem_of_remains (h : Settled next cycles order) (ha : a ∈ order)
    (hab : Remains next cycles a b) : b ∈ order := by
  induction order with
  | nil => exact absurd ha List.not_mem_nil
  | cons x order ih =>
    rcases List.mem_cons.1 ha with rfl | ha
    · exact List.mem_cons_of_mem _ (mem_of_remains_cons h hab)
    · exact List.mem_cons_of_mem _ (ih h.2 ha)

theorem mem_of_transGen_remains (h : Settled next cycles order) (ha : a ∈ order)
    (hab : TransGen (Remains next cycles) a b) : b ∈ order := by
  induction hab with
  | single hstep => exact mem_of_remains h ha hstep
  | tail _ hstep ih => exact mem_of_remains h ih hstep

/-- The remaining edges lead from no listed module back to itself. -/
theorem not_transGen_remains_of_mem (h : Settled next cycles order) (ha : a ∈ order) :
    ¬ TransGen (Remains next cycles) a a := by
  induction order with
  | nil => exact absurd ha List.not_mem_nil
  | cons x order ih =>
    by_cases hlater : a ∈ order
    · exact ih h.2 hlater
    · intro hround
      obtain rfl := (List.mem_cons.1 ha).resolve_right hlater
      -- The first step leads to a later module, and from there on the way stays among those.
      obtain ⟨b, hstep, hback⟩ := TransGen.head'_iff.1 hround
      have hb : b ∈ order := mem_of_remains_cons h hstep
      rcases reflTransGen_iff_eq_or_transGen.1 hback with heq | hback
      · exact hlater (heq ▸ hb)
      · exact hlater (mem_of_transGen_remains h.2 hb hback)

/-! ## What the search finds -/

section FindCycles

variable {bound : Nat} {starts : List ModuleId} (hnext : ∀ x, ∀ y ∈ next x, y < bound)
  (hstarts : ∀ x ∈ starts, x < bound)

include hnext hstarts

theorem isCycle_of_mem_findCycles {c : List ModuleId} (hc : c ∈ findCycles next bound starts) :
    IsCycle next c := by
  obtain ⟨t, hsearch, heq⟩ := exists_searches_findCycles hnext hstarts
  rw [heq] at hc
  refine isCycle_of_searches hsearch List.nodup_nil .nil ?_ ?_ c hc
  · intro x _ a ha
    cases ha
  · intro c hc
    exact absurd hc List.not_mem_nil

theorem exists_settled_findCycles :
    ∃ order, Settled next (findCycles next bound starts) order ∧ starts ⊆ order := by
  obtain ⟨t, hsearch, heq⟩ := exists_searches_findCycles hnext hstarts
  have hfresh : ∀ x, x ∈ CycleSearch.fresh.entered ↔ x ∈ [] ∨ x ∈ [] := by
    intro x
    exact (or_self_iff).symm
  obtain ⟨order, -, -, hsettled, hvisited⟩ :=
    settled_of_searches hsearch hfresh trivial
  rw [heq]
  refine ⟨order, hsettled, fun x hx => (hvisited x hx).resolve_right ?_⟩
  rintro ⟨a, ha, -⟩
  cases ha

/-- Without the edges that close the cycles found, no way leads from a start back to itself. -/
theorem not_transGen_remains_findCycles (ha : a ∈ starts) :
    ¬ TransGen (Remains next (findCycles next bound starts)) a a := by
  obtain ⟨order, hsettled, hlisted⟩ := exists_settled_findCycles hnext hstarts
  exact not_transGen_remains_of_mem hsettled (hlisted ha)

/-- A search from all modules that have an edge finds a cycle exactly if there is one. -/
theorem findCycles_eq_nil_iff (hall : ∀ x, ∀ y ∈ next x, x ∈ starts) :
    findCycles next bound starts = [] ↔ ∀ a, ¬ TransGen (fun x y => y ∈ next x) a a := by
  constructor
  · intro hnone a hround
    obtain ⟨b, hstep, -⟩ := TransGen.head'_iff.1 hround
    refine not_transGen_remains_findCycles hnext hstarts (hall a b hstep) ?_
    refine TransGen.mono (fun x y hxy => ⟨hxy, ?_⟩) a a hround
    rintro ⟨c, hc, -⟩
    rw [hnone] at hc
    exact List.not_mem_nil hc
  · intro hacyclic
    refine List.eq_nil_iff_forall_not_mem.2 fun c hc => ?_
    obtain ⟨a, hround⟩ := (isCycle_of_mem_findCycles hnext hstarts hc).exists_transGen
    exact hacyclic a hround

end FindCycles

end BuildGraph
