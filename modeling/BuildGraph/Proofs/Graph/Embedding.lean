import BuildGraph.Proofs.Graph.Entries
import Mathlib.Data.List.Sort
import Mathlib.Order.Monotone.Basic
set_option autoImplicit false

/-!
# Lists of modules inside larger ones

The modules of a list take their places in a larger list, in the same order, and whatever stands
beside them there takes no part in the build (`Embeds`). The places have other numbers, and that is
all that changes: each name is answered by the same module, the same module is the last of its name,
names are taken over in the same order, and the same toolchain is chosen.

A list with one more module that is left out of the build is the case at hand (`embeds_insert`).
-/

namespace BuildGraph

open BuildGraph.Graph (numbered)

variable {f : ModuleId → ModuleId} {small large : List Module} {name : String}

/-! ## Ascending lists -/

/-- Two ascending lists, of which one holds the new numbers of what the other holds. -/
theorem eq_map_of_mem_iff {ids renumbered : List ModuleId} (hf : StrictMono f)
    (hids : ids.Pairwise (· < ·)) (hrenumbered : renumbered.Pairwise (· < ·))
    (h : ∀ c, c ∈ renumbered ↔ ∃ a ∈ ids, f a = c) : renumbered = ids.map f := by
  have hmap : (ids.map f).Pairwise (· < ·) :=
    List.pairwise_map.2 (hids.imp fun hlt => hf hlt)
  exact hrenumbered.eq_of_mem_iff hmap fun c => (h c).trans List.mem_map.symm

theorem pairwise_numbered (ms : List Module) :
    (numbered ms).Pairwise (InvImage (· < ·) Prod.fst) := by
  have hfst : (numbered ms).map Prod.fst = List.range ms.length :=
    List.map_fst_zip (by rw [List.length_range])
  have hrange := List.pairwise_lt_range (n := ms.length)
  rw [← hfst] at hrange
  exact (List.pairwise_map (f := Prod.fst)).1 hrange

/-- Modules in the order of their positions are known by what is among them. -/
theorem eq_of_pairwise_numbers {ps qs : List (ModuleId × Module)}
    (hps : ps.Pairwise (InvImage (· < ·) Prod.fst)) (hqs : qs.Pairwise (InvImage (· < ·) Prod.fst))
    (h : ∀ p, p ∈ ps ↔ p ∈ qs) : ps = qs := by
  have : Std.Irrefl (InvImage (α := ModuleId × Module) (· < ·) Prod.fst) :=
    ⟨fun p => Nat.lt_irrefl p.1⟩
  have : Std.Antisymm (InvImage (α := ModuleId × Module) (· < ·) Prod.fst) :=
    ⟨fun p q hpq hqp => absurd hqp (Nat.lt_asymm hpq)⟩
  exact hps.eq_of_mem_iff hqs h

/-! ## Embeddings -/

/-- The modules of a list have their places in a larger one, in order, and beside them stand only
modules that take no part in the build. -/
structure Embeds (f : ModuleId → ModuleId) (small large : List Module) : Prop where
  strictMono : StrictMono f
  getElem?_eq : ∀ a, large[f a]? = small[a]?
  covers : ∀ c m, large[c]? = some m → m.isActive = true → ∃ a, f a = c

namespace Embeds

/-- Every list stands in itself. -/
theorem refl (ms : List Module) : Embeds id ms ms where
  strictMono := strictMono_id
  getElem?_eq _ := rfl
  covers c _ _ _ := ⟨c, rfl⟩

theorem lt_length_iff (h : Embeds f small large) {a : ModuleId} :
    f a < large.length ↔ a < small.length := by
  rw [← Nat.not_le, ← Nat.not_le, ← List.getElem?_eq_none_iff, ← List.getElem?_eq_none_iff,
    h.getElem?_eq]

theorem targetNameOf_eq (h : Embeds f small large) (a : ModuleId) :
    Graph.targetNameOf large (f a) = Graph.targetNameOf small a := by
  unfold Graph.targetNameOf
  rw [h.getElem?_eq]

/-- An active module of the larger list has its place in the smaller one. -/
theorem exists_getElem?_eq (h : Embeds f small large) {c : ModuleId} {m : Module}
    (hm : large[c]? = some m) (hactive : m.isActive = true) :
    ∃ a, f a = c ∧ small[a]? = some m := by
  obtain ⟨a, rfl⟩ := h.covers c m hm hactive
  exact ⟨a, rfl, (h.getElem?_eq a).symm.trans hm⟩

theorem mem_iff_of_isActive (h : Embeds f small large) {m : Module} (hactive : m.isActive = true) :
    m ∈ large ↔ m ∈ small := by
  rw [List.mem_iff_getElem?, List.mem_iff_getElem?]
  constructor
  · rintro ⟨c, hc⟩
    obtain ⟨a, -, ha⟩ := h.exists_getElem?_eq hc hactive
    exact ⟨a, ha⟩
  · rintro ⟨a, ha⟩
    exact ⟨f a, (h.getElem?_eq a).trans ha⟩

/-- The same module answers to a name first. -/
theorem firstActive?_eq (h : Embeds f small large) (name : String) :
    Resolver.firstActive? large name = (Resolver.firstActive? small name).map f := by
  cases hfirst : Resolver.firstActive? small name with
  | none =>
    rw [Resolver.firstActive?_eq_none_iff] at hfirst
    apply Resolver.firstActive?_eq_none_iff.2
    intro m hm hactive
    exact hfirst m ((h.mem_iff_of_isActive hactive).1 hm) hactive
  | some a =>
    obtain ⟨⟨m, hm, hactive, hanswers⟩, hbefore⟩ := Resolver.firstActive?_eq_some_iff.1 hfirst
    apply Resolver.firstActive?_eq_some_iff.2
    refine ⟨⟨m, (h.getElem?_eq a).trans hm, hactive, hanswers⟩, ?_⟩
    intro c hc x hx hxactive
    obtain ⟨k, rfl, hk⟩ := h.exists_getElem?_eq hx hxactive
    exact hbefore k (h.strictMono.lt_iff_lt.1 hc) x hk hxactive

/-- The active modules that are kept by some test are the same ones, with their new numbers. -/
theorem filter_numbered (h : Embeds f small large) {keep : ModuleId × Module → Bool}
    (hkeep : ∀ p, keep p = true → p.2.isActive = true) :
    (numbered large).filter keep =
      ((numbered small).filter fun p => keep (f p.1, p.2)).map (Prod.map f id) := by
  refine eq_of_pairwise_numbers ((pairwise_numbered large).filter _)
    (List.pairwise_map.2 (((pairwise_numbered small).filter _).imp fun hlt => h.strictMono hlt)) ?_
  rintro ⟨c, m⟩
  simp only [List.mem_filter, List.mem_map, mem_numbered_iff, Prod.exists, Prod.map_apply, id_eq,
    Prod.mk.injEq]
  constructor
  · rintro ⟨hm, hkept⟩
    obtain ⟨a, rfl, ha⟩ := h.exists_getElem?_eq hm (hkeep _ hkept)
    exact ⟨a, m, ⟨ha, hkept⟩, rfl, rfl⟩
  · rintro ⟨a, x, ⟨ha, hkept⟩, rfl, rfl⟩
    exact ⟨(h.getElem?_eq a).trans ha, hkept⟩

theorem filter_active (h : Embeds f small large) :
    ((numbered large).filter fun p => p.2.isActive) =
      ((numbered small).filter fun p => p.2.isActive).map (Prod.map f id) :=
  h.filter_numbered fun _ hactive => hactive

/-- The same module is the last of its name. -/
theorem lastNamed?_eq (h : Embeds f small large) (name : String) :
    lastNamed? large name = (lastNamed? small name).map (Prod.map f id) := by
  unfold lastNamed?
  rw [h.filter_numbered fun p hp => (Bool.and_eq_true_iff.1 hp).1, List.getLast?_map]

/-- In front of a module stand active modules of the same names. -/
theorem hasActive_take (h : Embeds f small large) (a : ModuleId) (name : String) :
    hasActive (large.take (f a)) name = hasActive (small.take a) name := by
  rw [Bool.eq_iff_iff, hasActive_take_iff, hasActive_take_iff]
  constructor
  · rintro ⟨c, m, hc, hm, hactive, hname⟩
    obtain ⟨k, rfl, hk⟩ := h.exists_getElem?_eq hm hactive
    exact ⟨k, m, h.strictMono.lt_iff_lt.1 hc, hk, hactive, hname⟩
  · rintro ⟨k, m, hk, hm, hactive, hname⟩
    exact ⟨f k, m, h.strictMono hk, (h.getElem?_eq k).trans hm, hactive, hname⟩

/-- The same names are taken over, in the same order. -/
theorem takeovers_eq (h : Embeds f small large) : takeovers large = takeovers small := by
  unfold takeovers
  rw [h.filter_numbered fun p hp => (Bool.and_eq_true_iff.1 hp).1, List.map_map]
  simp only [h.hasActive_take]
  rfl

/-- The same toolchain is chosen. -/
theorem isChoice (h : Embeds f small large) {a : ModuleId} {settings : Toolchain}
    (hchoice : IsChoice small a settings) : IsChoice large (f a) settings := by
  obtain ⟨⟨m, hm, hactive, hsettings⟩, hbest⟩ := hchoice
  refine ⟨⟨m, (h.getElem?_eq a).trans hm, hactive, hsettings⟩, ?_⟩
  intro c x s hx hxactive hs
  obtain ⟨k, rfl, hk⟩ := h.exists_getElem?_eq hx hxactive
  obtain ⟨hle, hearlier⟩ := hbest k x s hk hxactive hs
  refine ⟨hle, ?_⟩
  intro hlt
  exact hearlier (h.strictMono.lt_iff_lt.1 hlt)

/-- A module has edges to the same modules. -/
theorem edges_eq {r R : Resolver} (h : Embeds f r.modules R.modules) (a : ModuleId) (m : Module) :
    R.edges (f a) m = (r.edges a m).map f := by
  refine eq_map_of_mem_iff h.strictMono (r.pairwise_edges a m) (R.pairwise_edges (f a) m) ?_
  intro c
  simp only [Resolver.mem_edges_iff, h.firstActive?_eq, Option.map_eq_some_iff]
  constructor
  · rintro ⟨hne, d, hd, k, hk, rfl⟩
    refine ⟨k, ⟨?_, d, hd, hk⟩, rfl⟩
    intro heq
    exact hne (congrArg f heq)
  · rintro ⟨k, ⟨hne, d, hd, hk⟩, rfl⟩
    exact ⟨h.strictMono.injective.ne hne, d, hd, k, hk, rfl⟩

end Embeds

/-! ## One more module that is left out -/

/-- The position of a module once another one has been put in at a position. -/
def shiftFrom (position : ModuleId) (a : ModuleId) : ModuleId :=
  if a < position then a else a + 1

theorem strictMono_shiftFrom (position : ModuleId) : StrictMono (shiftFrom position) := by
  intro a b hlt
  unfold shiftFrom
  by_cases hb : b < position
  · rw [if_pos (Nat.lt_trans hlt hb), if_pos hb]
    exact hlt
  · rw [if_neg hb]
    split
    · exact Nat.lt_succ_of_lt hlt
    · exact Nat.succ_lt_succ hlt

theorem embeds_insert {x : Module} (hx : x.isActive = false) (front back : List Module) :
    Embeds (shiftFrom front.length) (front ++ back) (front ++ [x] ++ back) where
  strictMono := strictMono_shiftFrom front.length
  getElem?_eq a := by
    unfold shiftFrom
    rw [List.append_assoc]
    by_cases ha : a < front.length
    · rw [if_pos ha, List.getElem?_append_left ha, List.getElem?_append_left ha]
    · have hle : front.length ≤ a := Nat.not_lt.1 ha
      rw [if_neg ha, List.getElem?_append_right hle,
        List.getElem?_append_right (Nat.le_succ_of_le hle), Nat.succ_sub hle]
      rfl
  covers c m hm hactive := by
    rw [List.append_assoc] at hm
    rcases Nat.lt_trichotomy c front.length with hlt | rfl | hgt
    · exact ⟨c, if_pos hlt⟩
    · rw [List.getElem?_append_right (Nat.le_refl _), Nat.sub_self] at hm
      obtain rfl := Option.some.inj hm
      exact absurd hactive (Bool.eq_false_iff.1 hx)
    · refine ⟨c - 1, ?_⟩
      unfold shiftFrom
      rw [if_neg (Nat.not_lt.2 (Nat.le_sub_one_of_lt hgt)),
        Nat.sub_add_cancel (Nat.one_le_of_lt hgt)]

end BuildGraph
