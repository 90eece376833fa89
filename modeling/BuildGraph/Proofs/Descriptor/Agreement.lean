import BuildGraph.Proofs.Descriptor.Instantiation
import Mathlib.Data.List.Nodup
import Mathlib.Data.List.Perm.Basic
set_option autoImplicit false

/-!
# Attempts that agree

Two attempts to read something agree if both fail, for whatever reason, or both succeed with results
that belong together. What is done step by step agrees when each step does. Lists of named values
are compared by their names, whatever their order, and what is read from them name by name agrees
too.
-/

namespace BuildGraph

/-- Both attempts fail, or both succeed and their results are related. -/
inductive Agrees {ε α β : Type} (R : α → β → Prop) : Except ε α → Except ε β → Prop
  | failed (e f : ε) : Agrees R (.error e) (.error f)
  | done {a : α} {b : β} (h : R a b) : Agrees R (.ok a) (.ok b)

namespace Agrees

variable {ε ε' α β γ δ : Type} {R : α → β → Prop} {S : γ → δ → Prop} {x : Except ε α}
  {y : Except ε β}

theorem refl {R : α → α → Prop} (h : ∀ a, R a a) (x : Except ε α) : Agrees R x x := by
  cases x with
  | error e => exact .failed e e
  | ok a => exact .done (h a)

theorem bind {f : α → Except ε γ} {g : β → Except ε δ} (h : Agrees R x y)
    (hnext : ∀ a b, R a b → Agrees S (f a) (g b)) : Agrees S (x >>= f) (y >>= g) := by
  cases h with
  | failed e f => exact .failed e f
  | done hab => exact hnext _ _ hab

/-- Where the results are the same, only the next step has to agree. -/
theorem bind_eq {x y : Except ε α} {f : α → Except ε γ} {g : α → Except ε δ} (h : Agrees Eq x y)
    (hnext : ∀ a, Agrees S (f a) (g a)) : Agrees S (x >>= f) (y >>= g) :=
  h.bind fun a _ hab => hab ▸ hnext a

theorem mono {R' : α → β → Prop} (h : Agrees R x y) (himp : ∀ a b, R a b → R' a b) :
    Agrees R' x y := by
  cases h with
  | failed e f => exact .failed e f
  | done hab => exact .done (himp _ _ hab)

theorem map {f : α → γ} {g : β → δ} (h : Agrees R x y) (hresult : ∀ a b, R a b → S (f a) (g b)) :
    Agrees S (x.map f) (y.map g) := by
  cases h with
  | failed e f => exact .failed e f
  | done hab => exact .done (hresult _ _ hab)

theorem mapError {f g : ε → ε'} (h : Agrees R x y) : Agrees R (x.mapError f) (y.mapError g) := by
  cases h with
  | failed e e' => exact .failed _ _
  | done hab => exact .done hab

theorem exists_iff (h : Agrees R x y) : (∃ a, x = .ok a) ↔ ∃ b, y = .ok b := by
  cases h with
  | failed e f => exact iff_of_false nofun nofun
  | done hab => exact iff_of_true ⟨_, rfl⟩ ⟨_, rfl⟩

theorem of_exists_iff (hexists : (∃ a, x = .ok a) ↔ ∃ b, y = .ok b)
    (h : ∀ a b, x = .ok a → y = .ok b → R a b) : Agrees R x y := by
  cases x with
  | error e =>
    cases y with
    | error f => exact .failed e f
    | ok b =>
      obtain ⟨a, ha⟩ := hexists.2 ⟨b, rfl⟩
      cases ha
  | ok a =>
    obtain ⟨b, rfl⟩ := hexists.1 ⟨a, rfl⟩
    exact .done (h a b rfl rfl)

/-- Checks agree exactly if both are passed or neither is. -/
theorem unit_iff {R : Unit → Unit → Prop} (hR : R () ()) {x y : Except ε Unit} :
    Agrees R x y ↔ (x = .ok () ↔ y = .ok ()) := by
  cases x with
  | error e =>
    cases y with
    | error f => exact iff_of_true (.failed e f) (iff_of_false nofun nofun)
    | ok _ => exact iff_of_false nofun fun h => nomatch h.2 rfl
  | ok _ =>
    cases y with
    | error f => exact iff_of_false nofun fun h => nomatch h.1 rfl
    | ok _ => exact iff_of_true (.done hR) Iff.rfl

theorem mapM {f : α → Except ε γ} {g : β → Except ε δ} {as : List α} {bs : List β}
    (h : List.Forall₂ (fun a b => Agrees S (f a) (g b)) as bs) :
    Agrees (List.Forall₂ S) (as.mapM f) (bs.mapM g) := by
  induction h with
  | nil => exact .done .nil
  | cons hfirst _ ih =>
    rw [List.mapM_cons, List.mapM_cons]
    refine hfirst.bind fun c d hcd => ih.bind fun cs ds hrest => ?_
    exact .done (.cons hcd hrest)

end Agrees

/-! ## Named values in any order -/

/-- A list can be put in the order in which its images stand elsewhere. -/
theorem exists_perm_of_map_perm {α β : Type} {f : α → β} {as : List α} {bs : List β}
    (h : (as.map f).Perm bs) : ∃ as', as.Perm as' ∧ as'.map f = bs := by
  have himages : List.Forall₂ (fun a b => f a = b) as (as.map f) :=
    List.forall₂_map_right_iff.2 (List.forall₂_same.2 fun _ _ => rfl)
  have hcomp : Relation.Comp (List.Forall₂ fun a b => f a = b) List.Perm as bs := ⟨_, himages, h⟩
  rw [List.forall₂_comp_perm_eq_perm_comp_forall₂] at hcomp
  obtain ⟨as', hperm, hall⟩ := hcomp
  rw [← List.forall₂_map_left_iff, List.forall₂_eq_eq_eq] at hall
  exact ⟨as', hperm, hall⟩

/-- Two lists of named values have the same names, and the values of each name are related. -/
structure SameEntries {α β : Type} (R : String → α → β → Prop) (t : List (String × α))
    (u : List (String × β)) : Prop where
  names : (t.map (·.1)).Perm (u.map (·.1))
  values : ∀ name a b, (name, a) ∈ t → (name, b) ∈ u → R name a b

namespace SameEntries

variable {ε α β γ δ : Type} {R : String → α → β → Prop} {t : List (String × α)}
  {u : List (String × β)} {name : String}

theorem exists_right (h : SameEntries R t u) {a : α} (ha : (name, a) ∈ t) :
    ∃ b, (name, b) ∈ u ∧ R name a b := by
  have hname : name ∈ u.map (·.1) := h.names.subset (List.mem_map_of_mem ha)
  obtain ⟨⟨_, b⟩, hb, rfl⟩ := List.mem_map.1 hname
  exact ⟨b, hb, h.values _ a b ha hb⟩

theorem exists_left (h : SameEntries R t u) {b : β} (hb : (name, b) ∈ u) :
    ∃ a, (name, a) ∈ t ∧ R name a b := by
  have hname : name ∈ t.map (·.1) := h.names.symm.subset (List.mem_map_of_mem hb)
  obtain ⟨⟨_, a⟩, ha, rfl⟩ := List.mem_map.1 hname
  exact ⟨a, ha, h.values _ a b ha hb⟩

/-- A name is found in both lists or in neither. -/
theorem lookup (h : SameEntries R t u) (name : String) :
    (t.lookup name = none ∧ u.lookup name = none) ∨
      ∃ a b, t.lookup name = some a ∧ u.lookup name = some b ∧ R name a b := by
  cases ha : t.lookup name with
  | none =>
    refine .inl ⟨rfl, ?_⟩
    rw [Lookup.lookup_eq_none_iff_notMem] at ha ⊢
    exact fun hname => ha (h.names.symm.subset hname)
  | some a =>
    cases hb : u.lookup name with
    | none =>
      have hname := h.names.subset (List.mem_map_of_mem (Lookup.mem_of_lookup_eq_some ha))
      exact absurd hname (Lookup.lookup_eq_none_iff_notMem.1 hb)
    | some b =>
      exact .inr ⟨a, b, rfl, rfl, h.values name a b (Lookup.mem_of_lookup_eq_some ha)
        (Lookup.mem_of_lookup_eq_some hb)⟩

/-- Where the names come in the same order, the entries belong together one by one. -/
theorem forall₂ (h : SameEntries R t u) (hnames : t.map (·.1) = u.map (·.1)) :
    List.Forall₂ (fun p q => p.1 = q.1 ∧ R p.1 p.2 q.2) t u := by
  obtain ⟨-, hvalues⟩ := h
  induction t generalizing u with
  | nil =>
    obtain rfl := List.map_eq_nil_iff.1 hnames.symm
    exact .nil
  | cons p t ih =>
    obtain ⟨name, a⟩ := p
    obtain ⟨⟨other, b⟩, u, rfl, hsame, hrest⟩ := List.map_eq_cons_iff.1 hnames.symm
    obtain rfl : other = name := hsame
    refine .cons ⟨rfl, hvalues other a b List.mem_cons_self List.mem_cons_self⟩ ?_
    exact ih hrest.symm fun name a b ha hb =>
      hvalues name a b (List.mem_cons_of_mem _ ha) (List.mem_cons_of_mem _ hb)

/-- The entries belong together one by one after those of one list are put in the order of the
other. -/
theorem exists_perm (h : SameEntries R t u) :
    ∃ t', t.Perm t' ∧ List.Forall₂ (fun p q => p.1 = q.1 ∧ R p.1 p.2 q.2) t' u := by
  obtain ⟨t', hperm, hnames⟩ := exists_perm_of_map_perm h.names
  have h' : SameEntries R t' u :=
    ⟨.of_eq hnames, fun name a b ha hb => h.values name a b (hperm.mem_iff.2 ha) hb⟩
  exact ⟨t', hperm, h'.forall₂ hnames⟩

/-- Where the values are the same, one list is the other in another order. -/
theorem perm {t u : List (String × α)} (h : SameEntries (fun _ => Eq) t u) : t.Perm u := by
  obtain ⟨t', hperm, hall⟩ := h.exists_perm
  have heq : List.Forall₂ Eq t' u := hall.imp fun p q hpq => Prod.ext hpq.1 hpq.2
  rw [List.forall₂_eq_eq_eq] at heq
  exact heq ▸ hperm

/-- Where each name occurs once, entries that belong together one by one after they are put in
another order have the same names and related values. -/
theorem of_perm {t' : List (String × α)} (hnames : (t.map (·.1)).Nodup) (hperm : t.Perm t')
    (hall : List.Forall₂ (fun p q => p.1 = q.1 ∧ R p.1 p.2 q.2) t' u) : SameEntries R t u := by
  have hsame : t'.map (·.1) = u.map (·.1) := by
    rw [← List.forall₂_eq_eq_eq, List.forall₂_map_left_iff, List.forall₂_map_right_iff]
    exact hall.imp fun _ _ hpq => hpq.1
  refine ⟨hsame ▸ hperm.map _, fun name a b ha hb => ?_⟩
  obtain ⟨i, hi, hbi⟩ := List.getElem_of_mem hb
  have hi' : i < t'.length := hall.length_eq ▸ hi
  obtain ⟨hname, hvalue⟩ := (List.forall₂_iff_get.1 hall).2 i hi' hi
  simp only [List.get_eq_getElem, hbi] at hname hvalue
  have hmem : t'[i] ∈ t := hperm.mem_iff.2 (List.getElem_mem hi')
  have hentry := List.inj_on_of_nodup_map hnames hmem ha hname
  rwa [hentry] at hvalue

/-- What is read from a list of named values, value by value. -/
theorem of_mapM {f : α → Except ε γ} {cs : List (String × γ)}
    (h : (t.mapM fun p => do return (p.1, ← f p.2)) = .ok cs) :
    cs.map (·.1) = t.map (·.1) ∧ ∀ name c, (name, c) ∈ cs → ∃ a, (name, a) ∈ t ∧ f a = .ok c := by
  have hall := mapM_eq_ok_iff.1 h
  clear h
  induction hall with
  | nil => exact ⟨rfl, nofun⟩
  | @cons p q t cs hfirst hrest ih =>
    obtain ⟨hnames, hvalues⟩ := ih
    obtain ⟨c, hc, heq⟩ := bind_eq_ok_iff.1 hfirst
    obtain rfl := Except.ok.inj heq
    refine ⟨by rw [List.map_cons, List.map_cons, hnames], fun name c' hc' => ?_⟩
    obtain hfirst | hrest := List.mem_cons.1 hc'
    · obtain ⟨rfl, rfl⟩ := Prod.mk.inj hfirst
      exact ⟨p.2, List.mem_cons_self, hc⟩
    · obtain ⟨a, ha, hread⟩ := hvalues name c' hrest
      exact ⟨a, List.mem_cons_of_mem _ ha, hread⟩

/-- Reading agrees name by name if it agrees on related values. -/
theorem mapM {S : String → γ → δ → Prop} {f : α → Except ε γ} {g : β → Except ε δ}
    (h : SameEntries R t u) (hread : ∀ name a b, R name a b → Agrees (S name) (f a) (g b)) :
    Agrees (SameEntries S) (t.mapM fun p => do return (p.1, ← f p.2))
      (u.mapM fun p => do return (p.1, ← g p.2)) := by
  have hentry : ∀ {ι κ : Type} (f : ι → Except ε κ) (p : String × ι),
      (∃ q, (do return (p.1, ← f p.2)) = Except.ok (ε := ε) q) ↔ ∃ c, f p.2 = .ok c := by
    intro ι κ f p
    simp only [bind_eq_ok_iff]
    exact ⟨fun ⟨_, c, hc, _⟩ => ⟨c, hc⟩, fun ⟨c, hc⟩ => ⟨_, c, hc, rfl⟩⟩
  refine .of_exists_iff ?_ fun cs ds hcs hds => ?_
  · simp only [exists_mapM_eq_ok_iff, hentry]
    constructor
    · intro hall q hq
      obtain ⟨a, ha, hab⟩ := h.exists_left hq
      exact (hread _ _ _ hab).exists_iff.1 (hall _ ha)
    · intro hall p hp
      obtain ⟨b, hb, hab⟩ := h.exists_right hp
      exact (hread _ _ _ hab).exists_iff.2 (hall _ hb)
  · obtain ⟨hnames, hvalues⟩ := of_mapM hcs
    obtain ⟨hnames', hvalues'⟩ := of_mapM hds
    refine ⟨by rw [hnames, hnames']; exact h.names, fun name c d hc hd => ?_⟩
    obtain ⟨a, ha, hac⟩ := hvalues name c hc
    obtain ⟨b, hb, hbd⟩ := hvalues' name d hd
    have hagrees := hread name a b (h.values name a b ha hb)
    rw [hac, hbd] at hagrees
    cases hagrees with
    | done hcd => exact hcd

end SameEntries

end BuildGraph
