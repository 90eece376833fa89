set_option autoImplicit false

/-!
# Lists of named values

Several collections of this library are lists of pairs in which the first pair of a name counts.
The statements here say what `List.lookup` finds in such a list after a pair is put in front or
pairs are left out by their names.
-/

namespace BuildGraph.Lookup

variable {κ ν : Type} [BEq κ] [LawfulBEq κ]

/-- A name is found exactly if it is the name of a pair. -/
theorem lookup_eq_none_iff_notMem {key : κ} {pairs : List (κ × ν)} :
    pairs.lookup key = none ↔ key ∉ pairs.map (·.1) := by
  simp only [List.lookup_eq_none_iff, List.mem_map, bne_iff_ne]
  constructor
  · intro h hmem
    obtain ⟨p, hp, hkey⟩ := hmem
    exact h p hp hkey.symm
  · intro h p hp hkey
    exact h ⟨p, hp, hkey.symm⟩

/-- What is found stands in the list. -/
theorem mem_of_lookup_eq_some {key : κ} {v : ν} {pairs : List (κ × ν)}
    (h : pairs.lookup key = some v) : (key, v) ∈ pairs := by
  obtain ⟨before, after, rfl, -⟩ := List.lookup_eq_some_iff.1 h
  exact List.mem_append_right before List.mem_cons_self

variable [DecidableEq κ]

/-- A pair in front of a list hides the others of its name and no more. -/
theorem lookup_cons_eq_ite (key k : κ) (v : ν) (rest : List (κ × ν)) :
    ((k, v) :: rest).lookup key = if key = k then some v else rest.lookup key := by
  by_cases h : key = k
  · subst h
    simp
  · have hb : (key == k) = false := beq_eq_false_iff_ne.2 h
    simp [List.lookup_cons, hb, h]

/-- Leaving out pairs by their names leaves the values of all other names. -/
theorem lookup_filter_key (keep : κ → Bool) (key : κ) (pairs : List (κ × ν)) :
    (pairs.filter fun p => keep p.1).lookup key =
      if keep key then pairs.lookup key else none := by
  induction pairs with
  | nil => simp
  | cons p rest ih =>
    obtain ⟨k, v⟩ := p
    rw [List.filter_cons, lookup_cons_eq_ite]
    by_cases h : key = k
    · subst h
      cases hk : keep key with
      | true => simp
      | false => simpa [hk] using ih
    · cases hk : keep k with
      | true => simp [lookup_cons_eq_ite, h, ih]
      | false => simp [h, ih]

/-- Where each name occurs once, every pair counts. -/
theorem lookup_eq_some_iff_mem {pairs : List (κ × ν)} (h : pairs.Pairwise fun a b => a.1 ≠ b.1)
    {key : κ} {v : ν} : pairs.lookup key = some v ↔ (key, v) ∈ pairs := by
  induction pairs with
  | nil => simp
  | cons p rest ih =>
    obtain ⟨k, w⟩ := p
    obtain ⟨hne, hrest⟩ := List.pairwise_cons.1 h
    rw [lookup_cons_eq_ite, List.mem_cons]
    by_cases hk : key = k
    · subst hk
      have : (key, v) ∉ rest := fun hm => hne (key, v) hm rfl
      simp only [if_true, Option.some.injEq, Prod.mk.injEq, true_and, this, or_false]
      exact eq_comm
    · simp [hk, ih hrest]

end BuildGraph.Lookup
