import BuildGraph.Table
import Mathlib.Algebra.Order.BigOperators.Group.List
import Mathlib.Algebra.Order.Ring.Nat
import Mathlib.Data.List.Forall2
import Mathlib.Data.List.Induction
import Mathlib.Logic.Relation
import Mathlib.Order.Bounds.Basic
import Mathlib.Order.MinMax
set_option autoImplicit false

/-!
# Widths of columns

A table starts from the widths of its texts (`IsNatural`) and takes one column after the other
off them, always off the last of the widest (`Narrows`), as long as there is too little room and
a column is wider than the least. Each step takes one off the sum, so that the steps end, and as
there is only one step at a time they end in one place: the widths that are computed. What is
known of the end, `Fits`, is kept by each step.
-/

namespace BuildGraph.Table

open Text (Ruler)

variable {t : Table} {r : Ruler} {ws vs front back natural fitted : List Nat}
  {rows : List (List String)} {room w i : Nat}

/-! ## Natural widths -/

/-- The widths that the texts of a column take: its header, and its cells on one line each. -/
inductive TakesWidth (t : Table) (r : Ruler) (i : Nat) : Nat → Prop
  | header {s : String} (hs : t.headers[i]? = some s) : TakesWidth t r i (displayWidth r s.toList)
  | cell {row : List String} {s : String} (hrow : row ∈ t.rows) (hs : row[i]? = some s) :
      TakesWidth t r i (displayWidth r (flatten s))

/-- Each column is as wide as the widest of its texts. -/
structure IsNatural (t : Table) (r : Ruler) (ws : List Nat) : Prop where
  length_eq : ws.length = t.headers.length
  isGreatest : ∀ i w, ws[i]? = some w → IsGreatest {v | TakesWidth t r i v} w

/-- The widths in which there is room for a row as well. -/
def widen (r : Ruler) (ws : List Nat) (row : List String) : List Nat :=
  ws.zipWith (fun w cell => max w (displayWidth r (flatten cell))) row

theorem naturalWidths_eq (t : Table) (r : Ruler) :
    t.naturalWidths r =
      t.rows.foldl (widen r) (t.headers.map fun h => displayWidth r h.toList) :=
  rfl

theorem length_foldl_widen (hrows : ∀ row ∈ rows, row.length = ws.length) :
    (rows.foldl (widen r) ws).length = ws.length := by
  induction rows generalizing ws with
  | nil => rfl
  | cons row rows ih =>
    obtain ⟨hrow, hrows⟩ := List.forall_mem_cons.1 hrows
    have hwiden : (widen r ws row).length = ws.length := by
      unfold widen
      rw [List.length_zipWith, hrow, Nat.min_self]
    rw [List.foldl_cons, ih fun row' h => (hrows row' h).trans hwiden.symm, hwiden]

/-- After some rows a column is as wide as the widest of its width before and its cells in them. -/
theorem isGreatest_foldl_widen (h : (rows.foldl (widen r) ws)[i]? = some w) :
    IsGreatest {v | ws[i]? = some v ∨
      ∃ row ∈ rows, ∃ s, row[i]? = some s ∧ displayWidth r (flatten s) = v} w := by
  induction rows using List.reverseRecOn generalizing w with
  | nil =>
    refine ⟨.inl h, fun v hv => ?_⟩
    rcases hv with hv | hv
    · exact Nat.le_of_eq (Option.some.inj (hv.symm.trans h))
    · obtain ⟨row, hrow, -⟩ := hv
      exact absurd hrow List.not_mem_nil
  | append_singleton rows row ih =>
    rw [List.foldl_append, List.foldl_cons, List.foldl_nil, widen,
      List.getElem?_zipWith_eq_some] at h
    obtain ⟨before, s, hbefore, hs, rfl⟩ := h
    obtain ⟨hmem, hupper⟩ := ih hbefore
    refine ⟨?_, fun v hv => ?_⟩
    · rcases max_choice before (displayWidth r (flatten s)) with hmax | hmax
      · rw [hmax]
        refine hmem.imp_right fun hcell => ?_
        obtain ⟨row', hrow', hcell⟩ := hcell
        exact ⟨row', List.mem_append_left _ hrow', hcell⟩
      · rw [hmax]
        exact .inr ⟨row, List.mem_append_right _ List.mem_cons_self, s, hs, rfl⟩
    · rcases hv with hv | ⟨row', hrow', s', hs', rfl⟩
      · exact le_max_of_le_left (hupper (.inl hv))
      · rcases List.mem_append.1 hrow' with hrow' | hrow'
        · exact le_max_of_le_left (hupper (.inr ⟨row', hrow', s', hs', rfl⟩))
        · obtain rfl := List.mem_singleton.1 hrow'
          obtain rfl := Option.some.inj (hs'.symm.trans hs)
          exact le_max_right _ _

theorem isNatural_naturalWidths (t : Table) (r : Ruler) : IsNatural t r (t.naturalWidths r) := by
  rw [naturalWidths_eq]
  refine ⟨?_, fun i w h => ?_⟩
  · rw [length_foldl_widen fun row hrow => (t.filled row hrow).trans (List.length_map _).symm,
      List.length_map]
  · obtain ⟨hmem, hupper⟩ := isGreatest_foldl_widen h
    refine ⟨?_, fun v hv => hupper ?_⟩
    · rcases hmem with hheader | ⟨row, hrow, s, hs, rfl⟩
      · rw [List.getElem?_map] at hheader
        obtain ⟨s, hs, rfl⟩ := Option.map_eq_some_iff.1 hheader
        exact .header hs
      · exact .cell hrow hs
    · cases hv with
      | header hs =>
        refine .inl ?_
        rw [List.getElem?_map, hs]
        rfl
      | cell hrow hs => exact .inr ⟨_, hrow, _, hs, rfl⟩

/-! ## One step -/

/-- One step of fitting: there is too little room, and the last of the widest columns, which is
wider than the least one, gives up one. -/
inductive Narrows (room : Nat) : List Nat → List Nat → Prop
  | step {front back : List Nat} {w : Nat} (hroom : room < (front ++ w :: back).sum)
      (hleast : leastColumn < w) (hfront : ∀ v ∈ front, v ≤ w) (hback : ∀ v ∈ back, v < w) :
      Narrows room (front ++ w :: back) (front ++ (w - 1) :: back)

theorem total_eq_sum (ws : List Nat) : total ws = ws.sum :=
  rfl

theorem widest_le_iff : widest ws ≤ w ↔ ∀ v ∈ ws, v ≤ w := by
  induction ws with
  | nil => simp [widest]
  | cons v ws ih =>
    rw [List.forall_mem_cons, ← ih]
    exact max_le_iff

theorem le_widest : ∀ v ∈ ws, v ≤ widest ws :=
  widest_le_iff.1 (Nat.le_refl _)

theorem widest_mem (h : 0 < widest ws) : widest ws ∈ ws := by
  induction ws with
  | nil => exact absurd h (Nat.lt_irrefl 0)
  | cons v ws ih =>
    change 0 < max v (widest ws) at h
    change max v (widest ws) ∈ v :: ws
    rcases max_choice v (widest ws) with hmax | hmax
    · rw [hmax]
      exact List.mem_cons_self
    · rw [hmax] at h ⊢
      exact List.mem_cons_of_mem v (ih h)

theorem widest_append_cons (hfront : ∀ v ∈ front, v ≤ w) (hback : ∀ v ∈ back, v < w) :
    widest (front ++ w :: back) = w := by
  refine Nat.le_antisymm (widest_le_iff.2 fun v hv => ?_)
    (le_widest w (List.mem_append_right _ List.mem_cons_self))
  rcases List.mem_append.1 hv with hv | hv
  · exact hfront v hv
  · rcases List.mem_cons.1 hv with rfl | hv
    · exact Nat.le_refl v
    · exact Nat.le_of_lt (hback v hv)

/-- The widest columns have a last one. -/
theorem exists_last_widest (h : 0 < widest ws) :
    ∃ front back, ws = front ++ widest ws :: back ∧ (∀ v ∈ front, v ≤ widest ws) ∧
      ∀ v ∈ back, v < widest ws := by
  obtain ⟨after, before, hsplit, hafter⟩ :=
    List.eq_append_cons_of_mem (List.mem_reverse.2 (widest_mem h))
  have hws : ws = before.reverse ++ widest ws :: after.reverse := by
    have hreverse := congrArg List.reverse hsplit
    rwa [List.reverse_reverse, List.reverse_append, List.reverse_cons, List.append_assoc,
      List.singleton_append] at hreverse
  refine ⟨before.reverse, after.reverse, hws, fun v hv => ?_, fun v hv => ?_⟩
  · exact le_widest v (hws ▸ List.mem_append_left _ hv)
  · have hmem : v ∈ ws := hws ▸ List.mem_append_right _ (List.mem_cons_of_mem _ hv)
    refine Nat.lt_of_le_of_ne (le_widest v hmem) fun heq => hafter ?_
    rw [← heq]
    exact List.mem_reverse.1 hv

theorem narrowFirst_append (h : w ∉ front) :
    narrowFirst w (front ++ w :: back) = front ++ (w - 1) :: back := by
  induction front with
  | nil => exact if_pos rfl
  | cons v front ih =>
    obtain ⟨hv, hfront⟩ := not_or.1 (mt List.mem_cons.2 h)
    rw [List.cons_append, narrowFirst, if_neg (Ne.symm hv), ih hfront, List.cons_append]

theorem narrow_append_cons (hleast : leastColumn < w) (hfront : ∀ v ∈ front, v ≤ w)
    (hback : ∀ v ∈ back, v < w) :
    narrow (front ++ w :: back) = front ++ (w - 1) :: back := by
  have hlast : w ∉ back.reverse := fun hmem =>
    absurd (hback w (List.mem_reverse.1 hmem)) (Nat.lt_irrefl w)
  rw [narrow, widest_append_cons hfront hback, if_neg (Nat.not_le.2 hleast), List.reverse_append,
    List.reverse_cons, List.append_assoc, List.singleton_append, narrowFirst_append hlast,
    List.reverse_append, List.reverse_cons, List.reverse_reverse, List.reverse_reverse,
    List.append_assoc, List.singleton_append]

theorem Narrows.narrow_eq (h : Narrows room ws vs) : narrow ws = vs := by
  cases h with
  | step _ hleast hfront hback => exact narrow_append_cons hleast hfront hback

theorem Narrows.sum_eq (h : Narrows room ws vs) : vs.sum + 1 = ws.sum := by
  cases h with
  | step _ hleast _ _ =>
    simp only [List.sum_append, List.sum_cons]
    omega

theorem Narrows.lt_sum (h : Narrows room ws vs) : room < ws.sum := by
  cases h with
  | step hroom _ _ _ => exact hroom

theorem Narrows.widest_le (h : Narrows room ws vs) : widest vs ≤ widest ws := by
  cases h with
  | step _ _ hfront hback =>
    rw [widest_append_cons hfront hback]
    refine widest_le_iff.2 fun v hv => ?_
    rcases List.mem_append.1 hv with hv | hv
    · exact hfront v hv
    · rcases List.mem_cons.1 hv with rfl | hv
      · exact Nat.sub_le _ 1
      · exact Nat.le_of_lt (hback v hv)

/-- While there is too little room and a column is wider than the least one, there is a step. -/
theorem narrows_narrow (hroom : room < ws.sum) (hleast : leastColumn < widest ws) :
    Narrows room ws (narrow ws) := by
  obtain ⟨front, back, hws, hfront, hback⟩ := exists_last_widest (Nat.zero_lt_of_lt hleast)
  generalize widest ws = w at hws hleast hfront hback
  subst hws
  rw [narrow_append_cons hleast hfront hback]
  exact .step hroom hleast hfront hback

/-- The steps end where there is room enough, or where no column is wider than the least one. -/
theorem forall_not_narrows_iff :
    (∀ vs, ¬ Narrows room ws vs) ↔ ws.sum ≤ room ∨ ∀ v ∈ ws, v ≤ leastColumn := by
  rw [← widest_le_iff]
  constructor
  · intro h
    by_contra hnot
    obtain ⟨hroom, hleast⟩ := not_or.1 hnot
    exact h _ (narrows_narrow (Nat.not_le.1 hroom) (Nat.not_le.1 hleast))
  · intro h vs hstep
    rcases h with hroom | hleast
    · exact absurd hstep.lt_sum (Nat.not_lt.2 hroom)
    · cases hstep with
      | step _ hwide hfront hback =>
        rw [widest_append_cons hfront hback] at hleast
        exact absurd hwide (Nat.not_lt.2 hleast)

/-! ## All steps -/

/-- The steps end from any widths. -/
theorem wellFounded_narrows (room : Nat) : WellFounded fun vs ws => Narrows room ws vs := by
  refine Subrelation.wf (fun {vs ws} h => ?_) (measure List.sum).wf
  change vs.sum < ws.sum
  have hsum := Narrows.sum_eq h
  omega

/-- The steps end in one place. -/
theorem eq_of_reaches_of_ends (hfitted : Relation.ReflTransGen (Narrows room) ws fitted)
    (hends : ∀ us, ¬ Narrows room fitted us) (hvs : Relation.ReflTransGen (Narrows room) ws vs)
    (hvsends : ∀ us, ¬ Narrows room vs us) : vs = fitted := by
  induction hfitted using Relation.ReflTransGen.head_induction_on with
  | refl =>
    rcases hvs.cases_head with heq | ⟨us, hstep, -⟩
    · exact heq.symm
    · exact absurd hstep (hends us)
  | head hstep _ ih =>
    rcases hvs.cases_head with rfl | ⟨us, hother, hrest⟩
    · exact absurd hstep (hvsends _)
    · rw [← hother.narrow_eq, hstep.narrow_eq] at hrest
      exact ih hrest

/-- After some rounds either each of them was a step, or no column is wider than the least one. -/
theorem reaches_repeat_narrow {n : Nat} (h : n ≤ ws.sum - room) :
    Relation.ReflTransGen (Narrows room) ws (Nat.repeat narrow n ws) ∧
      ((Nat.repeat narrow n ws).sum + n = ws.sum ∨
        widest (Nat.repeat narrow n ws) ≤ leastColumn) := by
  induction n with
  | zero => exact ⟨.refl, .inl rfl⟩
  | succ n ih =>
    obtain ⟨hreaches, hstate⟩ := ih (Nat.le_of_succ_le h)
    change Relation.ReflTransGen _ _ (narrow (Nat.repeat narrow n ws)) ∧
      ((narrow (Nat.repeat narrow n ws)).sum + (n + 1) = ws.sum ∨
        widest (narrow (Nat.repeat narrow n ws)) ≤ leastColumn)
    generalize Nat.repeat narrow n ws = vs at hreaches hstate
    by_cases hleast : widest vs ≤ leastColumn
    · have hstays : narrow vs = vs := if_pos hleast
      rw [hstays]
      exact ⟨hreaches, .inr hleast⟩
    · have hsum : vs.sum + n = ws.sum := hstate.resolve_right hleast
      have hstep : Narrows room vs (narrow vs) :=
        narrows_narrow (by omega) (Nat.not_le.1 hleast)
      refine ⟨hreaches.tail hstep, .inl ?_⟩
      have hnarrower := hstep.sum_eq
      omega

example : Nat.repeat narrow 5 [10, 12, 12] = [10, 10, 9] := by decide

/-- The widths of a table are those in which the steps end. -/
theorem reaches_fitWidths (t : Table) (r : Ruler) (width : Nat) :
    Relation.ReflTransGen (Narrows (available t.headers.length width)) (t.naturalWidths r)
        (t.fitWidths r width) ∧
      ∀ ws, ¬ Narrows (available t.headers.length width) (t.fitWidths r width) ws := by
  rw [fitWidths, (isNatural_naturalWidths t r).length_eq, total_eq_sum]
  have hrounds := Nat.le_refl ((t.naturalWidths r).sum - available t.headers.length width)
  obtain ⟨hreaches, hstate⟩ := reaches_repeat_narrow hrounds
  refine ⟨hreaches, forall_not_narrows_iff.2 ?_⟩
  rw [← widest_le_iff]
  refine hstate.imp_left fun hsum => ?_
  omega

/-! ## What is known of the end -/

/-- No column is cut below the least one, nor further than one below the widest. -/
def IsCut (natural ws : List Nat) : Prop :=
  List.Forall₂ (fun n w => w ≤ n ∧ (w < n → leastColumn ≤ w ∧ ∀ v ∈ ws, v ≤ w + 1)) natural ws

theorem isCut_refl (ws : List Nat) : IsCut ws ws :=
  List.forall₂_same.2 fun w _ => ⟨Nat.le_refl w, fun h => absurd h (Nat.lt_irrefl w)⟩

theorem forall₂_append_cons {R : Nat → Nat → Prop} {v : Nat}
    (h : List.Forall₂ R natural (front ++ w :: back)) (hv : ∀ n, R n w → R n v) :
    List.Forall₂ R natural (front ++ v :: back) := by
  induction front generalizing natural with
  | nil =>
    cases h with
    | cons hw hback => exact .cons (hv _ hw) hback
  | cons u front ih =>
    cases h with
    | cons hu hrest => exact .cons hu (ih hrest)

/-- A step cuts a column that was the widest, and makes none wider. -/
theorem IsCut.narrows (h : IsCut natural ws) (hstep : Narrows room ws vs) : IsCut natural vs := by
  have hnone : ∀ {u}, (∀ v ∈ ws, v ≤ u) → ∀ v ∈ vs, v ≤ u := fun hu =>
    widest_le_iff.1 (Nat.le_trans hstep.widest_le (widest_le_iff.2 hu))
  have hkept : List.Forall₂ (fun n w => w ≤ n ∧ (w < n → leastColumn ≤ w ∧ ∀ v ∈ vs, v ≤ w + 1))
      natural ws :=
    h.imp fun _ _ hcut => ⟨hcut.1, fun hlt => (hcut.2 hlt).imp_right hnone⟩
  have hupper : ∀ v ∈ vs, v ≤ widest ws := hnone le_widest
  cases hstep with
  | @step front back w _ hleast hfront hback =>
    rw [widest_append_cons hfront hback] at hupper
    refine forall₂_append_cons hkept fun n hw => ⟨Nat.le_trans (Nat.sub_le w 1) hw.1, fun _ => ?_⟩
    refine ⟨Nat.le_sub_one_of_lt hleast, fun v hv => ?_⟩
    have hle := hupper v hv
    omega

/-- Widths that fit the room there is as far as that is possible, in place of the natural ones. -/
structure Fits (room : Nat) (natural fitted : List Nat) : Prop where
  isCut : IsCut natural fitted
  eq_of_le : natural.sum ≤ room → fitted = natural
  of_lt : room < natural.sum →
    fitted.sum = room ∨ (∀ w ∈ fitted, w ≤ leastColumn) ∧ room < fitted.sum

theorem le_sum_of_reaches (h : Relation.ReflTransGen (Narrows room) natural ws)
    (hroom : room ≤ natural.sum) : room ≤ ws.sum := by
  induction h with
  | refl => exact hroom
  | tail _ hstep _ =>
    have hsum := hstep.sum_eq
    have hlt := hstep.lt_sum
    omega

theorem fits_of_reaches (h : Relation.ReflTransGen (Narrows room) natural fitted)
    (hends : ∀ ws, ¬ Narrows room fitted ws) : Fits room natural fitted where
  isCut := by
    clear hends
    induction h with
    | refl => exact isCut_refl natural
    | tail _ hstep ih => exact ih.narrows hstep
  eq_of_le hroom := by
    rcases h.cases_head with rfl | ⟨ws, hstep, -⟩
    · rfl
    · exact absurd hstep.lt_sum (Nat.not_lt.2 hroom)
  of_lt hroom := by
    have hle := le_sum_of_reaches h (Nat.le_of_lt hroom)
    rcases Nat.eq_or_lt_of_le hle with heq | hlt
    · exact .inl heq.symm
    · exact .inr ⟨(forall_not_narrows_iff.1 hends).resolve_left (Nat.not_le.2 hlt), hlt⟩

theorem fits_fitWidths (t : Table) (r : Ruler) (width : Nat) :
    Fits (available t.headers.length width) (t.naturalWidths r) (t.fitWidths r width) :=
  fits_of_reaches (reaches_fitWidths t r width).1 (reaches_fitWidths t r width).2

/-- Where each column may be as wide as the least one, there is room for all of them. -/
theorem Fits.sum_le (h : Fits room natural fitted) (hroom : fitted.length * leastColumn ≤ room) :
    fitted.sum ≤ room := by
  rcases Nat.lt_or_ge room natural.sum with hlt | hle
  · rcases h.of_lt hlt with heq | ⟨hleast, hmore⟩
    · exact Nat.le_of_eq heq
    · have hsum := List.sum_le_card_nsmul fitted leastColumn hleast
      exact absurd (Nat.le_trans hsum hroom) (Nat.not_le.2 hmore)
  · rwa [h.eq_of_le hle]

/-- What the widths of a table are. From the natural widths, each that of the widest text of the
column, the steps end, wherever they start, and they end in these widths. No column is wider than
its natural width; if the natural widths have room, they stay as they are; otherwise either the
room is filled or no column is wider than the least one and there is still too little room. A
column that has been cut is not below the least one, and at most one narrower than the widest. -/
theorem fitWidths_exact (t : Table) (r : Ruler) (width : Nat) :
    let natural := t.naturalWidths r
    let room := width - 3 - 3 * t.headers.length
    IsNatural t r natural ∧ (WellFounded fun vs ws => Narrows room ws vs) ∧
      (∀ fitted, fitted = t.fitWidths r width ↔
        Relation.ReflTransGen (Narrows room) natural fitted ∧ ∀ ws, ¬ Narrows room fitted ws) ∧
      Fits room natural (t.fitWidths r width) := by
  intro natural room
  have hroom : available t.headers.length width = room := Nat.sub_add_eq width 3 _
  obtain ⟨hreaches, hends⟩ := reaches_fitWidths t r width
  rw [hroom] at hreaches hends
  refine ⟨isNatural_naturalWidths t r, wellFounded_narrows room, fun fitted => ⟨?_, fun h => ?_⟩,
    fits_of_reaches hreaches hends⟩
  · rintro rfl
    exact ⟨hreaches, hends⟩
  · exact eq_of_reaches_of_ends hreaches hends h.1 h.2

end BuildGraph.Table
