import BuildGraph.Proofs.Descriptor.Agreement
import BuildGraph.Proofs.Descriptor.Keys
set_option autoImplicit false

/-!
# Tables in another order

A descriptor is in another order when the keys of its tables are, at whatever depth. What stands at
a place decides which orders are meant: the options of a module keep theirs. A reader respects the
order if it takes a value in every order alike, and a record does so when the readers of its fields
do.
-/

namespace BuildGraph

open Toml (Value)

/-! ## Documents in another order -/

/-- What stands at a place of a descriptor, as far as the order of keys is concerned. -/
inductive Spot
  | file
  | modules
  | module
  | options
  /-- The value of an option, or something inside of it. -/
  | option
  /-- Anything else. -/
  | other
  deriving DecidableEq, Repr

namespace Spot

/-- What stands under a key of a table. -/
def under : Spot → String → Spot
  | .file, name => if name = "module" then .modules else .other
  | .module, name => if name = "options" then .options else .other
  | .options, _ => .option
  | .option, _ => .option
  | .modules, _ => .other
  | .other, _ => .other

/-- What stands at an index of a list. A module that is written as a list has its fields in the
order of their names. -/
def item : Spot → Nat → Spot
  | .modules, _ => .module
  | .module, i => ((Declaration.fields.map (·.name))[i]?.map Spot.module.under).getD .other
  | .options, _ => .option
  | .option, _ => .option
  | .file, _ => .other
  | .other, _ => .other

/-- Whether the keys at a place may come in another order. The options of a module keep theirs, and
for the tables inside an option it is left open here which orders are allowed. -/
def Allows (inner : Toml.Table → Toml.Table → Prop) : Spot → Toml.Table → Toml.Table → Prop
  | .options, t, u => t.map (·.1) = u.map (·.1)
  | .option, t, u => inner t u
  | .file, _, _ => True
  | .modules, _, _ => True
  | .module, _, _ => True
  | .other, _, _ => True

end Spot

/-- Whether a value holds no other ones. -/
def IsLeaf : Value → Prop
  | .array _ => False
  | .table _ => False
  | _ => True

/-- One value is the other with the keys of its tables in another order, as far as that is allowed
at the place. -/
inductive Reordered (inner : Toml.Table → Toml.Table → Prop) : Spot → Value → Value → Prop
  | leaf (s : Spot) {v : Value} (h : IsLeaf v) : Reordered inner s v v
  | array {s : Spot} {vs ws : List Value} (hlength : vs.length = ws.length)
    (h : ∀ i (hv : i < vs.length) (hw : i < ws.length), Reordered inner (s.item i) vs[i] ws[i]) :
    Reordered inner s (.array vs) (.array ws)
  | table {s : Spot} {t u : Toml.Table} (hallows : s.Allows inner t u)
    (hnames : (t.map (·.1)).Perm (u.map (·.1)))
    (h : ∀ name v w, (name, v) ∈ t → (name, w) ∈ u → Reordered inner (s.under name) v w) :
    Reordered inner s (.table t) (.table u)

/-- The entries of a record at a place, in another order. -/
abbrev ReorderedEntries (inner : Toml.Table → Toml.Table → Prop) (s : Spot) :
    Toml.Table → Toml.Table → Prop :=
  SameEntries fun name => Reordered inner (s.under name)

/-- Where each key occurs once, a table in another order is a permutation of its entries, with each
value in another order again. -/
theorem reordered_table_iff {inner : Toml.Table → Toml.Table → Prop} {s : Spot} {t u : Toml.Table}
    (hnames : (t.map (·.1)).Nodup) :
    Reordered inner s (.table t) (.table u) ↔ s.Allows inner t u ∧ ∃ t', t.Perm t' ∧
      List.Forall₂ (fun p q => p.1 = q.1 ∧ Reordered inner (s.under p.1) p.2 q.2) t' u := by
  constructor
  · intro h
    cases h with
    | leaf _ hleaf => cases hleaf
    | table hallows hperm h =>
      exact ⟨hallows, SameEntries.exists_perm (R := fun name => Reordered inner (s.under name))
        ⟨hperm, h⟩⟩
  · intro h
    obtain ⟨hallows, t', hperm, hall⟩ := h
    have hentries : ReorderedEntries inner s t u := .of_perm hnames hperm hall
    exact .table hallows hentries.names hentries.values

/-- A document is one of its own orders. -/
theorem Reordered.refl {inner : Toml.Table → Toml.Table → Prop} (hinner : ∀ t, inner t t)
    {v : Value} (h : v.Distinct) (s : Spot) : Reordered inner s v v := by
  induction h generalizing s with
  | text | integer | float | boolean | moment => exact .leaf s trivial
  | array h ih => exact .array rfl fun i hv _ => ih _ (List.getElem_mem hv) _
  | @table t hnames h ih =>
    refine (reordered_table_iff hnames).2 ⟨?_, t, .refl t, List.forall₂_same.2 fun p hp => ?_⟩
    · cases s with
      | options => exact rfl
      | option => exact hinner t
      | file | modules | module | other => exact trivial
    · exact ⟨rfl, ih p hp _⟩

/-- The entries of a table may be put in any order that is allowed at its place. -/
theorem Reordered.of_perm {inner : Toml.Table → Toml.Table → Prop} (hinner : ∀ t, inner t t)
    {s : Spot} {t u : Toml.Table} (h : (Value.table t).Distinct) (hperm : t.Perm u)
    (hallows : s.Allows inner t u) : Reordered inner s (.table t) (.table u) := by
  obtain ⟨hnames, hvalues⟩ := Value.distinct_table_iff.1 h
  refine (reordered_table_iff hnames).2 ⟨hallows, u, hperm, List.forall₂_same.2 fun p hp => ?_⟩
  exact ⟨rfl, .refl hinner (hvalues p (hperm.mem_iff.2 hp)) _⟩

/-! ## Readers -/

variable {α β : Type} {inner : Toml.Table → Toml.Table → Prop} {s : Spot} {v w : Value}
  {t u : Toml.Table} {name : String}

/-- A reader takes values that differ in the order of keys alike. -/
def Respects (inner : Toml.Table → Toml.Table → Prop) (s : Spot) (R : α → α → Prop)
    (reader : Schema.Reader α) : Prop :=
  ∀ v w, Reordered inner s v w → Agrees R (reader v) (reader w)

namespace Schema

theorem respects_text : Respects inner s Eq text := by
  intro v w h
  cases h with
  | leaf => exact .refl (fun _ => rfl) _
  | array | table => exact .failed _ _

theorem respects_flag : Respects inner s Eq flag := by
  intro v w h
  cases h with
  | leaf => exact .refl (fun _ => rfl) _
  | array | table => exact .failed _ _

theorem respects_list {R : α → α → Prop} {reader : Reader α}
    (hitem : ∀ i, Respects inner (s.item i) R reader) :
    Respects inner s (List.Forall₂ R) (list reader) := by
  intro v w h
  cases h with
  | leaf _ hleaf => cases v <;> first | exact .failed _ _ | cases hleaf
  | array hlength h =>
    refine .mapM (List.forall₂_iff_get.2 ⟨hlength, fun i hv hw => ?_⟩)
    exact hitem i _ _ (h i hv hw)
  | table => exact .failed _ _

theorem respects_texts : Respects inner s Eq Declaration.texts := by
  intro v w h
  rw [← List.forall₂_eq_eq_eq]
  exact respects_list (fun _ => respects_text) v w h

/-- The table that stands for a moment has one entry. -/
theorem reorderedEntries_toTable (m : Toml.Moment) :
    ReorderedEntries inner s m.toTable m.toTable := by
  refine ⟨.refl _, fun name v w hv hw => ?_⟩
  obtain ⟨rfl, rfl⟩ := Prod.mk.inj (List.mem_singleton.1 hv)
  obtain ⟨-, rfl⟩ := Prod.mk.inj (List.mem_singleton.1 hw)
  exact .leaf _ trivial

theorem agrees_table (h : Reordered inner s v w) :
    Agrees (ReorderedEntries inner s) (table v) (table w) := by
  cases h with
  | leaf _ hleaf =>
    cases v with
    | moment m => exact .done (reorderedEntries_toTable m)
    | array | table => cases hleaf
    | text | integer | float | boolean => exact .failed _ _
  | array => exact .failed _ _
  | table _ hnames h => exact .done ⟨hnames, h⟩

theorem respects_mapping {reader : Reader α}
    (hitem : ∀ name, Respects inner (s.under name) Eq reader) :
    Respects inner s (SameEntries fun _ => Eq) (mapping reader) := by
  intro v w h
  exact (agrees_table h).bind fun t u htu => htu.mapM fun name v w => hitem name v w

/-- A choice is a text or a table with one key; a table with other keys is none in any order. -/
theorem respects_choice {choices : List (String × α)} : Respects inner s Eq (choice choices) := by
  intro v w h
  cases h with
  | leaf => exact .refl (fun _ => rfl) _
  | array => exact .failed _ _
  | @table _ t u _ hnames h =>
    match t, u, hnames, h with
    | [], [], _, _ => exact .failed _ _
    | [(name, v)], [(other, w)], hnames, h =>
      obtain rfl : name = other := List.singleton_perm_singleton.1 hnames
      have hvw := h name v w (List.mem_singleton_self _) (List.mem_singleton_self _)
      refine Agrees.bind_eq (.refl (fun _ => rfl) _) fun a => ?_
      cases hvw with
      | leaf => exact .refl (fun _ => rfl) _
      | @array _ vs ws hlength _ =>
        cases vs with
        | nil => cases ws with
          | nil => exact .done rfl
          | cons => cases hlength
        | cons => cases ws with
          | nil => cases hlength
          | cons => exact .failed _ _
      | @table _ t u _ hkeys _ =>
        cases t with
        | nil => cases u with
          | nil => exact .done rfl
          | cons => cases hkeys.length_eq
        | cons => cases u with
          | nil => cases hkeys.length_eq
          | cons => exact .failed _ _
    | _ :: _ :: _, _ :: _ :: _, _, _ => exact .failed _ _
    | [], _ :: _, hnames, _ => exact absurd hnames.length_eq (by simp)
    | [_], [], hnames, _ => exact absurd hnames.length_eq (by simp)
    | [_], _ :: _ :: _, hnames, _ => exact absurd hnames.length_eq (by simp)
    | _ :: _ :: _, [], hnames, _ => exact absurd hnames.length_eq (by simp)
    | _ :: _ :: _, [_], hnames, _ => exact absurd hnames.length_eq (by simp)

/-! ## Records -/

theorem respects_field {reader : Reader α} {R : α → α → Prop}
    (hreader : Respects inner s R reader) :
    Respects inner s (fun _ _ => True) (Field.of name reader).check :=
  fun v w h => (hreader v w h).map fun _ _ _ => trivial

variable {fields : List Field}

/-- The fields of a record take the values at their place alike. -/
def FieldsRespect (inner : Toml.Table → Toml.Table → Prop) (s : Spot) (fields : List Field) :
    Prop :=
  ∀ f ∈ fields, Respects inner (s.under f.name) (fun _ _ => True) f.check

theorem agrees_checkEntries (hfields : FieldsRespect inner s fields)
    (h : ReorderedEntries inner s t u) :
    Agrees (fun _ _ => True) (checkEntries fields t) (checkEntries fields u) := by
  have hentry : ∀ name v w, Reordered inner (s.under name) v w →
      (checkEntry fields (name, v) = .ok () ↔ checkEntry fields (name, w) = .ok ()) := by
    intro name v w hvw
    unfold checkEntry
    cases hfind : fields.find? fun f => f.name == name with
    | none => exact iff_of_false nofun nofun
    | some f =>
      have hname : f.name = name := beq_iff_eq.1 (List.find?_some hfind :)
      have hread := hfields f (List.mem_of_find?_eq_some hfind) v w (hname ▸ hvw)
      exact (Agrees.unit_iff trivial).1 hread
  rw [Agrees.unit_iff trivial, checkEntries_eq_ok_iff, checkEntries_eq_ok_iff]
  constructor
  · intro hall q hq
    obtain ⟨v, hv, hvw⟩ := h.exists_left hq
    exact (hentry _ _ _ hvw).1 (hall _ hv)
  · intro hall p hp
    obtain ⟨w, hw, hvw⟩ := h.exists_right hp
    exact (hentry _ _ _ hvw).2 (hall _ hw)

theorem agrees_record_of_entries {v w : Value} (hv : entriesOf? fields v = some t)
    (hw : entriesOf? fields w = some u) (hfields : FieldsRespect inner s fields)
    (h : ReorderedEntries inner s t u) :
    Agrees (ReorderedEntries inner s) (record name fields v) (record name fields w) := by
  rw [record, record, hv, hw]
  exact (agrees_checkEntries hfields h).bind fun _ _ _ => .done h

/-- A list that stands for a record gives its values the names of the fields in their order. -/
theorem reorderedEntries_zip {names : List String} {vs ws : List Value} (hnodup : names.Nodup)
    (hspot : ∀ i (hi : i < names.length), s.item i = s.under names[i])
    (hlength : vs.length = ws.length)
    (h : ∀ i (hv : i < vs.length) (hw : i < ws.length), Reordered inner (s.item i) vs[i] ws[i]) :
    ReorderedEntries inner s (names.zip vs) (names.zip ws) := by
  refine ⟨?_, fun name v w hv hw => ?_⟩
  · refine .of_eq (List.ext_getElem ?_ fun i _ _ => ?_)
    · simp only [List.length_map, List.length_zip, hlength]
    · simp only [List.getElem_map, List.getElem_zip]
  · obtain ⟨i, hi, hvi⟩ := List.getElem_of_mem hv
    obtain ⟨j, hj, hwj⟩ := List.getElem_of_mem hw
    rw [List.getElem_zip] at hvi hwj
    obtain ⟨hname, rfl⟩ := Prod.mk.inj hvi
    obtain ⟨hname', rfl⟩ := Prod.mk.inj hwj
    obtain rfl : i = j := (List.Nodup.getElem_inj_iff hnodup).1 (hname.trans hname'.symm)
    rw [← hname, ← hspot]
    exact h i _ _

theorem agrees_record (hnodup : (fields.map (·.name)).Nodup)
    (hspot : ∀ i (hi : i < (fields.map (·.name)).length),
      s.item i = s.under (fields.map (·.name))[i])
    (hfields : FieldsRespect inner s fields) (h : Reordered inner s v w) :
    Agrees (ReorderedEntries inner s) (record name fields v) (record name fields w) := by
  cases h with
  | leaf _ hleaf =>
    cases v with
    | moment m => exact agrees_record_of_entries rfl rfl hfields (reorderedEntries_toTable m)
    | array | table => cases hleaf
    | text | integer | float | boolean => exact .failed _ _
  | array hlength h =>
    exact agrees_record_of_entries rfl rfl hfields (reorderedEntries_zip hnodup hspot hlength h)
  | table _ hnames h => exact agrees_record_of_entries rfl rfl hfields ⟨hnames, h⟩

theorem agrees_field? {reader : Reader α} {R : α → α → Prop} (h : ReorderedEntries inner s t u)
    (hreader : Respects inner (s.under name) R reader) :
    Agrees (Option.Rel R) (field? t name reader) (field? u name reader) := by
  unfold field?
  obtain ⟨ht, hu⟩ | ⟨v, w, ht, hu, hvw⟩ := h.lookup name
  · rw [ht, hu]
    exact .done .none
  · rw [ht, hu]
    exact (hreader v w hvw).map fun _ _ hab => .some hab

theorem agrees_field {reader : Reader α} {R : α → α → Prop} {absent : α}
    (h : ReorderedEntries inner s t u) (hreader : Respects inner (s.under name) R reader)
    (habsent : R absent absent) :
    Agrees R (field t name reader absent) (field u name reader absent) := by
  refine (agrees_field? h hreader).bind fun found found' hfound => ?_
  cases hfound with
  | none => exact .done habsent
  | some hab => exact .done hab

/-- Where the value of a field is the same, so is whether there is one. -/
theorem agrees_field?_eq {reader : Reader α} (h : ReorderedEntries inner s t u)
    (hreader : Respects inner (s.under name) Eq reader) :
    Agrees Eq (field? t name reader) (field? u name reader) := by
  refine (agrees_field? h hreader).mono fun found found' hfound => ?_
  cases hfound with
  | none => rfl
  | some hab => rw [hab]

theorem fieldsRespect_nil : FieldsRespect inner s [] :=
  List.forall_mem_nil _

theorem FieldsRespect.cons {reader : Reader α} {R : α → α → Prop}
    (hreader : Respects inner (s.under name) R reader) (h : FieldsRespect inner s fields) :
    FieldsRespect inner s (.of name reader :: fields) :=
  List.forall_mem_cons.2 ⟨respects_field hreader, h⟩

theorem FieldsRespect.append {more : List Field} (h : FieldsRespect inner s fields)
    (hmore : FieldsRespect inner s more) : FieldsRespect inner s (fields ++ more) :=
  List.forall_mem_append.2 ⟨h, hmore⟩

end Schema

end BuildGraph
