import BuildGraph.Proofs.Descriptor.Instantiation
import Mathlib.Data.List.Nodup
set_option autoImplicit false

/-!
# Keys of a document

Every table of a document has each of its keys once, however deep it stands and however it was
written: in braces, under a header, by dotted keys, or as one of an array of tables. A header takes
the entries that it opens out of the document and puts them back when it ends, and the invariant
that carries the proof is that their place stays free in the meantime. Main statement:
`distinct_of_parse`.
-/

namespace BuildGraph.Toml

/-- In every table of a value, at any depth, each key occurs once. -/
inductive Value.Distinct : Value → Prop
  | text (s : String) : Distinct (.text s)
  | integer (n : Int) : Distinct (.integer n)
  | float (x : Decimal.Binary) : Distinct (.float x)
  | boolean (b : Bool) : Distinct (.boolean b)
  | moment (m : Moment) : Distinct (.moment m)
  | array {vs : List Value} (h : ∀ v ∈ vs, Distinct v) : Distinct (.array vs)
  | table {t : Table} (hkeys : (t.map (·.1)).Nodup) (h : ∀ p ∈ t, Distinct p.2) :
      Distinct (.table t)

theorem Value.distinct_array_iff {vs : List Value} :
    Value.Distinct (.array vs) ↔ ∀ v ∈ vs, v.Distinct :=
  ⟨fun h => by cases h; assumption, .array⟩

theorem Value.distinct_table_iff {t : Table} :
    Value.Distinct (.table t) ↔ (t.map (·.1)).Nodup ∧ ∀ p ∈ t, p.2.Distinct :=
  ⟨fun h => by cases h; exact ⟨‹_›, ‹_›⟩, fun h => .table h.1 h.2⟩

variable {α : Type} {key : String} {d e : Draft} {t u body : DraftTable}

/-! ## Drafts -/

/-- A table under construction has each of its keys once, and so do the tables in it. -/
def DraftTable.Distinct (t : DraftTable) : Prop :=
  Value.Distinct (.table (finish t))

theorem finish_eq_map (t : DraftTable) : finish t = t.map fun p => (p.1, p.2.toValue) := by
  induction t with
  | nil => simp [finish]
  | cons p t ih =>
    obtain ⟨k, d⟩ := p
    simp [finish, ih]

namespace DraftTable

theorem distinct_iff : t.Distinct ↔ (t.map (·.1)).Nodup ∧ ∀ p ∈ t, p.2.toValue.Distinct := by
  rw [Distinct, Value.distinct_table_iff, map_fst_finish, finish_eq_map]
  simp only [List.forall_mem_map]

theorem distinct_nil : Distinct [] :=
  distinct_iff.2 ⟨List.nodup_nil, nofun⟩

theorem Distinct.of_find? (h : t.Distinct) (hfind : find? t key = some d) : d.toValue.Distinct :=
  (distinct_iff.1 h).2 _ (Lookup.mem_of_lookup_eq_some hfind)

/-- A key that is not there yet may come in at the end. -/
theorem Distinct.concat (h : t.Distinct) (hfind : find? t key = none) (hd : d.toValue.Distinct) :
    Distinct (t ++ [(key, d)]) := by
  obtain ⟨hkeys, hvalues⟩ := distinct_iff.1 h
  refine distinct_iff.2 ⟨?_, fun p hp => ?_⟩
  · rw [List.map_append, List.map_singleton, ← List.concat_eq_append]
    exact List.Nodup.concat (Lookup.lookup_eq_none_iff_notMem.1 hfind) hkeys
  · rcases List.mem_append.1 hp with hp | hp
    · exact hvalues p hp
    · rw [List.mem_singleton.1 hp]
      exact hd

theorem find?_concat_self (hfind : find? t key = none) : find? (t ++ [(key, d)]) key = some d := by
  rw [find?, List.lookup_append, ← find?, hfind]
  simp

theorem map_fst_replace (t : DraftTable) (key : String) (d : Draft) :
    (replace t key d).map (·.1) = t.map (·.1) := by
  rw [replace, List.map_map]
  refine List.map_congr_left fun p _ => ?_
  simp only [Function.comp_apply]
  split
  · rename_i hp
    exact (beq_iff_eq.1 hp).symm
  · rfl

theorem Distinct.replace (h : t.Distinct) (hd : d.toValue.Distinct) :
    Distinct (replace t key d) := by
  obtain ⟨hkeys, hvalues⟩ := distinct_iff.1 h
  refine distinct_iff.2 ⟨by rwa [map_fst_replace], fun p hp => ?_⟩
  obtain ⟨q, hq, rfl⟩ := List.mem_map.1 hp
  split
  · exact hd
  · exact hvalues q hq

theorem find?_replace_self (hfind : find? t key = some e) :
    find? (DraftTable.replace t key d) key = some d := by
  induction t with
  | nil => cases hfind
  | cons p t ih =>
    obtain ⟨k, f⟩ := p
    rw [find?, Lookup.lookup_cons_eq_ite, ← find?] at hfind
    rw [DraftTable.replace, List.map_cons, ← DraftTable.replace]
    by_cases hk : key = k
    · subst hk
      simp [find?]
    · have hne : (k == key) = false := beq_eq_false_iff_ne.2 (Ne.symm hk)
      rw [if_neg hk] at hfind
      rw [hne, if_neg Bool.false_ne_true, find?, Lookup.lookup_cons_eq_ite, if_neg hk, ← find?,
        ih hfind]

theorem Distinct.erase (h : t.Distinct) : Distinct (erase t key) := by
  obtain ⟨hkeys, hvalues⟩ := distinct_iff.1 h
  exact distinct_iff.2 ⟨hkeys.sublist ((List.filter_sublist).map _),
    fun p hp => hvalues p (List.mem_of_mem_filter hp)⟩

theorem find?_erase_self (t : DraftTable) (key : String) :
    find? (DraftTable.erase t key) key = none := by
  rw [find?, Lookup.lookup_eq_none_iff_notMem, List.mem_map]
  intro hmem
  obtain ⟨p, hp, rfl⟩ := hmem
  simpa using (List.mem_filter.1 hp).2

end DraftTable

open DraftTable

theorem distinct_tables_iff {earlier : List Value} :
    (Draft.tables earlier body).toValue.Distinct ↔ (∀ v ∈ earlier, v.Distinct) ∧ body.Distinct := by
  rw [Draft.toValue, Value.distinct_array_iff, List.forall_mem_append, List.forall_mem_singleton]
  rfl

theorem distinct_draft_table_iff {origin : Origin} :
    (Draft.table origin body).toValue.Distinct ↔ body.Distinct := by
  rw [Draft.toValue]
  rfl

/-! ## Walking to a table -/

/-- The entries at the end of a path of keys; those of a table that is missing are none. -/
def tableAt : List String → DraftTable → DraftTable
  | [], t => t
  | key :: path, t =>
    match find? t key with
    | some (.table _ sub) => tableAt path sub
    | some (.tables _ last) => tableAt path last
    | _ => []

theorem tableAt_nil (path : List String) : tableAt path [] = [] := by
  cases path <;> rfl

theorem DraftTable.Distinct.tableAt {path : List String} (h : t.Distinct) :
    (tableAt path t).Distinct := by
  induction path generalizing t with
  | nil => exact h
  | cons key path ih =>
    rw [Toml.tableAt]
    split
    · rename_i hfind
      exact ih (distinct_draft_table_iff.1 (h.of_find? hfind))
    · rename_i hfind
      exact ih (distinct_tables_iff.1 (h.of_find? hfind)).2
    · exact distinct_nil

/-- A walk changes the table at the end of its path and no other, so that all keys stay distinct if
they do there. -/
theorem exists_of_descend {dotted : Bool} {path : List String} {origin : Origin} {a : α}
    {change : Origin → DraftTable → Except Fault (DraftTable × α)}
    (h : descend dotted change path origin t = .ok (u, a)) :
    ∃ origin', change origin' (tableAt path t) = .ok (tableAt path u, a) ∧
      (t.Distinct → (tableAt path u).Distinct → u.Distinct) := by
  induction path generalizing origin t u with
  | nil => exact ⟨origin, h, fun _ hu => hu⟩
  | cons key path ih =>
    rw [descend] at h
    cases hfind : find? t key with
    | none =>
      rw [hfind] at h
      obtain ⟨⟨sub, b⟩, hsub, heq⟩ := bind_eq_ok_iff.1 h
      obtain ⟨rfl, rfl⟩ := Prod.mk.inj (Except.ok.inj heq)
      obtain ⟨origin', hchange, hdistinct⟩ := ih hsub
      refine ⟨origin', ?_, fun ht hu => ?_⟩
      · simpa only [tableAt, hfind, find?_concat_self hfind, tableAt_nil] using hchange
      · simp only [tableAt, find?_concat_self hfind] at hu
        exact ht.concat hfind (distinct_draft_table_iff.2 (hdistinct distinct_nil hu))
    | some d =>
      rw [hfind] at h
      cases d with
      | value v => cases h
      | table inner entries =>
        simp only at h
        split at h
        · cases h
        · obtain ⟨⟨sub, b⟩, hsub, heq⟩ := bind_eq_ok_iff.1 h
          obtain ⟨rfl, rfl⟩ := Prod.mk.inj (Except.ok.inj heq)
          obtain ⟨origin', hchange, hdistinct⟩ := ih hsub
          refine ⟨origin', ?_, fun ht hu => ?_⟩
          · simpa only [tableAt, hfind, find?_replace_self hfind] using hchange
          · simp only [tableAt, find?_replace_self hfind] at hu
            have hentries := distinct_draft_table_iff.1 (ht.of_find? hfind)
            exact ht.replace (distinct_draft_table_iff.2 (hdistinct hentries hu))
      | tables earlier last =>
        obtain ⟨⟨sub, b⟩, hsub, heq⟩ := bind_eq_ok_iff.1 h
        obtain ⟨rfl, rfl⟩ := Prod.mk.inj (Except.ok.inj heq)
        obtain ⟨origin', hchange, hdistinct⟩ := ih hsub
        refine ⟨origin', ?_, fun ht hu => ?_⟩
        · simpa only [tableAt, hfind, find?_replace_self hfind] using hchange
        · simp only [tableAt, find?_replace_self hfind] at hu
          obtain ⟨hearlier, hlast⟩ := distinct_tables_iff.1 (ht.of_find? hfind)
          exact ht.replace (distinct_tables_iff.2 ⟨hearlier, hdistinct hlast hu⟩)

/-! ## Changing a table -/

namespace DraftTable

variable {header : DottedKey} {v : Value}

theorem Distinct.assign (h : t.Distinct) (hv : v.Distinct) (hassign : t.assign header v = .ok u) :
    u.Distinct := by
  obtain ⟨⟨u, _⟩, hdescend, heq⟩ := bind_eq_ok_iff.1 hassign
  obtain rfl := Except.ok.inj heq
  obtain ⟨origin', hchange, hdistinct⟩ := exists_of_descend hdescend
  refine hdistinct h ?_
  split at hchange
  · cases hchange
  · split at hchange
    · cases hchange
    · rename_i hfree
      obtain ⟨heq, -⟩ := Prod.mk.inj (Except.ok.inj hchange)
      rw [← heq]
      exact h.tableAt.concat (by simpa using hfree) hv

/-- The place of a table whose header has opened it is free. -/
def IsFree (t : DraftTable) (header : DottedKey) : Prop :=
  find? (tableAt header.path t) header.name = none

/-- A header opens entries with distinct keys, and leaves their place free. -/
theorem Distinct.opened (h : t.Distinct) (hopened : t.opened header = .ok (u, body)) :
    u.Distinct ∧ body.Distinct ∧ u.IsFree header := by
  obtain ⟨origin', hchange, hdistinct⟩ := exists_of_descend hopened
  split at hchange
  · rename_i hfree
    obtain ⟨heq, rfl⟩ := Prod.mk.inj (Except.ok.inj hchange)
    exact ⟨hdistinct h (heq ▸ h.tableAt), distinct_nil, by rwa [IsFree, ← heq]⟩
  · rename_i hfind
    obtain ⟨heq, rfl⟩ := Prod.mk.inj (Except.ok.inj hchange)
    refine ⟨hdistinct h (heq ▸ h.tableAt.erase), ?_, by rw [IsFree, ← heq, find?_erase_self]⟩
    exact distinct_draft_table_iff.1 (h.tableAt.of_find? hfind)
  · cases hchange

theorem Distinct.close (h : t.Distinct) (hbody : body.Distinct) (hfree : t.IsFree header)
    (hclose : t.close header body = .ok u) : u.Distinct := by
  obtain ⟨⟨u, _⟩, hdescend, heq⟩ := bind_eq_ok_iff.1 hclose
  obtain rfl := Except.ok.inj heq
  obtain ⟨origin', hchange, hdistinct⟩ := exists_of_descend hdescend
  obtain ⟨heq, -⟩ := Prod.mk.inj (Except.ok.inj hchange)
  refine hdistinct h ?_
  rw [← heq]
  exact h.tableAt.concat hfree (distinct_draft_table_iff.2 hbody)

theorem Distinct.push (h : t.Distinct) (hbody : body.Distinct)
    (hpush : t.push header body = .ok u) : u.Distinct := by
  obtain ⟨⟨u, _⟩, hdescend, heq⟩ := bind_eq_ok_iff.1 hpush
  obtain rfl := Except.ok.inj heq
  obtain ⟨origin', hchange, hdistinct⟩ := exists_of_descend hdescend
  refine hdistinct h ?_
  split at hchange
  · rename_i hfree
    obtain ⟨heq, -⟩ := Prod.mk.inj (Except.ok.inj hchange)
    rw [← heq]
    exact h.tableAt.concat hfree (distinct_tables_iff.2 ⟨nofun, hbody⟩)
  · rename_i earlier last hfind
    obtain ⟨heq, -⟩ := Prod.mk.inj (Except.ok.inj hchange)
    obtain ⟨hearlier, hlast⟩ := distinct_tables_iff.1 (h.tableAt.of_find? hfind)
    rw [← heq]
    refine h.tableAt.replace (distinct_tables_iff.2 ⟨fun v hv => ?_, hbody⟩)
    obtain hv | hv := List.mem_append.1 hv
    · exact hearlier v hv
    · rw [List.mem_singleton.1 hv]
      exact hlast
  · cases hchange

end DraftTable

/-! ## Reading values -/

/-- What a reader takes from a text is sound at every depth. -/
def ReadsDistinct (value : List Char → Except Fault (Value × List Char)) : Prop :=
  ∀ cs v rest, value cs = .ok (v, rest) → v.Distinct

theorem not_stray {β : Type} {cs : List Char} {b : β} : stray cs ≠ .ok b := by
  cases cs <;> exact nofun

theorem distinct_of_scalar {cs : List Char} {v : Value} (h : scalar cs = .ok v) : v.Distinct := by
  simp only [scalar] at h
  repeat' split at h
  all_goals cases h
  all_goals constructor

theorem readsDistinct_bareValue : ReadsDistinct bareValue := by
  have hscalar : ∀ (run after : List Char) (v : Value) (rest : List Char),
      (do return (← scalar run, after)) = Except.ok (ε := Fault) (v, rest) → v.Distinct := by
    intro run after v rest h
    obtain ⟨w, hw, heq⟩ := bind_eq_ok_iff.1 h
    obtain ⟨rfl, -⟩ := Prod.mk.inj (Except.ok.inj heq)
    exact distinct_of_scalar hw
  intro cs v rest h
  unfold bareValue at h
  split at h
  · exact absurd h not_stray
  · split at h
    · split at h
      · exact hscalar _ _ _ _ h
      · exact hscalar _ _ _ _ h
    · exact hscalar _ _ _ _ h

variable {value : List Char → Except Fault (Value × List Char)} {fuel : Nat} {cs rest : List Char}

theorem distinct_of_items (hvalue : ReadsDistinct value) {acc vs : List Value}
    (hacc : ∀ v ∈ acc, v.Distinct) (h : items value fuel acc cs = .ok (vs, rest)) :
    ∀ v ∈ vs, v.Distinct := by
  induction fuel generalizing acc cs with
  | zero => cases h
  | succ fuel ih =>
    rw [items] at h
    obtain ⟨skipped, -, h⟩ := bind_eq_ok_iff.1 h
    split at h
    · obtain ⟨rfl, -⟩ := Prod.mk.inj (Except.ok.inj h)
      simpa using hacc
    · obtain ⟨⟨v, left⟩, hread, h⟩ := bind_eq_ok_iff.1 h
      have hmore : ∀ w ∈ v :: acc, w.Distinct :=
        List.forall_mem_cons.2 ⟨hvalue _ _ _ hread, hacc⟩
      obtain ⟨after, -, h⟩ := bind_eq_ok_iff.1 h
      split at h
      · exact ih hmore h
      · obtain ⟨rfl, -⟩ := Prod.mk.inj (Except.ok.inj h)
        exact fun w hw => hmore w (List.mem_reverse.1 hw)
      · exact absurd h not_stray

theorem distinct_of_entries (hvalue : ReadsDistinct value) (ht : t.Distinct)
    (h : entries value fuel t cs = .ok (u, rest)) : u.Distinct := by
  induction fuel generalizing t cs with
  | zero => cases h
  | succ fuel ih =>
    rw [entries] at h
    obtain ⟨skipped, -, h⟩ := bind_eq_ok_iff.1 h
    split at h
    · obtain ⟨rfl, -⟩ := Prod.mk.inj (Except.ok.inj h)
      exact ht
    · obtain ⟨⟨key, left⟩, -, h⟩ := bind_eq_ok_iff.1 h
      obtain ⟨sign, -, h⟩ := bind_eq_ok_iff.1 h
      split at h
      · obtain ⟨start, -, h⟩ := bind_eq_ok_iff.1 h
        obtain ⟨⟨v, left⟩, hread, h⟩ := bind_eq_ok_iff.1 h
        obtain ⟨more, hassign, h⟩ := bind_eq_ok_iff.1 h
        have hmore := ht.assign (hvalue _ _ _ hread) hassign
        obtain ⟨after, -, h⟩ := bind_eq_ok_iff.1 h
        split at h
        · exact ih hmore h
        · obtain ⟨rfl, -⟩ := Prod.mk.inj (Except.ok.inj h)
          exact hmore
        · exact absurd h not_stray
      · exact absurd h not_stray

theorem distinct_of_quotedText {r : Except Fault (String × List Char)} {v : Value}
    (h : r.map (fun p => (Value.text p.1, p.2)) = .ok (v, rest)) : v.Distinct := by
  cases r with
  | error f => cases h
  | ok p =>
    obtain ⟨rfl, -⟩ := Prod.mk.inj (Except.ok.inj h)
    exact .text p.1

/-- Values that are read have distinct keys at whatever depth they nest. -/
theorem readsDistinct_value (depth : Nat) : ReadsDistinct (Toml.value depth) := by
  induction depth with
  | zero =>
    intro cs v rest h
    unfold Toml.value at h
    split at h
    · exact distinct_of_quotedText h
    · split at h
      · cases h
      · cases h
      · contradiction
      · contradiction
      · exact readsDistinct_bareValue _ _ _ h
  | succ depth ih =>
    intro cs v rest h
    unfold Toml.value at h
    split at h
    · exact distinct_of_quotedText h
    · split at h
      · contradiction
      · contradiction
      · rename_i hdepth _
        obtain rfl := Nat.succ.inj hdepth
        obtain ⟨⟨vs, left⟩, hitems, h⟩ := bind_eq_ok_iff.1 h
        obtain ⟨rfl, -⟩ := Prod.mk.inj (Except.ok.inj h)
        exact .array (distinct_of_items ih (List.forall_mem_nil _) hitems)
      · rename_i hdepth _
        obtain rfl := Nat.succ.inj hdepth
        obtain ⟨⟨t, left⟩, hentries, h⟩ := bind_eq_ok_iff.1 h
        obtain ⟨rfl, -⟩ := Prod.mk.inj (Except.ok.inj h)
        exact distinct_of_entries ih distinct_nil hentries
      · exact readsDistinct_bareValue _ _ _ h

/-! ## Lines and documents -/

/-- The value that a line assigns has distinct keys. -/
def Statement.Distinct : Statement → Prop
  | .assign _ v => v.Distinct
  | .open _ => True
  | .extend _ => True

theorem distinct_of_statement {s : Statement} (h : statement cs = .ok (s, rest)) : s.Distinct := by
  unfold statement at h
  split at h
  · obtain ⟨⟨key, left⟩, -, h⟩ := bind_eq_ok_iff.1 h
    split at h
    · obtain ⟨after, -, h⟩ := bind_eq_ok_iff.1 h
      obtain ⟨rfl, -⟩ := Prod.mk.inj (Except.ok.inj h)
      exact trivial
    · exact absurd h not_stray
  · obtain ⟨⟨key, left⟩, -, h⟩ := bind_eq_ok_iff.1 h
    split at h
    · obtain ⟨after, -, h⟩ := bind_eq_ok_iff.1 h
      obtain ⟨rfl, -⟩ := Prod.mk.inj (Except.ok.inj h)
      exact trivial
    · exact absurd h not_stray
  · obtain ⟨⟨key, left⟩, -, h⟩ := bind_eq_ok_iff.1 h
    split at h
    · obtain ⟨⟨v, left⟩, hread, h⟩ := bind_eq_ok_iff.1 h
      obtain ⟨after, -, h⟩ := bind_eq_ok_iff.1 h
      obtain ⟨rfl, -⟩ := Prod.mk.inj (Except.ok.inj h)
      exact readsDistinct_value _ _ _ _ hread
    · exact absurd h not_stray

theorem distinct_of_statements {lines : List Statement} (h : statements fuel cs = .ok lines) :
    ∀ s ∈ lines, s.Distinct := by
  induction fuel generalizing cs lines with
  | zero => cases h
  | succ fuel ih =>
    rw [statements] at h
    obtain ⟨skipped, -, h⟩ := bind_eq_ok_iff.1 h
    split at h
    · obtain rfl := Except.ok.inj h
      exact nofun
    · obtain ⟨⟨s, left⟩, hstatement, h⟩ := bind_eq_ok_iff.1 h
      obtain ⟨more, hmore, h⟩ := bind_eq_ok_iff.1 h
      obtain rfl := Except.ok.inj h
      exact List.forall_mem_cons.2 ⟨distinct_of_statement hstatement, ih hmore⟩

/-- What a section that is still open relies on when it is put into the document. -/
def Section.IsFree (sec : Section) (root : DraftTable) : Prop :=
  match sec with
  | .single key => root.IsFree key
  | .root => True
  | .element _ => True

theorem DraftTable.Distinct.closeSection {sec : Section} {root : DraftTable} (h : root.Distinct)
    (hbody : body.Distinct) (hfree : sec.IsFree root) (hclose : sec.close root body = .ok u) :
    u.Distinct := by
  cases sec with
  | root =>
    obtain rfl := Except.ok.inj hclose
    exact hbody
  | single key => exact h.close hbody hfree hclose
  | element key => exact h.push hbody hclose

/-- The document and the open section have distinct keys, and the place of the section stays free
until it is closed. -/
theorem distinct_of_assemble {lines : List Statement} {sec : Section} {root : DraftTable}
    (h : assemble sec root body lines = .ok u) (hlines : ∀ s ∈ lines, s.Distinct)
    (hroot : root.Distinct) (hbody : body.Distinct) (hfree : sec.IsFree root) : u.Distinct := by
  induction lines generalizing sec root body with
  | nil => exact hroot.closeSection hbody hfree h
  | cons line lines ih =>
    obtain ⟨hline, hmore⟩ := List.forall_mem_cons.1 hlines
    cases line with
    | assign key v =>
      obtain ⟨more, hassign, h⟩ := bind_eq_ok_iff.1 h
      exact ih h hmore hroot (hbody.assign hline hassign) hfree
    | «open» key =>
      obtain ⟨closed, hclose, h⟩ := bind_eq_ok_iff.1 h
      obtain ⟨⟨rest, inner⟩, hopened, h⟩ := bind_eq_ok_iff.1 h
      have hclosed := hroot.closeSection hbody hfree hclose
      obtain ⟨hrest, hinner, hplace⟩ := hclosed.opened hopened
      exact ih h hmore hrest hinner hplace
    | extend key =>
      obtain ⟨closed, hclose, h⟩ := bind_eq_ok_iff.1 h
      exact ih h hmore (hroot.closeSection hbody hfree hclose) distinct_nil trivial

/-- In a document each table has each of its keys once. -/
theorem distinct_of_parse {source : String} {t : Table} (h : parse source = .ok t) :
    Value.Distinct (.table t) := by
  obtain ⟨lines, hlines, h⟩ := bind_eq_ok_iff.1 h
  obtain ⟨root, hassemble, heq⟩ := bind_eq_ok_iff.1 h
  obtain rfl := Except.ok.inj heq
  exact distinct_of_assemble hassemble (distinct_of_statements hlines) distinct_nil distinct_nil
    trivial

end BuildGraph.Toml
