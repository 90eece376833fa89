import BuildGraph.Proofs.FileTree.Directories
import BuildGraph.Proofs.FileTree.Steps
import Mathlib.Data.List.Induction
set_option autoImplicit false

/-!
# Trees as a disk holds them

In a tree that a disk holds everything stands in a directory, under a name that is one ordinary
component of a path. The type of trees does not ask for it, but nothing ever leads out of it: the
empty tree is `Grounded`, and every change through a path keeps a tree so.
-/

namespace BuildGraph

/-- A text is cut at each of its marks, so that no piece has one. -/
theorem Path.mark_not_mem_of_mem_pieces {mark : Char} {cs p : List Char} (hp : p ∈ pieces mark cs) :
    mark ∉ p := by
  induction cs generalizing p with
  | nil =>
    obtain rfl := List.mem_singleton.1 hp
    exact List.not_mem_nil
  | cons c cs ih =>
    by_cases hc : c = mark
    · rw [pieces, if_pos hc] at hp
      rcases List.mem_cons.1 hp with rfl | hp
      · exact List.not_mem_nil
      · exact ih hp
    · obtain ⟨first, rest, hcs, hcons⟩ := exists_pieces_cons hc cs
      rw [hcons] at hp
      rw [hcs] at ih
      rcases List.mem_cons.1 hp with rfl | hp
      · exact List.not_mem_cons_of_ne_of_not_mem (Ne.symm hc) (ih List.mem_cons_self)
      · exact ih (List.mem_cons_of_mem first hp)

namespace FileTree

variable {t t' : FileTree} {l parent : Location} {n : Node} {name path target : String}
  {followLast : Bool}

/-- Whatever stands in the tree stands in a directory, under a plain name. -/
structure Grounded (t : FileTree) : Prop where
  plain : ∀ p ∈ t.nodes, ∀ name ∈ p.1, IsPlainName name
  inDirectory : ∀ p ∈ t.nodes, t.get? p.1.dropLast = some .directory

instance (t : FileTree) : Decidable (Grounded t) :=
  decidable_of_iff ((∀ p ∈ t.nodes, ∀ name ∈ p.1, IsPlainName name) ∧
      ∀ p ∈ t.nodes, t.get? p.1.dropLast = some .directory)
    ⟨fun h => ⟨h.1, h.2⟩, fun h => ⟨h.plain, h.inDirectory⟩⟩

namespace Grounded

theorem isPlainName (h : t.Grounded) (hget : t.get? l = some n) (hname : name ∈ l) :
    IsPlainName name := by
  have hl : l ≠ [] := List.ne_nil_of_mem hname
  exact h.plain _ ((get?_eq_some_iff t hl).1 hget) name hname

theorem get?_dropLast (h : t.Grounded) (hget : t.get? l = some n) :
    t.get? l.dropLast = some .directory := by
  by_cases hl : l = []
  · rw [hl]
    rfl
  · exact h.inDirectory _ ((get?_eq_some_iff t hl).1 hget)

theorem of_get? (h : ∀ l n, t.get? l = some n →
    (∀ name ∈ l, IsPlainName name) ∧ t.get? l.dropLast = some .directory) : t.Grounded := by
  have hnode : ∀ p ∈ t.nodes,
      (∀ name ∈ p.1, IsPlainName name) ∧ t.get? p.1.dropLast = some .directory := by
    intro p hp
    by_cases hl : p.1 = []
    · rw [hl]
      exact ⟨fun _ hname => absurd hname List.not_mem_nil, rfl⟩
    · exact h p.1 p.2 ((get?_eq_some_iff t hl).2 hp)
  exact ⟨fun p hp => (hnode p hp).1, fun p hp => (hnode p hp).2⟩

/-! ## Single nodes -/

/-- A node may come into a directory unless it takes the place of another one. -/
theorem put (h : t.Grounded) (hparent : t.get? parent = some .directory) (hname : IsPlainName name)
    (hfree : t.get? (parent ++ [name]) ≠ some .directory) :
    (t.put (parent ++ [name]) n).Grounded := by
  have hother : ∀ k, t.get? k = some .directory →
      (t.put (parent ++ [name]) n).get? k = some .directory := by
    intro k hk
    have hne : k ≠ parent ++ [name] := fun heq => hfree (heq ▸ hk)
    rw [get?_put t _ k n ne_nil_of_vacant, if_neg hne, hk]
  refine of_get? fun k m hget => ?_
  rw [get?_put t _ k n ne_nil_of_vacant] at hget
  split at hget
  · rename_i hk
    subst hk
    rw [List.dropLast_concat]
    refine ⟨fun x hx => ?_, hother parent hparent⟩
    rcases List.mem_append.1 hx with hx | hx
    · exact h.isPlainName hparent hx
    · rwa [List.mem_singleton.1 hx]
  · exact ⟨fun x hx => h.isPlainName hget hx, hother _ (h.get?_dropLast hget)⟩

/-- With what is removed all goes that stands below it. -/
theorem remove (h : t.Grounded) (l : Location) : (t.remove l).Grounded := by
  refine of_get? fun k m hget => ?_
  by_cases hk : k = []
  · rw [hk]
    exact ⟨fun _ hx => absurd hx List.not_mem_nil, rfl⟩
  rw [get?_remove t l k hk] at hget
  split at hget
  · cases hget
  · rename_i houtside
    refine ⟨fun x hx => h.isPlainName hget hx, ?_⟩
    by_cases hparent : k.dropLast = []
    · rw [hparent]
      rfl
    · have habove : ¬ l.isPrefixOf k.dropLast = true := by
        rw [List.isPrefixOf_iff_prefix] at houtside ⊢
        exact fun hbelow => houtside (hbelow.trans (List.dropLast_prefix k))
      rw [get?_remove t l _ hparent, if_neg habove, h.get?_dropLast hget]

end Grounded

/-! ## Free names -/

theorem slash_not_mem_of_mem_namesOf {cs : List Char} (hname : name ∈ namesOf cs) :
    '/' ∉ name.toList ∧ name ≠ "" := by
  obtain ⟨p, hp, rfl⟩ := List.mem_map.1 hname
  obtain ⟨hpiece, hempty⟩ := List.mem_filter.1 hp
  rw [String.toList_ofList]
  refine ⟨Path.mark_not_mem_of_mem_pieces hpiece, fun heq => ?_⟩
  have hnil := congrArg String.toList heq
  rw [String.toList_ofList] at hnil
  rw [hnil] at hempty
  cases hempty

theorem slash_not_mem_of_mem_steps (hname : name ∈ steps path) :
    '/' ∉ name.toList ∧ name ≠ "" := by
  rw [steps_eq] at hname
  split at hname
  · rcases List.mem_append.1 hname with hname | hname
    · exact slash_not_mem_of_mem_namesOf hname
    · rw [List.mem_singleton.1 hname]
      decide
  · exact slash_not_mem_of_mem_namesOf hname

/-- A free name at the end of a way is one of the names on it or on a link that was followed. -/
theorem Leads.isPlainName {links : Nat} {names : List String}
    (h : Leads t followLast links l names (.vacant parent name))
    (hnames : ∀ x ∈ names, '/' ∉ x.toList ∧ x ≠ "") : IsPlainName name := by
  generalize hp : Place.vacant parent name = p at h
  induction h with
  | here => cases hp
  | stay _ ih => exact ih (fun x hx => hnames x (List.mem_cons_of_mem _ hx)) hp
  | up _ ih => exact ih (fun x hx => hnames x (List.mem_cons_of_mem _ hx)) hp
  | free _ hname _ =>
    obtain ⟨-, rfl⟩ := Place.vacant.inj hp
    obtain ⟨hslash, hempty⟩ := hnames name List.mem_cons_self
    exact ⟨hslash, hempty, hname.ne_dot, hname.ne_dots⟩
  | down _ _ _ ih => exact ih (fun x hx => hnames x (List.mem_cons_of_mem _ hx)) hp
  | file => cases hp
  | link => cases hp
  | follow _ _ _ _ ih =>
    refine ih (fun x hx => ?_) hp
    rcases List.mem_append.1 hx with hx | hx
    · exact slash_not_mem_of_mem_steps hx
    · exact hnames x (List.mem_cons_of_mem _ hx)

/-- Whatever comes to a free name where a path leads stands in a directory. -/
theorem Grounded.put_vacant (h : t.Grounded)
    (hresolve : t.resolve followLast path = .ok (.vacant parent name)) (n : Node) :
    (t.put (parent ++ [name]) n).Grounded := by
  obtain ⟨-, hleads⟩ := resolve_eq_ok_iff.1 hresolve
  obtain ⟨hparent, -, hnone⟩ := holds_of_resolve hresolve
  refine h.put hparent.get? (hleads.isPlainName fun x hx => slash_not_mem_of_mem_steps hx) ?_
  rw [hnone]
  exact nofun

/-! ## Changes through paths -/

namespace Grounded

theorem makeDirectory (h : t.Grounded) (hmake : t.makeDirectory path = .ok t') : t'.Grounded := by
  obtain ⟨parent, name, hvacant, rfl⟩ := makeDirectory_eq_ok_iff.1 hmake
  exact h.put_vacant hvacant .directory

theorem makeOne (h : t.Grounded) (path : String) : (t.makeOne path).tree.Grounded := by
  unfold FileTree.makeOne
  cases hmake : t.makeDirectory path with
  | ok t' => exact h.makeDirectory hmake
  | error e =>
    by_cases hdirectory : t.isDirectory path = true
    · simpa only [if_pos hdirectory] using h
    · simpa only [if_neg hdirectory] using h

theorem makeAll (h : t.Grounded) (paths : List String) : (t.makeAll paths).tree.Grounded := by
  induction paths with
  | nil => exact h
  | cons path above ih =>
    rw [makeAll_cons]
    split
    · split
      · exact ih.makeOne path
      · exact ih
    · exact h.makeOne path

/-- Also when it stops half way. -/
theorem makeDirectories (h : t.Grounded) (path : String) :
    (t.makeDirectories path).tree.Grounded :=
  h.makeAll (ways path)

theorem makeLink (h : t.Grounded) (hmake : t.makeLink target path = .ok t') : t'.Grounded := by
  unfold FileTree.makeLink at hmake
  split at hmake
  · rename_i parent name hvacant
    obtain rfl := Except.ok.inj hmake
    exact h.put_vacant hvacant (.link target)
  · cases hmake
  · cases hmake

theorem writeBytes {content : ByteArray} (h : t.Grounded)
    (hwrite : t.writeBytes path content = .ok t') : t'.Grounded := by
  unfold FileTree.writeBytes at hwrite
  split at hwrite
  · rename_i parent name hvacant
    obtain rfl := Except.ok.inj hwrite
    exact h.put_vacant hvacant (.file content)
  · rename_i l old hexisting
    obtain rfl := Except.ok.inj hwrite
    obtain ⟨hget, -⟩ := holds_of_resolve hexisting
    have hl : l ≠ [] := by
      rintro rfl
      cases hget
    have hsplit := List.dropLast_append_getLast hl
    rw [← hsplit]
    refine h.put (h.get?_dropLast hget) (h.isPlainName hget (List.getLast_mem hl)) ?_
    rw [hsplit, hget]
    exact nofun
  · cases hwrite
  · cases hwrite

theorem removeAt (h : t.Grounded) (path : String) : (t.removeAt path).Grounded := by
  unfold FileTree.removeAt
  split
  · exact h.remove _
  · exact h

end Grounded

end FileTree

end BuildGraph
