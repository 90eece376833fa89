import BuildGraph.FileTree.Edit
import Mathlib.Data.List.Basic
set_option autoImplicit false

/-!
# Where names lead

`Leads` says by rules where a list of names leads from a directory, one rule for each thing that can
stand at the next name; a walk ends in a place exactly if the rules do. Everything else on walks is
said about the rules: what stands at the end of a walk, what is known of a free name at its end, and
how a walk that ends in a directory goes on with further names.
-/

namespace BuildGraph.FileTree

variable {t : FileTree} {followLast : Bool} {links : Nat} {l d : Location} {name : String}
  {names : List String} {p : Place} {n : Node}

/-- A name that an entry of a directory can have. -/
structure IsEntryName (name : String) : Prop where
  ne_dot : name ≠ "."
  ne_dots : name ≠ ".."
  size_le : name.utf8ByteSize ≤ nameLimit

instance (name : String) : Decidable (IsEntryName name) :=
  decidable_of_iff (name ≠ "." ∧ name ≠ ".." ∧ name.utf8ByteSize ≤ nameLimit)
    ⟨fun h => ⟨h.1, h.2.1, h.2.2⟩, fun h => ⟨h.ne_dot, h.ne_dots, h.size_le⟩⟩

/-- Where names lead from a directory, with a number of links still allowed. -/
inductive Leads (t : FileTree) (followLast : Bool) :
    Nat → Location → List String → Place → Prop
  /-- No name is left. -/
  | here (links : Nat) (l : Location) : Leads t followLast links l [] (.existing l .directory)
  | stay {links : Nat} {l : Location} {rest : List String} {p : Place}
      (h : Leads t followLast links l rest p) : Leads t followLast links l ("." :: rest) p
  | up {links : Nat} {l : Location} {rest : List String} {p : Place}
      (h : Leads t followLast links l.dropLast rest p) : Leads t followLast links l (".." :: rest) p
  /-- The last name is free. -/
  | free (links : Nat) {l : Location} {name : String} (hname : IsEntryName name)
      (hget : t.get? (l ++ [name]) = none) : Leads t followLast links l [name] (.vacant l name)
  | down {links : Nat} {l : Location} {name : String} {rest : List String} {p : Place}
      (hname : IsEntryName name) (hget : t.get? (l ++ [name]) = some .directory)
      (h : Leads t followLast links (l ++ [name]) rest p) :
      Leads t followLast links l (name :: rest) p
  | file (links : Nat) {l : Location} {name : String} {content : ByteArray}
      (hname : IsEntryName name) (hget : t.get? (l ++ [name]) = some (.file content)) :
      Leads t followLast links l [name] (.existing (l ++ [name]) (.file content))
  /-- The last name is a link that is not followed. -/
  | link (links : Nat) {l : Location} {name target : String} (hname : IsEntryName name)
      (hget : t.get? (l ++ [name]) = some (.link target)) (hlast : followLast = false) :
      Leads t followLast links l [name] (.existing (l ++ [name]) (.link target))
  | follow {links : Nat} {l : Location} {name target : String} {rest : List String} {p : Place}
      (hname : IsEntryName name) (hget : t.get? (l ++ [name]) = some (.link target))
      (hgo : rest ≠ [] ∨ followLast = true)
      (h : Leads t followLast links (if Path.isAbsolute target then [] else l)
        (steps target ++ rest) p) :
      Leads t followLast (links + 1) l (name :: rest) p

/-! ## Walks by the rules -/

theorem walk_nil : t.walk followLast links l [] = .ok (.existing l .directory) := by
  cases links <;> rfl

theorem walk_cons : t.walk followLast links l (name :: names) =
    if name = "." then t.walk followLast links l names
    else if name = ".." then t.walk followLast links l.dropLast names
    else if nameLimit < name.utf8ByteSize then .error .nameTooLong
    else match t.get? (l ++ [name]) with
      | none => if names = [] then .ok (.vacant l name) else .error .notFound
      | some .directory => t.walk followLast links (l ++ [name]) names
      | some (.file content) =>
        if names = [] then .ok (.existing (l ++ [name]) (.file content)) else .error .notDirectory
      | some (.link target) =>
        if names = [] ∧ !followLast then .ok (.existing (l ++ [name]) (.link target))
        else match links with
          | 0 => .error .tooManyLinks
          | links + 1 =>
            t.walk followLast links (if Path.isAbsolute target then [] else l)
              (steps target ++ names) := by
  cases links <;> rfl

/-- A step over the name of an entry depends on nothing but what stands there. -/
theorem walk_cons_of_isEntryName (hname : IsEntryName name) :
    t.walk followLast links l (name :: names) =
      match t.get? (l ++ [name]) with
      | none => if names = [] then .ok (.vacant l name) else .error .notFound
      | some .directory => t.walk followLast links (l ++ [name]) names
      | some (.file content) =>
        if names = [] then .ok (.existing (l ++ [name]) (.file content)) else .error .notDirectory
      | some (.link target) =>
        if names = [] ∧ !followLast then .ok (.existing (l ++ [name]) (.link target))
        else match links with
          | 0 => .error .tooManyLinks
          | links + 1 =>
            t.walk followLast links (if Path.isAbsolute target then [] else l)
              (steps target ++ names) := by
  rw [walk_cons, if_neg hname.ne_dot, if_neg hname.ne_dots, if_neg (Nat.not_lt.2 hname.size_le)]

/-- One run over the names, where the walks after a link are known to follow the rules. -/
theorem leads_of_walk_of_lower
    (hlower : ∀ {lower : Nat} {l : Location} {names : List String}, links = lower + 1 →
      t.walk followLast lower l names = .ok p → Leads t followLast lower l names p)
    (h : t.walk followLast links l names = .ok p) : Leads t followLast links l names p := by
  induction names generalizing l with
  | nil =>
    rw [walk_nil] at h
    obtain rfl := Except.ok.inj h
    exact .here links l
  | cons name rest ih =>
    by_cases hdot : name = "."
    · subst hdot
      rw [walk_cons, if_pos rfl] at h
      exact .stay (ih h)
    by_cases hdots : name = ".."
    · subst hdots
      rw [walk_cons, if_neg hdot, if_pos rfl] at h
      exact .up (ih h)
    by_cases hsize : nameLimit < name.utf8ByteSize
    · rw [walk_cons, if_neg hdot, if_neg hdots, if_pos hsize] at h
      cases h
    have hname : IsEntryName name := ⟨hdot, hdots, Nat.not_lt.1 hsize⟩
    rw [walk_cons_of_isEntryName hname] at h
    cases hget : t.get? (l ++ [name]) with
    | none =>
      simp only [hget] at h
      split at h
      · rename_i hlast
        subst hlast
        obtain rfl := Except.ok.inj h
        exact .free links hname hget
      · cases h
    | some n =>
      cases n with
      | directory =>
        simp only [hget] at h
        exact .down hname hget (ih h)
      | file content =>
        simp only [hget] at h
        split at h
        · rename_i hlast
          subst hlast
          obtain rfl := Except.ok.inj h
          exact .file links hname hget
        · cases h
      | link target =>
        simp only [hget] at h
        split at h
        · rename_i hlast
          obtain ⟨rfl, hstop⟩ := hlast
          obtain rfl := Except.ok.inj h
          exact .link links hname hget (by simpa using hstop)
        · rename_i hgo
          cases links with
          | zero => cases h
          | succ lower =>
            refine .follow hname hget ?_ (hlower rfl h)
            by_cases hmore : rest = []
            · exact .inr (by simpa [hmore] using hgo)
            · exact .inl hmore

theorem leads_of_walk (h : t.walk followLast links l names = .ok p) :
    Leads t followLast links l names p := by
  induction links generalizing l names with
  | zero => exact leads_of_walk_of_lower (fun hzero => nomatch hzero) h
  | succ links ih =>
    refine leads_of_walk_of_lower (fun hsucc hwalk => ?_) h
    obtain rfl := Nat.succ.inj hsucc
    exact ih hwalk

theorem walk_of_leads (h : Leads t followLast links l names p) :
    t.walk followLast links l names = .ok p := by
  induction h with
  | here => exact walk_nil
  | stay _ ih => rw [walk_cons, if_pos rfl, ih]
  | up _ ih => rw [walk_cons, if_neg (by decide), if_pos rfl, ih]
  | free _ hname hget => rw [walk_cons_of_isEntryName hname, hget]; rfl
  | down hname hget _ ih => rw [walk_cons_of_isEntryName hname, hget]; exact ih
  | file _ hname hget => rw [walk_cons_of_isEntryName hname, hget]; rfl
  | link _ hname hget hlast =>
    rw [walk_cons_of_isEntryName hname, hget]
    simp [hlast]
  | follow hname hget hgo _ ih =>
    rw [walk_cons_of_isEntryName hname, hget]
    have hfollow : ¬ (_ = [] ∧ (!followLast) = true) := fun hstop => by
      rcases hgo with hmore | hlast
      · exact hmore hstop.1
      · simp [hlast] at hstop
    simp only [if_neg hfollow]
    exact ih

theorem walk_eq_ok_iff :
    t.walk followLast links l names = .ok p ↔ Leads t followLast links l names p :=
  ⟨leads_of_walk, walk_of_leads⟩

/-! ## What stands on a way -/

/-- Everything on the way to a location, and the location itself, is a directory. -/
def IsWay (t : FileTree) (l : Location) : Prop :=
  ∀ above, above <+: l → t.get? above = some .directory

theorem isWay_nil : t.IsWay [] := by
  intro above habove
  rw [List.prefix_nil.1 habove]
  rfl

theorem IsWay.get? (h : t.IsWay l) : t.get? l = some .directory :=
  h l List.prefix_rfl

theorem IsWay.append (h : t.IsWay l) (hget : t.get? (l ++ [name]) = some .directory) :
    t.IsWay (l ++ [name]) := by
  intro above habove
  rcases List.prefix_concat_iff.1 habove with rfl | habove
  · exact hget
  · exact h above habove

theorem IsWay.dropLast (h : t.IsWay l) : t.IsWay l.dropLast :=
  fun above habove => h above (habove.trans (List.dropLast_prefix l))

theorem IsWay.linkBase (h : t.IsWay l) (target : String) :
    t.IsWay (if Path.isAbsolute target then [] else l) := by
  split
  · exact isWay_nil
  · exact h

/-- What a place holds in a tree in which a walk has found it. -/
def Place.Holds (t : FileTree) : Place → Prop
  | .existing l n => t.get? l = some n ∧ (n = .directory → t.IsWay l)
  | .vacant parent name =>
    t.IsWay parent ∧ IsEntryName name ∧ t.get? (parent ++ [name]) = none

theorem Leads.holds (h : Leads t followLast links l names p) (hl : t.IsWay l) : p.Holds t := by
  induction h with
  | here => exact ⟨hl.get?, fun _ => hl⟩
  | stay _ ih => exact ih hl
  | up _ ih => exact ih hl.dropLast
  | free _ hname hget => exact ⟨hl, hname, hget⟩
  | down _ hget _ ih => exact ih (hl.append hget)
  | file _ _ hget => exact ⟨hget, nofun⟩
  | link _ _ hget _ => exact ⟨hget, nofun⟩
  | follow _ _ _ _ ih => exact ih (hl.linkBase _)

/-- A walk that ends takes no name that is too long. -/
theorem Leads.isEntryName_of_mem (h : Leads t followLast links l names p) {name : String}
    (hmem : name ∈ names) : name = "." ∨ name = ".." ∨ IsEntryName name := by
  induction h with
  | here => cases hmem
  | stay _ ih => exact (List.mem_cons.1 hmem).elim .inl ih
  | up _ ih => exact (List.mem_cons.1 hmem).elim (.inr ∘ .inl) ih
  | free _ hname | file _ hname | link _ hname =>
    obtain rfl := List.mem_singleton.1 hmem
    exact .inr (.inr hname)
  | down hname _ _ ih =>
    rcases List.mem_cons.1 hmem with rfl | hmem
    · exact .inr (.inr hname)
    · exact ih hmem
  | follow hname _ _ _ ih =>
    rcases List.mem_cons.1 hmem with rfl | hmem
    · exact .inr (.inr hname)
    · exact ih (List.mem_append_right _ hmem)

/-- Whatever is reached by following all links, its path itself is taken too. -/
theorem Leads.exists_unfollowed (h : Leads t true links l names p)
    (hp : ∀ d name, p ≠ .vacant d name) : ∃ d n, Leads t false links l names (.existing d n) := by
  induction h with
  | here links l => exact ⟨_, _, .here links l⟩
  | stay _ ih => exact (ih hp).imp fun _ h => h.imp fun _ h => .stay h
  | up _ ih => exact (ih hp).imp fun _ h => h.imp fun _ h => .up h
  | free => exact absurd rfl (hp _ _)
  | down hname hget _ ih => exact (ih hp).imp fun _ h => h.imp fun _ h => .down hname hget h
  | file links hname hget => exact ⟨_, _, .file links hname hget⟩
  | link _ _ _ hlast => cases hlast
  | @follow links l name target rest p hname hget _ _ ih =>
    cases rest with
    | nil => exact ⟨_, _, .link _ hname hget rfl⟩
    | cons => exact (ih hp).imp fun _ h => h.imp fun _ h => .follow hname hget (.inl nofun) h

/-- A free name is found free whether or not a link at the end would be followed. -/
theorem Leads.vacant_unfollowed {parent : Location}
    (h : Leads t false links l names (.vacant parent name)) (followLast : Bool) :
    Leads t followLast links l names (.vacant parent name) := by
  generalize hp : Place.vacant parent name = p at h
  induction h with
  | here => cases hp
  | stay _ ih => exact .stay (ih hp)
  | up _ ih => exact .up (ih hp)
  | free links hname hget => exact .free links hname hget
  | down hname hget _ ih => exact .down hname hget (ih hp)
  | file => cases hp
  | link => cases hp
  | follow hname hget hgo _ ih =>
    exact .follow hname hget (.inl (hgo.resolve_right nofun)) (ih hp)

/-! ## Walks in two parts -/

/-- A walk that ends in a directory goes on from there with further names. -/
theorem exists_walk_append (h : Leads t true links l names (.existing d .directory)) :
    ∃ left, ∀ followLast more, more ≠ [] →
      t.walk followLast links l (names ++ more) = t.walk followLast left d more := by
  generalize hp : Place.existing d .directory = p at h
  induction h with
  | here links l =>
    obtain ⟨rfl, -⟩ := Place.existing.inj hp
    exact ⟨links, fun _ _ _ => rfl⟩
  | stay _ ih =>
    obtain ⟨left, hleft⟩ := ih hp
    refine ⟨left, fun followLast more hmore => ?_⟩
    rw [List.cons_append, walk_cons, if_pos rfl, hleft followLast more hmore]
  | up _ ih =>
    obtain ⟨left, hleft⟩ := ih hp
    refine ⟨left, fun followLast more hmore => ?_⟩
    rw [List.cons_append, walk_cons, if_neg (by decide), if_pos rfl, hleft followLast more hmore]
  | free => cases hp
  | down hname hget _ ih =>
    obtain ⟨left, hleft⟩ := ih hp
    refine ⟨left, fun followLast more hmore => ?_⟩
    rw [List.cons_append, walk_cons_of_isEntryName hname, hget]
    exact hleft followLast more hmore
  | file => cases hp
  | link => cases hp
  | follow hname hget _ _ ih =>
    obtain ⟨left, hleft⟩ := ih hp
    refine ⟨left, fun followLast more hmore => ?_⟩
    rw [List.cons_append, walk_cons_of_isEntryName hname, hget]
    simp only [List.append_eq_nil_iff, hmore, and_false, false_and, if_false]
    rw [← List.append_assoc]
    exact hleft followLast more hmore

end BuildGraph.FileTree
