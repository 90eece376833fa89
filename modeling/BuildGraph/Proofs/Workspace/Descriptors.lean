import BuildGraph.Proofs.FileTree.Grounded
import BuildGraph.Proofs.Workspace.Relocation
import BuildGraph.Workspace.Search
set_option autoImplicit false

/-!
# The descriptors of a workspace

The descriptors below a root are exactly the regular files with a name of the right end that no
ignored directory stands above. Neither the name of the root nor that of a file is looked for
among the ignored ones, and links are no directories and no files. The order is that of the
components of the paths, name by name, so that the paths strictly ascend in it; as texts they
need not, since a slash stands behind some of the characters of names.
-/

namespace BuildGraph

open FileTree

variable {t : FileTree} {l way : Location} {root dir rel : String} {ignored : List String}

theorem Text.endsWith_iff_exists_append {s ending : String} :
    endsWith s ending = true ↔ ∃ front : String, s = front ++ ending := by
  rw [endsWith_iff]
  constructor
  · intro h
    obtain ⟨cs, hcs⟩ := h
    exact ⟨String.ofList cs, String.toList_inj.1 (by rw [hcs]; simp)⟩
  · intro h
    obtain ⟨front, rfl⟩ := h
    exact ⟨front.toList, String.toList_append⟩

/-! ## Components -/

namespace Path

/-- Plain names that are joined by slashes are read back. -/
theorem pieces_intercalate (hway : way ≠ []) (hplain : ∀ name ∈ way, IsPlainName name) :
    pieces '/' ("/".intercalate way).toList = way.map String.toList := by
  induction way with
  | nil => exact absurd rfl hway
  | cons name rest ih =>
    obtain ⟨hname, hrest⟩ := List.forall_mem_cons.1 hplain
    by_cases hlast : rest = []
    · rw [hlast, String.intercalate_singleton, hname.pieces_eq]
      rfl
    · have hjoined : ("/".intercalate (name :: rest)).toList =
          name.toList ++ '/' :: ("/".intercalate rest).toList := by
        rw [String.intercalate_cons_of_ne_nil hlast]
        simp
      rw [hjoined, pieces_append_cons, hname.pieces_eq, ih hlast hrest]
      rfl

end Path

/-- A plain name counts as a component. -/
theorem FileTree.IsPlainName.isVoid_eq {name : String} (h : IsPlainName name) :
    Path.isVoid name.toList = false := by
  have hempty : name.toList ≠ [] := fun heq => h.ne_empty (String.toList_inj.1 heq)
  have hdot : name.toList ≠ ['.'] := fun heq => h.ne_dot (String.toList_inj.1 heq)
  simp [Path.isVoid, hempty, hdot]

namespace Workspace

/-! ## Descriptors -/

theorem ne_empty_of_start (hroot : t.start root = .directory l) : root ≠ "" := by
  rintro rfl
  cases hroot

/-- A workspace with two directories whose names differ from a slash on, a directory that is
ignored, a descriptor with an ignored name, and links to a directory and to a descriptor. -/
def shelfNodes : List (Location × Node) :=
  [(["ws"], .directory),
    (["ws", "a"], .directory), (["ws", "a", "z.module.toml"], .file .empty),
    (["ws", "a-b"], .directory), (["ws", "a-b", "z.module.toml"], .file .empty),
    (["ws", "build"], .directory), (["ws", "build", "copy.module.toml"], .file .empty),
    (["ws", "link"], .link "a"), (["ws", "link.module.toml"], .link "a/z.module.toml"),
    (["ws", "notes.txt"], .file .empty), (["ws", "own.module.toml"], .file .empty)]

/-- The file tree of the workspace. -/
def shelf : FileTree :=
  shelfNodes.foldl (fun t p => t.put p.1 p.2) .empty

end Workspace

end BuildGraph
