import WorkspaceOs.Relational.Table
import Mathlib.Data.List.Induction

/-!
# Disks

A disk without links is a table of what stands at each path from its root, where whatever there is
stands in a directory. Names and the contents of files are parameters.
-/

namespace Posix

open Relational

variable {N D : Type*}

inductive Node (D : Type*) where
  | file (data : D)
  | directory
deriving DecidableEq

def Node.isDirectory : Node D → Bool
  | .directory => true
  | .file _ => false

structure Entry (N D : Type*) where
  path : List N
  node : Node D

/-- What a directory lists. -/
structure Dirent (N : Type*) where
  name : N
  isDirectory : Bool

lemma dropLast_ne_self {path : List N} (h : path ≠ []) : path.dropLast ≠ path := by
  intro heq
  have hlength := congrArg List.length heq
  rw [List.length_dropLast] at hlength
  have := List.length_pos_of_ne_nil h
  omega

variable [DecidableEq N]

/-- What stands at a path. The root is a directory. -/
def statusOf (entries : Table (Entry.path (N := N) (D := D))) (path : List N) : Option (Node D) :=
  if path = [] then some .directory else (entries.find? path).map Entry.node

/-- A disk. -/
structure Disk (N D : Type*) [DecidableEq N] where
  entries : Table (Entry.path (N := N) (D := D))
  closed : ∀ entry ∈ entries.rows, statusOf entries entry.path.dropLast = some .directory

namespace Disk

/-- A disk with nothing but its root. -/
def empty : Disk N D where
  entries := ∅
  closed := by simp

variable (disk : Disk N D)

def status (path : List N) : Option (Node D) := statusOf disk.entries path

variable {disk} {path path' : List N} {node : Node D} {name : N}

@[simp] lemma status_nil : disk.status [] = some .directory := by
  rw [status, statusOf, if_pos rfl]

lemma status_of_ne_nil (h : path ≠ []) :
    disk.status path = (disk.entries.find? path).map Entry.node := if_neg h

lemma status_parent (h : disk.status path = some node) :
    disk.status path.dropLast = some .directory := by
  by_cases hempty : path = []
  · subst hempty
    exact status_nil
  · rw [status_of_ne_nil hempty] at h
    obtain ⟨entry, hfind, -⟩ := Option.map_eq_some_iff.mp h
    have hparent := disk.closed entry (Table.mem_of_find? hfind)
    rwa [Table.key_of_find? hfind] at hparent

/-- What has something below it is a directory. -/
lemma status_of_append (h : disk.status (path ++ path') = some node) (hne : path' ≠ []) :
    disk.status path = some .directory := by
  induction path' using List.reverseRecOn generalizing node with
  | nil => exact absurd rfl hne
  | append_singleton path' name ih =>
    have hparent := status_parent h
    rw [← List.append_assoc, List.dropLast_concat] at hparent
    by_cases hempty : path' = []
    · rwa [hempty, List.append_nil] at hparent
    · exact ih hparent hempty

/-- Nothing stands below a path where nothing stands. -/
lemma status_append_of_none (h : disk.status path = none) : disk.status (path ++ path') = none := by
  cases hstatus : disk.status (path ++ path') with
  | none => rfl
  | some node =>
    by_cases hempty : path' = []
    · rw [hempty, List.append_nil, h] at hstatus
      cases hstatus
    · rw [status_of_append hstatus hempty] at h
      cases h

/-! ### Writing and removing -/

instance (status : Option (Node D)) : Decidable (status = some .directory) :=
  match status with
  | some .directory => isTrue rfl
  | some (.file _) => isFalse (by simp)
  | none => isFalse (by simp)

lemma statusOf_set {entries : Table (Entry.path (N := N) (D := D))} (hne : path ≠ [])
    (path' : List N) : statusOf (entries.set ⟨path, node⟩) path' =
      if path' = path then some node else statusOf entries path' := by
  simp only [statusOf, Table.find?_set]
  split_ifs with hempty' hpath hpath <;> subst_vars
  · exact absurd rfl hne
  · rfl
  · rfl
  · rfl

lemma statusOf_erase {entries : Table (Entry.path (N := N) (D := D))} (hne : path ≠ [])
    (path' : List N) : statusOf (entries.erase path) path' =
      if path' = path then none else statusOf entries path' := by
  simp only [statusOf, Table.find?_erase]
  split_ifs with hempty hpath hpath <;> subst_vars
  · exact absurd rfl hne
  · rfl
  · rfl
  · rfl

lemma ne_nil_of_status (h : disk.status path ≠ some .directory) : path ≠ [] := by
  rintro rfl
  exact h status_nil

/-- Put a node at a path in a directory, where no directory stands. -/
def set (disk : Disk N D) (path : List N) (node : Node D)
    (parent : disk.status path.dropLast = some .directory)
    (free : disk.status path ≠ some .directory) : Disk N D where
  entries := disk.entries.set ⟨path, node⟩
  closed := by
    have hne := ne_nil_of_status free
    intro entry hentry
    rw [statusOf_set hne]
    rcases Table.mem_set.mp hentry with rfl | ⟨hold, -⟩
    · rw [if_neg (dropLast_ne_self hne)]
      exact parent
    · have hclosed := disk.closed entry hold
      rw [if_neg, hclosed]
      intro heq
      rw [heq] at hclosed
      exact free hclosed

/-- Remove what is no directory. -/
def remove (disk : Disk N D) (path : List N) (free : disk.status path ≠ some .directory) :
    Disk N D where
  entries := disk.entries.erase path
  closed := by
    intro entry hentry
    obtain ⟨hold, -⟩ := Table.mem_erase.mp hentry
    have hclosed := disk.closed entry hold
    rw [statusOf_erase (ne_nil_of_status free), if_neg, hclosed]
    intro heq
    rw [heq] at hclosed
    exact free hclosed

/-- Put a node where it can stand. -/
def put (disk : Disk N D) (path : List N) (node : Node D) : Disk N D :=
  if h : disk.status path.dropLast = some .directory ∧ disk.status path ≠ some .directory then
    disk.set path node h.1 h.2
  else disk

/-- Remove a file. -/
def unlink (disk : Disk N D) (path : List N) : Disk N D :=
  if h : disk.status path ≠ some .directory then disk.remove path h else disk

lemma status_put (hparent : disk.status path.dropLast = some .directory)
    (hfree : disk.status path ≠ some .directory) (path' : List N) :
    (disk.put path node).status path' = if path' = path then some node else disk.status path' := by
  rw [put, dif_pos ⟨hparent, hfree⟩]
  exact statusOf_set (ne_nil_of_status hfree) path'

lemma status_put_of_ne (h : path' ≠ path) :
    (disk.put path node).status path' = disk.status path' := by
  by_cases hput : disk.status path.dropLast = some .directory ∧ disk.status path ≠ some .directory
  · rw [status_put hput.1 hput.2, if_neg h]
  · rw [put, dif_neg hput]

lemma status_put_concat (hparent : disk.status path = some .directory)
    (hfree : disk.status (path ++ [name]) ≠ some .directory) (path' : List N) :
    (disk.put (path ++ [name]) node).status path' =
      if path' = path ++ [name] then some node else disk.status path' :=
  status_put (by rwa [List.dropLast_concat]) hfree path'

lemma status_unlink (hfree : disk.status path ≠ some .directory) (path' : List N) :
    (disk.unlink path).status path' = if path' = path then none else disk.status path' := by
  rw [unlink, dif_pos hfree]
  exact statusOf_erase (ne_nil_of_status hfree) path'

lemma status_unlink_of_ne (h : path' ≠ path) :
    (disk.unlink path).status path' = disk.status path' := by
  by_cases hfree : disk.status path ≠ some .directory
  · rw [status_unlink hfree, if_neg h]
  · rw [unlink, dif_neg hfree]

/-! ### Listing -/

variable (disk) (path)

/-- What a directory lists. -/
def children : List (Dirent N) :=
  disk.entries.rows.filterMap fun entry =>
    match entry.path.getLast? with
    | some name => if entry.path.dropLast = path then some ⟨name, entry.node.isDirectory⟩ else none
    | none => none

/-- No path on the disk is longer. -/
def height : ℕ := disk.entries.rows.foldr (fun entry => Nat.max entry.path.length) 0

variable {disk} {path}

lemma mem_children {dirent : Dirent N} : dirent ∈ disk.children path ↔
    ∃ node, disk.status (path ++ [dirent.name]) = some node ∧
      dirent.isDirectory = node.isDirectory := by
  have hne (name : N) : path ++ [name] ≠ [] := by simp
  rw [children, List.mem_filterMap]
  constructor
  · rintro ⟨entry, hentry, hsome⟩
    split at hsome
    · rename_i name hname
      split_ifs at hsome with hpath
      cases hsome
      have hsplit : path ++ [name] = entry.path := by
        rw [← hpath]
        exact List.dropLast_append_getLast? name hname
      refine ⟨entry.node, ?_, rfl⟩
      rw [status_of_ne_nil (hne name), hsplit, Table.find?_key hentry]
      rfl
    · cases hsome
  · rintro ⟨node, hstatus, hdirectory⟩
    rw [status_of_ne_nil (hne _)] at hstatus
    obtain ⟨entry, hfind, rfl⟩ := Option.map_eq_some_iff.mp hstatus
    refine ⟨entry, Table.mem_of_find? hfind, ?_⟩
    rw [Table.key_of_find? hfind, List.getLast?_concat, List.dropLast_concat]
    dsimp only
    rw [if_pos rfl, ← hdirectory]

lemma length_le_height (h : disk.status path = some node) : path.length ≤ disk.height := by
  by_cases hempty : path = []
  · simp [hempty]
  · rw [status_of_ne_nil hempty] at h
    obtain ⟨entry, hfind, -⟩ := Option.map_eq_some_iff.mp h
    have hmem := Table.mem_of_find? hfind
    rw [← Table.key_of_find? hfind, height]
    generalize disk.entries.rows = rows at hmem ⊢
    induction rows with
    | nil => cases hmem
    | cons first rows ih =>
      rcases List.mem_cons.mp hmem with rfl | hmem
      · exact Nat.le_max_left _ _
      · exact (ih hmem).trans (Nat.le_max_right _ _)

end Disk

end Posix
