import Mathlib.Data.List.Nodup
import Mathlib.Data.List.Sort
import Mathlib.Order.Basic

/-!
# Tables with a primary key

A table is a list of rows with distinct keys. Writing a row replaces the row of its key in place, or
appends it. Queries with `ORDER BY` sort by a total preorder.
-/

namespace Relational

universe u v

variable {ρ : Type u} {κ : Type v}

/-- Rows with distinct keys. -/
structure Table (key : ρ → κ) where
  rows : List ρ
  keyed : (rows.map key).Nodup

namespace Table

variable {key : ρ → κ}

instance : EmptyCollection (Table key) := ⟨⟨[], List.nodup_nil⟩⟩

@[simp] lemma rows_empty : (∅ : Table key).rows = [] := rfl

variable [DecidableEq κ] (t : Table key)

/-- `SELECT .. WHERE key = k LIMIT 1`. -/
def find? (k : κ) : Option ρ := t.rows.find? fun r => key r = k

variable {t} {row r : ρ} {k : κ}

lemma find?_eq_some_iff : t.find? k = some r ↔ r ∈ t.rows ∧ key r = k := by
  constructor
  · intro h
    exact ⟨List.mem_of_find?_eq_some h, by simpa using List.find?_some h⟩
  · rintro ⟨hmem, hkey⟩
    cases hfind : t.find? k with
    | none => simpa [hkey] using List.find?_eq_none.mp hfind r hmem
    | some r' =>
      have hmem' := List.mem_of_find?_eq_some hfind
      have hkey' : key r' = k := by simpa using List.find?_some hfind
      rw [List.inj_on_of_nodup_map t.keyed hmem' hmem (hkey'.trans hkey.symm)]

lemma find?_eq_none_iff : t.find? k = none ↔ ∀ r ∈ t.rows, key r ≠ k := by
  simp [find?, List.find?_eq_none]

lemma find?_key (h : r ∈ t.rows) : t.find? (key r) = some r := find?_eq_some_iff.mpr ⟨h, rfl⟩

lemma key_of_find? (h : t.find? k = some r) : key r = k := (find?_eq_some_iff.mp h).2

lemma mem_of_find? (h : t.find? k = some r) : r ∈ t.rows := (find?_eq_some_iff.mp h).1

variable (t) (row)

/-- Write a row under its key: replace the row that is there, or add it. -/
def set : Table key where
  rows := if (t.find? (key row)).isSome then t.rows.map fun r => if key r = key row then row else r
    else t.rows ++ [row]
  keyed := by
    split_ifs with h
    · rw [List.map_map]
      convert t.keyed using 2
      ext r
      by_cases hr : key r = key row <;> simp [hr]
    · simp only [Bool.not_eq_true, Option.isSome_eq_false_iff, Option.isNone_iff_eq_none,
        find?_eq_none_iff] at h
      simp only [List.map_append, List.map_cons, List.map_nil]
      refine List.nodup_append.mpr ⟨t.keyed, List.nodup_singleton _, ?_⟩
      rintro _ hk _ hk' rfl
      obtain ⟨r, hr, hkey⟩ := List.mem_map.mp hk
      exact h r hr (hkey.trans (List.mem_singleton.mp hk'))

variable {t} {row}

lemma mem_set : r ∈ (t.set row).rows ↔ r = row ∨ r ∈ t.rows ∧ key r ≠ key row := by
  simp only [set]
  split_ifs with h
  · obtain ⟨old, hold⟩ := Option.isSome_iff_exists.mp h
    simp only [List.mem_map]
    constructor
    · rintro ⟨r', hr', rfl⟩
      split_ifs with hkey
      · exact .inl rfl
      · exact .inr ⟨hr', hkey⟩
    · rintro (rfl | ⟨hr, hkey⟩)
      · exact ⟨old, mem_of_find? hold, if_pos (key_of_find? hold)⟩
      · exact ⟨r, hr, if_neg hkey⟩
  · simp only [Bool.not_eq_true, Option.isSome_eq_false_iff, Option.isNone_iff_eq_none,
      find?_eq_none_iff] at h
    simp only [List.mem_append, List.mem_singleton]
    constructor
    · rintro (hr | rfl)
      · exact .inr ⟨hr, h r hr⟩
      · exact .inl rfl
    · rintro (rfl | ⟨hr, -⟩)
      · exact .inr rfl
      · exact .inl hr

@[simp] lemma find?_set_self : (t.set row).find? (key row) = some row :=
  find?_eq_some_iff.mpr ⟨mem_set.mpr (.inl rfl), rfl⟩

lemma find?_set_of_ne (h : k ≠ key row) : (t.set row).find? k = t.find? k := by
  ext r
  simp only [find?_eq_some_iff, mem_set]
  constructor
  · rintro ⟨rfl | ⟨hr, -⟩, hkey⟩
    · exact absurd hkey.symm h
    · exact ⟨hr, hkey⟩
  · rintro ⟨hr, rfl⟩
    exact ⟨.inr ⟨hr, h⟩, rfl⟩

lemma find?_set (k : κ) : (t.set row).find? k = if k = key row then some row else t.find? k := by
  split_ifs with hk
  · rw [hk, find?_set_self]
  · exact find?_set_of_ne hk

/-- Delete the row of a key. -/
def erase (t : Table key) (k : κ) : Table key where
  rows := t.rows.filter fun r => key r ≠ k
  keyed := t.keyed.sublist (List.filter_sublist.map key)

lemma mem_erase : r ∈ (t.erase k).rows ↔ r ∈ t.rows ∧ key r ≠ k := by
  simp [erase]

lemma find?_erase (k k' : κ) : (t.erase k).find? k' = if k' = k then none else t.find? k' := by
  ext r
  rw [find?_eq_some_iff, mem_erase]
  split_ifs with hk
  · simp only [hk, iff_false]
    exact fun h => h.1.2 h.2
  · rw [find?_eq_some_iff]
    constructor
    · exact fun h => ⟨h.1.1, h.2⟩
    · rintro ⟨hr, rfl⟩
      exact ⟨⟨hr, hk⟩, rfl⟩

/-- A key that is in the table stays in it. -/
lemma isSome_find?_set (h : (t.find? k).isSome) : ((t.set row).find? k).isSome := by
  by_cases hk : k = key row
  · simp [hk]
  · rwa [find?_set_of_ne hk]

/-- A row with a new key goes to the end. -/
lemma rows_set_of_find?_eq_none (h : t.find? (key row) = none) :
    (t.set row).rows = t.rows ++ [row] := by
  simp [set, h]

/-- Overwriting a row keeps what the rows are read for, if both rows agree on it. -/
lemma map_rows_set {β : Type*} {f : ρ → β} (h : t.find? (key row) = some r) (hf : f r = f row) :
    (t.set row).rows.map f = t.rows.map f := by
  simp only [set, h, Option.isSome_some, if_true, List.map_map]
  apply List.map_congr_left
  intro r' hr'
  simp only [Function.comp_apply]
  split_ifs with hkey
  · rw [← hkey, find?_key hr'] at h
    cases h
    exact hf.symm
  · rfl

/-- Overwriting a row keeps its place among the rows that a condition picks out, if both rows agree
on the condition. -/
lemma filter_rows_set {p : ρ → Bool} (h : t.find? (key row) = some r) (hp : p r = p row) :
    (t.set row).rows.filter p =
      (t.rows.filter p).map fun r' => if key r' = key row then row else r' := by
  simp only [set, h, Option.isSome_some, if_true, List.filter_map]
  congr 1
  refine List.filter_congr fun r' hr' => ?_
  simp only [Function.comp_apply]
  split_ifs with hkey
  · rw [← hkey, find?_key hr'] at h
    cases h
    exact hp.symm
  · rfl

end Table

/-! ### Ordered queries -/

section OrderBy

variable {le : ρ → ρ → Prop} [DecidableRel le] {rows : List ρ} {row : ρ}

/-- `SELECT .. ORDER BY le LIMIT 1` over the rows that a scan finds. -/
def firstBy (le : ρ → ρ → Prop) [DecidableRel le] (rows : List ρ) : Option ρ :=
  (rows.insertionSort le).head?

lemma firstBy_eq_none : firstBy le rows = none ↔ rows = [] := by
  rw [firstBy, List.head?_eq_none_iff, ← List.length_eq_zero_iff, List.length_insertionSort,
    List.length_eq_zero_iff]

/-- The first row in the order is one of the rows, and comes before all of them. -/
lemma firstBy_some [IsTrans ρ le] [Std.Total le] (h : firstBy le rows = some row) :
    row ∈ rows ∧ ∀ r ∈ rows, le row r := by
  obtain ⟨tail, htail⟩ := List.head?_eq_some_iff.mp h
  have hsorted := List.pairwise_insertionSort le rows
  rw [htail, List.pairwise_cons] at hsorted
  have hperm := List.perm_insertionSort le rows
  rw [htail] at hperm
  refine ⟨hperm.mem_iff.mp List.mem_cons_self, fun r hr => ?_⟩
  rcases List.mem_cons.mp (hperm.mem_iff.mpr hr) with rfl | hr
  · exact (Std.Total.total r r).elim id id
  · exact hsorted.1 r hr

lemma pair_sublist_or {a b : ρ} (ha : a ∈ rows) (hb : b ∈ rows) (hne : a ≠ b) :
    [a, b].Sublist rows ∨ [b, a].Sublist rows := by
  induction rows with
  | nil => cases ha
  | cons r rows ih =>
    rw [List.mem_cons] at ha hb
    rcases ha with rfl | ha <;> rcases hb with rfl | hb
    · exact absurd rfl hne
    · exact .inl ((List.singleton_sublist.mpr hb).cons_cons _)
    · exact .inr ((List.singleton_sublist.mpr ha).cons_cons _)
    · exact (ih ha hb).imp (List.Sublist.cons _) (List.Sublist.cons _)

/-- Of rows that are level, the first one is found first. -/
lemma not_sublist_of_firstBy {r : ρ} (hnodup : rows.Nodup) (h : firstBy le rows = some row)
    (hle : le r row) (hne : r ≠ row) : ¬ [r, row].Sublist rows := by
  intro hpair
  obtain ⟨tail, htail⟩ := List.head?_eq_some_iff.mp h
  have hsorted : [r, row].Sublist (row :: tail) := htail ▸ List.pair_sublist_insertionSort hle hpair
  have hmem : row ∈ tail := by
    cases hsorted with
    | cons _ hrest => exact hrest.subset (by simp)
    | cons_cons => exact absurd rfl hne
  have hperm := (List.perm_insertionSort le rows).nodup_iff.mpr hnodup
  rw [htail] at hperm
  exact (List.nodup_cons.mp hperm).1 hmem

end OrderBy

end Relational
