import WorkspaceOs.Adapters.Columns
import WorkspaceOs.Adapters.VersionRepository

/-!
# Stored versions

Saving a version and reading it back by its id and number, with every value as its column keeps it.
The columns besides the key are a parameter.
-/

namespace WorkspaceOs

open Js Column

namespace RoundTrip

/-- How versions are stored: `write` makes the columns besides the key, `read` is `toJSON` of what
the columns are made into again, and `record` is `toJSON` itself. -/
structure Stored (E C R : Type) where
  id : E → JsString
  version : E → Float
  record : E → R
  write : E → Except Thrown C
  read : JsString → Float → C → Except Thrown R
  conflict : JsString → Float → Thrown
  /-- The key can be told from what is read. -/
  read_record : ∀ {i v c e}, read i v c = .ok (record e) → i = id e ∧ v = version e

variable {E C R : Type} (S : Stored E C R) (t : VersionTable C) (now : ℤ) (e : E)

/-- `saveVersion` of a repository of versions. -/
def saveVersion : Except Thrown (VersionTable C) := do
  let id ← text (S.id e)
  let columns ← S.write e
  let (inserted, t') := t.insert now id (S.version e) columns
  if (← inserted).length = 0 then throw (S.conflict (S.id e) (S.version e))
  return t'

/-- `findVersion` of a repository of versions. -/
def findVersion (id : JsString) (version : Float) : Except Thrown (Option R) := do
  let id ← text id
  let ⟨n, _⟩ ← integer version
  match t.find? (id, n) with
  | some row => return some (← S.read row.id (ofInt row.version) row.content)
  | none => return none

/-- The entity is saved and read back as it was. -/
def KeepsVersion : Prop := ∃ t', saveVersion S t now e = .ok t' ∧
  findVersion S t' (S.id e) (S.version e) = .ok (some (S.record e))

/-- No row has the key of the entity. -/
def Free : Prop := ∀ n, integer? (S.version e) = some n → t.find? (S.id e, n) = none

/-- The columns hold the entity. -/
structure VersionFits : Prop where
  id : IsText (S.id e)
  version : IsInteger (S.version e)
  columns : ∃ c, S.write e = .ok c ∧ S.read (S.id e) (S.version e) c = .ok (S.record e)

variable {S t now e}

/-- The column `version` is an `integer` column. -/
lemma insert_eq_ok {id : JsString} {version : Float} {content : C} {n : ℤ} {t' : VersionTable C}
    {ns : List ℤ} (h : t.insert now id version content = (.ok (n :: ns), t')) :
    ∃ hn, integer version = .ok ⟨n, hn⟩ ∧ t' = t.set ⟨id, n, content, now, hn⟩ := by
  rw [VersionTable.insert] at h
  split at h
  · cases h
  · rename_i m hm
    split_ifs at h with hint32 <;> cases h
    refine ⟨hint32, ?_, rfl⟩
    rw [integer]
    rw [hm]
    exact dif_pos hint32

lemma insert_of_free {id : JsString} {content : C} {n : ℤ} (hn : IsInt32 n)
    (hfree : t.find? (id, n) = none) :
    t.insert now id (ofInt n) content = (.ok [n], t.set ⟨id, n, content, now, hn⟩) := by
  simp [VersionTable.insert, integer?_ofInt hn.natAbs_lt, hn, hfree]

lemma saveVersion_eq_ok {t' : VersionTable C} (h : saveVersion S t now e = .ok t') :
    ∃ id c n hn, text (S.id e) = .ok id ∧ S.write e = .ok c ∧
      integer (S.version e) = .ok ⟨n, hn⟩ ∧ t' = t.set ⟨id, n, c, now, hn⟩ := by
  simp only [saveVersion, bind_eq_ok] at h
  obtain ⟨id, hid, c, hc, inserted, hinserted, h⟩ := h
  split_ifs at h with hlength
  · cases h
  cases h
  obtain ⟨n, ns, rfl⟩ := List.exists_cons_of_length_pos (Nat.pos_of_ne_zero hlength)
  obtain ⟨hn, hinteger, ht⟩ := insert_eq_ok (Prod.ext hinserted rfl)
  exact ⟨id, c, n, hn, hid, hc, hinteger, ht⟩

lemma keepsVersion_of_fits (hfree : Free S t e) (h : VersionFits S e) : KeepsVersion S t now e := by
  obtain ⟨n, hint32, hn⟩ := h.version
  obtain ⟨c, hwrite, hread⟩ := h.columns
  have hnone : t.find? (S.id e, n) = none :=
    hfree n (by rw [hn, integer?_ofInt hint32.natAbs_lt])
  refine ⟨t.set ⟨S.id e, n, c, now, hint32⟩, ?_, ?_⟩
  · simp only [saveVersion, bind_eq_ok]
    refine ⟨S.id e, text_eq_ok_iff.mpr h.id, c, hwrite, [n], ?_, ?_⟩
    · rw [hn, insert_of_free hint32 hnone]
    · rw [hn, insert_of_free hint32 hnone]
      rfl
  · simp only [findVersion, bind_eq_ok]
    refine ⟨S.id e, text_eq_ok_iff.mpr h.id, ⟨n, hint32⟩, ?_, ?_⟩
    · rw [hn, integer_ofInt hint32]
    · have hfind : (t.set ⟨S.id e, n, c, now, hint32⟩).find? (S.id e, n) =
          some ⟨S.id e, n, c, now, hint32⟩ := Relational.Table.find?_set_self
      rw [hfind]
      refine bind_eq_ok.mpr ⟨S.record e, ?_, rfl⟩
      rw [← hn]
      exact hread

lemma fits_of_keepsVersion (h : KeepsVersion S t now e) : VersionFits S e := by
  obtain ⟨t', hsave, hfind⟩ := h
  obtain ⟨id, c, n, hint32, hid, hwrite, hn, rfl⟩ := saveVersion_eq_ok hsave
  simp only [findVersion, hid, hn, bind_eq_ok] at hfind
  obtain ⟨_, hid', _, hn', hfind⟩ := hfind
  cases hid'
  cases hn'
  have hset : (t.set ⟨id, n, c, now, hint32⟩).find? (id, n) = some ⟨id, n, c, now, hint32⟩ :=
    Relational.Table.find?_set_self
  rw [hset] at hfind
  obtain ⟨record, hread, hrecord⟩ := bind_eq_ok.mp hfind
  cases hrecord
  obtain ⟨hid_eq, hn_eq⟩ := S.read_record hread
  subst hid_eq
  rw [hn_eq] at hread
  exact ⟨text_eq_ok_iff.mp hid, ⟨n, hint32, hn_eq.symm⟩, c, hwrite, hread⟩

lemma keepsVersion_iff (hfree : Free S t e) : KeepsVersion S t now e ↔ VersionFits S e :=
  ⟨fits_of_keepsVersion, keepsVersion_of_fits hfree⟩

end RoundTrip

end WorkspaceOs
