import WorkspaceOs.Effect.Interleaving
import WorkspaceOs.Adapters.Database

/-!
# Repositories of versions

Personas and policies are kept alike: a row for each version of an id, that is inserted and never
updated. The two repositories are one, with the columns of a version and the errors as parameters.
-/

namespace WorkspaceOs

open Js Effect Relational

/-- A row of a table of versions, with the primary key of the first two columns. -/
structure VersionRow (C : Type) where
  id : JsString
  version : ℤ
  content : C
  createdAt : ℤ
  version_int32 : IsInt32 version

namespace VersionRow

variable {C : Type}

def key (row : VersionRow C) : JsString × ℤ := (row.id, row.version)

/-- `ORDER BY version DESC`. -/
def Newer (r r' : VersionRow C) : Prop := r'.version ≤ r.version

instance : DecidableRel (Newer (C := C)) := fun r r' =>
  inferInstanceAs (Decidable (r'.version ≤ r.version))

instance : IsTrans (VersionRow C) Newer := ⟨fun _ _ _ h h' => le_trans h' h⟩

instance : Std.Total (Newer (C := C)) := ⟨fun _ _ => le_total ..⟩

end VersionRow

abbrev VersionTable (C : Type) := Table (VersionRow.key (C := C))

inductive VersionOp (C : Type) where
  /-- `SELECT .. WHERE id = .. ORDER BY version DESC LIMIT 1`. -/
  | latest (id : JsString)
  /-- `INSERT .. ON CONFLICT DO NOTHING RETURNING version`. -/
  | insert (id : JsString) (version : Float) (content : C)

abbrev VersionAns (C : Type) : VersionOp C → Type
  | .latest _ => Option (VersionRow C)
  | .insert _ _ _ => List ℤ

abbrev VersionLabel (C : Type) := Label (VersionOp C) (VersionAns C) Thrown

abbrev VersionProg (C : Type) := Prog (VersionOp C) (VersionAns C) Thrown

/-- What the repositories differ in: what the columns besides the key keep of an entity, how it is
made of a row again, and the error for a version that exists already. -/
structure Versioned (E C : Type) where
  id : E → JsString
  version : E → Float
  write : E → Except Thrown C
  rehydrate : JsString → Float → C → Except Thrown E
  conflict : JsString → Float → Thrown

namespace Versioned

variable {E C : Type} (V : Versioned E C)

/-- The entity that a row holds. -/
def toEntity (row : VersionRow C) : Except Thrown E :=
  V.rehydrate row.id (ofInt row.version) row.content

def saveVersion (e : E) : VersionProg C Unit := do
  let id ← .ofExcept (Column.text (V.id e))
  let content ← .ofExcept (V.write e)
  let inserted ← .perform (VersionOp.insert id (V.version e) content)
  if inserted.length = 0 then throw (V.conflict (V.id e) (V.version e))

def findLatest (id : JsString) : VersionProg C (Option E) := do
  let id ← .ofExcept (Column.text id)
  match ← .perform (VersionOp.latest id) with
  | some row => some <$> .ofExcept (V.toEntity row)
  | none => return none

end Versioned

/-! ### The statements -/

namespace VersionTable

variable {C : Type}

/-- The versions of an id, in the order they were inserted. -/
def stored (t : VersionTable C) (id : JsString) : List (VersionRow C) :=
  t.rows.filter fun row => row.id = id

def latest (t : VersionTable C) (id : JsString) : Option (VersionRow C) :=
  firstBy VersionRow.Newer (stored t id)

/-- The insert, which the type of the column `version` can reject. A number from `1e21` on is sent
with an exponent, which an `integer` column does not read. -/
def insert (t : VersionTable C) (now : ℤ) (id : JsString) (version : Float) (content : C) :
    Except Thrown (List ℤ) × VersionTable C :=
  match integer? version with
  | none => (.error (.database .invalidTextRepresentation), t)
  | some n =>
    if h : IsInt32 n then
      if (t.find? (id, n)).isSome then (.ok [], t)
      else (.ok [n], t.set ⟨id, n, content, now, h⟩)
    else if n.natAbs < 10 ^ 21 then (.error (.database .numericValueOutOfRange), t)
    else (.error (.database .invalidTextRepresentation), t)

/-- One statement on the table. -/
def execute (now : ℤ) : (op : VersionOp C) → VersionTable C →
    Except Thrown (VersionAns C op) × VersionTable C
  | .latest id, t => (.ok (latest t id), t)
  | .insert id version content, t => insert t now id version content

/-- The statement, or a fault that changes nothing. -/
def perform (now : ℤ) (fault : Option JsString) (op : VersionOp C) (t : VersionTable C) :
    Except Thrown (VersionAns C op) × VersionTable C :=
  match fault with
  | some message => (.error (.foreign message), t)
  | none => execute now op t

/-- The semantics of the table. -/
def exec : Semantics (VersionOp C) (VersionAns C) Thrown (VersionTable C) :=
  fun _ op t a t' => ∃ now fault, perform now fault op t = (a, t')

/-- The ways a statement can go. -/
inductive Did (t : VersionTable C) :
    (op : VersionOp C) → Except Thrown (VersionAns C op) → VersionTable C → Prop where
  | found {id} : Did t (.latest id) (.ok (latest t id)) t
  | inserted {id : JsString} {version : Float} {content : C} {row : VersionRow C}
      (id_eq : row.id = id) (content_eq : row.content = content)
      (number : integer? version = some row.version) (free : t.find? row.key = none) :
      Did t (.insert id version content) (.ok [row.version]) (t.set row)
  | conflict {id version content n} (number : integer? version = some n) (int32 : IsInt32 n)
      (taken : (t.find? (id, n)).isSome) : Did t (.insert id version content) (.ok []) t
  | rejected {op e} : Did t op (.error e) t

variable {t t' : VersionTable C} {id : JsString} {row : VersionRow C} {i : ℕ} {op : VersionOp C}
  {a : Except Thrown (VersionAns C op)}

lemma did_of_exec (h : exec i op t a t') : Did t op a t' := by
  obtain ⟨now, fault, h⟩ := h
  simp only [perform] at h
  split at h
  · cases h
    exact .rejected
  cases op with
  | latest id =>
    cases h
    exact .found
  | insert id version content =>
    simp only [execute, insert] at h
    split at h
    · cases h
      exact .rejected
    · rename_i n hnumber
      split_ifs at h with hint32 htaken hrange
      · cases h
        exact .conflict hnumber hint32 htaken
      · cases h
        simp only [Bool.not_eq_true, Option.isSome_eq_false_iff,
          Option.isNone_iff_eq_none] at htaken
        exact @Did.inserted C t id version content
          ⟨id, n, content, now, hint32⟩ rfl rfl hnumber htaken
      · cases h
        exact .rejected
      · cases h
        exact .rejected

lemma mem_stored : row ∈ stored t id ↔ row ∈ t.rows ∧ row.id = id := by
  simp [stored]

/-- A row with a new key is the last one of its id. -/
lemma stored_set (h : t.find? row.key = none) :
    stored (t.set row) id = stored t id ++ if row.id = id then [row] else [] := by
  rw [stored, Table.rows_set_of_find?_eq_none h, List.filter_append, stored]
  split_ifs with hid <;> simp [hid]

/-- Where the versions of an id are in order, the latest one is the last. -/
lemma latest_eq_getLast? (h : ∀ row last, row ∈ stored t id → (stored t id).getLast? = some last →
    row.version ≤ last.version) : latest t id = (stored t id).getLast? := by
  cases hlatest : latest t id with
  | none =>
    rw [firstBy_eq_none.mp hlatest]
    rfl
  | some row =>
    obtain ⟨hmem, hfirst⟩ := firstBy_some hlatest
    cases hlast : (stored t id).getLast? with
    | none =>
      rw [List.getLast?_eq_none_iff.mp hlast] at hmem
      cases hmem
    | some last =>
      have hlastmem := List.mem_of_getLast? hlast
      have hversion : row.version = last.version := le_antisymm (h row last hmem hlast)
        (hfirst last hlastmem)
      obtain ⟨hrow, hid⟩ := mem_stored.mp hmem
      obtain ⟨hlastrow, hlastid⟩ := mem_stored.mp hlastmem
      have hkey : row.key = last.key := Prod.ext (hid.trans hlastid.symm) hversion
      rw [List.inj_on_of_nodup_map t.keyed hrow hlastrow hkey]

end VersionTable

end WorkspaceOs
