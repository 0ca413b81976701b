import WorkspaceOs.Adapters.RoundTrip
import WorkspaceOs.Effect.Ledger

/-!
# Pinned versions

A version that is saved stays what it is. Whatever is called on a repository of versions, and
whichever calls fail, what is read under an id and a number is what was saved there first, and
nothing is saved there again.
-/

namespace WorkspaceOs

open Js Effect Relational Column

/-- An error of the database or of its driver. -/
def OfDatabase : Thrown → Prop
  | .database _ => True
  | .foreign _ => True
  | _ => False

namespace RoundTrip

variable {E C R : Type} {Made : E → Prop}

/-- A call of a repository of versions. What is saved was made by the domain. -/
inductive VersionCall (Made : E → Prop) where
  | saveVersion (e : E) (made : Made e)
  | findVersion (id : JsString) (version : Float)
  | findLatest (id : JsString)

abbrev VersionCall.Ans (R : Type) : VersionCall Made → Type
  | .saveVersion _ _ => Unit
  | .findVersion _ _ => Option R
  | .findLatest _ => Option R

/-- A call with its answer. -/
abbrev CallLabel (Made : E → Prop) (R : Type) := Label (VersionCall Made) (VersionCall.Ans R) Thrown

section Calls

variable (S : Stored E C R)

/-- `findLatest` of a repository of versions. -/
def findLatest (t : VersionTable C) (id : JsString) : Except Thrown (Option R) := do
  let id ← text id
  match t.latest id with
  | some row => return some (← S.read row.id (ofInt row.version) row.content)
  | none => return none

/-- A call at a time. -/
def perform (now : ℤ) : (call : VersionCall Made) → VersionTable C →
    Except Thrown (call.Ans R) × VersionTable C
  | .saveVersion e _, t =>
    match saveVersion S t now e with
    | .ok t' => (.ok (), t')
    | .error error => (.error error, t)
  | .findVersion id version, t => (findVersion S t id version, t)
  | .findLatest id, t => (findLatest S t id, t)

/-- A call at some time, or a fault that changes nothing. -/
def calls : Semantics (VersionCall Made) (VersionCall.Ans R) Thrown (VersionTable C) :=
  fun _ call t a t' =>
    (∃ now, perform S now call t = (a, t')) ∨ ∃ message, a = .error (.foreign message) ∧ t' = t

/-- The key that a version is looked for under. -/
def keyOf (id : JsString) (version : Float) : Except Thrown (JsString × ℤ) := do
  let id ← text id
  let ⟨n, _⟩ ← integer version
  return (id, n)

/-- The key and the columns of the row that an entity makes. -/
def rowOf (e : E) : Except Thrown ((JsString × ℤ) × C) := do
  let id ← text (S.id e)
  let columns ← S.write e
  let ⟨n, _⟩ ← integer (S.version e)
  return ((id, n), columns)

/-- What an answered call adds. -/
def entry : CallLabel Made R → Option ((JsString × ℤ) × C)
  | ⟨_, .saveVersion e _, .ok _⟩ => (rowOf S e).toOption
  | _ => none

/-- Something was saved under the key. -/
def Saved (before : List (CallLabel Made R))
    (key : JsString × ℤ) : Prop :=
  ∃ i e made columns, ⟨i, .saveVersion e made, .ok ()⟩ ∈ before ∧ rowOf S e = .ok (key, columns)

/-- The record is read off what was saved under the key. It is the record of what was saved, if the
columns hold that. -/
def Reads (before : List (CallLabel Made R))
    (key : JsString × ℤ) (record : R) : Prop :=
  ∃ i e made columns, ⟨i, .saveVersion e made, .ok ()⟩ ∈ before ∧
    rowOf S e = .ok (key, columns) ∧ S.read key.1 (ofInt key.2) columns = .ok record ∧
    (VersionFits S e → record = S.record e)

/-- What a call answers after others. Only the database and its driver make it fail, but for a
version that exists. -/
def Answered (before : List (CallLabel Made R)) :
    CallLabel Made R → Prop
  | ⟨_, .saveVersion e _, .ok _⟩ =>
    ∃ key columns, rowOf S e = .ok (key, columns) ∧ ¬ Saved S before key
  | ⟨_, .saveVersion e _, .error error⟩ => OfDatabase error ∨
    error = S.conflict (S.id e) (S.version e) ∧
      ∃ key columns, rowOf S e = .ok (key, columns) ∧ Saved S before key
  | ⟨_, .findVersion id version, .ok none⟩ =>
    ∃ key, keyOf id version = .ok key ∧ ¬ Saved S before key
  | ⟨_, .findVersion id version, .ok (some record)⟩ =>
    ∃ key, keyOf id version = .ok key ∧ Reads S before key record
  | ⟨_, .findLatest id, .ok none⟩ => ∃ id', text id = .ok id' ∧ ∀ n, ¬ Saved S before (id', n)
  | ⟨_, .findLatest id, .ok (some record)⟩ => ∃ id' n, text id = .ok id' ∧
    Reads S before (id', n) record ∧ ∀ n', Saved S before (id', n') → n' ≤ n
  | ⟨_, .findVersion _ _, .error error⟩ => OfDatabase error
  | ⟨_, .findLatest _, .error error⟩ => OfDatabase error

/-- What the domain makes can be written only so far as the database lets it, and is read again. -/
structure Rereadable (Made : E → Prop) : Prop where
  write_error : ∀ {e error}, S.write e = .error error → OfDatabase error
  reread : ∀ {e key columns}, Made e → rowOf S e = .ok (key, columns) →
    ∃ record, S.read key.1 (ofInt key.2) columns = .ok record

end Calls

variable {S : Stored E C R} {t t' : VersionTable C} {now : ℤ} {e : E} {key : JsString × ℤ}
  {columns : C} {error : Thrown} {id : JsString}
  {before : List (CallLabel Made R)}

lemma text_error (h : text id = .error error) : OfDatabase error := by
  rw [text] at h
  split_ifs at h
  cases h
  trivial

lemma integer_error {version : Float} (h : integer version = .error error) : OfDatabase error := by
  rw [integer] at h
  split at h
  · cases h
    trivial
  · split_ifs at h <;> cases h <;> trivial

lemma rowOf_eq_ok_iff : rowOf S e = .ok (key, columns) ↔
    text (S.id e) = .ok key.1 ∧ S.write e = .ok columns ∧
      ∃ h, integer (S.version e) = .ok ⟨key.2, h⟩ := by
  obtain ⟨id, n⟩ := key
  simp only [rowOf, bind_eq_ok]
  constructor
  · rintro ⟨_, hid, _, hcolumns, ⟨m, hint32⟩, hm, h⟩
    cases h
    exact ⟨hid, hcolumns, hint32, hm⟩
  · rintro ⟨hid, hcolumns, hint32, hn⟩
    exact ⟨id, hid, columns, hcolumns, ⟨n, hint32⟩, hn, rfl⟩

/-! ### The table is a ledger -/

/-- What is kept under a key. -/
def kept (t : VersionTable C) (key : JsString × ℤ) : Option C :=
  (t.find? key).map VersionRow.content

lemma kept_eq_none : kept t key = none ↔ t.find? key = none := by
  rw [kept, Option.map_eq_none_iff]

lemma kept_set {row : VersionRow C} :
    kept (t.set row) = Function.update (kept t) row.key (some row.content) := by
  funext key
  rw [kept, Table.find?_set, Function.update_apply]
  split_ifs
  · rfl
  · rfl

/-- The insert of a version that has a place in its column. -/
lemma insert_cases {version : Float} {n : ℤ} {hint32 : IsInt32 n}
    (h : integer version = .ok ⟨n, hint32⟩) :
    t.insert now id version columns = if (t.find? (id, n)).isSome then (.ok [], t)
      else (.ok [n], t.set ⟨id, n, columns, now, hint32⟩) := by
  simp only [integer] at h
  simp only [VersionTable.insert]
  cases hm : integer? version with
  | none =>
    simp only [hm] at h
    cases h
  | some m =>
    simp only [hm] at h ⊢
    split_ifs at h with hm32
    cases h
    exact dif_pos hm32

lemma insert_of_error {version : Float} (h : integer version = .error error) :
    t.insert now id version columns = (.error error, t) := by
  simp only [integer] at h
  simp only [VersionTable.insert]
  cases hm : integer? version with
  | none =>
    simp only [hm] at h ⊢
    cases h
    rfl
  | some m =>
    simp only [hm] at h ⊢
    split_ifs at h ⊢ <;> cases h <;> rfl

/-- Once the texts and the columns are written, the insert decides. -/
lemma saveVersion_eq (hid : text (S.id e) = .ok id) (hcolumns : S.write e = .ok columns) :
    saveVersion S t now e = (t.insert now id (S.version e) columns).1.bind fun inserted =>
      if inserted.length = 0 then .error (S.conflict (S.id e) (S.version e))
      else .ok (t.insert now id (S.version e) columns).2 := by
  simp only [saveVersion, hid, hcolumns]
  rfl

/-- A version is saved under a key that has none, and not under one that has. -/
lemma saveVersion_of_row (h : rowOf S e = .ok (key, columns)) :
    (kept t key = none ∧ ∃ row : VersionRow C, saveVersion S t now e = .ok (t.set row) ∧
      row.key = key ∧ row.content = columns) ∨
    kept t key ≠ none ∧
      saveVersion S t now e = .error (S.conflict (S.id e) (S.version e)) := by
  obtain ⟨hid, hcolumns, hint32, hn⟩ := rowOf_eq_ok_iff.mp h
  rw [ne_eq, kept_eq_none, saveVersion_eq hid hcolumns, insert_cases hn]
  cases hfind : t.find? key with
  | none =>
    rw [Option.isSome_none, if_neg Bool.false_ne_true]
    exact .inl ⟨rfl, ⟨key.1, key.2, columns, now, hint32⟩, rfl, rfl, rfl⟩
  | some row =>
    rw [Option.isSome_some, if_pos rfl]
    exact .inr ⟨Option.some_ne_none row, rfl⟩

/-- What makes no row is not saved, and only the database refuses it. -/
lemma saveVersion_of_error (hwrite : ∀ {error}, S.write e = .error error → OfDatabase error)
    (h : ∀ key columns, rowOf S e ≠ .ok (key, columns)) :
    ∃ error, saveVersion S t now e = .error error ∧ OfDatabase error := by
  cases hid : text (S.id e) with
  | error error =>
    refine ⟨error, ?_, text_error hid⟩
    rw [saveVersion, hid]
    rfl
  | ok id =>
    cases hcolumns : S.write e with
    | error error =>
      refine ⟨error, ?_, hwrite hcolumns⟩
      rw [saveVersion, hid, hcolumns]
      rfl
    | ok columns =>
      cases hn : integer (S.version e) with
      | ok n => exact absurd (rowOf_eq_ok_iff.mpr ⟨hid, hcolumns, n.2, hn⟩) (h (id, n.1) columns)
      | error error =>
        refine ⟨error, ?_, integer_error hn⟩
        rw [saveVersion_eq hid hcolumns, insert_of_error hn]
        rfl

/-- The ways a call can go. -/
inductive Went (S : Stored E C R) (t : VersionTable C) :
    (call : VersionCall Made) → Except Thrown (call.Ans R) → VersionTable C → Prop where
  | saved {e made key columns} {row : VersionRow C} (made_row : rowOf S e = .ok (key, columns))
      (key_eq : row.key = key) (content_eq : row.content = columns) (free : kept t key = none) :
      Went S t (.saveVersion e made) (.ok ()) (t.set row)
  | conflict {e made key columns} (made_row : rowOf S e = .ok (key, columns))
      (taken : kept t key ≠ none) :
      Went S t (.saveVersion e made) (.error (S.conflict (S.id e) (S.version e))) t
  | absent {id version key} (key_eq : keyOf id version = .ok key) (free : kept t key = none) :
      Went S t (.findVersion id version) (.ok none) t
  | found {id version key columns a} (key_eq : keyOf id version = .ok key)
      (taken : kept t key = some columns)
      (read : (S.read key.1 (ofInt key.2) columns).map some = a) :
      Went S t (.findVersion id version) a t
  | empty {id id'} (id_eq : text id = .ok id') (free : ∀ n, kept t (id', n) = none) :
      Went S t (.findLatest id) (.ok none) t
  | latest {id id' n columns a} (id_eq : text id = .ok id') (taken : kept t (id', n) = some columns)
      (greatest : ∀ n', kept t (id', n') ≠ none → n' ≤ n)
      (read : (S.read id' (ofInt n) columns).map some = a) : Went S t (.findLatest id) a t
  | failed {call error} (h : OfDatabase error) : Went S t call (.error error) t

lemma went_of_save {made : Made e} (hwrite : ∀ {error}, S.write e = .error error → OfDatabase error)
    {a : Except Thrown Unit} (h : perform S now (.saveVersion e made) t = (a, t')) :
    Went S t (.saveVersion e made) a t' := by
  rw [perform] at h
  by_cases hrow : ∃ key columns, rowOf S e = .ok (key, columns)
  · obtain ⟨key, columns, hrow⟩ := hrow
    rcases @saveVersion_of_row E C R S t now e key columns hrow with
      ⟨hfree, row, hsave, hkey, hcontent⟩ | ⟨htaken, hsave⟩
    · rw [hsave] at h
      cases h
      exact .saved hrow hkey hcontent hfree
    · rw [hsave] at h
      cases h
      exact .conflict hrow htaken
  · obtain ⟨error, hsave, herror⟩ := @saveVersion_of_error E C R S t now e hwrite
      fun key columns hok => hrow ⟨key, columns, hok⟩
    rw [hsave] at h
    cases h
    exact .failed herror

/-- A row that is found is read. -/
lemma read_eq {row : VersionRow C} {id' : JsString} {n : ℤ} {a : Except Thrown (Option R)}
    (hid : row.id = id') (hn : row.version = n)
    (h : (S.read row.id (ofInt row.version) row.content >>= fun record => pure (some record)) = a) :
    (S.read id' (ofInt n) row.content).map some = a := by
  subst hid hn
  rw [← h]
  rfl

lemma went_of_findVersion {version : Float} {a : Except Thrown (Option R)}
    (h : findVersion S t id version = a) :
    Went S t (.findVersion id version : VersionCall Made) a t := by
  rw [findVersion] at h
  cases hid : text id with
  | error error =>
    rw [hid] at h
    cases h
    exact .failed (text_error hid)
  | ok id' =>
    rw [hid] at h
    cases hn : integer version with
    | error error =>
      rw [hn] at h
      cases h
      exact .failed (integer_error hn)
    | ok n =>
      obtain ⟨n, hint32⟩ := n
      rw [hn] at h
      dsimp only [bind, Except.bind] at h
      have hkey : keyOf id version = .ok (id', n) := by
        rw [keyOf, hid, hn]
        rfl
      cases hfind : t.find? (id', n) with
      | none =>
        rw [hfind] at h
        cases h
        exact .absent hkey (kept_eq_none.mpr hfind)
      | some row =>
        rw [hfind] at h
        have hrowkey : row.key = (id', n) := Table.key_of_find? hfind
        obtain ⟨hrowid, hrown⟩ := Prod.mk.inj hrowkey
        exact .found hkey (congrArg (Option.map VersionRow.content) hfind) (read_eq hrowid hrown h)

lemma went_of_findLatest {a : Except Thrown (Option R)} (h : findLatest S t id = a) :
    Went S t (.findLatest id : VersionCall Made) a t := by
  rw [findLatest] at h
  cases hid : text id with
  | error error =>
    rw [hid] at h
    cases h
    exact .failed (text_error hid)
  | ok id' =>
    rw [hid] at h
    dsimp only [bind, Except.bind] at h
    cases hlatest : t.latest id' with
    | none =>
      rw [hlatest] at h
      cases h
      refine .empty hid fun n =>
        kept_eq_none.mpr (Table.find?_eq_none_iff.mpr fun row hrow hkey => ?_)
      have hmem : row ∈ t.stored id' := VersionTable.mem_stored.mpr ⟨hrow, congrArg Prod.fst hkey⟩
      rw [firstBy_eq_none.mp hlatest] at hmem
      cases hmem
    | some row =>
      rw [hlatest] at h
      obtain ⟨hmem, hfirst⟩ := firstBy_some hlatest
      obtain ⟨hrow, rfl⟩ := VersionTable.mem_stored.mp hmem
      refine .latest hid (congrArg (Option.map VersionRow.content) (Table.find?_key hrow)) ?_
        (read_eq rfl rfl h)
      intro n htaken
      obtain ⟨row', hfind⟩ := Option.ne_none_iff_exists'.mp (kept_eq_none.not.mp htaken)
      obtain ⟨hrow', hkey⟩ := Table.find?_eq_some_iff.mp hfind
      obtain ⟨hid', rfl⟩ := Prod.mk.inj hkey
      exact hfirst row' (VersionTable.mem_stored.mpr ⟨hrow', hid'⟩)

lemma went (hS : Rereadable S Made) {i : ℕ} {call : VersionCall Made}
    {a : Except Thrown (call.Ans R)} (h : calls S i call t a t') : Went S t call a t' := by
  rcases h with ⟨now, h⟩ | ⟨message, rfl, rfl⟩
  · cases call with
    | saveVersion e made => exact went_of_save hS.write_error h
    | findVersion id version =>
      obtain ⟨hfind, rfl⟩ := Prod.mk.inj h
      exact went_of_findVersion hfind
    | findLatest id =>
      obtain ⟨hfind, rfl⟩ := Prod.mk.inj h
      exact went_of_findLatest hfind
  · exact .failed trivial

/-- What a trace saves and keeps is a ledger. -/
lemma ledger (hS : Rereadable S Made) :
    Ledger (calls S) (entry S : CallLabel Made R → Option ((JsString × ℤ) × C)) kept where
  adds := by
    intro i call t a t' key columns hcall hentry
    cases went hS hcall with
    | saved hrow hkey hcontent hfree =>
      rw [entry, hrow] at hentry
      cases hentry
      subst hkey hcontent
      exact ⟨hfree, kept_set⟩
    | conflict | absent | found | empty | latest => cases hentry
    | failed => cases call <;> cases hentry
  keeps := by
    intro i call t a t' hcall hentry
    cases went hS hcall with
    | saved hrow hkey hcontent hfree =>
      rw [entry, hrow] at hentry
      cases hentry
    | conflict | absent | found | empty | latest | failed => rfl

lemma mem_filterMap_entry : (key, columns) ∈ before.filterMap (entry S) ↔
    ∃ i e made, ⟨i, .saveVersion e made, .ok ()⟩ ∈ before ∧ rowOf S e = .ok (key, columns) := by
  rw [List.mem_filterMap]
  constructor
  · rintro ⟨⟨i, call, a⟩, hmem, hentry⟩
    cases call with
    | findVersion | findLatest => cases hentry
    | saveVersion e made =>
      cases a with
      | error error => cases hentry
      | ok =>
        rw [entry] at hentry
        cases hrow : rowOf S e with
        | error error =>
          rw [hrow] at hentry
          cases hentry
        | ok row =>
          rw [hrow] at hentry
          cases hentry
          exact ⟨i, e, made, hmem, hrow⟩
  · rintro ⟨i, e, made, hmem, hrow⟩
    refine ⟨_, hmem, ?_⟩
    rw [entry, hrow]
    rfl

/-- Columns that hold what was saved are read as it was. -/
lemma record_of_fits {record : R} (hfits : VersionFits S e) (hrow : rowOf S e = .ok (key, columns))
    (hread : S.read key.1 (ofInt key.2) columns = .ok record) : record = S.record e := by
  obtain ⟨hid, hcolumns, hint32, hn⟩ := rowOf_eq_ok_iff.mp hrow
  obtain ⟨n, hn32, hversion⟩ := hfits.version
  obtain ⟨_, hwrite, hrecord⟩ := hfits.columns
  rw [text_eq_ok_iff.mpr hfits.id] at hid
  rw [hversion, integer_ofInt hn32] at hn
  rw [hwrite] at hcolumns
  rw [hversion] at hrecord
  cases hcolumns
  have hkey : n = key.2 := congrArg Subtype.val (Except.ok.inj hn)
  rw [← Except.ok.inj hid, ← hkey, hrecord] at hread
  exact (Except.ok.inj hread).symm

section Trace

variable (hS : Rereadable S Made) (trace : Trace (calls S) ∅ before t)

lemma kept_empty : kept (∅ : VersionTable C) key = none := rfl

include hS trace

lemma kept_iff : kept t key = some columns ↔
    ∃ i e made, ⟨i, .saveVersion e made, .ok ()⟩ ∈ before ∧ rowOf S e = .ok (key, columns) := by
  rw [(ledger hS).find_eq_some_iff (fun _ => kept_empty) trace, mem_filterMap_entry]

lemma saved_iff : Saved S before key ↔ kept t key ≠ none := by
  rw [Option.ne_none_iff_exists', Saved]
  simp only [kept_iff hS trace]
  constructor
  · rintro ⟨i, e, made, columns, h⟩
    exact ⟨columns, i, e, made, h⟩
  · rintro ⟨columns, i, e, made, h⟩
    exact ⟨i, e, made, columns, h⟩

/-- What is kept is read again. -/
lemma reads_of_kept (h : kept t key = some columns) :
    ∃ record, S.read key.1 (ofInt key.2) columns = .ok record ∧ Reads S before key record := by
  obtain ⟨i, e, made, hmem, hrow⟩ := (kept_iff hS trace).mp h
  obtain ⟨record, hread⟩ := hS.reread made hrow
  refine ⟨record, hread, i, e, made, columns, hmem, hrow, hread, fun hfits => ?_⟩
  exact record_of_fits hfits hrow hread

lemma answered_of_went {call : VersionCall Made} {a : Except Thrown (call.Ans R)} {i : ℕ}
    (h : Went S t call a t') : Answered S before ⟨i, call, a⟩ := by
  cases h with
  | saved hrow _ _ hfree =>
    refine ⟨_, _, hrow, fun hsaved => ?_⟩
    exact (saved_iff hS trace).mp hsaved hfree
  | conflict hrow htaken =>
    exact .inr ⟨rfl, _, _, hrow, (saved_iff hS trace).mpr htaken⟩
  | absent hkey hfree =>
    exact ⟨_, hkey, fun hsaved => (saved_iff hS trace).mp hsaved hfree⟩
  | found hkey htaken hread =>
    obtain ⟨record, hrecord, hreads⟩ := reads_of_kept hS trace htaken
    rw [hrecord] at hread
    cases hread
    exact ⟨_, hkey, hreads⟩
  | empty hid hfree =>
    exact ⟨_, hid, fun n hsaved => (saved_iff hS trace).mp hsaved (hfree n)⟩
  | latest hid htaken hgreatest hread =>
    obtain ⟨record, hrecord, hreads⟩ := reads_of_kept hS trace htaken
    rw [hrecord] at hread
    cases hread
    refine ⟨_, _, hid, hreads, fun n hsaved => ?_⟩
    exact hgreatest n ((saved_iff hS trace).mp hsaved)
  | failed herror =>
    cases call with
    | saveVersion => exact .inl herror
    | findVersion | findLatest => exact herror

lemma always_answered : Always (Answered S) before :=
  trace.always fun _ _ _ _ _ _ before hcall => answered_of_went hS before (went hS hcall)

end Trace

/-! ### Personas -/

lemma jsonString_error {s : JsString} (h : jsonString s = .error error) : OfDatabase error := by
  rw [jsonString] at h
  split_ifs at h <;> cases h <;> trivial

lemma elements_error {α β : Type} {write : α → Except Thrown β}
    (hwrite : ∀ a error, write a = .error error → OfDatabase error) {as : List α}
    (h : elements write as = .error error) : OfDatabase error := by
  induction as with
  | nil => cases h
  | cons a as ih =>
    rw [elements, bind_eq_error] at h
    rcases h with ha | ⟨b, -, h⟩
    · exact hwrite a error ha
    · rcases bind_eq_error.mp h with has | ⟨bs, -, h⟩
      · exact ih has
      · cases h

lemma optional_error {α β : Type} {write : α → Except Thrown β}
    (hwrite : ∀ a error, write a = .error error → OfDatabase error) {o : Option α}
    (h : Column.optional write o = .error error) : OfDatabase error := by
  cases o with
  | none => cases h
  | some a =>
    cases ha : write a with
    | error error' =>
      rw [Column.optional, ha] at h
      cases h
      exact hwrite a _ ha
    | ok b =>
      rw [Column.optional, ha] at h
      cases h

lemma writePersona_error {persona : Persona} (h : writePersona persona = .error error) :
    OfDatabase error := by
  simp only [writePersona, writeModel, bind_eq_error] at h
  rcases h with h | ⟨_, -, h | ⟨_, -, h | ⟨_, -, h | ⟨_, -, (h | ⟨_, -, h⟩) | ⟨_, -, h⟩⟩⟩⟩⟩
  · exact text_error h
  · exact text_error h
  · exact text_error h
  · exact elements_error (fun _ _ => jsonString_error) h
  · exact jsonString_error h
  · cases h
  · cases h

/-- A version that was checked and has a place in its column is checked again. -/
lemma version_of_integer {version : Float} {n : ℤ} {hint32 : IsInt32 n}
    (h : integer version = .ok ⟨n, hint32⟩) (hone : ¬ version < 1) :
    isInteger (ofInt n) ∧ ¬ ofInt n < 1 := by
  have hn : integer? version = some n := by
    rw [integer] at h
    split at h
    · cases h
    · rename_i m hm
      split_ifs at h
      cases h
      exact hm
  have hpos := pos_of_integer? hn hone
  refine ⟨hint32.isInteger_ofInt, ?_⟩
  rw [← ofInt_one, ofInt_lt_ofInt_iff hint32.natAbs_lt (by decide)]
  exact not_lt.mpr hpos

variable {rt : Runtime}

/-- The personas that `create` has made. -/
abbrev MadePersona (rt : Runtime) (persona : Persona) : Prop :=
  ∃ props, Persona.create rt props = .ok persona

lemma rereadable_personas : Rereadable (personas rt) (MadePersona rt) where
  write_error := writePersona_error
  reread := by
    rintro persona key columns ⟨props, hcreate⟩ hrow
    obtain ⟨hid, hcolumns, hint32, hn⟩ := rowOf_eq_ok_iff.mp hrow
    obtain ⟨hmodel, -, -, -, -, -, hmodel_eq, -⟩ := Persona.create_ok hcreate
    rw [← hmodel_eq] at hmodel
    simp only [personas, writePersona, bind_eq_ok] at hcolumns
    obtain ⟨name, hname, role, hrole, prompt, hprompt, tools, -, model, hwrite, h⟩ := hcolumns
    cases h
    obtain ⟨hinteger, hone⟩ := version_of_integer hn (Persona.create_version hcreate)
    obtain ⟨persona', hpersona⟩ := @Persona.exists_create rt
      ⟨key.1, name, role, prompt, tools, model.counted, some (ofInt key.2)⟩
      (visible_of_text hid persona.personaId_visible) (visible_of_text hname persona.name_visible)
      (visible_of_text hrole persona.role_visible)
        (visible_of_text hprompt persona.systemPrompt_visible)
      (validateModel_filled hwrite hmodel (by decide +kernel)) hinteger hone
    exact ⟨_, bind_eq_ok.mpr ⟨persona', hpersona, rfl⟩⟩

/-! ### Policies -/

lemma map_error {α β : Type} {x : Except Thrown α} {f : α → β} (h : x.map f = .error error) :
    x = .error error := by
  cases x with
  | error =>
    cases h
    rfl
  | ok => cases h

mutual

lemma json_error : (v : Json) → json v = .error error → OfDatabase error
  | .null, h => by cases h
  | .bool _, h => by cases h
  | .num _, h => by cases h
  | .str _, h => jsonString_error (map_error h)
  | .arr vs, h => jsonElements_error vs (map_error h)
  | .obj fields, h => jsonFields_error fields (map_error h)

lemma jsonElements_error : (vs : List Json) → jsonElements vs = .error error → OfDatabase error
  | [], h => by cases h
  | v :: vs, h => by
    rw [jsonElements, bind_eq_error] at h
    rcases h with h | ⟨_, -, h⟩
    · exact json_error v h
    · rcases bind_eq_error.mp h with h | ⟨_, -, h⟩
      · exact jsonElements_error vs h
      · cases h

lemma jsonFields_error : (fields : List (JsString × Json)) → jsonFields fields = .error error →
    OfDatabase error
  | [], h => by cases h
  | (key, v) :: fields, h => by
    rw [jsonFields, bind_eq_error] at h
    rcases h with h | ⟨_, -, h⟩
    · exact jsonString_error h
    · rcases bind_eq_error.mp h with h | ⟨_, -, h⟩
      · exact json_error v h
      · rcases bind_eq_error.mp h with h | ⟨_, -, h⟩
        · exact jsonFields_error fields h
        · cases h

end

lemma writeAction_error {action : ActionDefinition} (h : writeAction action = .error error) :
    OfDatabase error := by
  simp only [writeAction, bind_eq_error] at h
  rcases h with h | ⟨_, -, h | ⟨_, -, h | ⟨_, -, h | ⟨_, -, h | ⟨_, -, h⟩⟩⟩⟩⟩
  · exact jsonString_error h
  · exact optional_error (fun v _ => json_error v) h
  · exact optional_error (fun _ _ => jsonString_error) h
  · exact optional_error (fun _ _ => elements_error fun _ _ => jsonString_error) h
  · exact optional_error (fun _ _ => jsonString_error) h
  · cases h

/-- The policies that `create` has made. -/
abbrev MadePolicy (rt : Runtime) (policy : PolicyDefinition) : Prop :=
  ∃ props, PolicyDefinition.create rt props = .ok policy

lemma rereadable_policies : Rereadable (policies rt) (MadePolicy rt) where
  write_error := elements_error fun _ _ => writeAction_error
  reread := by
    rintro policy key written ⟨props, hcreate⟩ hrow
    obtain ⟨hid, hwritten, hint32, hn⟩ := rowOf_eq_ok_iff.mp hrow
    obtain ⟨hinteger, hone⟩ := version_of_integer hn (PolicyDefinition.create_version hcreate)
    have hnames : (written.map ActionDefinition.name).Nodup :=
      names_of_write hwritten ▸ policy.names_nodup
    have hpolicy := PolicyDefinition.create_of_valid rt ⟨key.1, written, some (ofInt key.2)⟩
      (visible_of_text hid policy.policyId_visible) hnames hinteger hone
    exact ⟨_, bind_eq_ok.mpr ⟨_, hpolicy, rfl⟩⟩

/-- What is read of a persona or a policy under an id and a version is what was saved there first,
and nothing is saved there a second time; what was saved can always be read. -/
theorem versions_pinned (rt : Runtime) :
    (∀ (ls : List (CallLabel (MadePersona rt) PersonaRecord)) t,
      Trace (calls (personas rt)) ∅ ls t → Always (Answered (personas rt)) ls) ∧
    ∀ (ls : List (CallLabel (MadePolicy rt) PolicyDefinitionProps)) t,
      Trace (calls (policies rt)) ∅ ls t → Always (Answered (policies rt)) ls :=
  ⟨fun _ _ => always_answered rereadable_personas, fun _ _ => always_answered rereadable_policies⟩

/-! A persona that is saved twice and read. -/

lemma made_analyst : MadePersona .ascii Persona.analyst := by
  obtain ⟨persona, hcreate⟩ := @Persona.exists_create .ascii Persona.analyst.toJSON
    Persona.analyst.personaId_visible Persona.analyst.name_visible Persona.analyst.role_visible
    Persona.analyst.systemPrompt_visible
    (Persona.validateModel_ok_iff.mpr
      ⟨show ¬ JsString.IsBlank "m" by decide, by rintro _ ⟨⟩, by rintro _ ⟨⟩⟩)
    isInteger_one (show ¬ (1 : Float) < 1 by decide +kernel)
  refine ⟨Persona.analyst.toJSON, hcreate.trans ?_⟩
  obtain ⟨_, _, _, _, -, _, rfl⟩ := Persona.create_checked hcreate
  rfl

def analystCalls : List (ℕ × ℤ × VersionCall (MadePersona .ascii)) :=
  [(0, 0, .findLatest "p"), (0, 1, .saveVersion Persona.analyst made_analyst),
    (1, 2, .saveVersion Persona.analyst made_analyst), (1, 3, .findVersion "p" 1),
    (0, 4, .findVersion "p" 2), (0, 5, .findLatest "p")]

/-- The calls that are answered. -/
def areAnswered (ls : List (CallLabel (MadePersona .ascii) PersonaRecord)) : List Bool :=
  ls.map fun l => l.ans.isOk

theorem versions_pinned_analyst : ∃ ls t,
    Trace (calls (personas .ascii)) ∅ ls t ∧
      areAnswered ls = [true, true, false, true, true, true] ∧
      Always (Answered (personas .ascii)) ls := by
  have hrun : (carryOut (fun now call t => some (perform (personas .ascii) now call t)) analystCalls
      ∅).map (fun (ls, _) => areAnswered ls) = some [true, true, false, true, true, true] := by
    decide +kernel
  obtain ⟨⟨ls, t⟩, hrun, hanswered⟩ := Option.map_eq_some_iff.mp hrun
  have trace : Trace (calls (personas .ascii)) ∅ ls t :=
    Trace.of_carryOut (fun _ now _ _ _ _ h => .inl ⟨now, Option.some.inj h⟩) hrun
  exact ⟨ls, t, trace, hanswered, (versions_pinned .ascii).1 ls t trace⟩

end RoundTrip

end WorkspaceOs
