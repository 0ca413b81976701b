import WorkspaceOs.Effect.Optimistic
import WorkspaceOs.Adapters.VersionRepository

/-!
# Version histories

Writers read the latest version of an id, revise it once and save the revision. Of what they do with
one id, the table keeps the history of optimistic writers.
-/

namespace WorkspaceOs

open Js Effect Relational Optimistic

variable {E C : Type}

/-- The number and the columns of a version. -/
structure Version (C : Type) where
  number : ℕ
  content : C

def VersionRow.toVersion (row : VersionRow C) : Version C := ⟨row.version.toNat, row.content⟩

/-- What a writer makes where there is no version, and of the latest one. -/
structure Writer (E : Type) where
  id : JsString
  first : Except Thrown E
  revise : E → Except Thrown E

namespace Writer

/-- Read the latest version, revise it, and save the revision. -/
def program (V : Versioned E C) (w : Writer E) : VersionProg C Unit := do
  let latest ← V.findLatest w.id
  let next ← .ofExcept (latest.elim w.first w.revise)
  V.saveVersion next

/-- What the writer makes of the row that it has read. -/
def make (V : Versioned E C) (w : Writer E) : Option (VersionRow C) → Except Thrown E
  | none => w.first
  | some row => V.toEntity row >>= w.revise

/-- What the writer makes of a version of this id. -/
def next (V : Versioned E C) (w : Writer E) (id : JsString) : Option (Version C) → Except Thrown E
  | none => w.first
  | some version => V.rehydrate id (ofInt version.number) version.content >>= w.revise

end Writer

section Kept

/-! What is read of a version stands in the relation `keeps` to the entity that was saved. -/

variable (V : Versioned E C) (keeps : E → E → Prop)

/-- The version was written of the entity, and what is read of it is the entity as it is kept. -/
def Carries (id : JsString) (version : Version C) (e : E) : Prop :=
  V.version e = ofInt version.number ∧ V.write e = .ok version.content ∧
    ∃ e', V.rehydrate id (ofInt version.number) version.content = .ok e' ∧ keeps e e'

/-- An entity that is saved can be read again, and is kept. -/
def Readable (e : E) : Prop :=
  ∀ id version, Column.text (V.id e) = .ok id → V.write e = .ok version.content →
    0 < version.number → version.number < 2 ^ 53 → V.version e = ofInt version.number →
      Carries V keeps id version e

/-- What is made of a row has its id and version. -/
def Versioned.Lawful : Prop :=
  ∀ id version content e, V.rehydrate id version content = .ok e →
    V.id e = id ∧ V.version e = version

/-- A writer starts with version one, and a revision has the same id and the next version. -/
structure Writer.Lawful (w : Writer E) : Prop where
  first : ∀ e, w.first = .ok e → V.id e = w.id ∧ V.version e = 1 ∧ Readable V keeps e
  revise : ∀ base e, w.revise base = .ok e →
    V.id e = V.id base ∧ V.version e = V.version base + 1 ∧ Readable V keeps e

/-- One of the writers made this version of that one, and the version carries what it made. -/
def RevisedBy (writers : List (Writer E)) (id : JsString) (latest : Option (Version C))
    (version : Version C) : Prop :=
  version.number = number Version.number latest + 1 ∧
    ∃ w ∈ writers, Column.text w.id = .ok id ∧
      ∃ e, w.next V id latest = .ok e ∧ Carries V keeps id version e

end Kept

variable {V : Versioned E C} {keeps : E → E → Prop} {writers : List (Writer E)}
    {w : Writer E} {e : E}

/-- A revision of a version that a writer has read. -/
lemma Writer.Lawful.next_ok (hw : w.Lawful V keeps) (hV : V.Lawful) {id : JsString}
    {latest : Option (Version C)} (hid : Column.text w.id = .ok id)
    (hnumber : ∀ version, latest = some version → 0 < version.number ∧ version.number + 1 < 2 ^ 53)
    (h : w.next V id latest = .ok e) :
    Column.text (V.id e) = .ok id ∧
      V.version e = ofInt (number Version.number latest + 1 : ℕ) ∧ Readable V keeps e := by
  cases latest with
  | none =>
    obtain ⟨hfirst, hversion, hreadable⟩ := hw.first e h
    exact ⟨hfirst ▸ hid, hversion.trans ofInt_one.symm, hreadable⟩
  | some version =>
    obtain ⟨base, hbase, hrevise⟩ := bind_eq_ok.mp h
    obtain ⟨hbaseid, hbaseversion⟩ := hV _ _ _ _ hbase
    obtain ⟨hsame, hversion, hreadable⟩ := hw.revise base e hrevise
    obtain ⟨hpos, hlt⟩ := hnumber version rfl
    -- what a column holds is sent as it is
    refine ⟨?_, ?_, hreadable⟩
    · rw [hsame, hbaseid]
      exact Column.text_eq_ok_iff.mpr (Column.isText_of_text hid)
    rw [hversion, hbaseversion, ofInt_add_one hpos hlt]
    rfl

/-! ### The accesses to one id -/

/-- What a statement did with the versions of an id. -/
def turn? (id : JsString) : VersionLabel C → Option (Access (Version C))
  | ⟨i, .latest id', .ok latest⟩ =>
    if id' = id then some (.read i (latest.map VersionRow.toVersion)) else none
  | ⟨i, .insert id' version content, .ok inserted⟩ =>
    if id' = id then
      some (.save i ⟨((integer? version).getD 0).toNat, content⟩ (!inserted.isEmpty))
    else none
  | _ => none

def turns (id : JsString) (ls : List (VersionLabel C)) : List (Access (Version C)) :=
  ls.filterMap (turn? id)

variable {ls : List (VersionLabel C)} {l : VersionLabel C} {id : JsString} {i n : ℕ}

lemma turns_concat : turns id (ls ++ [l]) = turns id ls ++ (turn? id l).toList :=
  filterMap_concat ..

/-- An access to the id is a read of it or an insert. -/
lemma turn?_cases {access : Access (Version C)} (h : turn? id l = some access) :
    (∃ latest, l = ⟨l.thread, .latest id, .ok latest⟩ ∧
      access = .read l.thread (latest.map VersionRow.toVersion)) ∨
    ∃ version content inserted, l = ⟨l.thread, .insert id version content, .ok inserted⟩ ∧
      access = .save l.thread ⟨((integer? version).getD 0).toNat, content⟩ (!inserted.isEmpty) := by
  obtain ⟨j, op, a⟩ := l
  cases op with
  | latest id' =>
    cases a with
    | error => cases h
    | ok latest =>
      simp only [turn?] at h
      split_ifs at h with hid
      subst hid
      cases h
      exact .inl ⟨latest, rfl, rfl⟩
  | insert id' version content =>
    cases a with
    | error => cases h
    | ok inserted =>
      simp only [turn?] at h
      split_ifs at h with hid
      subst hid
      cases h
      exact .inr ⟨version, content, inserted, rfl, rfl⟩

lemma read_mem_turns {latest : Option (Version C)} : .read i latest ∈ turns id ls ↔
    ∃ latest', ⟨i, .latest id, .ok latest'⟩ ∈ ls ∧ latest'.map VersionRow.toVersion = latest := by
  rw [turns, List.mem_filterMap]
  constructor
  · rintro ⟨l, hl, haccess⟩
    rcases turn?_cases haccess with ⟨latest', heq, hread⟩ | ⟨_, _, _, -, hsave⟩
    · cases hread
      exact ⟨latest', heq ▸ hl, rfl⟩
    · cases hsave
  · rintro ⟨latest', hl, rfl⟩
    exact ⟨_, hl, if_pos rfl⟩

/-- What a writer has read, and what it is going to save. -/
structure Saving (V : Versioned E C) (w : Writer E) (i : ℕ) (ls : List (VersionLabel C))
    (id : JsString) (latest : Option (VersionRow C)) (e : E) : Prop where
  sent : Column.text w.id = .ok id
  read : ⟨i, .latest id, .ok latest⟩ ∈ ls
  once : ∀ l ∈ ls, l.thread = i → l = ⟨i, .latest id, .ok latest⟩
  next : w.next V id (latest.map VersionRow.toVersion) = .ok e
  positive : ∀ row, latest = some row → 1 ≤ row.version

/-- A writer has done nothing, or it has read and is going to save, or it has come to its end. -/
inductive Phase (V : Versioned E C) (w : Writer E) (i : ℕ) (ls : List (VersionLabel C)) :
    VersionProg C Unit → Prop where
  | start (fresh : ∀ l ∈ ls, l.thread ≠ i) : Phase V w i ls (w.program V)
  | saving {id latest e} (saving : Saving V w i ls id latest e) : Phase V w i ls (V.saveVersion e)
  | ended {r} : Phase V w i ls (.ofExcept r)

variable {p : VersionProg C Unit} {latest : Option (VersionRow C)}

/-- The steps of the others change nothing of that. -/
lemma Phase.other (h : Phase V w i ls p) (hl : l.thread ≠ i) : Phase V w i (ls ++ [l]) p := by
  cases h with
  | start fresh =>
    refine .start fun l' hl' => ?_
    rcases List.mem_append.mp hl' with hl' | hl'
    · exact fresh l' hl'
    · exact List.mem_singleton.mp hl' ▸ hl
  | saving saving =>
    refine .saving ⟨saving.sent, List.mem_append_left _ saving.read, fun l' hl' hthread => ?_,
      saving.next, saving.positive⟩
    rcases List.mem_append.mp hl' with hl' | hl'
    · exact saving.once l' hl' hthread
    · exact absurd (List.mem_singleton.mp hl' ▸ hthread) hl
  | ended => exact .ended

/-- A writer whose id can be sent reads, and goes on with what it makes of the row. -/
lemma Writer.program_eq (hid : Column.text w.id = .ok id) :
    w.program V = .call (VersionOp.latest id) fun a =>
      .ofExcept a >>= fun latest => .ofExcept (w.make V latest) >>= V.saveVersion := by
  rw [Writer.program, Versioned.findLatest, hid]
  simp only [Prog.ofExcept_ok, Prog.ret_bind, Prog.perform, Prog.call_bind, bind_assoc]
  congr 1
  funext a
  cases a with
  | error e => rfl
  | ok latest =>
    cases latest with
    | none => rfl
    | some row =>
      simp only [Prog.ofExcept_ok, Prog.ret_bind, Writer.make]
      cases V.toEntity row <;> rfl

lemma Writer.program_of_error {error : Thrown} (hid : Column.text w.id = .error error) :
    w.program V = .throw error := by
  rw [Writer.program, Versioned.findLatest, hid]
  rfl

lemma Writer.make_eq_next {latest : Option (VersionRow C)}
    (h : ∀ row, latest = some row → row.id = id ∧ 1 ≤ row.version) :
    w.make V latest = w.next V id (latest.map VersionRow.toVersion) := by
  cases latest with
  | none => rfl
  | some row =>
    obtain ⟨hid, hpos⟩ := h row rfl
    have hversion : ((row.version.toNat : ℕ) : ℤ) = row.version := Int.toNat_of_nonneg (by omega)
    simp only [Writer.make, Writer.next, Versioned.toEntity, Option.map_some, VersionRow.toVersion,
      hid, hversion]

/-- What is saved is inserted, unless its texts or its columns are refused. -/
lemma Versioned.saveVersion_cases : (∃ error, V.saveVersion e = .throw error) ∨
    ∃ id content, Column.text (V.id e) = .ok id ∧ V.write e = .ok content ∧
      V.saveVersion e = .call (VersionOp.insert id (V.version e) content) fun a =>
        .ofExcept a >>= fun inserted : List ℤ =>
          if inserted.length = 0 then throw (V.conflict (V.id e) (V.version e)) else pure () := by
  cases hid : Column.text (V.id e) with
  | error error =>
    refine .inl ⟨error, ?_⟩
    rw [Versioned.saveVersion, hid]
    rfl
  | ok id =>
    cases hcontent : V.write e with
    | error error =>
      refine .inl ⟨error, ?_⟩
      rw [Versioned.saveVersion, hid, hcontent]
      rfl
    | ok content =>
      refine .inr ⟨id, content, rfl, rfl, ?_⟩
      rw [Versioned.saveVersion, hid, hcontent]
      rfl

/-! ### What holds in every state -/

/-- A table, and the writers that work on it. -/
abbrev Writing (C : Type) := Config (VersionOp C) (VersionAns C) Thrown Unit (VersionTable C)

open VersionTable

/-- The table holds what the accesses to each id have added, and every writer keeps to its
program. -/
structure Kept (V : Versioned E C) (keeps : E → E → Prop) (writers : List (Writer E))
    (ls : List (VersionLabel C)) (c : Writing C) : Prop where
  length : c.pool.length = writers.length
  phase : ∀ i w p, writers[i]? = some w → c.pool[i]? = some p → Phase V w i ls p
  once : ∀ i id latest id' latest', ⟨i, .latest id, .ok latest⟩ ∈ ls →
    ⟨i, .latest id', .ok latest'⟩ ∈ ls → latest = latest'
  lawful : ∀ id, Always (Lawful Version.number (RevisedBy V keeps writers id)) (turns id ls)
  history : ∀ id, (stored c.store id).map VersionRow.toVersion = versions (turns id ls)
  positive : ∀ row ∈ c.store.rows, 1 ≤ row.version
  readable : ∀ row ∈ c.store.rows, ∃ e, V.toEntity row = .ok e

/-- The ways a step of the writers can go. -/
inductive WriterMoved (V : Versioned E C) (writers : List (Writer E)) (ls : List (VersionLabel C))
    (c : Writing C) : VersionLabel C → Writing C → Prop where
  | read {i : ℕ} {w : Writer E} {id : JsString} (writer : writers[i]? = some w)
      (sent : Column.text w.id = .ok id) (fresh : ∀ l ∈ ls, l.thread ≠ i) :
      WriterMoved V writers ls c ⟨i, .latest id, .ok (VersionTable.latest c.store id)⟩
        ⟨c.store, c.pool.set i
          (.ofExcept (w.make V (VersionTable.latest c.store id)) >>= V.saveVersion)⟩
  | added {i : ℕ} {w : Writer E} {id : JsString} {latest : Option (VersionRow C)} {e : E}
      {row : VersionRow C} (writer : writers[i]? = some w)
      (saving : Saving V w i ls id latest e) (sent : Column.text (V.id e) = .ok row.id)
      (written : V.write e = .ok row.content)
      (number : integer? (V.version e) = some row.version) (free : c.store.find? row.key = none) :
      WriterMoved V writers ls c
        ⟨i, .insert row.id (V.version e) row.content, .ok [row.version]⟩
        ⟨c.store.set row, c.pool.set i (.ret ())⟩
  | conflict {i : ℕ} {w : Writer E} {id id' : JsString} {latest : Option (VersionRow C)} {e : E}
      {content : C} {n : ℤ} (writer : writers[i]? = some w) (saving : Saving V w i ls id latest e)
      (sent : Column.text (V.id e) = .ok id') (written : V.write e = .ok content)
      (number : integer? (V.version e) = some n) (int32 : IsInt32 n)
      (taken : (c.store.find? (id', n)).isSome) :
      WriterMoved V writers ls c ⟨i, .insert id' (V.version e) content, .ok []⟩
        ⟨c.store, c.pool.set i (.throw (V.conflict (V.id e) (V.version e)))⟩
  | failed {i : ℕ} {op : VersionOp C} {e : Thrown} :
      WriterMoved V writers ls c ⟨i, op, .error e⟩ ⟨c.store, c.pool.set i (.throw e)⟩

variable {c c' : Writing C}

/-- Each step of the writers went one of these ways. -/
lemma Kept.moved (h : Kept V keeps writers ls c) (step : Step VersionTable.exec c l c') :
    WriterMoved V writers ls c l c' := by
  cases step with
  | @perform i op k a t' awaits answered =>
    have hlt : i < writers.length := by
      rw [← h.length]
      exact (List.getElem?_eq_some_iff.mp awaits).1
    have hwriter : writers[i]? = some writers[i] := List.getElem?_eq_getElem hlt
    have hphase := h.phase i _ _ hwriter awaits
    have did := did_of_exec answered
    generalize hp : (.call op k : VersionProg C Unit) = p at hphase
    cases hphase with
    | start fresh =>
      cases hid : Column.text writers[i].id with
      | error error =>
        rw [Writer.program_of_error hid] at hp
        cases hp
      | ok id =>
        rw [Writer.program_eq hid] at hp
        cases hp
        cases did with
        | found => exact .read hwriter hid fresh
        | rejected => exact .failed
    | @saving id latest e saving =>
      rcases @Versioned.saveVersion_cases E C V e with
        ⟨error, hsave⟩ | ⟨id', content, hid, hcontent, hsave⟩
      · rw [hsave] at hp
        cases hp
      · rw [hsave] at hp
        cases hp
        cases did with
        | inserted id_eq content_eq number free =>
          subst id_eq content_eq
          exact .added hwriter saving hid hcontent number free
        | conflict number int32 taken =>
          exact .conflict hwriter saving hid hcontent number int32 taken
        | rejected => exact .failed
    | @ended r => cases r <;> cases hp

/-- A revision has the number after that of the version it was made of. -/
lemma RevisedBy.number_eq (latest : Option (Version C)) (version : Version C)
    (h : RevisedBy V keeps writers id latest version) :
    version.number = number Version.number latest + 1 := h.1

lemma Kept.toVersion_number (h : Kept V keeps writers ls c) {row : VersionRow C}
    (hrow : row ∈ c.store.rows) : (row.toVersion.number : ℤ) = row.version :=
  Int.toNat_of_nonneg (by have := h.positive row hrow; omega)

lemma Kept.numbered (h : Kept V keeps writers ls c) (id : JsString) :
    Numbered Version.number ((stored c.store id).map VersionRow.toVersion) := by
  rw [h.history]
  exact (sound_of_lawful RevisedBy.number_eq (h.lawful id)).1

lemma Kept.latest_eq (h : Kept V keeps writers ls c) (id : JsString) :
    VersionTable.latest c.store id = (stored c.store id).getLast? := by
  apply latest_eq_getLast?
  intro row last hrow hlast
  have hnumbered := h.numbered id
  have hlastnumber := hnumbered.number_getLast?
  rw [List.getLast?_map, hlast] at hlastnumber
  have htaken := (hnumbered.taken_iff (n := row.toVersion.number)).mp
    ⟨_, List.mem_map_of_mem hrow, rfl⟩
  have hle : row.toVersion.number ≤ last.toVersion.number := htaken.2.trans hlastnumber.ge
  rw [← h.toVersion_number (mem_stored.mp hrow).1,
    ← h.toVersion_number (mem_stored.mp (List.mem_of_getLast? hlast)).1]
  exact Int.ofNat_le.mpr hle

/-- A key is free when no version of the id has its number. -/
lemma Kept.free_iff (h : Kept V keeps writers ls c) {n : ℕ} : c.store.find? (id, (n : ℤ)) = none ↔
    ∀ v ∈ versions (turns id ls), v.number ≠ n := by
  rw [Table.find?_eq_none_iff, ← h.history]
  constructor
  · rintro hfree v hv rfl
    obtain ⟨row, hrow, rfl⟩ := List.mem_map.mp hv
    obtain ⟨hmem, rfl⟩ := mem_stored.mp hrow
    exact hfree row hmem (Prod.ext rfl (h.toVersion_number hmem).symm)
  · intro hfree row hrow hkey
    obtain ⟨hid, hversion⟩ := Prod.ext_iff.mp hkey
    refine hfree _ (List.mem_map_of_mem (mem_stored.mpr ⟨hrow, hid⟩)) ?_
    have := h.toVersion_number hrow
    exact Int.ofNat_inj.mp (this.trans hversion)

/-- A version that is stored is not near the end of the integers. -/
lemma Saving.lt_of_map (saving : Saving V w i ls id latest e) (version : Version C)
    (hversion : latest.map VersionRow.toVersion = some version) :
    0 < version.number ∧ version.number + 1 < 2 ^ 53 := by
  obtain ⟨row, hrow, rfl⟩ := Option.map_eq_some_iff.mp hversion
  have hpos := saving.positive row hrow
  have hint32 := row.version_int32.2
  simp only [VersionRow.toVersion]
  omega

lemma Saving.number_lt (saving : Saving V w i ls id latest e) :
    number Version.number (latest.map VersionRow.toVersion) + 1 < 2 ^ 53 := by
  cases hlatest : latest.map VersionRow.toVersion with
  | none =>
    show 0 + 1 < 2 ^ 53
    decide
  | some version => exact (saving.lt_of_map version hlatest).2

/-- What a writer that is saving tries to add. -/
lemma Saving.next_ok (hV : V.Lawful) (hw : w.Lawful V keeps)
    (saving : Saving V w i ls id latest e) :
    Column.text (V.id e) = .ok id ∧ Readable V keeps e ∧
      V.version e = ofInt (number Version.number (latest.map VersionRow.toVersion) + 1 : ℕ) ∧
      integer? (V.version e) =
        some ((number Version.number (latest.map VersionRow.toVersion) + 1 : ℕ) : ℤ) := by
  obtain ⟨hid, hversion, hreadable⟩ := hw.next_ok hV saving.sent saving.lt_of_map saving.next
  refine ⟨hid, hreadable, hversion, ?_⟩
  rw [hversion]
  apply integer?_ofInt
  rw [Int.natAbs_natCast]
  exact saving.number_lt

/-- What it adds carries what it has made. -/
lemma Saving.carries (hV : V.Lawful) (hw : w.Lawful V keeps) (saving : Saving V w i ls id latest e)
    {content : C} (hwrite : V.write e = .ok content) :
    Carries V keeps id
      ⟨number Version.number (latest.map VersionRow.toVersion) + 1, content⟩ e := by
  obtain ⟨hid, hreadable, hversion, -⟩ := saving.next_ok hV hw
  exact hreadable id _ hid hwrite (Nat.succ_pos _) saving.number_lt hversion

/-- Trying to add it is a lawful access. -/
lemma Kept.lawful_save (h : Kept V keeps writers ls c) (hV : V.Lawful) (hw : w.Lawful V keeps)
    (writer : writers[i]? = some w) (saving : Saving V w i ls id latest e) {content : C} {m : ℤ}
    (hwrite : V.write e = .ok content) (hm : integer? (V.version e) = some m) (saved : Bool)
    (hsaved : saved = true ↔ c.store.find? (id, m) = none) :
    Lawful Version.number (RevisedBy V keeps writers id) (turns id ls)
      (.save i ⟨m.toNat, content⟩ saved) := by
  obtain ⟨-, -, -, hinteger⟩ := saving.next_ok hV hw
  rw [hm] at hinteger
  cases Option.some.inj hinteger
  refine ⟨latest.map VersionRow.toVersion, read_mem_turns.mpr ⟨latest, saving.read, rfl⟩, ?_,
    ⟨rfl, w, List.mem_of_getElem? writer, saving.sent, e, saving.next, saving.carries hV hw hwrite⟩,
    ?_⟩
  · intro latest' hlatest'
    obtain ⟨row?, hread, rfl⟩ := read_mem_turns.mp hlatest'
    cases saving.once _ hread rfl
    rfl
  · rw [hsaved]
    exact h.free_iff

/-- One program of the pool moves on, the others stay where they are. -/
lemma Kept.phase_set (h : Kept V keeps writers ls c) {p' : VersionProg C Unit}
    (hp' : ∀ w, writers[l.thread]? = some w → Phase V w l.thread (ls ++ [l]) p') (j : ℕ)
    (w : Writer E) (p : VersionProg C Unit) (hw : writers[j]? = some w)
    (hp : (c.pool.set l.thread p')[j]? = some p) : Phase V w j (ls ++ [l]) p := by
  rw [List.getElem?_set] at hp
  split_ifs at hp with hj hlt
  · cases hp
    exact hj ▸ hp' w (hj ▸ hw)
  · exact (h.phase j w p hw hp).other hj

/-- A step that reads nothing. -/
lemma Kept.once_concat (h : Kept V keeps writers ls c)
    (hl : ∀ i id latest, l ≠ ⟨i, .latest id, .ok latest⟩) (i : ℕ) (id : JsString)
    (latest : Option (VersionRow C)) (id' : JsString) (latest' : Option (VersionRow C))
    (hread : ⟨i, .latest id, .ok latest⟩ ∈ ls ++ [l])
    (hread' : ⟨i, .latest id', .ok latest'⟩ ∈ ls ++ [l]) : latest = latest' := by
  rcases List.mem_append.mp hread with hread | hread
  · rcases List.mem_append.mp hread' with hread' | hread'
    · exact h.once i id latest id' latest' hread hread'
    · exact absurd (List.mem_singleton.mp hread').symm (hl i id' latest')
  · exact absurd (List.mem_singleton.mp hread).symm (hl i id latest)

/-- A step that leaves the table as it is. -/
lemma Kept.unchanged (h : Kept V keeps writers ls c) {p' : VersionProg C Unit}
    (hp' : ∀ w, writers[l.thread]? = some w → Phase V w l.thread (ls ++ [l]) p')
    (honce : ∀ i id latest id' latest', ⟨i, .latest id, .ok latest⟩ ∈ ls ++ [l] →
      ⟨i, .latest id', .ok latest'⟩ ∈ ls ++ [l] → latest = latest')
    (hlawful : ∀ id access, turn? id l = some access →
      Lawful Version.number (RevisedBy V keeps writers id) (turns id ls) access)
    (hsaved : ∀ id access, turn? id l = some access → access.saved? = none) :
    Kept V keeps writers (ls ++ [l]) ⟨c.store, c.pool.set l.thread p'⟩ := by
  refine ⟨by simpa using h.length, h.phase_set hp', honce, fun id => ?_, fun id => ?_, h.positive,
    h.readable⟩
  · rw [turns_concat]
    cases haccess : turn? id l with
    | none => simpa using h.lawful id
    | some access => exact Always.concat_iff.mpr ⟨h.lawful id, hlawful id access haccess⟩
  · rw [turns_concat, versions_append, h.history]
    cases haccess : turn? id l with
    | none => exact (List.append_nil _).symm
    | some access => simp [versions, hsaved id access haccess]

lemma turn?_error {op : VersionOp C} {e : Thrown} : turn? id ⟨i, op, .error e⟩ = none := by
  cases op <;> rfl

lemma turn?_insert {id' : JsString} {version : Float} {content : C} {inserted : List ℤ} {m : ℤ}
    (hm : integer? version = some m) :
    turn? id ⟨i, .insert id' version content, .ok inserted⟩ =
      if id' = id then some (.save i ⟨m.toNat, content⟩ (!inserted.isEmpty)) else none := by
  simp only [turn?, hm, Option.getD_some]

/-- A read keeps all of that. -/
lemma Kept.step_read (h : Kept V keeps writers ls c) (writer : writers[i]? = some w)
    (sent : Column.text w.id = .ok id) (fresh : ∀ l ∈ ls, l.thread ≠ i) :
    Kept V keeps writers (ls ++ [⟨i, .latest id, .ok (VersionTable.latest c.store id)⟩])
      ⟨c.store, c.pool.set i
        (.ofExcept (w.make V (VersionTable.latest c.store id)) >>= V.saveVersion)⟩ := by
  have hrow : ∀ row, VersionTable.latest c.store id = some row →
      row.id = id ∧ 1 ≤ row.version := by
    intro row hrow
    obtain ⟨hmem, hid⟩ := mem_stored.mp (List.mem_of_getLast? (h.latest_eq id ▸ hrow))
    exact ⟨hid, h.positive row hmem⟩
  have haccess : ∀ id' access,
      turn? id' ⟨i, .latest id, .ok (VersionTable.latest c.store id)⟩ = some access →
      id = id' ∧ access =
        .read i ((VersionTable.latest c.store id).map VersionRow.toVersion) := by
    intro id' access haccess
    simp only [turn?] at haccess
    split_ifs at haccess with hid
    exact ⟨hid, (Option.some.inj haccess).symm⟩
  apply h.unchanged
  · intro w' hw'
    cases writer.symm.trans hw'
    cases hmake : w.make V (VersionTable.latest c.store id) with
    | error e => exact .ended (r := .error e)
    | ok e =>
      refine .saving ⟨sent, List.mem_append_right _ (List.mem_singleton_self _),
        fun l hl hthread => ?_, Writer.make_eq_next hrow ▸ hmake, fun row h => (hrow row h).2⟩
      rcases List.mem_append.mp hl with hl | hl
      · exact absurd hthread (fresh l hl)
      · exact List.mem_singleton.mp hl
  · intro j id latest id' latest' hread hread'
    rcases List.mem_append.mp hread with hread | hread <;>
      rcases List.mem_append.mp hread' with hread' | hread'
    · exact h.once j id latest id' latest' hread hread'
    · cases List.mem_singleton.mp hread'
      exact absurd rfl (fresh _ hread)
    · cases List.mem_singleton.mp hread
      exact absurd rfl (fresh _ hread')
    · cases List.mem_singleton.mp hread
      cases List.mem_singleton.mp hread'
      rfl
  · intro id access h'
    obtain ⟨rfl, rfl⟩ := haccess id access h'
    show _ = _
    rw [← h.history, List.getLast?_map, h.latest_eq]
  · intro id access h'
    obtain ⟨rfl, rfl⟩ := haccess id access h'
    rfl

/-- An insert that adds a version keeps all of that. -/
lemma Kept.step_added (hV : V.Lawful) (hw : w.Lawful V keeps) (h : Kept V keeps writers ls c)
    (writer : writers[i]? = some w) {row : VersionRow C}
    (saving : Saving V w i ls row.id latest e) (hwrite : V.write e = .ok row.content)
    (hnumber : integer? (V.version e) = some row.version) (free : c.store.find? row.key = none) :
    Kept V keeps writers (ls ++ [⟨i, .insert row.id (V.version e) row.content, .ok [row.version]⟩])
      ⟨c.store.set row, c.pool.set i (.ret ())⟩ := by
  obtain ⟨-, -, -, hinteger⟩ := saving.next_ok hV hw
  have hnext : row.version = (number Version.number (latest.map VersionRow.toVersion) + 1 : ℕ) :=
    Option.some.inj (hnumber.symm.trans hinteger)
  have hlawful := h.lawful_save hV hw writer saving hwrite hnumber true
    ⟨fun _ => free, fun _ => rfl⟩
  have hrows : (c.store.set row).rows = c.store.rows ++ [row] :=
    Table.rows_set_of_find?_eq_none free
  constructor
  case length => simpa using h.length
  case phase =>
    apply h.phase_set (l := ⟨i, .insert row.id (V.version e) row.content, .ok [row.version]⟩)
    exact fun _ _ => .ended (r := .ok ())
  case once => exact h.once_concat fun _ _ _ => by simp
  case lawful =>
    intro id
    rw [turns_concat, turn?_insert hnumber]
    split_ifs with hsame
    · exact Always.concat_iff.mpr ⟨h.lawful id, hsame ▸ hlawful⟩
    · simpa using h.lawful id
  case history =>
    intro id
    rw [turns_concat, turn?_insert hnumber, versions_append, stored_set free, List.map_append,
      h.history]
    split_ifs with hsame <;> rfl
  case positive =>
    intro r hr
    rcases List.mem_append.mp (hrows ▸ hr) with hr | hr
    · exact h.positive r hr
    · rw [List.mem_singleton.mp hr, hnext]
      omega
  case readable =>
    intro r hr
    rcases List.mem_append.mp (hrows ▸ hr) with hr | hr
    · exact h.readable r hr
    · obtain ⟨-, -, e', he', -⟩ := saving.carries hV hw hwrite
      rw [List.mem_singleton.mp hr, Versioned.toEntity, hnext]
      exact ⟨e', he'⟩

/-- Every step of the writers keeps all of that. -/
lemma Kept.step (hV : V.Lawful) (hw : ∀ w ∈ writers, w.Lawful V keeps)
    (h : Kept V keeps writers ls c)
    (moved : WriterMoved V writers ls c l c') : Kept V keeps writers (ls ++ [l]) c' := by
  cases moved with
  | read writer sent fresh => exact h.step_read writer sent fresh
  | @added i w id latest e row writer saving sent written number free =>
    have hlawfulw := hw w (List.mem_of_getElem? writer)
    cases Except.ok.inj ((saving.next_ok hV hlawfulw).1.symm.trans sent)
    exact h.step_added hV hlawfulw writer saving written number free
  | @conflict i w id id' latest e content m writer saving sent written number int32 taken =>
    have hlawfulw := hw w (List.mem_of_getElem? writer)
    cases Except.ok.inj ((saving.next_ok hV hlawfulw).1.symm.trans sent)
    have hlawful := h.lawful_save hV hlawfulw writer saving written number false
      (by simpa [Option.isSome_iff_ne_none] using taken)
    refine h.unchanged (fun _ _ => .ended (r := .error _))
      (h.once_concat fun _ _ _ => by simp) ?_ ?_
    · intro id' access haccess
      rw [turn?_insert number] at haccess
      split_ifs at haccess with hsame
      cases haccess
      exact hsame ▸ hlawful
    · intro id' access haccess
      rw [turn?_insert number] at haccess
      split_ifs at haccess
      cases haccess
      rfl
  | @failed i op e =>
    refine h.unchanged (fun _ _ => .ended (r := .error e)) (h.once_concat ?_) ?_ ?_
    · intro j id latest hl
      cases hl
    · intro id access haccess
      rw [turn?_error] at haccess
      cases haccess
    · intro id access haccess
      rw [turn?_error] at haccess
      cases haccess

end WorkspaceOs
