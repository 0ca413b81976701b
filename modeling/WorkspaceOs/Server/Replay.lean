import WorkspaceOs.Server.BoardRequest

/-!
# What the records say about an item

The records of an item can be replayed over the item as it was published. A change that is recorded
takes the replay along; what was recorded once is never taken back.
-/

namespace WorkspaceOs

open Js Effect Relational

/-- The item as it was published. -/
def WorkItem.asPublished (item : WorkItem) : WorkItem :=
  { item with state := .opened, assigneeMemberId := none }

/-- The record is about the item. -/
def ActivityRow.isAbout (record : ActivityRow) (id : JsString) : Bool :=
  record.resourceType = "work_item" ∧ record.resourceId = id

namespace Db

variable (rt : Runtime) (db : Db)

/-- The actor of a record, as a member. -/
def actorOf (record : ActivityRow) : Except Thrown Member :=
  match db.members.find? record.actorMemberId with
  | some row => toMember rt row
  | none => .error (.unknownActor record.actorMemberId)

/-- Apply the action of a record to an item, with the actor of the record as the member. -/
def applyRecord (item : WorkItem) (record : ActivityRow) : Except Thrown WorkItem := do
  applyAction record.action (← db.actorOf rt record) item

/-- Apply records in order. -/
def replay (item : WorkItem) (records : List ActivityRow) : Except Thrown WorkItem :=
  records.foldlM (db.applyRecord rt) item

/-- The item of a row, as its records tell it. -/
def reconstruct (row : WorkItemRow) : Except Thrown WorkItem := do
  db.replay rt (← toWorkItem rt row).asPublished (db.listByResource "work_item" row.id)

/-- The replay meets no illegal transition, and ends in the state and the assignee of the row. -/
def Reconstructs (row : WorkItemRow) : Prop :=
  ∃ item, db.reconstruct rt row = .ok item ∧ item.state = row.state ∧
    item.assigneeMemberId = row.assigneeMemberId

/-- The records of an item, in the order of their inserts. -/
def recordsOf (id : JsString) : List ActivityRow := db.activities.filter (·.isAbout id)

/-- The records of every item lead to what is stored, and there are records of items only. -/
structure LogSound : Prop where
  replays : ∀ row ∈ db.workItems.rows, ∃ item, StandsFor item row ∧
    db.replay rt item.asPublished (db.recordsOf row.id) = .ok item
  onBoard : ∀ r ∈ db.activities, r.resourceType = "work_item" →
    (db.workItems.find? r.resourceId).isSome

/-- The records of some item cannot be replayed. -/
def LogBroken : Prop :=
  ∃ row ∈ db.workItems.rows, ∃ item, StandsFor item row ∧
    ∃ e, db.replay rt item.asPublished (db.recordsOf row.id) = .error e

/-- Records were added, and no item has gone or is published anew. -/
structure Grows (db db' : Db) : Prop where
  members : db'.members = db.members
  activities : ∃ records, db'.activities = db.activities ++ records
  items : ∀ row ∈ db.workItems.rows, ∀ item, StandsFor item row →
    ∃ row' ∈ db'.workItems.rows, row'.id = row.id ∧
      ∃ item', StandsFor item' row' ∧ item'.asPublished = item.asPublished

variable {rt db} {db' : Db} {row : WorkItemRow} {item next : WorkItem} {member : Member}
  {action : JsString}

/-! ### Replaying -/

/-- Where no two records have the same time or are out of order, the order of the query is that of
the inserts. -/
lemma listByResource_of_strict
    (h : db.activities.Pairwise fun r r' => r.occurredAt < r'.occurredAt) (id : JsString) :
    db.listByResource "work_item" id = db.recordsOf id := by
  refine List.Pairwise.insertionSort_eq ?_
  exact (h.filter _).imp fun hlt => hlt.le

lemma replay_append (records records' : List ActivityRow) :
    db.replay rt item (records ++ records') =
      db.replay rt item records >>= fun item => db.replay rt item records' :=
  List.foldlM_append

lemma replay_singleton (record : ActivityRow) :
    db.replay rt item [record] = db.applyRecord rt item record :=
  bind_pure _

/-- A replay looks up nothing but members. -/
lemma replay_congr (h : db'.members = db.members) : db'.replay rt = db.replay rt := by
  funext item records
  simp only [replay]
  congr 1
  funext item record
  simp only [applyRecord, actorOf, h]

lemma recordsOf_append {records : List ActivityRow}
    (h : db'.activities = db.activities ++ records) (id : JsString) :
    db'.recordsOf id = db.recordsOf id ++ records.filter (·.isAbout id) := by
  rw [recordsOf, h, List.filter_append, recordsOf]

lemma applyRecord_of_records {record : ActivityRow} (hmember : db.IsMember rt member)
    (h : Records member action row record) :
    db.applyRecord rt item record = applyAction action member item := by
  obtain ⟨found, hfound, hread⟩ := hmember
  simp only [applyRecord, actorOf, h.actor, hfound, hread, h.action]
  rfl

lemma applyAction_asPublished (h : applyAction action member item = .ok next) :
    next.asPublished = item.asPublished := by
  simp only [applyAction] at h
  split_ifs at h
  · obtain ⟨-, rfl⟩ := WorkItem.claimBy_eq_ok_iff.mp h
    rfl
  · obtain ⟨-, rfl⟩ := WorkItem.start_eq_ok_iff.mp h
    rfl
  · obtain ⟨-, rfl⟩ := WorkItem.complete_eq_ok_iff.mp h
    rfl
  · cases h
    rfl

/-- A claim cannot be followed by a completion. -/
lemma replay_claim_complete {records : List ActivityRow} {first second : ActivityRow}
    (hfirst : first.action = "work.claim") (hsecond : second.action = "work.complete") :
    ∃ e, db.replay rt item (records ++ [first, second]) = .error e := by
  cases h : db.replay rt item (records ++ [first, second]) with
  | error e => exact ⟨e, rfl⟩
  | ok last =>
    rw [replay_append] at h
    obtain ⟨before, -, h⟩ := bind_eq_ok.mp h
    obtain ⟨claimed, hclaim, h⟩ := bind_eq_ok.mp h
    obtain ⟨done, hcomplete, -⟩ := bind_eq_ok.mp h
    obtain ⟨claimer, -, hclaim⟩ := bind_eq_ok.mp hclaim
    obtain ⟨completer, -, hcomplete⟩ := bind_eq_ok.mp hcomplete
    rw [hfirst, applyAction_claim] at hclaim
    rw [hsecond, applyAction_complete] at hcomplete
    obtain ⟨-, rfl⟩ := WorkItem.claimBy_eq_ok_iff.mp hclaim
    cases (WorkItem.complete_eq_ok_iff.mp hcomplete).1

/-! ### Growth -/

lemma Grows.refl (db : Db) : Grows db db :=
  ⟨rfl, ⟨[], (List.append_nil _).symm⟩, fun row hrow item hitem =>
    ⟨row, hrow, rfl, item, hitem, rfl⟩⟩

lemma Grows.trans {db'' : Db} (h : Grows db db') (h' : Grows db' db'') : Grows db db'' := by
  refine ⟨h'.members.trans h.members, ?_, fun row hrow item hitem => ?_⟩
  · obtain ⟨records, hrecords⟩ := h.activities
    obtain ⟨records', hrecords'⟩ := h'.activities
    exact ⟨records ++ records', by rw [hrecords', hrecords, List.append_assoc]⟩
  · obtain ⟨row', hrow', hid, item', hitem', hpublished⟩ := h.items row hrow item hitem
    obtain ⟨row'', hrow'', hid', item'', hitem'', hpublished'⟩ :=
      h'.items row' hrow' item' hitem'
    exact ⟨row'', hrow'', hid'.trans hid, item'', hitem'', hpublished'.trans hpublished⟩

/-- To write a row is to grow, where it stands for the same published item as the row before. -/
lemma Grows.of_set {records : List ActivityRow} (hmembers : db'.members = db.members)
    (hactivities : db'.activities = db.activities ++ records)
    (hset : db'.workItems = db.workItems.set row)
    (hkeeps : ∀ old, db.workItems.find? row.id = some old → ∀ item, StandsFor item old →
      ∃ item', StandsFor item' row ∧ item'.asPublished = item.asPublished) : Grows db db' := by
  refine ⟨hmembers, ⟨records, hactivities⟩, fun old hold item hitem => ?_⟩
  rw [hset]
  by_cases hid : old.id = row.id
  · have hfind : db.workItems.find? row.id = some old := hid ▸ Table.find?_key hold
    obtain ⟨item', hitem', hpublished⟩ := hkeeps old hfind item hitem
    exact ⟨row, Table.mem_set.mpr (.inl rfl), hid.symm, item', hitem', hpublished⟩
  · exact ⟨old, Table.mem_set.mpr (.inr ⟨hold, hid⟩), rfl, item, hitem, rfl⟩

/-- What the records say is not taken back. -/
lemma LogBroken.grows (hbroken : db.LogBroken rt) (h : Grows db db') : db'.LogBroken rt := by
  obtain ⟨row, hrow, item, hitem, e, herror⟩ := hbroken
  obtain ⟨records, hrecords⟩ := h.activities
  obtain ⟨row', hrow', hid, item', hitem', hpublished⟩ := h.items row hrow item hitem
  refine ⟨row', hrow', item', hitem', e, ?_⟩
  rw [hid, recordsOf_append hrecords, replay_append, replay_congr h.members, hpublished, herror]
  rfl

end Db

/-! ### A request -/

section Request

variable {rt : Runtime} {w w' : World} {member : Member} {action : JsString} {row : WorkItemRow}
  {record : ActivityRow}

lemma Change.grows {records : List ActivityRow} (h : Change member action row w w')
    (hactivities : w'.db.activities = w.db.activities ++ records) : w.db.Grows w'.db := by
  refine .of_set h.members hactivities h.workItems fun old hold item hitem => ?_
  have hwritten := h.written
  rw [hold] at hwritten
  cases hwritten with
  | moved stands applies stands' =>
    rw [hitem.unique stands]
    exact ⟨_, stands', Db.applyAction_asPublished applies⟩

lemma Records.isAbout (h : Records member action row record) (id : JsString) :
    record.isAbout id = decide (row.id = id) := by
  simp only [ActivityRow.isAbout, h.resourceType, h.resourceId, true_and]

/-- Nothing is recorded of an item that is not on the board. -/
lemma Db.LogSound.recordsOf_eq_nil {db : Db} (hsound : db.LogSound rt) {id : JsString}
    (habsent : db.workItems.find? id = none) : db.recordsOf id = [] := by
  refine List.filter_eq_nil_iff.mpr fun record hrecord habout => ?_
  obtain ⟨htype, hid⟩ := of_decide_eq_true habout
  have hon := hsound.onBoard record hrecord htype
  rw [hid, habsent] at hon
  cases hon

/-- The record of a change takes the replay of its item to what was written. -/
lemma Db.LogSound.replays_changed {db : Db} (hsound : db.LogSound rt)
    (hwritten : Written member action row (db.workItems.find? row.id))
    (happly : ∀ item, db.applyRecord rt item record = applyAction action member item) :
    ∃ item, StandsFor item row ∧
      db.replay rt item.asPublished (db.recordsOf row.id ++ [record]) = .ok item := by
  generalize hfind : db.workItems.find? row.id = row? at hwritten
  cases hwritten with
  | @published item publishes stands isOpen unassigned =>
    have hitem : item.asPublished = item := by
      cases item
      cases stands.state.trans isOpen
      cases stands.assigneeMemberId.trans unassigned
      rfl
    refine ⟨item, stands, ?_⟩
    rw [hsound.recordsOf_eq_nil hfind, List.nil_append, replay_singleton, happly, publishes,
      applyAction_publish, hitem]
  | @moved old item next stands applies stands' =>
    obtain ⟨item', hitem', hreplay⟩ := hsound.replays old (Table.mem_of_find? hfind)
    cases hitem'.unique stands
    rw [Table.key_of_find? hfind] at hreplay
    refine ⟨next, stands', ?_⟩
    rw [applyAction_asPublished applies, replay_append, hreplay]
    exact (replay_singleton record).trans ((happly _).trans applies)

/-- A change and its record take the item where the replay goes. -/
lemma Db.LogSound.step (hsound : w.db.LogSound rt) (hmember : w.db.IsMember rt member)
    (hchange : Change member action row w w') (hrecords : Records member action row record)
    (hactivities : w'.db.activities = w.db.activities ++ [record]) : w'.db.LogSound rt := by
  constructor
  case replays =>
    intro r hr
    rw [hchange.workItems] at hr
    rw [Db.recordsOf_append hactivities, Db.replay_congr hchange.members]
    rcases Table.mem_set.mp hr with rfl | ⟨hr, hne⟩
    · rw [List.filter_cons_of_pos (by simp [hrecords.isAbout]), List.filter_nil]
      exact hsound.replays_changed hchange.written fun _ =>
        Db.applyRecord_of_records hmember hrecords
    · rw [List.filter_cons_of_neg (by simp [hrecords.isAbout, Ne.symm hne]), List.filter_nil,
        List.append_nil]
      exact hsound.replays r hr
  case onBoard =>
    intro r hr htype
    rw [hactivities, List.mem_append, List.mem_singleton] at hr
    rw [hchange.workItems]
    rcases hr with hr | rfl
    · exact Table.isSome_find?_set (hsound.onBoard r hr htype)
    · rw [hrecords.resourceId, Table.find?_set_self]
      rfl

end Request

end WorkspaceOs
