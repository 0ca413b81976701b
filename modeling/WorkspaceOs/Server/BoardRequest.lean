import WorkspaceOs.Server.Attribution
import WorkspaceOs.Server.Transitions

/-!
# A request on the board, alone

The write of an item and the insert of its record are two statements, each committed on its own. So
a request that runs alone ends in one of three ways: the board is as it was; one row was written and
one record about it added; or the row was written and the record was refused.
-/

namespace WorkspaceOs

open Js Effect Relational

/-- The action that a route records. -/
def Route.action? : Route → Option JsString
  | .publish => some "work.publish"
  | .claimNext => some "work.claim"
  | .start _ => some "work.start"
  | .complete _ => some "work.complete"
  | _ => none

/-- What a recorded action makes of an item. Publishing leaves it as it is. -/
def applyAction (action : JsString) (member : Member) (item : WorkItem) : Except Thrown WorkItem :=
  if action = "work.claim" then item.claimBy member
  else if action = "work.start" then item.start
  else if action = "work.complete" then item.complete
  else .ok item

section

variable (member : Member) (item : WorkItem)

lemma applyAction_publish : applyAction "work.publish" member item = .ok item := rfl

lemma applyAction_claim : applyAction "work.claim" member item = item.claimBy member := rfl

lemma applyAction_start : applyAction "work.start" member item = item.start := rfl

lemma applyAction_complete : applyAction "work.complete" member item = item.complete := rfl

end

/-- The member is what the database has under its identifier. -/
def Db.IsMember (rt : Runtime) (db : Db) (member : Member) : Prop :=
  ∃ row, db.members.find? member.id = some row ∧ toMember rt row = .ok member

/-- The row is a new open item, or it stands for what the action makes of the item in its place. -/
inductive Written (member : Member) (action : JsString) (row' : WorkItemRow) :
    Option WorkItemRow → Prop where
  | published {item : WorkItem} (publishes : action = "work.publish")
      (stands : Db.StandsFor item row') (isOpen : row'.state = .opened)
      (unassigned : row'.assigneeMemberId = none) : Written member action row' none
  | moved {row : WorkItemRow} {item next : WorkItem} (stands : Db.StandsFor item row)
      (applies : applyAction action member item = .ok next) (stands' : Db.StandsFor next row')
      (moves : row'.state ≠ row.state) : Written member action row' (some row)

/-- One row was written for the member's action. -/
structure Change (member : Member) (action : JsString) (row : WorkItemRow) (w w' : World) : Prop
    where
  workItems : w'.db.workItems = w.db.workItems.set row
  members : w'.db.members = w.db.members
  written : Written member action row (w.db.workItems.find? row.id)

/-- The insert of a record was answered with an error. -/
def RecordFailed (l : ServerLabel) : Prop := ∃ i input e, l = ⟨i, .activitiesInsert input, .error e⟩

/-- The record is about the member's action on the row. -/
structure Records (member : Member) (action : JsString) (row : WorkItemRow) (record : ActivityRow) :
    Prop where
  actor : record.actorMemberId = member.id
  action : record.action = action
  resourceType : record.resourceType = "work_item"
  resourceId : record.resourceId = row.id

/-- How a request on the board that runs alone from `w` may end, with what it has performed. -/
inductive RequestEnd (B : Backend) (server : Server) (request : HttpRequest) (w : World) :
    Except Thrown Reply → RecordedWorld → Prop where
  /-- The board is as it was. -/
  | quiet {r : Except Thrown Reply} {s : RecordedWorld} (unchanged : s.1.db = w.db)
      (unrecorded : ∀ l ∈ s.2, ¬ RecordFailed l) : RequestEnd B server request w r s
  /-- A row and its record were written. -/
  | through {reply : Reply} {s : RecordedWorld} {member : Member} {action : JsString}
      {row : WorkItemRow} {record : ActivityRow}
      (routed : request.route.action? = some action) (signedIn : w.db.IsMember server.rt member)
      (change : Change member action row w s.1) (records : Records member action row record)
      (activities : s.1.db.activities = w.db.activities ++ [record])
      (recorded : ∀ l ∈ s.2, ¬ RecordFailed l) : RequestEnd B server request w (.ok reply) s
  /-- The row was written, and its record refused. -/
  | stranded {e : Thrown} {s : RecordedWorld} {member : Member} {action : JsString}
      {row : WorkItemRow} (change : Change member action row w s.1)
      (activities : s.1.db.activities = w.db.activities)
      (failed : ∃ l ∈ s.2, RecordFailed l) (fault : ∃ op, B.mayFail op) :
      RequestEnd B server request w (.error e) s

/-- The database is still that of `w`, and nothing was recorded yet. -/
structure Untouched (w : World) (s : RecordedWorld) : Prop where
  db : s.1.db = w.db
  performed : ∀ l ∈ s.2, l.op.table ≠ some .activities

/-- The row was written, and nothing was recorded yet. -/
structure Changed (member : Member) (action : JsString) (row : WorkItemRow) (w : World)
    (s : RecordedWorld) : Prop extends Change member action row w s.1 where
  activities : s.1.db.activities = w.db.activities
  performed : ∀ l ∈ s.2, l.op.table ≠ some .activities

section Alone

variable {B : Backend} {server : Server} {request : HttpRequest} {w : World}
  {s s' : RecordedWorld} {member : Member} {action : JsString}

lemma RecordFailed.table {l : ServerLabel} (h : RecordFailed l) :
    l.op.table = some .activities := by
  obtain ⟨i, input, e, rfl⟩ := h
  rfl

lemma performed_concat (good : ServerLabel → Prop) {i : ℕ} {op : ServerOp}
    {a : Except Thrown (ServerAns op)} (hs : ∀ l ∈ s.2, good l) (hop : good ⟨i, op, a⟩)
    (h : recorded (exec B) i op s a s') : ∀ l ∈ s'.2, good l := by
  rw [h.2]
  intro l hl
  rcases List.mem_append.mp hl with hl | hl
  · exact hs l hl
  · exact List.mem_singleton.mp hl ▸ hop

lemma mem_performed {i : ℕ} {op : ServerOp} {a : Except Thrown (ServerAns op)}
    (h : recorded (exec B) i op s a s') : (⟨i, op, a⟩ : ServerLabel) ∈ s'.2 := by
  rw [h.2]
  exact List.mem_append_right _ (List.mem_singleton_self _)

lemma Untouched.step {op : ServerOp} {a : Except Thrown (ServerAns op)} (hs : Untouched w s)
    (hop : op.table = none) (h : recorded (exec B) 0 op s a s') : Untouched w s' :=
  ⟨(exec_db_of_table hop h.1).trans hs.db,
    performed_concat (fun l => l.op.table ≠ some .activities) hs.performed (by simp [hop])
      h⟩

/-- What fails changes nothing. -/
lemma Untouched.error {op : ServerOp} {e : Thrown} (hs : Untouched w s)
    (hop : op.table ≠ some .activities) (h : recorded (exec B) 0 op s (.error e) s') :
    Untouched w s' :=
  ⟨by rw [exec_error h.1, hs.db],
    performed_concat (fun l => l.op.table ≠ some .activities) hs.performed hop h⟩

lemma Untouched.not_failed (hs : Untouched w s) : ∀ l ∈ s.2, ¬ RecordFailed l :=
  fun l hl hfailed => hs.performed l hl hfailed.table

lemma Untouched.quiet (hs : Untouched w s) (r : Except Thrown Reply) :
    RequestEnd B server request w r s := .quiet hs.db hs.not_failed

/-- The one statement that writes the row comes before any record. -/
lemma Untouched.change {op : ServerOp} {a : Except Thrown (ServerAns op)} {row : WorkItemRow}
    (hs : Untouched w s) (hop : op.table = some .workItems)
    (hset : s'.1.db.workItems = w.db.workItems.set row)
    (hwritten : Written member action row (w.db.workItems.find? row.id))
    (h : recorded (exec B) 0 op s a s') : Changed member action row w s' where
  workItems := hset
  members := by rw [(exec_framed h.1).members (by simp [hop]), hs.db]
  written := hwritten
  activities := by rw [(exec_framed h.1).activities (by simp [hop]), hs.db]
  performed := performed_concat (fun l => l.op.table ≠ some .activities) hs.performed
    (by simp [hop]) h

lemma Db.StandsFor.claimed {row : WorkItemRow} {item : WorkItem} (hstands : Db.StandsFor item row)
    (member : Member) (now : ℤ) : Db.StandsFor
      { item with state := .claimed, assigneeMemberId := some member.id }
      { row with state := .claimed, assigneeMemberId := some member.id, updatedAt := now } :=
  ⟨hstands.id, hstands.title, hstands.priority, hstands.description, hstands.requiredRole, rfl, rfl⟩

/-- The row that a claim writes. -/
lemma Written.claimed {row : WorkItemRow} {item : WorkItem} (hstands : Db.StandsFor item row)
    (hcan : item.canBeClaimedBy member = true) (now : ℤ) :
    Written member "work.claim"
      { row with state := .claimed, assigneeMemberId := some member.id, updatedAt := now }
      (some row) := by
  refine .moved hstands (WorkItem.claimBy_eq_ok_iff.mpr ⟨hcan, rfl⟩) (hstands.claimed member now) ?_
  show WorkItemState.claimed ≠ row.state
  rw [← hstands.state, (WorkItem.canBeClaimedBy_iff.mp hcan).1]
  decide

/-- Authentication finds the member that the database has. -/
lemma alone_authenticate (hs : Untouched w s) :
    (Discipline.alone (recorded (exec B))).Safe 0
      (fun r s => Untouched w s ∧ ∀ member, r = .ok (some member) → w.db.IsMember server.rt member)
      (authenticate server request) s := by
  simp only [authenticate]
  cases bearerToken request with
  | none => exact .ret (Discipline.alone_stable _) ⟨hs, by simp⟩
  | some token =>
    refine .perform_alone (fun now t hnow => ?_) fun e t hnow => ⟨hs.step rfl hnow, by simp⟩
    have ht := hs.step rfl hnow
    cases server.sessions.verify token (some now) with
    | none => exact .ret (Discipline.alone_stable _) ⟨ht, by simp⟩
    | some memberId =>
      refine .perform_alone (fun row? u hfind => ?_) fun e u hfind => ⟨ht.step rfl hfind, by simp⟩
      have hu := ht.step rfl hfind
      obtain ⟨hrow, -⟩ := exec_membersFindById hfind.1
      rw [ht.db] at hrow
      cases row? with
      | none => exact .ret (Discipline.alone_stable _) ⟨hu, by simp⟩
      | some row =>
        dsimp only
        cases hmember : Db.toMember server.rt row with
        | error e => exact .throw (Discipline.alone_stable _) ⟨hu, by simp⟩
        | ok member =>
          refine .ret (Discipline.alone_stable _) ⟨hu, fun _ h => ?_⟩
          cases h
          have hid : row.id = member.id := (Db.toMember_ok hmember).1.symm
          refine ⟨row, ?_, hmember⟩
          rw [← hid, Table.key_of_find? hrow.symm, ← hrow]

/-- What a handler does for a member that the database has. -/
lemma alone_withCurrentMember {handler : Member → ServerProg Reply}
    (hhandler : ∀ member s, Untouched w s → w.db.IsMember server.rt member →
      (Discipline.alone (recorded (exec B))).Safe 0 (RequestEnd B server request w)
        (handler member) s) :
    (Discipline.alone (recorded (exec B))).Safe 0 (RequestEnd B server request w)
      (withCurrentMember server request handler) (w, []) := by
  have hstart : Untouched w ((w, []) : RecordedWorld) := ⟨rfl, by simp⟩
  refine (alone_authenticate hstart).bind (fun member? s hs => ?_) fun e s hs => ?_
  · cases member? with
    | none => exact .ret (Discipline.alone_stable _) (hs.1.quiet _)
    | some member => exact hhandler member s hs.1 (hs.2 member rfl)
  · exact .throw (Discipline.alone_stable _) (hs.1.quiet _)

/-- The insert of the record is the last thing a request does before its reply. -/
lemma alone_record {row : WorkItemRow} {item : WorkItem} {reply : Reply}
    (hrouted : request.route.action? = some action) (hmember : w.db.IsMember server.rt member)
    (hs : Changed member action row w s) (hid : row.id = item.id) :
    (Discipline.alone (recorded (exec B))).Safe 0 (RequestEnd B server request w)
      (do recordWork member action item
          return reply) s := by
  refine .call_alone fun a t h => ?_
  have hframed := exec_framed h.1
  have hitems := (hframed.workItems (by simp [ServerOp.table])).trans hs.workItems
  have hmembers := (hframed.members (by simp [ServerOp.table])).trans hs.members
  cases a with
  | ok =>
    obtain ⟨record, hactivities, hactor, haction, htype, hresource⟩ := exec_activitiesInsert h.1
    rw [hs.activities] at hactivities
    refine .ret (Discipline.alone_stable _) (.through hrouted hmember
      ⟨hitems, hmembers, hs.written⟩ ⟨hactor, haction, htype, hresource.trans hid.symm⟩
      hactivities ?_)
    refine performed_concat (fun l => ¬ RecordFailed l)
      (fun l hl hfailed => hs.performed l hl hfailed.table) ?_ h
    rintro ⟨_, _, _, hl⟩
    cases hl
  | error e =>
    have hend (e' : Thrown) : RequestEnd B server request w (.error e') t := by
      refine .stranded ⟨hitems, hmembers, hs.written⟩ ?_ ⟨_, mem_performed h, 0, _, e, rfl⟩ ?_
      · rw [exec_error h.1, hs.activities]
      · rcases exec_activitiesInsert_error h.1 with hfail | habsent
        · exact ⟨_, hfail⟩
        · -- the member was found, and nobody is ever deleted
          obtain ⟨found, hfound, -⟩ := hmember
          rw [hs.members, hfound] at habsent
          cases habsent
    show (Discipline.alone (recorded (exec B))).Safe 0 _
      ((if e = .database .foreignKeyViolation then _ else _) >>= _) t
    split_ifs
    · exact .throw (Discipline.alone_stable _) (hend _)
    · exact .throw (Discipline.alone_stable _) (hend _)

lemma alone_publish (hroute : request.route = .publish) :
    (Discipline.alone (recorded (exec B))).Safe 0 (RequestEnd B server request w)
      (publish server request) (w, []) := by
  refine alone_withCurrentMember fun member s hs hmember => ?_
  dsimp only
  cases nonEmptyString? ((Json.orEmpty request.body).prop? "title") with
  | none => exact .ret (Discipline.alone_stable _) (hs.quiet _)
  | some title =>
    refine .perform_alone (fun uuid t h => ?_) fun e t h => (hs.step rfl h).quiet _
    have ht := hs.step rfl h
    have hfresh := (exec_randomUUID h.1).1.workItem
    rw [hs.db] at hfresh
    cases hitem : WorkItem.create server.rt
      { id := "w_" ++ uuid, title, description := stringOrNull (Json.orEmpty request.body)
          "description", priority := priorityOrZero (Json.orEmpty request.body),
        requiredRole := stringOrNull (Json.orEmpty request.body) "requiredRole" } with
    | error e => exact .throw (Discipline.alone_stable _) (ht.quiet _)
    | ok item =>
      obtain ⟨hid, -, -, -, -, hopen, hunassigned⟩ := WorkItem.create_ok hitem
      refine .perform_alone (fun _ u h => ?_) fun e u h => ?_
      · obtain ⟨row, hset, hholds⟩ := exec_workItemsSave_row h.1
        obtain ⟨item', hitem'⟩ := Db.toWorkItem_of_holds server.rt hholds
        have habsent : w.db.workItems.find? row.id = none := by rw [hholds.id, hid, hfresh]
        rw [ht.db] at hset
        refine alone_record (by rw [hroute]; rfl) hmember (ht.change (by simp [ServerOp.table]) hset
          ?_ h) hholds.id
        rw [habsent]
        exact .published rfl (Db.toWorkItem_eq_ok_iff.mp hitem') (hholds.state.trans hopen)
          (hholds.assigneeMemberId.trans hunassigned)
      · exact (ht.error (by simp [ServerOp.table]) h).quiet _

lemma alone_claimNext (hroute : request.route = .claimNext) :
    (Discipline.alone (recorded (exec B))).Safe 0 (RequestEnd B server request w)
      (claimNext server request) (w, []) := by
  refine alone_withCurrentMember fun member s hs hmember => ?_
  refine .perform_alone (fun claimed? t h => ?_) fun e t h =>
    (hs.error (by simp [ServerOp.table]) h).quiet _
  cases claimed? with
  | none =>
    have hdb : t.1.db = w.db := (exec_workItemsClaimNext_none h.1).trans hs.db
    have hperformed := performed_concat (fun l => l.op.table ≠ some .activities)
      hs.performed (by simp [ServerOp.table]) h
    exact .ret (Discipline.alone_stable _) (Untouched.quiet ⟨hdb, hperformed⟩ _)
  | some claimed =>
    obtain ⟨row, item, now, hrow, hitem, hcan, rfl, hset, -⟩ := exec_workItemsClaimNext_row h.1
    rw [hs.db] at hrow hset
    refine alone_record (by rw [hroute]; rfl) hmember (hs.change (by simp [ServerOp.table]) hset
      ?_ h) (Db.toWorkItem_eq_ok_iff.mp hitem).id.symm
    rw [show w.db.workItems.find? _ = some row from hrow]
    exact .claimed (Db.toWorkItem_eq_ok_iff.mp hitem) hcan now

/-- A method that makes a transition changes nothing but the state. -/
def ChangesState (apply : WorkItem → Except Thrown WorkItem) : Prop :=
  ∀ item next, apply item = .ok next →
    ∃ state, state ≠ item.state ∧ next = { item with state := state }

lemma start_changesState : ChangesState WorkItem.start := by
  intro item next h
  obtain ⟨hstate, rfl⟩ := WorkItem.start_eq_ok_iff.mp h
  exact ⟨.inProgress, by simp [hstate], rfl⟩

lemma complete_changesState : ChangesState WorkItem.complete := by
  intro item next h
  obtain ⟨hstate, rfl⟩ := WorkItem.complete_eq_ok_iff.mp h
  exact ⟨.done, by simp [hstate], rfl⟩

lemma alone_transition {id : JsString} {apply : WorkItem → Except Thrown WorkItem}
    (hrouted : request.route.action? = some ("work." ++ action)) (hchanges : ChangesState apply)
    (happly : ∀ member, applyAction ("work." ++ action) member = apply) :
    (Discipline.alone (recorded (exec B))).Safe 0 (RequestEnd B server request w)
      (transition server request id action apply) (w, []) := by
  refine alone_withCurrentMember fun member s hs hmember => ?_
  rw [DrizzleWorkItemRepository.findById_bind]
  refine .perform_alone (fun row? t h => ?_) fun e t h => (hs.step rfl h).quiet _
  have ht := hs.step rfl h
  obtain ⟨hrow, -⟩ := exec_workItemsFindById h.1
  rw [hs.db] at hrow
  cases row? with
  | none => exact .ret (Discipline.alone_stable _) (ht.quiet _)
  | some row =>
    dsimp only
    cases hitem : Db.toWorkItem server.rt row with
    | error e => exact .throw (Discipline.alone_stable _) (ht.quiet _)
    | ok item =>
      have hstands := Db.toWorkItem_eq_ok_iff.mp hitem
      dsimp only
      split_ifs
      · exact .ret (Discipline.alone_stable _) (ht.quiet _)
      cases hnext : apply item with
      | error e =>
        cases e with
        | workItemTransition => exact .ret (Discipline.alone_stable _) (ht.quiet _)
        | _ => exact .throw (Discipline.alone_stable _) (ht.quiet _)
      | ok next =>
        refine .perform_alone (fun _ u h => ?_) fun e u h =>
          (ht.error (by simp [ServerOp.table]) h).quiet _
        obtain ⟨row', hset, hholds⟩ := exec_workItemsSave_row h.1
        obtain ⟨state, hmoves, hnext_eq⟩ := hchanges item next hnext
        have hid : row'.id = row.id := by rw [hholds.id, hnext_eq, hstands.id]
        rw [ht.db] at hset
        refine alone_record hrouted hmember (ht.change (by simp [ServerOp.table]) hset ?_ h)
          hholds.id
        rw [hid, Table.key_of_find? hrow.symm, ← hrow]
        refine .moved hstands (by rw [happly, hnext]) ?_ ?_
        · refine Db.standsFor_of_holds hholds ?_
          rw [hnext_eq]
          exact hstands.fits.moved _ _
        · rw [hholds.state, hnext_eq, ← hstands.state]
          exact hmoves

variable (B server w) in
/-- A request on the board, alone from start to end. -/
lemma alone_handle (hroute : request.route.ChangesBoard) :
    (Discipline.alone (recorded (exec B))).Safe 0 (RequestEnd B server request w)
      (handle server request) (w, []) := by
  simp only [handle]
  rcases hroute with hroute | hroute | ⟨id, hroute | hroute⟩
  · rw [hroute]
    exact alone_publish hroute
  · rw [hroute]
    exact alone_claimNext hroute
  · rw [hroute]
    exact alone_transition (by rw [hroute]; rfl) start_changesState fun member =>
      funext (applyAction_start member)
  · rw [hroute]
    exact alone_transition (by rw [hroute]; rfl) complete_changesState fun member =>
      funext (applyAction_complete member)

/-- A written row is not what was there before. -/
lemma Change.moved {row : WorkItemRow} {w' : World} (h : Change member action row w w') :
    w'.db.workItems.find? row.id ≠ w.db.workItems.find? row.id := by
  obtain ⟨hset, -, hwritten⟩ := h
  rw [hset, Table.find?_set_self]
  generalize w.db.workItems.find? row.id = row? at hwritten
  cases hwritten with
  | published => exact Option.some_ne_none row
  | moved _ _ _ moves => exact fun heq => moves (by rw [Option.some.inj heq])

end Alone

/-! ### The change and its record -/

/-- A request that took the board from `w` to `w'` and ended in `r` changed nothing if it threw, and
recorded what it changed. -/
structure GoTogether (request : HttpRequest) (w w' : World) (r : Except Thrown Reply) : Prop where
  undone : ∀ e, r = .error e → w'.db.workItems = w.db.workItems
  recorded : ∀ id, w'.db.workItems.find? id ≠ w.db.workItems.find? id →
    ∃ record : ActivityRow, w'.db.activities = w.db.activities ++ [record] ∧
      some record.action = request.route.action? ∧ record.resourceType = "work_item" ∧
      record.resourceId = id

/-- The change of the board and its record go together exactly when the record is not refused,
whatever else fails. -/
theorem goTogether_iff (B : Backend) (server : Server) {request : HttpRequest}
    (hroute : request.route.ChangesBoard) {w w' : World} {ls : List ServerLabel}
    {r : Except Thrown Reply}
    (run : Run (exec B) ⟨w, [handle server request]⟩ ls ⟨w', [.ofExcept r]⟩) :
    GoTogether request w w' r ↔ ∀ l ∈ ls, ¬ RecordFailed l := by
  have hend := (alone_handle B server w hroute).of_run run.recorded
  generalize hs : ((w', ls) : RecordedWorld) = s at hend
  cases hend with
  | quiet unchanged unrecorded =>
    cases hs
    refine ⟨fun _ => unrecorded, fun _ => ⟨fun _ _ => by rw [unchanged], fun id hne => ?_⟩⟩
    exact absurd (by rw [unchanged]) hne
  | @through reply _ member action row record routed _ change records activities recorded =>
    cases hs
    refine ⟨fun _ => recorded, fun _ => ⟨nofun, fun id hne => ⟨record, activities, ?_⟩⟩⟩
    have hid : id = row.id := by
      by_contra hother
      exact hne (by rw [change.workItems, Table.find?_set_of_ne hother])
    exact ⟨by rw [records.action, routed], records.resourceType, records.resourceId.trans hid.symm⟩
  | @stranded e _ member action row change _ failed =>
    cases hs
    refine ⟨fun htogether => ?_, fun hrecorded => ?_⟩
    · exact absurd (by rw [htogether.undone e rfl]) change.moved
    · obtain ⟨l, hl, hfailed⟩ := failed
      exact absurd hfailed (hrecorded l hl)

/-- An operation that fails. -/
def Oracle.failing : Oracle := { Oracle.plain with fault := some "fault" }

/-- The board is as it was when the item cannot be saved. -/
theorem goTogether_iff_failed_save : ∃ ls w' r,
    Run (exec .faulty) ⟨claimedBoard, [handle someServer (byAgent (.start "w_1"))]⟩ ls
      ⟨w', [.ofExcept r]⟩ ∧ r.map Reply.code = .error (.foreign "fault") ∧
      (GoTogether (byAgent (.start "w_1")) claimedBoard w' r ↔ ∀ l ∈ ls, ¬ RecordFailed l) := by
  have hsave : ((handle someServer (byAgent (.start "w_1"))).play World.attemptFaulty
      [.plain, .plain, .plain, .failing] claimedBoard).map
        (fun (_, r, _) => r.map Reply.code) = some (.error (.foreign "fault")) := by
    decide +kernel
  obtain ⟨⟨ls, r, w'⟩, hplay, hr⟩ := Option.map_eq_some_iff.mp hsave
  have run := Run.of_play (fun _ _ _ _ _ => exec_of_attemptFaulty) hplay
  exact ⟨ls, w', r, run, hr,
    goTogether_iff .faulty someServer (.inr (.inr ⟨"w_1", .inl rfl⟩)) run⟩

/-- A claim is committed, its record is refused, and the request throws: the item stays claimed, and
nothing says by whom. -/
theorem refused_record_strands_claim : ∃ ls w' r,
    Run (exec .faulty) ⟨⟨Db.board none, []⟩, [handle someServer (byAgent .claimNext)]⟩ ls
      ⟨w', [.ofExcept r]⟩ ∧ r.map Reply.code = .error (.foreign "fault") ∧
      w'.db.workItems.rows.map WorkItemRow.state = [.claimed] ∧ w'.db.activities = [] ∧
      ¬ GoTogether (byAgent .claimNext) ⟨Db.board none, []⟩ w' r := by
  have hclaim : ((handle someServer (byAgent .claimNext)).play World.attemptFaulty
      [.plain, .plain, { Oracle.plain with scan := (Db.board none).workItems.rows }, .failing]
      ⟨Db.board none, []⟩).map (fun (_, r, w') => (r.map Reply.code,
        w'.db.workItems.rows.map WorkItemRow.state, w'.db.activities)) =
      some (.error (.foreign "fault"), [.claimed], []) := by
    decide +kernel
  obtain ⟨⟨ls, r, w'⟩, hplay, hend⟩ := Option.map_eq_some_iff.mp hclaim
  obtain ⟨hr, hend⟩ := Prod.mk.inj hend
  obtain ⟨hstates, hactivities⟩ := Prod.mk.inj hend
  refine ⟨ls, w', r, Run.of_play (fun _ _ _ _ _ => exec_of_attemptFaulty) hplay, hr, hstates,
    hactivities, fun htogether => ?_⟩
  cases r with
  | ok reply => cases hr
  | error e =>
    rw [htogether.undone e rfl] at hstates
    cases hstates

end WorkspaceOs
