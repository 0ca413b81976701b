import WorkspaceOs.Adapters.Sending
import WorkspaceOs.Agent.AgentRunner
import WorkspaceOs.Agent.ModelGateway

/-!
# A turn of an agent

A runner that works alone, on a database whose activity log keeps metadata in a `jsonb` column, with
the model gateway in front of a provider that answers or fails. A turn that claims an item drives it
to done, whatever becomes of the last report: the text of the model is cut for it by code units, and
half of a surrogate pair is rejected.
-/

namespace WorkspaceOs

open Js Effect Relational

/-- What a turn works on: the database, and what the gateway has metered. -/
structure Workplace where
  world : World
  usage : UsageMap

abbrev Workplace.db (w : Workplace) : Db := w.world.db

/-- A turn, with all that it gets from outside: the rows that its claim finds unlocked, the clocks,
and what a provider answers. -/
structure AgentTurn (Impl : Type) where
  deps : AgentRunnerDeps
  scan : List WorkItemRow → List WorkItemRow
  scan_mem : ∀ rows, ∀ row ∈ scan rows, row ∈ rows
  clock : ServerOp → ℤ
  timestamp : ServerOp → ℤ
  answer : ProviderCall Impl → Except Thrown ModelCompletionResult

namespace AgentTurn

variable {Impl : Type} (config : ModelGatewayConfig Impl) (B : Backend) (turn : AgentTurn Impl)

def oracle (op : ServerOp) (w : Workplace) : Oracle :=
  { Oracle.plain with
    clock := turn.clock op, timestamp := turn.timestamp op, scan := turn.scan w.db.workItems.rows }

/-- An operation of the database. -/
def execute (op : ServerOp) (w : Workplace) : Except Thrown (ServerAns op) × Workplace :=
  let (a, world) := w.world.execute B (turn.oracle op w) op
  (a, { w with world })

/-- The gateway, called by nobody else in the meantime. -/
def gateway (request : GatewayCompletionRequest) (usage : UsageMap) :
    Except Thrown ModelCompletionResult × UsageMap :=
  (ModelGateway.complete config request).run (Task.alone turn.answer) usage

def perform : (op : ServerOp) → Workplace → Except Thrown (ServerAns op) × Workplace
  | .complete request, w =>
    let (result, usage) := turn.gateway config request w.usage
    (result.map ModelCompletionResult.content, { w with usage })
  | .activitiesInsert input, w =>
    match Column.metadata input.metadata with
    | .error e => (.error e, w)
    | .ok _ => turn.execute B (.activitiesInsert input) w
  | op, w => turn.execute B op w

/-- `runner.runOnce()`. -/
def run (w : Workplace) : Except Thrown AgentRunResult × Workplace :=
  (AgentRunner.runOnce turn.deps).run (turn.perform config B) w

end AgentTurn

namespace AgentRunner

/-- What the gateway is asked about an item. -/
def reasoning (deps : AgentRunnerDeps) (item : WorkItem) : GatewayCompletionRequest where
  memberId := deps.agent.id
  task := deps.task.getD "reasoning"
  messages := [⟨.system, deps.persona.systemPrompt⟩, ⟨.user, describeTask item⟩]

/-- A turn from the claim on. -/
def work (deps : AgentRunnerDeps) (claimed : WorkItem) : ServerProg AgentRunResult := do
  report deps "work.claim" claimed
  let content ← .perform (ServerOp.complete (reasoning deps claimed))
  let done ← .ofExcept (claimed.start >>= WorkItem.complete)
  DrizzleWorkItemRepository.save done
  report deps "work.complete" done (some [("outputPreview", preview content)])
  return { status := .completed, workItemId := some done.id, output := some content }

lemma runOnce_eq (deps : AgentRunnerDeps) : runOnce deps =
    .perform (ServerOp.workItemsClaimNext deps.agent) >>= fun
      | none => .ret { status := .idle }
      | some claimed => work deps claimed := by
  show (_ >>= _) = (_ >>= _)
  congr 1
  funext claimed?
  cases claimed? <;> rfl

end AgentRunner

namespace AgentTurn

variable {Impl : Type} {config : ModelGatewayConfig Impl} {B : Backend} {turn : AgentTurn Impl}
  {w w' : Workplace} {item : WorkItem} {action : JsString} {metadata : Option StringRecord}

/-! ### The operations of a turn -/

/-- The members and the items are as they were. -/
structure SameBoard (w w' : Workplace) : Prop where
  members : w'.db.members = w.db.members
  workItems : w'.db.workItems = w.db.workItems

/-- The record of a report is in the log, behind all others. -/
structure Reported (agent : Member) (action : JsString) (item : WorkItem)
    (metadata : Option StringRecord) (w w' : Workplace) : Prop extends SameBoard w w' where
  usage : w'.usage = w.usage
  record : ∃ record, w'.db.activities = w.db.activities ++ [record] ∧
    record.actorMemberId = agent.id ∧ record.action = action ∧
    record.resourceType = JsString.ofString "work_item" ∧ record.resourceId = item.id ∧
    record.metadata = metadata.getD []

/-- A report is rejected with its record, and succeeds with it. -/
lemma run_report {a : Except Thrown Unit}
    (h : turn.perform config B (.activitiesInsert
      { actor := turn.deps.agent, action, resourceType := "work_item", resourceId := item.id,
        metadata }) w = (a, w')) :
    ∃ r, (AgentRunner.report turn.deps action item metadata).run (turn.perform config B) w =
      (r, w') ∧ (r = .ok () ↔ a = .ok ()) := by
  rw [AgentRunner.report, DrizzleActivityLog.record, Prog.perform, Prog.tryCatch_call,
    Prog.run_call,
    h]
  cases a with
  | ok => exact ⟨.ok (), rfl, Iff.rfl⟩
  | error e =>
    rw [Prog.ofExcept_error, Prog.tryCatch_throw]
    split_ifs <;> exact ⟨_, rfl, by simp⟩

lemma perform_insert {input : RecordActivityInput} {v : Json} {db' : Db}
    (hmetadata : Column.metadata input.metadata = .ok v)
    (hinsert : w.db.insertActivity (turn.timestamp (.activitiesInsert input)) input = .ok db') :
    turn.perform config B (.activitiesInsert input) w =
      (.ok (), { w with world := { w.world with db := db' } }) := by
  have hexecute : w.world.execute B (turn.oracle (.activitiesInsert input) w)
      (.activitiesInsert input) = (.ok (), { w.world with db := db' }) := by
    change w.world.commit ((w.db.insertActivity _ input).map ((), ·)) = _
    exact congrArg (fun r => w.world.commit (r.map ((), ·))) hinsert
  simp only [perform, hmetadata, execute, hexecute]

/-- A report of a stored agent is recorded when its metadata are texts, and rejected otherwise. -/
lemma run_report_cases (hstored : (w.db.members.find? turn.deps.agent.id).isSome) :
    ((∀ entry ∈ metadata.getD [], Column.IsText entry.1 ∧ Column.IsText entry.2) ∧
      ∃ w', (AgentRunner.report turn.deps action item metadata).run (turn.perform config B) w =
        (.ok (), w') ∧ Reported turn.deps.agent action item metadata w w') ∨
    (¬ ∀ entry ∈ metadata.getD [], Column.IsText entry.1 ∧ Column.IsText entry.2) ∧
      ∃ e, (AgentRunner.report turn.deps action item metadata).run (turn.perform config B) w =
        (.error e, w) := by
  rw [← Column.exists_metadata_iff]
  cases hmetadata : Column.metadata metadata with
  | error e =>
    refine .inr ⟨by simp, ?_⟩
    obtain ⟨r, hrun, hr⟩ := @run_report Impl config B turn w w item action metadata (.error e)
      (by simp only [perform, hmetadata])
    cases r with
    | ok => exact absurd (hr.mp rfl) (by simp)
    | error e => exact ⟨e, hrun⟩
  | ok v =>
    refine .inl ⟨⟨v, rfl⟩, ?_⟩
    let input : RecordActivityInput :=
      { actor := turn.deps.agent, action, resourceType := "work_item", resourceId := item.id,
        metadata }
    have hinsert : ∃ db', w.db.insertActivity (turn.timestamp (.activitiesInsert input)) input =
        .ok db' ∧ db'.members = w.db.members ∧ db'.workItems = w.db.workItems ∧
        ∃ record, db'.activities = w.db.activities ++ [record] ∧
          record.actorMemberId = turn.deps.agent.id ∧ record.action = action ∧
          record.resourceType = JsString.ofString "work_item" ∧ record.resourceId = item.id ∧
          record.metadata = metadata.getD [] :=
      ⟨_, dif_pos hstored, rfl, rfl, _, rfl, rfl, rfl, rfl, rfl, rfl⟩
    obtain ⟨db', hinsert, hmembers, hitems, hrecord⟩ := hinsert
    have hperform : turn.perform config B (.activitiesInsert input) w =
        (.ok (), { w with world := { w.world with db := db' } }) :=
      perform_insert hmetadata hinsert
    obtain ⟨r, hrun, hr⟩ := run_report hperform
    rw [hr.mpr rfl] at hrun
    exact ⟨_, hrun, ⟨hmembers, hitems⟩, rfl, hrecord⟩

lemma execute_claim {a : Except Thrown (Option WorkItem)}
    (h : turn.perform config B (.workItemsClaimNext turn.deps.agent) w = (a, w')) :
    w.world.execute B (turn.oracle (.workItemsClaimNext turn.deps.agent) w)
      (.workItemsClaimNext turn.deps.agent) = (a, w'.world) ∧ w'.usage = w.usage := by
  change turn.execute B (.workItemsClaimNext turn.deps.agent) w = _ at h
  rw [execute] at h
  rcases hexecute : w.world.execute B (turn.oracle (.workItemsClaimNext turn.deps.agent) w)
    (.workItemsClaimNext turn.deps.agent) with ⟨a, world⟩
  rw [hexecute] at h
  cases h
  exact ⟨rfl, rfl⟩

/-- A claim that found an item took an open row of the board, for an agent that is stored. -/
lemma perform_claim {claimed : WorkItem}
    (h : turn.perform config B (.workItemsClaimNext turn.deps.agent) w = (.ok (some claimed), w')) :
    ∃ row item hrow, row ∈ w.db.workItems.rows ∧ Db.toWorkItem B.rt row = .ok item ∧
      item.canBeClaimedBy turn.deps.agent = true ∧
      claimed = { item with state := .claimed, assigneeMemberId := some turn.deps.agent.id } ∧
      w'.db = w.db.setWorkItem { row with
        state := .claimed, assigneeMemberId := some turn.deps.agent.id
        updatedAt := turn.clock (.workItemsClaimNext turn.deps.agent) } hrow ∧
      w'.usage = w.usage := by
  obtain ⟨hexecute, husage⟩ := execute_claim h
  rcases commit_cases hexecute with ⟨_, -, herror, -⟩ | ⟨claimed?, hclaim, hok, -⟩
  · cases herror
  · cases hok
    rcases Db.claimNext_ok hclaim with ⟨-, hnone, -⟩ |
      ⟨row, item, hrow, hfirst, hitem, hcan, hclaimed, hdb⟩
    · cases hnone
    · exact ⟨row, item, hrow, turn.scan_mem _ row (Db.candidate_some hfirst).1, hitem, hcan,
        Option.some.inj hclaimed, hdb, husage⟩

/-- A claim that found nothing, or that failed, changed nothing. -/
lemma perform_claim_nothing {a : Except Thrown (Option WorkItem)}
    (h : turn.perform config B (.workItemsClaimNext turn.deps.agent) w = (a, w'))
    (ha : ∀ claimed, a ≠ .ok (some claimed)) : w'.db = w.db := by
  rcases commit_cases (execute_claim h).1 with ⟨_, -, -, hworld⟩ | ⟨claimed?, hclaim, rfl, -⟩
  · rw [Workplace.db, hworld]
  · rcases Db.claimNext_ok hclaim with ⟨-, -, hdb⟩ | ⟨_, _, _, -, -, -, hclaimed, -⟩
    · exact hdb
    · exact absurd (congrArg Except.ok hclaimed) (ha _)

/-- The item that was claimed can be saved as done. -/
lemma perform_save (hfits : Db.Fits item)
    (hassignee : w.db.AssigneeStored item.assigneeMemberId) :
    ∃ w' row hrow, turn.perform config B (.workItemsSave item) w = (.ok (), w') ∧
      w'.db = w.db.setWorkItem row hrow ∧ row.Holds item := by
  obtain ⟨db', hsave⟩ := @Db.exists_saveWorkItem w.db (turn.clock (.workItemsSave item))
    (turn.timestamp (.workItemsSave item)) item hfits hassignee
  obtain ⟨row, hrow, rfl, hholds⟩ := Db.saveWorkItem_ok hsave
  have hexecute : w.world.execute B (turn.oracle (.workItemsSave item) w) (.workItemsSave item) =
      (.ok (), { w.world with db := w.db.setWorkItem row hrow }) := by
    change w.world.commit ((w.db.saveWorkItem _ _ item).map ((), ·)) = _
    exact congrArg (fun r => w.world.commit (r.map ((), ·))) hsave
  have hperform : turn.perform config B (.workItemsSave item) w =
      (.ok (), { w with world := { w.world with db := w.db.setWorkItem row hrow } }) := by
    show turn.execute B (.workItemsSave item) w = _
    rw [execute, hexecute]
  exact ⟨_, row, hrow, hperform, rfl, hholds⟩

/-! ### The turn as a whole -/

/-- The runner holds the item. -/
structure Holds (turn : AgentTurn Impl) (claimed : WorkItem) (w : Workplace) : Prop where
  state : claimed.state = .claimed
  assignee : claimed.assigneeMemberId = some turn.deps.agent.id
  fits : Db.Fits claimed
  stored : (w.db.members.find? turn.deps.agent.id).isSome

/-- What the gateway answers about an item. -/
def answerFor (config : ModelGatewayConfig Impl) (turn : AgentTurn Impl) (claimed : WorkItem)
    (w : Workplace) : Except Thrown ModelCompletionResult :=
  (turn.gateway config (AgentRunner.reasoning turn.deps claimed) w.usage).1

variable {claimed : WorkItem}

/-- The claim is reported before the gateway is asked. -/
lemma run_work (h : turn.Holds claimed w) : ∃ w₁,
    Reported turn.deps.agent "work.claim" claimed none w w₁ ∧
    (AgentRunner.work turn.deps claimed).run (turn.perform config B) w =
      (do
        let content ← .perform (ServerOp.complete (AgentRunner.reasoning turn.deps claimed))
        DrizzleWorkItemRepository.save { claimed with state := .done }
        AgentRunner.report turn.deps "work.complete" { claimed with state := .done }
          (some [("outputPreview", AgentRunner.preview content)])
        return { status := .completed, workItemId := some claimed.id, output := some content } :
        ServerProg AgentRunResult).run (turn.perform config B) w₁ := by
  rcases @run_report_cases Impl config B turn w claimed "work.claim" none h.stored with
    ⟨-, w₁, hreport, hreported⟩ | ⟨hno, -⟩
  · refine ⟨w₁, hreported, ?_⟩
    rw [AgentRunner.work, Prog.run_bind, hreport, start_complete h.state]
    rfl
  · exact absurd (by simp) hno

lemma perform_complete (request : GatewayCompletionRequest) :
    turn.perform config B (.complete request) w =
      ((turn.gateway config request w.usage).1.map ModelCompletionResult.content,
        { w with usage := (turn.gateway config request w.usage).2 }) := rfl

/-- Where the gateway fails, the turn fails with it, and the board is left as it is. -/
lemma run_work_rejected (h : turn.Holds claimed w) {e : Thrown}
    (hanswer : answerFor config turn claimed w = .error e) : ∃ w',
      (AgentRunner.work turn.deps claimed).run (turn.perform config B) w = (.error e, w') ∧
        SameBoard w w' := by
  obtain ⟨w₁, hreported, hwork⟩ := @run_work Impl config B turn w claimed h
  rw [answerFor, ← hreported.usage] at hanswer
  rw [hwork, Prog.run_perform_bind, perform_complete, hanswer]
  exact ⟨_, rfl, hreported.members, hreported.workItems⟩

/-- Where the gateway answers, the item is done, and the turn ends as its last report does. -/
lemma run_work_answered (h : turn.Holds claimed w) {result : ModelCompletionResult}
    (hanswer : answerFor config turn claimed w = .ok result) :
    ∃ w₂ row, w₂.db.workItems = w.db.workItems.set row ∧
      row.Holds { claimed with state := .done } ∧ w₂.db.members = w.db.members ∧
      ∀ r w₃, (AgentRunner.report turn.deps "work.complete" { claimed with state := .done }
          (some [("outputPreview", AgentRunner.preview result.content)])).run
            (turn.perform config B) w₂ = (r, w₃) →
        (AgentRunner.work turn.deps claimed).run (turn.perform config B) w =
          (r.map fun _ => { status := .completed, workItemId := some claimed.id,
                            output := some result.content }, w₃) := by
  obtain ⟨w₁, hreported, hwork⟩ := @run_work Impl config B turn w claimed h
  rw [answerFor, ← hreported.usage] at hanswer
  have hassignee : w₁.db.AssigneeStored claimed.assigneeMemberId := by
    rw [h.assignee]
    rintro id ⟨⟩
    rw [hreported.members]
    exact h.stored
  let w₁' : Workplace := { w₁ with
    usage := (turn.gateway config (AgentRunner.reasoning turn.deps claimed) w₁.usage).2 }
  obtain ⟨w₂, row, hrow, hsave, hdb, hholds⟩ := @perform_save Impl config B turn w₁'
    { claimed with state := .done } (h.fits.moved _ _) hassignee
  refine ⟨w₂, row, ?_, hholds, ?_, ?_⟩
  · rw [hdb, ← hreported.workItems]
    rfl
  · rw [hdb, ← hreported.members]
    rfl
  · intro r w₃ hreport
    rw [hwork, Prog.run_perform_bind, perform_complete, hanswer]
    change (Prog.perform (ServerOp.workItemsSave _) >>= _).run _ w₁' = _
    rw [Prog.run_perform_bind, hsave]
    simp only
    rw [Prog.run_bind, hreport]
    cases r <;> rfl

/-- Where the gateway answers, the item is done, however the turn ends. -/
lemma run_work_done (h : turn.Holds claimed w) {result : ModelCompletionResult}
    (hanswer : answerFor config turn claimed w = .ok result) : ∃ row,
      ((AgentRunner.work turn.deps claimed).run (turn.perform config B) w).2.db.workItems =
        w.db.workItems.set row ∧ row.Holds { claimed with state := .done } := by
  obtain ⟨w₂, row, hitems, hrow, hmembers, hwork⟩ :=
    @run_work_answered Impl config B turn w claimed h result hanswer
  refine ⟨row, ?_, hrow⟩
  rcases @run_report_cases Impl config B turn w₂ { claimed with state := .done } "work.complete"
    (some [("outputPreview", AgentRunner.preview result.content)]) (hmembers ▸ h.stored) with
    ⟨-, w₃, hreport, hreported⟩ | ⟨-, e, hreport⟩
  · rw [hwork _ _ hreport, ← hitems]
    exact hreported.workItems
  · rw [hwork _ _ hreport, ← hitems]

/-- A claim that found an item makes the runner hold it. -/
lemma holds_of_claim
    (h : turn.perform config B (.workItemsClaimNext turn.deps.agent) w = (.ok (some claimed), w')) :
    turn.Holds claimed w' := by
  obtain ⟨row, item, hrow, -, hitem, -, rfl, hdb, -⟩ := perform_claim h
  refine ⟨rfl, rfl, (Db.toWorkItem_eq_ok_iff.mp hitem).fits.moved _ _, ?_⟩
  rw [hdb]
  exact hrow _ rfl

lemma run_of_claim
    (h : turn.perform config B (.workItemsClaimNext turn.deps.agent) w = (.ok (some claimed), w')) :
    turn.run config B w = (AgentRunner.work turn.deps claimed).run (turn.perform config B) w' := by
  rw [run, AgentRunner.runOnce_eq, Prog.run_perform_bind, h]

/-! ### The last report -/

/-- The turn ends well: it returns the output, the item is done, and the log says so with a preview
of the output. -/
structure Recorded (turn : AgentTurn Impl) (claimed : WorkItem) (output : JsString)
    (ended : Except Thrown AgentRunResult × Workplace) : Prop where
  result : ended.1 =
    .ok { status := .completed, workItemId := some claimed.id, output := some output }
  done : ∃ row, ended.2.db.workItems.find? claimed.id = some row ∧ row.state = .done
  record : ∃ record ∈ ended.2.db.activities, record.actorMemberId = turn.deps.agent.id ∧
    record.action = "work.complete" ∧ record.resourceType = JsString.ofString "work_item" ∧
    record.resourceId = claimed.id ∧
    record.metadata = [(JsString.ofString "outputPreview", AgentRunner.preview output)]

/-- The preview is the text or its first 500 code units, which may end within a pair. -/
lemma isText_preview_iff {text : JsString} (h : Column.IsText text) :
    Column.IsText (AgentRunner.preview text) ↔
      text.length ≤ 500 ∨ ∀ u ∈ text[499]?, isHighSurrogate u = false := by
  obtain ⟨hzero, hwell⟩ := h
  rw [AgentRunner.preview]
  split_ifs with hlong
  · have hcut : WellFormed (text.take 500 ++ "…") ↔ WellFormed (text.take 500) :=
      ⟨fun h => (WellFormed.of_append_cons (t := []) rfl h).1, fun h => h.append (.of_all rfl)⟩
    have hzero' : 0 ∉ text.take 500 ++ "…" := by
      simp only [List.mem_append, not_or]
      exact ⟨fun hmem => hzero (List.mem_of_mem_take hmem), by decide⟩
    rw [← hwell.take_succ_iff, Column.IsText, hcut]
    simp [hzero', hlong]
  · exact iff_of_true ⟨hzero, hwell⟩ (.inl (not_lt.mp hlong))

/-- A turn whose item was claimed and whose model has answered ends well when the preview of the
answer is a text. -/
lemma recorded_iff_isText {result : ModelCompletionResult}
    (hclaim : (turn.perform config B (.workItemsClaimNext turn.deps.agent) w).1 =
      .ok (some claimed))
    (hanswer : answerFor config turn claimed w = .ok result) :
    turn.Recorded claimed result.content (turn.run config B w) ↔
      Column.IsText (AgentRunner.preview result.content) := by
  obtain ⟨w₁, hclaim⟩ : ∃ w₁, turn.perform config B (.workItemsClaimNext turn.deps.agent) w =
      (.ok (some claimed), w₁) := ⟨_, Prod.ext hclaim rfl⟩
  have hholds := holds_of_claim hclaim
  obtain ⟨-, -, -, -, -, -, -, -, husage⟩ := perform_claim hclaim
  rw [answerFor, ← husage] at hanswer
  obtain ⟨w₂, row, hitems, hrow, hmembers, hwork⟩ :=
    @run_work_answered Impl config B turn w₁ claimed hholds result hanswer
  have hstored : (w₂.db.members.find? turn.deps.agent.id).isSome := hmembers ▸ hholds.stored
  have hkey : Column.IsText "outputPreview" := .of_all rfl
  rw [run_of_claim hclaim]
  rcases @run_report_cases Impl config B turn w₂ { claimed with state := .done } "work.complete"
    (some [("outputPreview", AgentRunner.preview result.content)]) hstored with
    ⟨htexts, w₃, hreport, hreported⟩ | ⟨hno, e, hreport⟩
  · rw [hwork _ _ hreport]
    refine iff_of_true ⟨rfl, ⟨row, ?_, hrow.state⟩, ?_⟩ (htexts _ List.mem_cons_self).2
    · rw [hreported.workItems, hitems, ← hrow.id]
      exact Table.find?_set_self
    · obtain ⟨record, hactivities, hactor, haction, htype, hid, hmetadata⟩ := hreported.record
      exact ⟨record, hactivities ▸ List.mem_append_right _ List.mem_cons_self, hactor, haction,
        htype, hid, hmetadata⟩
  · rw [hwork _ _ hreport]
    refine iff_of_false (fun h => by cases h.result) fun htext => hno ?_
    simp [hkey, htext]

/-- A turn whose item was claimed and whose model has answered ends well exactly when the answer is
not longer than the preview, or the preview does not end with the first half of a pair. -/
theorem recorded_iff {result : ModelCompletionResult}
    (hclaim : (turn.perform config B (.workItemsClaimNext turn.deps.agent) w).1 =
      .ok (some claimed))
    (hanswer : answerFor config turn claimed w = .ok result)
    (htext : Column.IsText result.content) :
    turn.Recorded claimed result.content (turn.run config B w) ↔
      result.content.length ≤ 500 ∨
        ∀ u ∈ result.content[499]?, isHighSurrogate u = false := by
  rw [recorded_iff_isText hclaim hanswer, isText_preview_iff htext]

/-! One item, and a provider that answers with a given text. -/

def someTurn (content : JsString) : AgentTurn Unit where
  deps := { agent := .bot [], persona := .analyst, task := some "triage" }
  scan rows := rows
  scan_mem _ _ h := h
  clock _ := 1
  timestamp _ := 1
  answer _ := .ok ⟨content, ⟨1, 1⟩⟩

def somePlace : Workplace := ⟨⟨Db.board none, []⟩, fun _ => none⟩

lemma someTurn_claims (content : JsString) : ∃ claimed,
    ((someTurn content).perform ModelGateway.triageConfig .faultless
      (.workItemsClaimNext (.bot [])) somePlace).1 = .ok (some claimed) := by
  have hsome : (((someTurn []).perform ModelGateway.triageConfig .faultless
      (.workItemsClaimNext (.bot [])) somePlace).1.toOption.join).isSome = true := by
    decide +kernel
  cases hclaim : ((someTurn []).perform ModelGateway.triageConfig .faultless
      (.workItemsClaimNext (.bot [])) somePlace).1 with
  | error e =>
    rw [hclaim] at hsome
    cases hsome
  | ok claimed? =>
    rw [hclaim] at hsome
    obtain ⟨claimed, rfl⟩ := Option.isSome_iff_exists.mp hsome
    exact ⟨claimed, hclaim⟩

lemma someTurn_answers (content : JsString) (claimed : WorkItem) :
    answerFor ModelGateway.triageConfig (someTurn content) claimed somePlace =
      .ok ⟨content, ⟨1, 1⟩⟩ := rfl

theorem recorded_iff_done : ∃ claimed, (someTurn "Done.").Recorded claimed "Done."
    ((someTurn "Done.").run ModelGateway.triageConfig .faultless somePlace) ↔
      (JsString.ofString "Done.").length ≤ 500 ∨
        ∀ u ∈ (JsString.ofString "Done.")[499]?, isHighSurrogate u = false := by
  obtain ⟨claimed, hclaim⟩ := someTurn_claims "Done."
  exact ⟨claimed, recorded_iff hclaim (someTurn_answers "Done." claimed) (.of_all rfl)⟩

/-- An emoji where the preview is cut. -/
def longAnswer : JsString := List.replicate 499 0x61 ++ [0xD83D, 0xDE00, 0x62]

/-- The item is done, and the turn rejects without a record of it. -/
theorem not_recorded_longAnswer : ∃ claimed,
    ((someTurn longAnswer).perform ModelGateway.triageConfig .faultless
      (.workItemsClaimNext (.bot [])) somePlace).1 = .ok (some claimed) ∧
    answerFor ModelGateway.triageConfig (someTurn longAnswer) claimed somePlace =
      .ok ⟨longAnswer, ⟨1, 1⟩⟩ ∧
    Column.IsText longAnswer ∧
    ¬ (someTurn longAnswer).Recorded claimed longAnswer
      ((someTurn longAnswer).run ModelGateway.triageConfig .faultless somePlace) := by
  obtain ⟨claimed, hclaim⟩ := someTurn_claims longAnswer
  have hanswer := someTurn_answers longAnswer claimed
  have htext : Column.IsText longAnswer := by
    refine ⟨by simp [longAnswer, -List.reduceReplicate],
      WellFormed.append (.of_forall ?_) (.pair rfl rfl (.of_all rfl))⟩
    intro u hu
    rw [List.eq_of_mem_replicate hu]
    rfl
  refine ⟨claimed, hclaim, hanswer, htext, fun hrecorded => ?_⟩
  have hpreview := (recorded_iff_isText hclaim hanswer).mp hrecorded
  rcases (isText_preview_iff htext).mp hpreview with hshort | hcut
  · simp [longAnswer, -List.reduceReplicate] at hshort
  · exact absurd (hcut 0xD83D (by simp [longAnswer, -List.reduceReplicate])) (by decide)

end AgentTurn

end WorkspaceOs
