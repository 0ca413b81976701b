import WorkspaceOs.Server.Replay

/-!
# Turns that do not overlap

Requests and runners work on the board one after the other, and nothing fails. The records of every
item lead to what is stored as long as only requests do so. A runner takes an item through three
transitions and records two of them: what it has worked on cannot be replayed any more.
-/

namespace WorkspaceOs

open Js Effect Relational

/-! ### A runner's turn -/

/-- From `db` to `db'` a runner completed an item: it recorded the claim and the completion. -/
structure Completed (agent : Member) (db db' : Db) : Prop where
  grows : db.Grows db'
  records : ∃ row ∈ db'.workItems.rows, ∃ item, Db.StandsFor item row ∧ ∃ first second,
    db'.activities = db.activities ++ [first, second] ∧ Records agent "work.claim" row first ∧
    Records agent "work.complete" row second

/-- How a runner's turn that runs alone from `w` ends: it has claimed nothing and left everything as
it was, or it has completed what it claimed. -/
inductive TurnEnd (agent : Member) (w : World) (s : RecordedWorld) : Prop where
  | idle (unchanged : s.1.db = w.db) (unclaimed : ∀ l ∈ s.2, claim? l = none)
  | worked (completed : Completed agent w.db s.1.db) (claimed : ∃ l ∈ s.2, (claim? l).isSome)

section Runner

variable {B : Backend} (hfaultless : ∀ op, ¬ B.mayFail op) {deps : AgentRunnerDeps}
  {s : RecordedWorld} {row : WorkItemRow} {item : WorkItem}
include hfaultless

/-- A report of a stored agent adds its record. -/
lemma alone_report {action : JsString} {metadata : Option StringRecord} (row : WorkItemRow)
    (hstored : (s.1.db.members.find? deps.agent.id).isSome) (hid : row.id = item.id) :
    (Discipline.alone (recorded (exec B))).Safe 0
      (fun r t => r = .ok () ∧ t.1.db.members = s.1.db.members ∧
        t.1.db.workItems = s.1.db.workItems ∧ ∃ record,
          t.1.db.activities = s.1.db.activities ++ [record] ∧
          Records deps.agent action row record)
      (AgentRunner.report deps action item metadata) s := by
  refine .call_alone fun a t h => ?_
  cases a with
  | ok =>
    obtain ⟨record, hactivities, hactor, haction, htype, hresource⟩ := exec_activitiesInsert h.1
    exact .ret (Discipline.alone_stable _) ⟨rfl,
      (exec_framed h.1).members (by simp [ServerOp.table]),
      (exec_framed h.1).workItems (by simp [ServerOp.table]), record, hactivities,
      ⟨hactor, haction, htype, hresource.trans hid.symm⟩⟩
  | error e =>
    rcases exec_activitiesInsert_error h.1 with hfail | habsent
    · exact absurd hfail (hfaultless _)
    · rw [habsent] at hstored
      cases hstored

/-- Without faults, the item that was claimed and recorded is saved as done and recorded again. -/
lemma alone_finish {db : Db} {claimed : WorkItem} {first : ActivityRow}
    {metadata : Option StringRecord} {result : AgentRunResult}
    (hmembers : s.1.db.members = db.members) (hitems : s.1.db.workItems = db.workItems)
    (hfirst : s.1.db.activities = db.activities ++ [first])
    (hclaim : Records deps.agent "work.claim" row first)
    (hrow : db.workItems.find? row.id = some row) (hstands : Db.StandsFor claimed row)
    (hassignee : claimed.assigneeMemberId = some deps.agent.id)
    (hstored : (db.members.find? deps.agent.id).isSome) :
    (Discipline.alone (recorded (exec B))).Safe 0 (fun _ t => Completed deps.agent db t.1.db)
      (do
        DrizzleWorkItemRepository.save { claimed with state := .done }
        AgentRunner.report deps "work.complete" { claimed with state := .done } metadata
        return result) s := by
  refine .perform_alone (fun _ t h => ?_) fun e t h => ?_
  · obtain ⟨row', hset, hholds⟩ := exec_workItemsSave_row h.1
    have hid : row'.id = row.id := hholds.id.trans hstands.id
    have hstands' := Db.standsFor_of_holds hholds (hstands.fits.moved _ _)
    have hmembers' := ((exec_framed h.1).members (by simp [ServerOp.table])).trans hmembers
    have hactivities' := ((exec_framed h.1).activities (by simp [ServerOp.table])).trans hfirst
    rw [hitems] at hset
    refine (alone_report hfaultless row' (by rwa [hmembers']) hholds.id).bind (fun _ u hu => ?_)
      fun e u hu => by cases hu.1
    obtain ⟨-, hmembers'', hitems'', second, hsecond, hcomplete⟩ := hu
    rw [hactivities', List.append_assoc] at hsecond
    rw [hset] at hitems''
    have hgrows : db.Grows u.1.db := by
      refine .of_set (hmembers''.trans hmembers') hsecond hitems'' fun old hold item hitem => ?_
      rw [hid, hrow] at hold
      cases hold
      exact ⟨_, hstands', by rw [hitem.unique hstands]; rfl⟩
    refine .ret (Discipline.alone_stable _) ⟨hgrows, row', ?_, _, hstands', first, second, hsecond,
      ⟨hclaim.actor, hclaim.action, hclaim.resourceType, hclaim.resourceId.trans hid.symm⟩,
      hcomplete⟩
    rw [hitems'']
    exact Table.mem_set.mpr (.inl rfl)
  · refine absurd (exec_workItemsSave_error (hstands.fits.moved _ _) ?_ h.1) (hfaultless _)
    · show s.1.db.AssigneeStored claimed.assigneeMemberId
      rw [hassignee]
      rintro id ⟨⟩
      rwa [hmembers]

/-- Without faults, a runner completes what it has claimed. -/
lemma alone_drive {claimed : WorkItem} (hrow : s.1.db.workItems.find? row.id = some row)
    (hstands : Db.StandsFor claimed row) (hstate : claimed.state = .claimed)
    (hassignee : claimed.assigneeMemberId = some deps.agent.id)
    (hstored : (s.1.db.members.find? deps.agent.id).isSome) :
    (Discipline.alone (recorded (exec B))).Safe 0
      (fun _ t => Completed deps.agent s.1.db t.1.db)
      (do
        AgentRunner.report deps "work.claim" claimed
        let content ← .perform (ServerOp.complete
          { memberId := deps.agent.id, task := deps.task.getD "reasoning",
            messages := [⟨.system, deps.persona.systemPrompt⟩,
              ⟨.user, AgentRunner.describeTask claimed⟩] })
        let done ← .ofExcept (claimed.start >>= WorkItem.complete)
        DrizzleWorkItemRepository.save done
        AgentRunner.report deps "work.complete" done
          (some [("outputPreview", AgentRunner.preview content)])
        return { status := .completed, workItemId := some done.id, output := some content } :
          ServerProg AgentRunResult) s := by
  refine (alone_report hfaultless row hstored hstands.id.symm).bind (fun _ t ht => ?_)
    fun e t ht => by cases ht.1
  obtain ⟨-, hmembers, hitems, first, hfirst, hclaim⟩ := ht
  refine .perform_alone (fun content u h => ?_) fun e u h =>
    absurd (mayFail_of_table rfl h.1) (hfaultless _)
  have hdb : u.1.db = t.1.db := exec_db_of_table rfl h.1
  rw [start_complete hstate, Prog.ofExcept_ok, Prog.ret_bind]
  rw [← hdb] at hmembers hitems hfirst
  exact alone_finish hfaultless hmembers hitems hfirst hclaim hrow hstands hassignee hstored

omit hfaultless in
lemma claim?_eq_none {i : ℕ} {member : Member} {a : Except Thrown (Option WorkItem)}
    (ha : ∀ item, a ≠ .ok (some item)) : claim? ⟨i, .workItemsClaimNext member, a⟩ = none := by
  simp only [claim?]
  split
  · rename_i h
    cases h
    exact absurd rfl (ha _)
  · rfl

/-- A runner's turn, alone from start to end. -/
lemma alone_runOnce (deps : AgentRunnerDeps) (w : World) :
    (Discipline.alone (recorded (exec B))).Safe 0 (fun _ s => TurnEnd deps.agent w s)
      (AgentRunner.runOnce deps) (w, []) := by
  have hnothing {a : Except Thrown (Option WorkItem)} {s : RecordedWorld}
      (ha : ∀ item, a ≠ .ok (some item))
      (h : recorded (exec B) 0 (.workItemsClaimNext deps.agent) (w, []) a s) :
      ∀ l ∈ s.2, claim? l = none := by
    rw [h.2]
    intro l hl
    cases List.mem_singleton.mp hl
    exact claim?_eq_none ha
  refine .perform_alone (fun claimed? s h => ?_) fun e s h =>
    .idle (by rw [exec_error h.1]) (hnothing (by simp) h)
  cases claimed? with
  | none =>
    exact .ret (Discipline.alone_stable _) (.idle (exec_workItemsClaimNext_none h.1)
      (hnothing (by simp) h))
  | some claimed =>
    obtain ⟨row, item, now, hrow, hitem, hcan, rfl, hset, hstored⟩ :=
      exec_workItemsClaimNext_row h.1
    have hstands := Db.toWorkItem_eq_ok_iff.mp hitem
    have hmembers : s.1.db.members = w.db.members :=
      (exec_framed h.1).members (by simp [ServerOp.table])
    have hactivities : s.1.db.activities = w.db.activities :=
      (exec_framed h.1).activities (by simp [ServerOp.table])
    have hclaimed : Change deps.agent "work.claim" _ w s.1 :=
      ⟨hset, hmembers, hrow ▸ Written.claimed hstands hcan now⟩
    have hdrive := alone_drive hfaultless (by rw [hset]; exact Table.find?_set_self)
      (hstands.claimed deps.agent now) rfl rfl hstored
    refine (hdrive.lasting (performed_lasting _) (mem_performed h)).mono fun r t ht => ?_
    have hgrows := hclaimed.grows (hactivities.trans (List.append_nil _).symm)
    refine .worked ⟨hgrows.trans ht.1.grows, ?_⟩ ⟨_, ht.2, rfl⟩
    rw [← hactivities]
    exact ht.1.records

end Runner

/-! ### One turn after the other -/

/-- A turn: who took it, and what was performed. -/
structure Turn where
  actor : Actor
  performed : List ServerLabel

/-- A request for a route of the board, or a runner. -/
def Actor.WorksOnBoard : Actor → Prop
  | .client request => request.route.ChangesBoard
  | .runner _ => True

/-- One actor after the other works on the board, each alone from start to end. -/
inductive InTurn (B : Backend) (server : Server) : World → List Turn → World → Prop where
  | refl (w : World) : InTurn B server w [] w
  | snoc {w w₁ w₂ : World} {turns : List Turn} {actor : Actor} {ls : List ServerLabel}
      {r : Except Thrown ActorResult} (before : InTurn B server w turns w₁)
      (works : actor.WorksOnBoard)
      (run : Run (exec B) ⟨w₁, [actor.program server]⟩ ls ⟨w₂, [.ofExcept r]⟩) :
      InTurn B server w (turns ++ [⟨actor, ls⟩]) w₂

/-- A runner took the turn, and its claim found an item. -/
def Turn.TakesItem (turn : Turn) : Prop :=
  (∃ deps, turn.actor = .runner deps) ∧ ∃ l ∈ turn.performed, (claim? l).isSome

/-- What one turn makes of the records: a runner that takes an item breaks them, and nothing else
does. -/
structure TurnStep (rt : Runtime) (turn : Turn) (db db' : Db) : Prop where
  grows : db.Grows db'
  sound : ¬ turn.TakesItem → db.LogSound rt → db'.LogSound rt
  broken : turn.TakesItem → db'.LogBroken rt

section InTurn

variable {B : Backend} (hfaultless : ∀ op, ¬ B.mayFail op) {server : Server} {w w' : World}
  {turn : Turn} {turns : List Turn} {rt : Runtime}

lemma TurnStep.of_eq (hnot : ¬ turn.TakesItem) {db db' : Db} (h : db' = db) :
    TurnStep rt turn db db' := by
  subst h
  exact ⟨.refl _, fun _ => id, fun htakes => absurd htakes hnot⟩

include hfaultless

lemma turnStep_client {request : HttpRequest} {ls : List ServerLabel}
    {r : Except Thrown ActorResult} (hroute : request.route.ChangesBoard)
    (run : Run (exec B) ⟨w, [Actor.program server (.client request)]⟩ ls ⟨w', [.ofExcept r]⟩) :
    TurnStep server.rt ⟨.client request, ls⟩ w.db w'.db := by
  have hnot : ¬ Turn.TakesItem ⟨.client request, ls⟩ := by
    rintro ⟨⟨deps, h⟩, -⟩
    cases h
  have hsafe := (alone_handle B server w hroute).map
    ActorResult.reply (R := fun _ s => ∃ r, RequestEnd B server request w r s) fun r s h => ⟨r, h⟩
  obtain ⟨r', hend⟩ := hsafe.of_run run.recorded
  generalize hs : ((w', ls) : RecordedWorld) = s at hend
  cases hend with
  | quiet unchanged =>
    cases hs
    exact .of_eq hnot unchanged
  | through _ signedIn change records activities =>
    cases hs
    exact ⟨change.grows activities, fun _ hsound => hsound.step signedIn change records activities,
      fun htakes => absurd htakes hnot⟩
  | stranded _ _ _ fault =>
    obtain ⟨op, hop⟩ := fault
    exact absurd hop (hfaultless op)

lemma turnStep_runner {deps : AgentRunnerDeps} {ls : List ServerLabel}
    {r : Except Thrown ActorResult}
    (run : Run (exec B) ⟨w, [Actor.program server (.runner deps)]⟩ ls ⟨w', [.ofExcept r]⟩) :
    TurnStep rt ⟨.runner deps, ls⟩ w.db w'.db := by
  have hsafe := (alone_runOnce hfaultless deps w).map ActorResult.turn
    (R := fun _ s => TurnEnd deps.agent w s) fun _ _ h => h
  cases hsafe.of_run run.recorded with
  | idle unchanged unclaimed =>
    refine .of_eq ?_ unchanged
    rintro ⟨-, l, hl, hclaim⟩
    rw [unclaimed l hl] at hclaim
    cases hclaim
  | worked completed claimed =>
    have htakes : Turn.TakesItem ⟨.runner deps, ls⟩ := ⟨⟨deps, rfl⟩, claimed⟩
    refine ⟨completed.grows, fun hnot => absurd htakes hnot, fun _ => ?_⟩
    obtain ⟨row, hrow, item, hitem, first, second, hactivities, hfirst, hsecond⟩ :=
      completed.records
    refine ⟨row, hrow, item, hitem, ?_⟩
    rw [Db.recordsOf_append hactivities, List.filter_eq_self.mpr (by simp [hfirst.isAbout,
      hsecond.isAbout])]
    exact Db.replay_claim_complete hfirst.action hsecond.action

/-- The records are sound for as long as no runner takes an item, and broken from then on. -/
lemma InTurn.log (run : InTurn B server w turns w') (hsound : w.db.LogSound server.rt) :
    ((∀ turn ∈ turns, ¬ turn.TakesItem) → w'.db.LogSound server.rt) ∧
      ((∃ turn ∈ turns, turn.TakesItem) → w'.db.LogBroken server.rt) := by
  induction run with
  | refl => exact ⟨fun _ => hsound, by simp⟩
  | @snoc w₁ w₂ turns actor ls r _ works run ih =>
    have hstep : TurnStep server.rt ⟨actor, ls⟩ w₁.db w₂.db := by
      cases actor with
      | client request => exact turnStep_client hfaultless works run
      | runner deps => exact turnStep_runner hfaultless run
    obtain ⟨hkept, hlost⟩ := ih
    constructor
    · intro hnone
      refine hstep.sound (hnone _ (List.mem_append_right _ (List.mem_singleton_self _))) ?_
      exact hkept fun turn hturn => hnone turn (List.mem_append_left _ hturn)
    · rintro ⟨turn, hturn, htakes⟩
      rcases List.mem_append.mp hturn with hturn | hturn
      · exact (hlost ⟨turn, hturn, htakes⟩).grows hstep.grows
      · exact hstep.broken (List.mem_singleton.mp hturn ▸ htakes)

end InTurn

/-- The records of every item lead to what is stored exactly when no runner has taken an item. -/
theorem log_reconstructs_iff {B : Backend} (hfaultless : ∀ op, ¬ B.mayFail op) (server : Server)
    {w w' : World} {turns : List Turn} (hempty : w.db.workItems.rows = [])
    (hunrecorded : ∀ record ∈ w.db.activities, record.resourceType ≠ "work_item")
    (run : InTurn B server w turns w')
    (hstrict : w'.db.activities.Pairwise fun r r' => r.occurredAt < r'.occurredAt) :
    (∀ row ∈ w'.db.workItems.rows, w'.db.Reconstructs server.rt row) ↔
      ∀ turn ∈ turns, ¬ turn.TakesItem := by
  have hstart : w.db.LogSound server.rt := by
    refine ⟨fun row hrow => ?_, fun record hrecord htype => ?_⟩
    · rw [hempty] at hrow
      cases hrow
    · exact absurd htype (hunrecorded record hrecord)
  obtain ⟨hkept, hlost⟩ := run.log hfaultless hstart
  have hreconstruct {row : WorkItemRow} {item : WorkItem} (hitem : Db.StandsFor item row) :
      w'.db.reconstruct server.rt row =
        w'.db.replay server.rt item.asPublished (w'.db.recordsOf row.id) := by
    simp only [Db.reconstruct, Db.toWorkItem_eq_ok_iff.mpr hitem,
      Db.listByResource_of_strict hstrict]
    rfl
  constructor
  · intro hall turn hturn htakes
    obtain ⟨row, hrow, item, hitem, e, herror⟩ := hlost ⟨turn, hturn, htakes⟩
    obtain ⟨item', hitem', -⟩ := hall row hrow
    rw [hreconstruct hitem, herror] at hitem'
    cases hitem'
  · intro hnone row hrow
    obtain ⟨item, hitem, hreplay⟩ := (hkept hnone).replays row hrow
    exact ⟨item, (hreconstruct hitem).trans hreplay, hitem.state, hitem.assigneeMemberId⟩

/-! An agent publishes an item and sees it through, by requests or in a turn. -/

lemma InTurn.cons {B : Backend} {server : Server} {w w₁ w₂ : World} {turns : List Turn}
    {actor : Actor} {ls : List ServerLabel} {r : Except Thrown ActorResult}
    (works : actor.WorksOnBoard)
    (run : Run (exec B) ⟨w, [actor.program server]⟩ ls ⟨w₁, [.ofExcept r]⟩)
    (after : InTurn B server w₁ turns w₂) : InTurn B server w (⟨actor, ls⟩ :: turns) w₂ := by
  induction after with
  | refl => exact .snoc (.refl w) works run
  | snoc _ works' run' ih => exact .snoc ih works' run'

/-- Turns along given oracles, for concrete runs. -/
def playTurns (server : Server) : List (Actor × List Oracle) → World → Option (List Turn × World)
  | [], w => some ([], w)
  | (actor, oracles) :: rest, w =>
    ((actor.program server).play (World.attempt .faultless) oracles w).bind fun (ls, _, w') =>
      (playTurns server rest w').map fun (turns, w'') => (⟨actor, ls⟩ :: turns, w'')

lemma InTurn.of_play {server : Server} {steps : List (Actor × List Oracle)} {w w' : World}
    {turns : List Turn} (hworks : ∀ step ∈ steps, step.1.WorksOnBoard)
    (h : playTurns server steps w = some (turns, w')) :
    InTurn .faultless server w turns w' := by
  induction steps generalizing w turns with
  | nil =>
    cases h
    exact .refl _
  | cons step steps ih =>
    obtain ⟨actor, oracles⟩ := step
    obtain ⟨hactor, hrest⟩ := List.forall_mem_cons.mp hworks
    obtain ⟨⟨ls, r, w₁⟩, hplay, h⟩ := Option.bind_eq_some_iff.mp h
    obtain ⟨⟨turns', w₂⟩, hturns, h⟩ := Option.map_eq_some_iff.mp h
    cases h
    exact .cons hactor (Run.of_play (fun _ _ _ _ _ => exec_of_attempt) hplay) (ih hrest hturns)

/-- The agent, and an empty board. -/
def staffed : World where
  db := { Db.board none with workItems := ∅, assignee_member := by simp }
  drawn := []

/-- What makes a record at that time. -/
def Oracle.at (time : ℤ) : Oracle := { Oracle.plain with timestamp := time }

/-- The scan finds the item of `Db.board`. -/
def Oracle.scanning : Oracle := { Oracle.plain with scan := [Db.publishedRow none] }

def publishing : Actor × List Oracle :=
  (.client ⟨.publish, some "Bearer m_agent", some (.obj [("title", .str "Draft the memo")])⟩,
    [.plain, .plain, .plain, .plain, .at 1])

def byRequests : List (Actor × List Oracle) :=
  [publishing,
    (.client (byAgent .claimNext), [.plain, .plain, .scanning, .at 2]),
    (.client (byAgent (.start "w_1")), [.plain, .plain, .plain, .plain, .at 3]),
    (.client (byAgent (.complete "w_1")), [.plain, .plain, .plain, .plain, .at 4])]

def byTurn : List (Actor × List Oracle) :=
  [publishing,
    (.runner { agent := .bot [], persona := .analyst },
      [.scanning, .at 2, .plain, .plain, .at 3])]

theorem log_reconstructs_iff_requests : ∃ turns w', InTurn .faultless someServer staffed turns w' ∧
    w'.db.workItems.rows.map WorkItemRow.state = [.done] ∧
    w'.db.activities.map ActivityRow.occurredAt = [1, 2, 3, 4] ∧
    ((∀ row ∈ w'.db.workItems.rows, w'.db.Reconstructs someServer.rt row) ↔
      ∀ turn ∈ turns, ¬ turn.TakesItem) := by
  have hrequests : (playTurns someServer byRequests staffed).map (fun (_, w') =>
      (w'.db.workItems.rows.map WorkItemRow.state, w'.db.activities.map ActivityRow.occurredAt)) =
        some ([.done], [1, 2, 3, 4]) := by
    decide +kernel
  obtain ⟨⟨turns, w'⟩, hplay, hend⟩ := Option.map_eq_some_iff.mp hrequests
  obtain ⟨hstates, htimes⟩ := Prod.mk.inj hend
  have run := InTurn.of_play (by simp [byRequests, publishing, byAgent, Actor.WorksOnBoard,
    Route.ChangesBoard, Route.IsTransition]) hplay
  refine ⟨turns, w', run, hstates, htimes, ?_⟩
  refine log_reconstructs_iff (fun _ h => h) someServer rfl (by simp [staffed, Db.board]) run ?_
  refine List.pairwise_map.mp ?_
  rw [htimes]
  decide

/-- A runner takes an item from open to done and records that it claimed and completed it. Whoever
replays the two records finds the completion illegal. -/
theorem runner_log_illegal : ∃ turns w', InTurn .faultless someServer staffed turns w' ∧
    w'.db.activities.map ActivityRow.occurredAt = [1, 2, 3] ∧
    w'.db.workItems.rows.map (fun row =>
      (row.state, (w'.db.reconstruct someServer.rt row).map WorkItem.state)) =
      [(.done, .error (.workItemTransition
        "cannot complete a work item in state \"claimed\""))] ∧
    ¬ ∀ row ∈ w'.db.workItems.rows, w'.db.Reconstructs someServer.rt row := by
  have hturn : (playTurns someServer byTurn staffed).map (fun (_, w') =>
      (w'.db.activities.map ActivityRow.occurredAt, w'.db.workItems.rows.map (fun row =>
        (row.state, (w'.db.reconstruct someServer.rt row).map WorkItem.state)))) =
        some ([1, 2, 3], [(.done, .error (.workItemTransition
          "cannot complete a work item in state \"claimed\""))]) := by
    decide +kernel
  obtain ⟨⟨turns, w'⟩, hplay, hend⟩ := Option.map_eq_some_iff.mp hturn
  obtain ⟨htimes, hrows⟩ := Prod.mk.inj hend
  refine ⟨turns, w', InTurn.of_play ?_ hplay, htimes, hrows, fun hall => ?_⟩
  · simp [byTurn, publishing, Actor.WorksOnBoard, Route.ChangesBoard]
  · obtain ⟨row, hrow, hrow_eq⟩ : ∃ row ∈ w'.db.workItems.rows,
        (w'.db.reconstruct someServer.rt row).map WorkItem.state = .error (.workItemTransition
          "cannot complete a work item in state \"claimed\"") := by
      obtain ⟨row, hrow, heq⟩ := List.mem_map.mp (hrows ▸ List.mem_singleton_self _)
      exact ⟨row, hrow, (Prod.mk.inj heq).2⟩
    obtain ⟨item, hitem, -⟩ := hall row hrow
    rw [hitem] at hrow_eq
    cases hrow_eq

end WorkspaceOs
