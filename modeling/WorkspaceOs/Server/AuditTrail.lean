import WorkspaceOs.Effect.OwnHistory
import WorkspaceOs.Server.Attribution
import WorkspaceOs.Server.BoardRefinement

/-!
# The audit trail

A record is written after what it tells of, in a statement of its own, while others go on. What it
tells is true all the same: it names who acted, and what it tells of an item lasts.
-/

namespace WorkspaceOs

open Js Effect Relational

abbrev ServerEvent := Event ServerOp ServerAns Thrown

/-- The record that an event adds to the log. -/
def noted? : ServerEvent → Option RecordActivityInput
  | ⟨.activitiesInsert input, .ok _⟩ => some input
  | _ => none

/-- The records that were added to the log, in order. -/
def noted (events : List ServerEvent) : List RecordActivityInput := events.filterMap noted?

/-- The row has the record, and a time. -/
structure ActivityRow.Keeps (row : ActivityRow) (input : RecordActivityInput) : Prop where
  actorMemberId : row.actorMemberId = input.actor.id
  actorType : row.actorType = input.actor.type.name
  action : row.action = input.action
  resourceType : row.resourceType = input.resourceType
  resourceId : row.resourceId = input.resourceId
  metadata : row.metadata = input.metadata.getD []

/-- Who acts: the agent of a turn, or the member that the token of a request was accepted for. -/
inductive ActsFor (server : Server) (history : List ServerEvent) : Actor → Member → Prop where
  | client {request : HttpRequest} {token : JsString} {now : ℤ} {member : Member}
      (presented : bearerToken request = some token) (read : ⟨.now, .ok now⟩ ∈ history)
      (accepted : server.sessions.verify token (some now) = some member.id) :
      ActsFor server history (.client request) member
  | runner (deps : AgentRunnerDeps) : ActsFor server history (.runner deps) deps.agent

/-- What a request records that is answered so, as action and item. -/
def HttpRequest.told (request : HttpRequest) (reply : Reply) : List (JsString × JsString) :=
  match reply.body with
  | .workItem item =>
    match request.route with
    | .publish => [("work.publish", item.id)]
    | .claimNext => [("work.claim", item.id)]
    | .start _ => [("work.start", item.id)]
    | .complete _ => [("work.complete", item.id)]
    | _ => []
  | _ => []

/-- What a turn records that ends so. -/
def AgentRunResult.told (result : AgentRunResult) : List (JsString × JsString) :=
  match result.workItemId with
  | some id => [("work.claim", id), ("work.complete", id)]
  | none => []

def Actor.told : Actor → ActorResult → List (JsString × JsString)
  | .client request, .reply reply => request.told reply
  | .runner _, .turn result => result.told
  | _, _ => []

/-- The action of a record and the item that it is about. -/
def RecordActivityInput.brief (input : RecordActivityInput) : JsString × JsString :=
  (input.action, input.resourceId)

/-- What a record tells is so. -/
inductive RecordActivityInput.IsTrue (input : RecordActivityInput) (w : World) : Prop where
  | publish (haction : input.action = "work.publish")
      (posted : (w.db.workItems.find? input.resourceId).isSome)
  | held (haction : input.action = "work.claim" ∨ input.action = "work.start" ∨
        input.action = "work.complete")
      (held : HeldBy input.resourceId (some input.actor.id) w)

/-! ### What a program records -/

/-- What an actor did of its own that a record of it tells. -/
inductive Grounded (history : List ServerEvent) (input : RecordActivityInput) : Prop where
  | publish {item : WorkItem} (saved : ⟨.workItemsSave item, .ok ()⟩ ∈ history)
      (hopen : item.state = .opened) (hid : item.id = input.resourceId)
      (haction : input.action = "work.publish")
  | claim {item : WorkItem}
      (claimed : ⟨.workItemsClaimNext input.actor, .ok (some item)⟩ ∈ history)
      (hid : item.id = input.resourceId)
      (haction : input.action = "work.claim" ∨ input.action = "work.complete")
  | move {item : WorkItem} (saved : ⟨.workItemsSave item, .ok ()⟩ ∈ history)
      (hstate : item.state ≠ .opened) (hassignee : item.assigneeMemberId = some input.actor.id)
      (hid : item.id = input.resourceId)
      (haction : input.action = "work.start" ∨ input.action = "work.complete")

/-- When an actor records something. -/
structure Noting (server : Server) (actor : Actor) (history : List ServerEvent)
    (input : RecordActivityInput) : Prop where
  resourceType : input.resourceType = "work_item"
  acts : ActsFor server history actor input.actor
  first : ∀ input' ∈ noted history, input'.action ≠ input.action
  grounded : Grounded history input

/-- What an actor keeps to by itself: who saves an item that is not open has drawn no identifier. -/
def notingPre (server : Server) (actor : Actor) (history : List ServerEvent) : ServerOp → Prop
  | .activitiesInsert input => Noting server actor history input
  | .workItemsSave item =>
    item.state ≠ .opened → ∀ uuid, (⟨.randomUUID, .ok uuid⟩ : ServerEvent) ∉ history
  | _ => True

/-- A program whose result tells what it has recorded. -/
def NotedEnd {α : Type} (told : α → List (JsString × JsString)) (history : List ServerEvent)
    (r : Except Thrown α) : Prop :=
  ∀ a, r = .ok a → (noted history).map RecordActivityInput.brief = told a

/-- Nothing but what authentication performs. -/
def OnlyAuthenticates (history : List ServerEvent) : Prop := ∀ e ∈ history, e.op.Authenticates

/-- A member that is found by an identifier has it. -/
def Answerable : (op : ServerOp) → Except Thrown (ServerAns op) → Prop
  | .membersFindById id, .ok (some row) => row.id = id
  | _, _ => True

/-- How the program of an actor behaves. -/
abbrev NotesWell {α : Type} (server : Server) (actor : Actor)
    (told : α → List (JsString × JsString))
    (p : ServerProg α) (history : List ServerEvent) : Prop :=
  p.Behaves Answerable (notingPre server actor) (NotedEnd told) history

section Behaves

variable {server : Server} {request : HttpRequest} {actor : Actor} {h h' : List ServerEvent}
  {α β : Type} {told : α → List (JsString × JsString)} {e : Thrown} {op : ServerOp}
  {a : Except Thrown (ServerAns op)} {member : Member} {item : WorkItem} {action : JsString}

lemma answerable_of_exec {B : Backend} {i : ℕ} {w w' : World} (hexec : exec B i op w a w') :
    Answerable op a := by
  cases op with
  | membersFindById id =>
    match a with
    | .ok (some row) => exact Table.key_of_find? (exec_membersFindById hexec).1.symm
    | .ok none => trivial
    | .error e => trivial
  | _ => trivial

lemma notedEnd_error : NotedEnd told h (.error e) := by
  intro a ha
  cases ha

lemma notedEnd_ok {a : α} (hnoted : (noted h).map RecordActivityInput.brief = told a) :
    NotedEnd told h (.ok a) := by
  intro a' ha
  cases ha
  exact hnoted

lemma noted_concat (e : ServerEvent) : noted (h ++ [e]) = noted h ++ (noted? e).toList :=
  filterMap_concat ..

lemma OnlyAuthenticates.concat (honly : OnlyAuthenticates h) (hop : op.Authenticates) :
    OnlyAuthenticates (h ++ [⟨op, a⟩]) := by
  intro e he
  rcases List.mem_append.mp he with he | he
  · exact honly e he
  · cases List.mem_singleton.mp he
    exact hop

lemma OnlyAuthenticates.noted (honly : OnlyAuthenticates h) : noted h = [] := by
  apply List.filterMap_eq_nil_iff.mpr
  rintro ⟨op, a⟩ he
  rcases honly _ he with rfl | ⟨id, rfl⟩ <;> rfl

lemma OnlyAuthenticates.not_drew (honly : OnlyAuthenticates h) (uuid : JsString) :
    (⟨.randomUUID, .ok uuid⟩ : ServerEvent) ∉ h := by
  intro he
  rcases honly _ he with h | ⟨id, h⟩ <;> cases h

lemma ActsFor.mono (hacts : ActsFor server h actor member) (hle : h ⊆ h') :
    ActsFor server h' actor member := by
  cases hacts with
  | client presented read accepted => exact .client presented (hle read) accepted
  | runner deps => exact .runner deps

lemma behaves_authenticate :
    (authenticate server request).Behaves Answerable (notingPre server (.client request))
      (fun h r => OnlyAuthenticates h ∧ ∀ member, r = .ok (some member) →
        ActsFor server h (.client request) member) [] := by
  have hnil : OnlyAuthenticates [] := fun _ h => absurd h List.not_mem_nil
  simp only [authenticate]
  cases htoken : bearerToken request with
  | none => exact ⟨hnil, by simp⟩
  | some token =>
    refine .perform_bind trivial (fun now _ => ?_) fun e => ⟨hnil.concat (.inl rfl), by simp⟩
    cases hverify : server.sessions.verify token (some now) with
    | none => exact ⟨hnil.concat (.inl rfl), by simp⟩
    | some memberId =>
      have hfound (r : Except Thrown (Option MemberRow)) :
          OnlyAuthenticates ([] ++ [⟨.now, .ok now⟩] ++ [⟨.membersFindById memberId, r⟩]) :=
        (hnil.concat (.inl rfl)).concat (.inr ⟨memberId, rfl⟩)
      refine .perform_bind trivial (fun row? hrow => ?_) fun e => ⟨hfound _, by simp⟩
      cases row? with
      | none => exact ⟨hfound _, by simp⟩
      | some row =>
        dsimp only
        cases hmember : Db.toMember server.rt row with
        | error e => exact ⟨hfound _, by simp⟩
        | ok member =>
          refine ⟨hfound _, fun _ h => ?_⟩
          cases h
          have hid : member.id = memberId := (Db.toMember_ok hmember).1.trans hrow
          exact .client htoken (by simp) (hid ▸ hverify)

/-- A handler that notes well for every member that the request may act for notes well behind
authentication. -/
lemma notesWell_withCurrentMember {told : Reply → List (JsString × JsString)}
    {handler : Member → ServerProg Reply}
    (htold : ∀ code error message, told (.error code error message) = [])
    (hhandler : ∀ member h, OnlyAuthenticates h → ActsFor server h (.client request) member →
      NotesWell server (.client request) told (handler member) h) :
    NotesWell server (.client request) told (withCurrentMember server request handler) [] := by
  refine behaves_authenticate.bind (fun member? h hend => ?_) fun e h _ => notedEnd_error
  cases member? with
  | none =>
    refine notedEnd_ok ?_
    rw [hend.1.noted, htold]
    rfl
  | some member => exact hhandler member h hend.1 (hend.2 member rfl)

/-- Record something, and go on where that succeeded. -/
lemma notesWell_record {input : RecordActivityInput} {told : β → List (JsString × JsString)}
    {f : Unit → ServerProg β} (hnoting : Noting server actor h input)
    (hok : NotesWell server actor told (f ()) (h ++ [⟨.activitiesInsert input, .ok ()⟩])) :
    NotesWell server actor told (DrizzleActivityLog.record input >>= f) h := by
  refine ⟨hnoting, fun r _ => ?_⟩
  cases r with
  | ok => exact hok
  | error e =>
    show NotesWell server actor told ((if e = .database .foreignKeyViolation then _ else _) >>= f) _
    split_ifs
    · exact notedEnd_error
    · exact notedEnd_error

/-! ### Requests and turns -/

lemma told_error {code : ℕ} {error : JsString} {message : Option JsString} :
    request.told (.error code error message) = [] := rfl

/-- What is answered as told, where nothing was recorded. -/
lemma notedEnd_of_nil {a : α} (hnoted : noted h = []) (htold : told a = []) :
    NotedEnd told h (.ok a) := by
  apply notedEnd_ok
  rw [hnoted, htold]
  rfl

lemma noted_concat_of_nil {e : ServerEvent} (hnoted : noted h = []) (he : noted? e = none) :
    noted (h ++ [e]) = [] := by
  rw [noted_concat, hnoted, he]
  rfl

/-- The first thing that an actor records. -/
lemma Noting.of_nil {input : RecordActivityInput} (hnoted : noted h = [])
    (hresource : input.resourceType = "work_item") (hacts : ActsFor server h actor input.actor)
    (hgrounded : Grounded h input) : Noting server actor h input where
  resourceType := hresource
  acts := hacts
  first input' hinput' := by
    rw [hnoted] at hinput'
    cases hinput'
  grounded := hgrounded

/-- A handler that ends with its only record. -/
lemma notesWell_record_ret {input : RecordActivityInput} {reply : Reply} (hnoted : noted h = [])
    (hresource : input.resourceType = "work_item")
    (hacts : ActsFor server h (.client request) input.actor) (hgrounded : Grounded h input)
    (htold : request.told reply = [input.brief]) :
    NotesWell server (.client request) request.told
      (DrizzleActivityLog.record input >>= fun _ => .ret reply) h := by
  refine notesWell_record (.of_nil hnoted hresource hacts hgrounded) (notedEnd_ok ?_)
  rw [noted_concat, hnoted, htold]
  rfl

lemma notesWell_publish (hroute : request.route = .publish) :
    NotesWell server (.client request) request.told (publish server request) [] := by
  refine notesWell_withCurrentMember (fun _ _ _ => told_error) fun member h honly hacts => ?_
  dsimp only
  cases nonEmptyString? ((Json.orEmpty request.body).prop? "title") with
  | none => exact notedEnd_of_nil honly.noted told_error
  | some title =>
    refine .perform_bind trivial (fun uuid _ => ?_) fun e => notedEnd_error
    cases hitem : WorkItem.create server.rt
      { id := "w_" ++ uuid, title, description := stringOrNull (Json.orEmpty request.body)
          "description", priority := priorityOrZero (Json.orEmpty request.body),
        requiredRole := stringOrNull (Json.orEmpty request.body) "requiredRole" } with
    | error e => exact notedEnd_error
    | ok item =>
      have hopen : item.state = .opened := (WorkItem.create_ok hitem).2.2.2.2.2.1
      refine .perform_bind (fun hstate => absurd hopen hstate) (fun _ _ => ?_) fun e =>
        notedEnd_error
      have hnoted : noted (h ++ [⟨.randomUUID, .ok uuid⟩] ++ [⟨.workItemsSave item, .ok ()⟩]) =
          [] := noted_concat_of_nil (noted_concat_of_nil honly.noted rfl) rfl
      refine notesWell_record_ret hnoted rfl (hacts.mono (by simp)) ?_ ?_
      · exact .publish (by simp) hopen rfl rfl
      · rw [HttpRequest.told, hroute]
        rfl

lemma notesWell_claimNext (hroute : request.route = .claimNext) :
    NotesWell server (.client request) request.told (claimNext server request) [] := by
  refine notesWell_withCurrentMember (fun _ _ _ => told_error) fun member h honly hacts => ?_
  refine .perform_bind trivial (fun claimed? _ => ?_) fun e => notedEnd_error
  have hnoted : noted (h ++ [⟨.workItemsClaimNext member, .ok claimed?⟩]) = [] :=
    noted_concat_of_nil honly.noted rfl
  cases claimed? with
  | none => exact notedEnd_of_nil hnoted told_error
  | some claimed =>
    refine notesWell_record_ret hnoted rfl (hacts.mono (by simp)) ?_ ?_
    · exact .claim (by simp) rfl (.inl rfl)
    · rw [HttpRequest.told, hroute]
      rfl

lemma notesWell_transition {id : JsString} {apply : WorkItem → Except Thrown WorkItem}
    (happly : Moves apply) (haction : "work." ++ action = JsString.ofString "work.start" ∨
      "work." ++ action = JsString.ofString "work.complete")
    (htold : ∀ item, request.told ⟨200, .workItem item⟩ = [("work." ++ action, item.id)]) :
    NotesWell server (.client request) request.told (transition server request id action apply)
      [] := by
  refine notesWell_withCurrentMember (fun _ _ _ => told_error) fun member h honly hacts => ?_
  rw [DrizzleWorkItemRepository.findById_bind]
  refine .perform_bind trivial (fun row? _ => ?_) fun e => notedEnd_error
  have hread : noted (h ++ [⟨.workItemsFindById id, .ok row?⟩]) = [] :=
    noted_concat_of_nil honly.noted rfl
  cases row? with
  | none => exact notedEnd_of_nil hread told_error
  | some row =>
    dsimp only
    cases Db.toWorkItem server.rt row with
    | error e => exact notedEnd_error
    | ok item =>
      dsimp only
      split_ifs with hassignee
      · exact notedEnd_of_nil hread told_error
      rw [not_not] at hassignee
      cases hnext : apply item with
      | error e =>
        cases e with
        | workItemTransition message => exact notedEnd_of_nil hread told_error
        | _ => exact notedEnd_error
      | ok next =>
        obtain ⟨-, hnext_assignee, -, hstate⟩ := happly item next hnext
        refine .perform_bind (fun _ uuid => ?_) (fun _ _ => ?_) fun e => notedEnd_error
        · simpa using honly.not_drew uuid
        have hsaved : noted (h ++ [⟨.workItemsFindById id, .ok (some row)⟩] ++
            [⟨.workItemsSave next, .ok ()⟩]) = [] := noted_concat_of_nil hread rfl
        refine notesWell_record_ret hsaved rfl (hacts.mono (by simp)) ?_ (htold next)
        exact .move (by simp) hstate (hnext_assignee.trans hassignee) rfl haction

/-- Other requests record nothing. -/
lemma notesWell_offBoard {p : ServerProg Reply} (hp : p.All ServerOp.OffBoard)
    (htold : ∀ reply, request.told reply = []) :
    NotesWell server (.client request) request.told p [] := by
  refine (Prog.Behaves.of_all (I := fun h => noted h = []) (fun h op hop _ => ?_)
    (fun h op r hop hnoted => ?_) hp rfl).mono fun r h hnoted a _ => ?_
  · cases op with
    | workItemsSave => exact absurd rfl hop.1
    | activitiesInsert => exact absurd rfl hop.2
    | _ => trivial
  · rw [noted_concat, hnoted]
    cases op with
    | activitiesInsert => exact absurd rfl hop.2
    | _ => rfl
  · rw [hnoted, htold]
    rfl

lemma notesWell_handle (server : Server) (request : HttpRequest) :
    NotesWell server (.client request) request.told (handle server request) [] := by
  by_cases hroute : request.route ≠ .publish ∧ request.route ≠ .claimNext ∧
      ∀ id, request.route ≠ .start id ∧ request.route ≠ .complete id
  · refine notesWell_offBoard (handle_offBoard server request hroute) fun reply => ?_
    obtain ⟨hpublish, hclaim, hmove⟩ := hroute
    simp only [HttpRequest.told]
    cases hr : request.route with
    | publish => exact absurd hr hpublish
    | claimNext => exact absurd hr hclaim
    | start id => exact absurd hr (hmove id).1
    | complete id => exact absurd hr (hmove id).2
    | _ => cases reply.body <;> rfl
  · simp only [handle]
    cases hr : request.route with
    | publish => exact notesWell_publish hr
    | claimNext => exact notesWell_claimNext hr
    | start id =>
      exact notesWell_transition start_moves (.inl rfl) fun item => by
        rw [HttpRequest.told, hr]
        rfl
    | complete id =>
      exact notesWell_transition complete_moves (.inr rfl) fun item => by
        rw [HttpRequest.told, hr]
        rfl
    | _ => exact absurd ⟨by simp [hr], by simp [hr], by simp [hr]⟩ hroute

lemma notesWell_runOnce (server : Server) (deps : AgentRunnerDeps) :
    NotesWell server (.runner deps) AgentRunResult.told (AgentRunner.runOnce deps) [] := by
  refine .perform_bind trivial (fun claimed? _ => ?_) fun e => notedEnd_error
  cases claimed? with
  | none => exact notedEnd_of_nil rfl rfl
  | some claimed =>
    refine notesWell_record (.of_nil rfl rfl (.runner deps) ?_) ?_
    · exact .claim (by simp) rfl (.inl rfl)
    refine .perform_bind trivial (fun content _ => ?_) fun e => notedEnd_error
    cases hdone : claimed.start >>= WorkItem.complete with
    | error e => exact notedEnd_error
    | ok done =>
      have hid : done.id = claimed.id := by
        obtain ⟨started, hstart, hcomplete⟩ := bind_eq_ok.mp hdone
        rw [(complete_moves started done hcomplete).1, (start_moves claimed started hstart).1]
      refine .perform_bind (fun _ uuid => by simp) (fun _ _ => ?_) fun e => notedEnd_error
      have hfirst : ("work.claim" : JsString) ≠ "work.complete" := by decide
      refine notesWell_record ⟨rfl, .runner deps, fun input' hinput' => ?_, ?_⟩ (notedEnd_ok ?_)
      · cases List.mem_singleton.mp hinput'
        exact hfirst
      · exact .claim (by simp) hid.symm (.inr rfl)
      · show [(JsString.ofString "work.claim", claimed.id), (_, done.id)] =
          [(_, done.id), (_, done.id)]
        rw [hid]

lemma notesWell_program (server : Server) (actor : Actor) :
    NotesWell server actor actor.told (actor.program server) [] := by
  cases actor with
  | client request =>
    refine (notesWell_handle server request).map _ fun r h hend => ?_
    cases r with
    | ok reply => exact notedEnd_ok (hend reply rfl)
    | error e => exact notedEnd_error
  | runner deps =>
    refine (notesWell_runOnce server deps).map _ fun r h hend => ?_
    cases r with
    | ok result => exact notedEnd_ok (hend result rfl)
    | error e => exact notedEnd_error

end Behaves

/-! ### What is saved lasts -/

/-- A saved item is held from then on by the assignee that it was saved with, or it was posted under
an identifier that its program drew. -/
inductive Saved (s : RecordedWorld) (i : ℕ) (item : WorkItem) : Prop where
  | moved (hstate : item.state ≠ .opened) (held : HeldBy item.id item.assigneeMemberId s.1)
  | posted {uuid : JsString} (hopen : item.state = .opened) (drew : Drew s.2 i uuid)
      (hid : item.id = "w_" ++ uuid) (posted : OnBoard item.id s)

/-- The operation keeps to what its actor keeps to by itself. -/
def NotedByActor (server : Server) (actors : List Actor) (i : ℕ) (history : List ServerEvent)
    (op : ServerOp) : Prop :=
  ∃ actor, actors[i]? = some actor ∧ notingPre server actor history op

section Run

variable {B : Backend} {server : Server} {actors : List Actor} {i j : ℕ} {op : ServerOp}
  {a : Except Thrown (ServerAns op)} {s s' : RecordedWorld} {item : WorkItem}

lemma Saved.step (hsaved : Saved s j item) (hpre : boardPre actors i op s)
    (h : recorded (exec B) i op s a s') : Saved s' j item := by
  cases hsaved with
  | moved hstate held => exact .moved hstate (held.step hpre h.1)
  | posted hopen drew hid hposted => exact .posted hopen (drew.step h) hid (hposted.step h)

/-- Everything that was saved is saved in this sense. -/
def SavesLast (s : RecordedWorld) : Prop :=
  ∀ i item, (⟨i, .workItemsSave item, .ok ()⟩ : ServerLabel) ∈ s.2 → Saved s i item

lemma SavesLast.step (hsaves : SavesLast s) (hpre : boardPre actors i op s)
    (hnoted : NotedByActor server actors i (ownEvents i s.2) op)
    (h : recorded (exec B) i op s a s') : SavesLast s' := by
  intro j item hmem
  rw [h.2, List.mem_append, List.mem_singleton] at hmem
  rcases hmem with hmem | hmem
  · exact (hsaves j item hmem).step hpre h
  · cases hmem
    obtain ⟨row, hset, hid, hstate, hassignee⟩ := exec_workItemsSave h.1
    have hrow : s'.1.db.workItems.find? item.id = some row := by
      rw [hset, ← hid, Table.find?_set_self]
    rcases hpre.1 with ⟨hmoved, -⟩ | ⟨drew, hdrawn, -⟩
    · exact .moved hmoved ⟨row, hrow, hstate ▸ hmoved, hassignee⟩
    · refine .posted ?_ (drew.step h) hdrawn (Option.isSome_of_eq_some hrow)
      obtain ⟨actor, -, hkeeps⟩ := hnoted
      by_contra hmoved
      exact hkeeps hmoved _ (mem_ownEvents.mpr drew)

/-- In every run, what was saved lasts. -/
lemma savesLast_of_run {w : World} {ls : List ServerLabel}
    {c : Config ServerOp ServerAns Thrown ActorResult World}
    (run : Run (exec B) ⟨w, actors.map (Actor.program server)⟩ ls c)
    (hnoted : Always
      (fun pre l => NotedByActor server actors l.thread (ownEvents l.thread pre) l.op)
      ls) : SavesLast (c.store, ls) := by
  have htrace := (disciplined_actors B server actors w).trace run.recorded
  have hkept : BoardInv (c.store, ls) ∧ SavesLast (c.store, ls) ∧ ls = ls := by
    refine htrace.invariant (P := fun ls s => BoardInv s ∧ SavesLast s ∧ s.2 = ls) ?_ ?_ hnoted
    · exact ⟨(disciplined_actors B server actors w).inv, nofun, rfl⟩
    · rintro ls s i op a s' ⟨hinv, hsaves, rfl⟩ hnoted ⟨hpre, hexec⟩
      exact ⟨hinv.step hpre hexec, hsaves.step hpre hnoted hexec, hexec.2⟩
  exact hkept.2.1

/-! ### The records of a run -/

variable {w : World} {ls : List ServerLabel} {input input' : RecordActivityInput}
  {c : Config ServerOp ServerAns Thrown ActorResult World}

lemma exec_activitiesInsert_keeps {w' : World}
    (h : exec B i (.activitiesInsert input) w (.ok ()) w') :
    ∃ row, w'.db.activities = w.db.activities ++ [row] ∧ row.Keeps input := by
  obtain ⟨o, -, h⟩ := exec_ok h
  have hinsert := commit_map_ok h
  simp only [Db.insertActivity] at hinsert
  split_ifs at hinsert
  have hdb := Except.ok.inj hinsert
  exact ⟨_, by rw [← hdb], rfl, rfl, rfl, rfl, rfl, rfl⟩

lemma noted_snoc (l : ServerLabel) : noted ((ls ++ [l]).map Label.event) =
    noted (ls.map Label.event) ++ (noted? l.event).toList := by
  rw [List.map_append]
  exact noted_concat _

/-- The log has grown by the records of the run, in their order. -/
lemma activities_of_run (run : Run (exec B) ⟨w, actors.map (Actor.program server)⟩ ls c) :
    ∃ rows, c.store.db.activities = w.db.activities ++ rows ∧
      List.Forall₂ ActivityRow.Keeps rows (noted (ls.map Label.event)) := by
  refine run.trace.invariant (P := fun ls w' => ∃ rows, w'.db.activities = w.db.activities ++ rows ∧
    List.Forall₂ ActivityRow.Keeps rows (noted (ls.map Label.event))) (G := fun _ _ => True)
    ⟨[], (List.append_nil _).symm, .nil⟩ ?_ fun _ _ _ _ => trivial
  rintro ls w₁ i op a w₂ ⟨rows, hrows, hkeeps⟩ - hexec
  rw [noted_snoc]
  have hsame : noted? ⟨op, a⟩ = none → w₂.db.activities = w₁.db.activities →
      ∃ rows, w₂.db.activities = w.db.activities ++ rows ∧ List.Forall₂ ActivityRow.Keeps rows
        (noted (ls.map Label.event) ++ (noted? ⟨op, a⟩).toList) := by
    intro hnone hlog
    refine ⟨rows, hlog.trans hrows, ?_⟩
    rw [hnone]
    simpa using hkeeps
  cases op with
  | activitiesInsert input =>
    cases a with
    | error e => exact hsame rfl (by rw [exec_error hexec])
    | ok =>
      obtain ⟨row, hlog, hrow⟩ := exec_activitiesInsert_keeps hexec
      refine ⟨rows ++ [row], ?_, List.rel_append hkeeps (.cons hrow .nil)⟩
      rw [hlog, hrows, List.append_assoc]
  | _ => exact hsame rfl ((exec_framed hexec).activities (by simp [ServerOp.table]))

lemma noted?_eq_some {e : ServerEvent} :
    noted? e = some input ↔ e = ⟨.activitiesInsert input, .ok ()⟩ := by
  constructor
  · intro hnoted
    obtain ⟨op, a⟩ := e
    cases op with
    | activitiesInsert input' =>
      cases a with
      | error e => cases hnoted
      | ok =>
        cases hnoted
        rfl
    | _ => cases hnoted
  · rintro rfl
    rfl

lemma mem_noted {h : List ServerEvent} :
    input ∈ noted h ↔ (⟨.activitiesInsert input, .ok ()⟩ : ServerEvent) ∈ h := by
  simp only [noted, List.mem_filterMap, noted?_eq_some, exists_eq_right]

lemma mem_noted_run : input ∈ noted (ls.map Label.event) ↔
    ∃ i, (⟨i, .activitiesInsert input, .ok ()⟩ : ServerLabel) ∈ ls := by
  rw [mem_noted, List.mem_map]
  constructor
  · rintro ⟨⟨i, op, a⟩, hl, heq⟩
    cases heq
    exact ⟨i, hl⟩
  · rintro ⟨i, hl⟩
    exact ⟨_, hl, rfl⟩

lemma Grounded.mono {h h' : List ServerEvent} (hgrounded : Grounded h input) (hle : h ⊆ h') :
    Grounded h' input := by
  cases hgrounded with
  | publish saved hopen hid haction => exact .publish (hle saved) hopen hid haction
  | claim claimed hid haction => exact .claim (hle claimed) hid haction
  | move saved hstate hassignee hid haction => exact .move (hle saved) hstate hassignee hid haction

/-- Every operation of the run keeps to what its actor keeps to by itself. -/
abbrev AllNoted (server : Server) (actors : List Actor) (ls : List ServerLabel) : Prop :=
  Always (fun pre l => NotedByActor server actors l.thread (ownEvents l.thread pre) l.op) ls

/-- What is known of a record of the run, by the own history of its program. -/
lemma AllNoted.record (hnoted : AllNoted server actors ls)
    (hl : (⟨i, .activitiesInsert input, .ok ()⟩ : ServerLabel) ∈ ls) :
    ∃ actor, actors[i]? = some actor ∧ input.resourceType = "work_item" ∧
      ActsFor server (ownEvents i ls) actor input.actor ∧ Grounded (ownEvents i ls) input := by
  obtain ⟨pre, post, rfl⟩ := List.append_of_mem hl
  obtain ⟨actor, hactor, hnoting⟩ := hnoted pre _ post rfl
  have hle :
      ownEvents i pre ⊆ ownEvents i (pre ++ ⟨i, .activitiesInsert input, .ok ()⟩ :: post) := by
    intro e he
    exact mem_ownEvents.mpr (List.mem_append_left _ (mem_ownEvents.mp he))
  exact ⟨actor, hactor, hnoting.resourceType, hnoting.acts.mono hle, hnoting.grounded.mono hle⟩

/-- No item has two records of an action that two programs cannot record of one item. -/
lemma AllNoted.nodup (hnoted : AllNoted server actors ls) (action : JsString)
    (hone : ∀ i j input input', (⟨i, .activitiesInsert input, .ok ()⟩ : ServerLabel) ∈ ls →
      (⟨j, .activitiesInsert input', .ok ()⟩ : ServerLabel) ∈ ls → input.action = action →
      input'.action = action → input'.resourceId = input.resourceId → i = j) :
    (((noted (ls.map Label.event)).filter fun input => input.action = action).map
      RecordActivityInput.resourceId).Nodup := by
  induction ls using List.reverseRecOn with
  | nil => exact List.nodup_nil
  | append_singleton ls l ih =>
    obtain ⟨hbefore, hlast⟩ := Always.concat_iff.mp hnoted
    have hold := ih hbefore fun i j input input' hi hj =>
      hone i j input input' (List.mem_append_left _ hi) (List.mem_append_left _ hj)
    rw [noted_snoc, List.filter_append, List.map_append]
    cases hnew : noted? l.event with
    | none => simpa using hold
    | some input =>
      by_cases haction : input.action = action
      swap
      · simpa [haction] using hold
      obtain ⟨i, op, a⟩ := l
      cases noted?_eq_some.mp hnew
      rw [Option.toList_some, List.filter_singleton, decide_eq_true haction, cond_true,
        List.map_singleton, List.nodup_append]
      refine ⟨hold, List.nodup_singleton _, ?_⟩
      rintro _ hmem _ hsame rfl
      obtain ⟨input', hinput', hid⟩ := List.mem_map.mp hmem
      obtain ⟨hinput', haction'⟩ := List.mem_filter.mp hinput'
      obtain ⟨j, hj⟩ := mem_noted_run.mp hinput'
      -- the earlier record is of the same program, which records an action once
      obtain rfl : i = j := hone i j input input' (List.mem_append_right _ List.mem_cons_self)
        (List.mem_append_left _ hj) haction (of_decide_eq_true haction')
        (hid.trans (List.mem_singleton.mp hsame))
      obtain ⟨actor, -, hnoting⟩ := hlast
      have hown : input' ∈ noted (ownEvents i ls) := mem_noted.mpr (mem_ownEvents.mpr hj)
      exact hnoting.first input' hown ((of_decide_eq_true haction').trans haction.symm)

/-- Two programs that record a claim of one item have made the same claim. -/
lemma AllNoted.claim_once (hnoted : AllNoted server actors ls) (hinv : BoardInv (c.store, ls))
    (hi : (⟨i, .activitiesInsert input, .ok ()⟩ : ServerLabel) ∈ ls)
    (hj : (⟨j, .activitiesInsert input', .ok ()⟩ : ServerLabel) ∈ ls)
    (haction : input.action = "work.claim") (haction' : input'.action = "work.claim")
    (hsame : input'.resourceId = input.resourceId) : i = j := by
  have hclaimed : ∀ {i input}, (⟨i, .activitiesInsert input, .ok ()⟩ : ServerLabel) ∈ ls →
      input.action = "work.claim" → ∃ item : WorkItem, item.id = input.resourceId ∧
        (⟨i, .workItemsClaimNext input.actor, .ok (some item)⟩ : ServerLabel) ∈ ls := by
    intro i input hl haction
    obtain ⟨-, -, -, -, hgrounded⟩ := hnoted.record hl
    cases hgrounded with
    | publish _ _ _ h =>
      rw [haction] at h
      exact absurd h (by decide)
    | claim claimed hid => exact ⟨_, hid, mem_ownEvents.mp claimed⟩
    | move _ _ _ _ h =>
      rw [haction] at h
      exact absurd h (by decide)
  obtain ⟨item, hid, hclaim⟩ := hclaimed hi haction
  obtain ⟨item', hid', hclaim'⟩ := hclaimed hj haction'
  have hnodup := hinv.claims_nodup
  rw [claims, List.map_filterMap] at hnodup
  have hlabel := eq_of_nodup_filterMap hnodup hclaim hclaim' rfl
    (congrArg some (hid'.trans (hsame.trans hid.symm)))
  exact congrArg Label.thread hlabel

/-- Two programs that record the publication of one item have drawn the same identifier. -/
lemma AllNoted.publish_once (hnoted : AllNoted server actors ls) (hinv : BoardInv (c.store, ls))
    (hsaves : SavesLast (c.store, ls))
    (hi : (⟨i, .activitiesInsert input, .ok ()⟩ : ServerLabel) ∈ ls)
    (hj : (⟨j, .activitiesInsert input', .ok ()⟩ : ServerLabel) ∈ ls)
    (haction : input.action = "work.publish") (haction' : input'.action = "work.publish")
    (hsame : input'.resourceId = input.resourceId) : i = j := by
  have hdrew : ∀ {i input}, (⟨i, .activitiesInsert input, .ok ()⟩ : ServerLabel) ∈ ls →
      input.action = "work.publish" → ∃ uuid, Drew ls i uuid ∧ input.resourceId = "w_" ++ uuid := by
    intro i input hl haction
    obtain ⟨-, -, -, -, hgrounded⟩ := hnoted.record hl
    cases hgrounded with
    | publish saved hopen hid =>
      cases hsaves i _ (mem_ownEvents.mp saved) with
      | moved hstate => exact absurd hopen hstate
      | posted _ drew hdrawn => exact ⟨_, drew, hid.symm.trans hdrawn⟩
    | claim _ _ h =>
      rw [haction] at h
      exact absurd h (by decide)
    | move _ _ _ _ h =>
      rw [haction] at h
      exact absurd h (by decide)
  obtain ⟨uuid, drew, hid⟩ := hdrew hi haction
  obtain ⟨uuid', drew', hid'⟩ := hdrew hj haction'
  rw [hid, hid'] at hsame
  cases List.append_cancel_left hsame
  exact hinv.drawn_once i j uuid drew drew'

/-- What a record of the run tells is so at its end. -/
lemma AllNoted.isTrue (hnoted : AllNoted server actors ls) (hinv : BoardInv (c.store, ls))
    (hsaves : SavesLast (c.store, ls))
    (hl : (⟨i, .activitiesInsert input, .ok ()⟩ : ServerLabel) ∈ ls) : input.IsTrue c.store := by
  obtain ⟨-, -, -, -, hgrounded⟩ := hnoted.record hl
  cases hgrounded with
  | publish saved hopen hid haction =>
    cases hsaves i _ (mem_ownEvents.mp saved) with
    | moved hstate => exact absurd hopen hstate
    | posted _ _ _ hposted => exact .publish haction (hid ▸ hposted)
  | @claim item claimed hid haction =>
    have hmem : (input.actor, item) ∈ claims ls :=
      List.mem_filterMap.mpr ⟨_, mem_ownEvents.mp claimed, rfl⟩
    refine .held ?_ (hid ▸ hinv.claims_held _ hmem)
    rcases haction with h | h
    · exact .inl h
    · exact .inr (.inr h)
  | move saved hstate hassignee hid haction =>
    cases hsaves i _ (mem_ownEvents.mp saved) with
    | moved _ held => exact .held (.inr haction) (hid ▸ hassignee ▸ held)
    | posted hopen => exact absurd hopen hstate

/-! ### Every interleaving -/

/-- The records that a run has added to the log: who they name, what they tell of the board, and
what those tell who have ended. -/
structure TruthfulLog (server : Server) (actors : List Actor) (w : World) (ls : List ServerLabel)
    (c : Config ServerOp ServerAns Thrown ActorResult World) : Prop where
  /-- The log has a row for each record of the run, in order, after the rows it had. -/
  appended : ∃ rows, c.store.db.activities = w.db.activities ++ rows ∧
    List.Forall₂ ActivityRow.Keeps rows (noted (ls.map Label.event))
  /-- A record names who acts for its actor. -/
  acts : ∀ i input, (⟨i, .activitiesInsert input, .ok ()⟩ : ServerLabel) ∈ ls →
    ∃ actor, actors[i]? = some actor ∧ ActsFor server (ownEvents i ls) actor input.actor
  /-- A record is about an item, and what it tells is so. -/
  isTrue : ∀ input ∈ noted (ls.map Label.event),
    input.resourceType = "work_item" ∧ input.IsTrue c.store
  claimed_once : (((noted (ls.map Label.event)).filter
    fun input => input.action = JsString.ofString "work.claim").map
      RecordActivityInput.resourceId).Nodup
  published_once : (((noted (ls.map Label.event)).filter
    fun input => input.action = JsString.ofString "work.publish").map
      RecordActivityInput.resourceId).Nodup
  /-- Who has ended has recorded what the result tells, and nothing else. -/
  answered : ∀ (i : ℕ) actor result, actors[i]? = some actor → c.pool[i]? = some (.ret result) →
    (noted (ownEvents i ls)).map RecordActivityInput.brief = actor.told result

/-- Whoever works on the board, in whatever order, and whatever fails, the log is truthful. -/
theorem log_truthful (B : Backend) (server : Server) (actors : List Actor) (w : World)
    (run : Run (exec B) ⟨w, actors.map (Actor.program server)⟩ ls c) :
    TruthfulLog server actors w ls c := by
  have hpool : ∀ i (p : ServerProg ActorResult),
      (actors.map (Actor.program server))[i]? = some p →
        p.Behaves Answerable (NotedByActor server actors i) (fun h r =>
          ∀ actor, actors[i]? = some actor → NotedEnd actor.told h r) [] := by
    intro i p hp
    rw [List.getElem?_map, Option.map_eq_some_iff] at hp
    obtain ⟨actor, hactor, rfl⟩ := hp
    have hpre : NotedByActor server actors i = notingPre server actor := by
      funext h op
      simp [NotedByActor, hactor]
    rw [hpre]
    refine (notesWell_program server actor).mono fun r h hend actor' hactor' => ?_
    cases hactor.symm.trans hactor'
    exact hend
  obtain ⟨hbehaves, hnoted⟩ := run.behaves answerable_of_exec hpool
  have hinv := ((disciplined_actors B server actors w).run run.recorded).inv
  have hsaves := savesLast_of_run run hnoted
  exact {
    appended := activities_of_run run
    acts := fun i input hl => by
      obtain ⟨actor, hactor, -, hacts, -⟩ := AllNoted.record hnoted hl
      exact ⟨actor, hactor, hacts⟩
    isTrue := fun input hinput => by
      obtain ⟨i, hl⟩ := mem_noted_run.mp hinput
      obtain ⟨-, -, hresource, -⟩ := AllNoted.record hnoted hl
      exact ⟨hresource, AllNoted.isTrue hnoted hinv hsaves hl⟩
    claimed_once := AllNoted.nodup hnoted _ fun _ _ _ _ hi hj haction haction' =>
      AllNoted.claim_once hnoted hinv hi hj haction haction'
    published_once := AllNoted.nodup hnoted _ fun _ _ _ _ hi hj haction haction' =>
      AllNoted.publish_once hnoted hinv hsaves hi hj haction haction'
    answered := fun i actor result hactor hresult =>
      Run.behaves_result (r := .ok result) hbehaves hresult actor hactor result rfl }

end Run

/-! One request posts an item, while an agent takes its turn with another one. -/

theorem log_truthful_posting : ∃ ls c,
    Run (exec .faultless) ⟨⟨Db.board none, []⟩, postingActors.map (Actor.program someServer)⟩ ls c ∧
      (noted (ls.map Label.event)).map RecordActivityInput.brief =
        [(("work.publish" : JsString), ("w_2" : JsString)), ("work.claim", "w_1"),
          ("work.complete", "w_1")] ∧
      TruthfulLog someServer postingActors ⟨Db.board none, []⟩ ls c := by
  have hnoted : (follow (World.attempt .faultless) postingSchedule
      ⟨⟨Db.board none, []⟩, postingActors.map (Actor.program someServer)⟩).map
        (fun (ls, _) => (noted (ls.map Label.event)).map RecordActivityInput.brief) =
      some [(("work.publish" : JsString), ("w_2" : JsString)), ("work.claim", "w_1"),
        ("work.complete", "w_1")] := by
    decide +kernel
  obtain ⟨⟨ls, c⟩, hfollow, hnoted⟩ := Option.map_eq_some_iff.mp hnoted
  exact ⟨ls, c, run_of_follow hfollow, hnoted,
    log_truthful .faultless someServer postingActors _ (run_of_follow hfollow)⟩

end WorkspaceOs
