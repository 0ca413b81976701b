import WorkspaceOs.Server.ExactlyOnce
import WorkspaceOs.Server.SessionToken

/-!
# Who changes the board

Whatever a client sends, it changes the board only as the member that its token was accepted for:
the records name that member, and a transition is made on that member's items. A request that is
turned away has changed nothing.
-/

namespace WorkspaceOs

open Js Effect Relational

/-- The routes that move a claimed item on. -/
def Route.IsTransition (route : Route) : Prop := ∃ id, route = .start id ∨ route = .complete id

/-- The routes that may change the board. -/
def Route.ChangesBoard (route : Route) : Prop :=
  route = .publish ∨ route = .claimNext ∨ route.IsTransition

/-- The codes of the replies that turn a request away. -/
def turnedAway : List ℕ := [401, 403, 404, 409]

/-- What was performed leaves the board as it is. -/
def Quiet (l : ServerLabel) : Prop :=
  l.op.OffBoard ∨ ∃ i member, l = ⟨i, .workItemsClaimNext member, .ok none⟩

/-- The item is on the board. -/
def OnBoard (id : JsString) (s : RecordedWorld) : Prop := (s.1.db.workItems.find? id).isSome

/-- What the request of a client keeps to. It reads the clock once, it writes as an authenticated
member, and a transition writes an item of that member. -/
def attributionPre (server : Server) (request : HttpRequest) (i : ℕ) (op : ServerOp)
    (s : RecordedWorld) : Prop :=
  match op with
  | .workItemsSave item => request.route.ChangesBoard ∧ ∃ memberId,
      Authenticated server request i memberId s ∧
        (request.route.IsTransition → item.assigneeMemberId = some memberId ∧ OnBoard item.id s)
  | .workItemsClaimNext member => request.route = .claimNext ∧
      Authenticated server request i member.id s
  | .activitiesInsert input => request.route.ChangesBoard ∧
      Authenticated server request i input.actor.id s
  | .now => request.route.ChangesBoard → ∀ t, (⟨i, .now, .ok t⟩ : ServerLabel) ∉ s.2
  | _ => True

/-- A request on the board is authenticated at one time. -/
def ClockReadOnce (actors : List Actor) (s : RecordedWorld) : Prop :=
  ∀ (i : ℕ) request, actors[i]? = some (Actor.client request) → request.route.ChangesBoard →
    ∀ t t', (⟨i, .now, .ok t⟩ : ServerLabel) ∈ s.2 →
      (⟨i, .now, .ok t'⟩ : ServerLabel) ∈ s.2 → t = t'

lemma ClockReadOnce.step {B : Backend} {server : Server} {actors : List Actor} {i : ℕ}
    {op : ServerOp} {s s' : RecordedWorld} {a : Except Thrown (ServerAns op)}
    (honce : ClockReadOnce actors s)
    (hpre : ∀ request, actors[i]? = some (.client request) → attributionPre server request i op s)
    (h : recorded (exec B) i op s a s') : ClockReadOnce actors s' := by
  intro j request hrequest hroute t t' ht ht'
  rw [h.2, List.mem_append, List.mem_singleton] at ht ht'
  have hnew {u : ℤ} (hu : (⟨j, .now, .ok u⟩ : ServerLabel) = ⟨i, op, a⟩) (v : ℤ) :
      (⟨j, .now, .ok v⟩ : ServerLabel) ∉ s.2 := by
    cases hu
    exact hpre request hrequest hroute v
  rcases ht with ht | ht <;> rcases ht' with ht' | ht'
  · exact honce j request hrequest hroute t t' ht ht'
  · exact absurd ht (hnew ht' t)
  · exact absurd ht' (hnew ht t')
  · cases ht.trans ht'.symm
    rfl

/-- The discipline of the clients; what anybody else does is no concern of it. -/
def attributionDiscipline (B : Backend) (server : Server) (actors : List Actor) :
    Discipline (recorded (exec B)) where
  inv := ClockReadOnce actors
  pre i op s :=
    ∀ request, actors[i]? = some (.client request) → attributionPre server request i op s
  keeps := ClockReadOnce.step

/-- How a request ends: turned away, it was quiet from the beginning. -/
def QuietIfTurnedAway (i : ℕ) (r : Except Thrown Reply) (s : RecordedWorld) : Prop :=
  ∀ reply, r = .ok reply → reply.code ∈ turnedAway → ∀ l ∈ ownLabels i s.2, Quiet l

section Step

variable {B : Backend} {i : ℕ} {op : ServerOp} {s s' : RecordedWorld} {w w' : World}
  {a : Except Thrown (ServerAns op)} {id : JsString}

/-- Items are never deleted. -/
lemma OnBoard.step (hon : OnBoard id s) (h : recorded (exec B) i op s a s') : OnBoard id s' := by
  simp only [OnBoard] at *
  cases op with
  | workItemsSave item =>
    cases a with
    | error e => rwa [exec_error h.1]
    | ok =>
      obtain ⟨row, hset, -⟩ := exec_workItemsSave h.1
      rw [hset]
      exact Table.isSome_find?_set hon
  | workItemsClaimNext member =>
    match a with
    | .error e => rwa [exec_error h.1]
    | .ok none => rwa [exec_workItemsClaimNext_none h.1]
    | .ok (some claimed) =>
      obtain ⟨row, row', item, -, -, -, -, hset, -⟩ := exec_workItemsClaimNext h.1
      rw [hset]
      exact Table.isSome_find?_set hon
  | _ => rwa [workItems_of_exec h.1 (by simp [ServerOp.table])]

lemma onBoard_lasting {D : Discipline (recorded (exec B))} (id : JsString) :
    D.Lasting (OnBoard id) :=
  fun _ _ _ _ _ _ _ h hon => hon.step h

/-- The board as far as it is visible: its items and the records about them. -/
def SameBoard (w w' : World) : Prop :=
  w'.db.workItems = w.db.workItems ∧ w'.db.activities = w.db.activities

lemma Quiet.sameBoard (hquiet : Quiet ⟨i, op, a⟩) (h : exec B i op w a w') : SameBoard w w' := by
  rcases hquiet with ⟨hitems, hrecords⟩ | ⟨j, member, hl⟩
  · exact ⟨(exec_framed h).workItems hitems, (exec_framed h).activities hrecords⟩
  · cases hl
    exact ⟨by rw [exec_workItemsClaimNext_none h],
      (exec_framed h).activities (by simp [ServerOp.table])⟩

end Step

/-! ### What a client does -/

section Client

variable {B : Backend} {server : Server} {actors : List Actor} {request : HttpRequest} {i : ℕ}
  {s s' : RecordedWorld}

/-- Program `i` has left the board as it is so far. -/
def QuietSoFar (i : ℕ) (s : RecordedWorld) : Prop := ∀ l ∈ ownLabels i s.2, Quiet l

lemma quietSoFar_stable {D : Discipline (recorded (exec B))} : D.Stable i (QuietSoFar i) := by
  rintro s s' hquiet ⟨j, op, a, hne, -, -, h⟩
  rwa [QuietSoFar, h.2, ownLabels_of_ne hne]

lemma QuietSoFar.step {op : ServerOp} {a : Except Thrown (ServerAns op)} (hquiet : QuietSoFar i s)
    (hl : Quiet ⟨i, op, a⟩) (h : recorded (exec B) i op s a s') : QuietSoFar i s' := by
  rw [QuietSoFar, h.2, ownLabels_self]
  intro l hmem
  rcases List.mem_append.mp hmem with hmem | hmem
  · exact hquiet l hmem
  · exact List.mem_singleton.mp hmem ▸ hl

lemma QuietSoFar.offBoard {op : ServerOp} {a : Except Thrown (ServerAns op)}
    (hquiet : QuietSoFar i s) (hop : op.OffBoard) (h : recorded (exec B) i op s a s') :
    QuietSoFar i s' := hquiet.step (show Quiet ⟨i, op, a⟩ from .inl hop) h

lemma attributionPre_offBoard {op : ServerOp} (hroute : ¬ request.route.ChangesBoard)
    (hop : op.OffBoard) (s : RecordedWorld) : attributionPre server request i op s := by
  cases op with
  | workItemsSave | workItemsClaimNext => exact absurd rfl hop.1
  | activitiesInsert => exact absurd rfl hop.2
  | now => exact fun h => absurd h hroute
  | _ => trivial

lemma quietIfTurnedAway_stable {D : Discipline (recorded (exec B))} (r : Except Thrown Reply) :
    D.Stable i (QuietIfTurnedAway i r) :=
  fun s s' h step reply hr hcode => quietSoFar_stable s s' (h reply hr hcode) step

/-- A request that was quiet so far may end in any way. -/
lemma safe_quiet (r : Except Thrown Reply) (hquiet : QuietSoFar i s) :
    (attributionDiscipline B server actors).Safe i (QuietIfTurnedAway i) (.ofExcept r) s := by
  cases r with
  | ok reply => exact .ret (quietIfTurnedAway_stable _) fun _ _ _ => hquiet
  | error e => exact .throw (quietIfTurnedAway_stable _) fun _ _ _ => hquiet

/-- A request may throw at any time. -/
lemma safe_failed (e : Thrown) :
    (attributionDiscipline B server actors).Safe i (QuietIfTurnedAway i) (.throw e) s :=
  .throw (quietIfTurnedAway_stable _) nofun

lemma safe_accepted {reply : Reply} (hcode : reply.code ∉ turnedAway) :
    (attributionDiscipline B server actors).Safe i (QuietIfTurnedAway i) (.ret reply) s := by
  refine .ret (quietIfTurnedAway_stable _) fun reply' h hmem => ?_
  cases h
  exact absurd hmem hcode

variable (hclient : actors[i]? = some (.client request))
include hclient

/-- What the client's own request keeps to is all that is asked of program `i`. -/
lemma pre_of_client {op : ServerOp} (h : attributionPre server request i op s) :
    (attributionDiscipline B server actors).pre i op s := by
  intro request' hrequest'
  cases hclient.symm.trans hrequest'
  exact h

/-- A program that stays off the board may end in any way. -/
lemma safe_offBoard (hroute : ¬ request.route.ChangesBoard) {p : ServerProg Reply}
    (hp : p.All ServerOp.OffBoard) (hquiet : QuietSoFar i s) :
    (attributionDiscipline B server actors).Safe i (QuietIfTurnedAway i) p s :=
  (Discipline.Safe.all quietSoFar_stable
    (fun _ hop s _ _ => pre_of_client hclient (attributionPre_offBoard hroute hop s))
    (fun _ hop _ _ _ _ hquiet h => hquiet.offBoard hop h) hp hquiet).mono
      fun _ _ hquiet _ _ _ => hquiet

/-- A handler that is safe for every authenticated member is safe behind authentication, which comes
first. -/
lemma safe_authenticated {handler : Member → ServerProg Reply}
    (hhandler : ∀ member s, QuietSoFar i s → Authenticated server request i member.id s →
      (attributionDiscipline B server actors).Safe i (QuietIfTurnedAway i) (handler member) s)
    (hs : ownLabels i s.2 = []) :
    (attributionDiscipline B server actors).Safe i (QuietIfTurnedAway i)
      (withCurrentMember server request handler) s := by
  refine safe_withCurrentMember_of_le (Discipline.ownLabels_stable []) quietSoFar_stable
    (fun s hs l hl => ?_) (fun s _ hs => pre_of_client hclient fun _ t hread => ?_)
    (fun id s _ _ => pre_of_client hclient ?_)
    (fun _ hop _ _ _ _ hquiet h => hquiet.offBoard hop.readOnly.offBoard h) hhandler
    (fun _ hquiet => safe_quiet (.ok _) hquiet) (fun e _ _ => safe_failed e) hs
  · rw [hs] at hl
    cases hl
  · have hown := mem_ownLabels.mpr ⟨hread, rfl⟩
    rw [hs] at hown
    cases hown
  · exact (trivial : attributionPre server request i (.membersFindById id) s)

/-- Recording as the authenticated member, and then answering. -/
lemma safe_recordAs (hroute : request.route.ChangesBoard) {member : Member} {action : JsString}
    {item : WorkItem} {reply : Reply} (hmember : Authenticated server request i member.id s)
    (hcode : reply.code ∉ turnedAway) :
    (attributionDiscipline B server actors).Safe i (QuietIfTurnedAway i)
      (do recordWork member action item
          return reply) s := by
  refine .call _ (authenticated_lasting member.id).stable hmember
    (fun _ _ hmember => pre_of_client hclient ⟨hroute, hmember⟩) fun t a t' _ _ _ => ?_
  cases a with
  | ok => exact safe_accepted hcode
  | error e =>
    show (attributionDiscipline B server actors).Safe i _
      ((if e = .database .foreignKeyViolation then _ else _) >>= _) t'
    split_ifs
    · exact safe_failed _
    · exact safe_failed _

lemma safe_publishAs (hroute : request.route = .publish) (hs : ownLabels i s.2 = []) :
    (attributionDiscipline B server actors).Safe i (QuietIfTurnedAway i)
      (publish server request) s := by
  refine safe_authenticated hclient (fun member s hquiet hmember => ?_) hs
  dsimp only
  cases nonEmptyString? ((Json.orEmpty request.body).prop? "title") with
  | none => exact safe_quiet (.ok _) hquiet
  | some title =>
    have huuid (s) : attributionPre server request i .randomUUID s := trivial
    refine .perform_bind _ (authenticated_lasting member.id).stable hmember
      (fun s _ _ => pre_of_client hclient (huuid s)) (fun t uuid t' _ hmember h => ?_)
      fun _ e _ _ _ _ => safe_failed e
    have hmember := hmember.step h
    cases WorkItem.create server.rt
      { id := "w_" ++ uuid, title, description := stringOrNull (Json.orEmpty request.body)
          "description", priority := priorityOrZero (Json.orEmpty request.body),
        requiredRole := stringOrNull (Json.orEmpty request.body) "requiredRole" } with
    | error e => exact safe_failed e
    | ok item =>
      refine .perform_bind _ (authenticated_lasting member.id).stable hmember
        (fun _ _ hmember => pre_of_client hclient ⟨.inl hroute, member.id, hmember, fun h => ?_⟩)
        (fun u _ u' _ hmember h => ?_) fun _ e _ _ _ _ => safe_failed e
      · obtain ⟨id, h | h⟩ := h <;> cases hroute.symm.trans h
      · exact safe_recordAs hclient (.inl hroute) (hmember.step h) (by simp [turnedAway])

lemma safe_claimNextAs (hroute : request.route = .claimNext) (hs : ownLabels i s.2 = []) :
    (attributionDiscipline B server actors).Safe i (QuietIfTurnedAway i)
      (claimNext server request) s := by
  refine safe_authenticated hclient (fun member s hquiet hmember => ?_) hs
  refine .perform_bind _ (quietSoFar_stable.and (authenticated_lasting member.id).stable)
    ⟨hquiet, hmember⟩ (fun _ _ h => pre_of_client hclient ⟨hroute, h.2⟩)
    (fun t claimed? t' _ ht h => ?_) fun _ e _ _ _ _ => safe_failed e
  cases claimed? with
  | none => exact safe_quiet (.ok _) (ht.1.step (.inr ⟨i, member, rfl⟩) h)
  | some claimed =>
    exact safe_recordAs hclient (.inr (.inl hroute)) (ht.2.step h) (by simp [turnedAway])

lemma safe_transitionAs (hroute : request.route.IsTransition) {id action : JsString}
    {apply : WorkItem → Except Thrown WorkItem} (happly : Moves apply) (hs : ownLabels i s.2 = []) :
    (attributionDiscipline B server actors).Safe i (QuietIfTurnedAway i)
      (transition server request id action apply) s := by
  refine safe_authenticated hclient (fun member s hquiet hmember => ?_) hs
  have hread (s) : attributionPre server request i (.workItemsFindById id) s := trivial
  rw [DrizzleWorkItemRepository.findById_bind]
  refine .perform_bind _ (quietSoFar_stable.and (authenticated_lasting member.id).stable)
    ⟨hquiet, hmember⟩ (fun s _ _ => pre_of_client hclient (hread s))
    (fun t row? t' _ ht h => ?_) fun _ e _ _ _ _ => safe_failed e
  have hquiet := ht.1.offBoard (by simp [ServerOp.OffBoard, ServerOp.table]) h
  have hmember := ht.2.step h
  obtain ⟨hrow, hw⟩ := exec_workItemsFindById h.1
  cases row? with
  | none => exact safe_quiet (.ok _) hquiet
  | some row =>
    dsimp only
    cases hitem : Db.toWorkItem server.rt row with
    | error e => exact safe_failed e
    | ok item =>
      obtain ⟨hitem_id, -, -, -, -, -, -⟩ := Db.toWorkItem_ok hitem
      dsimp only
      split_ifs with hassignee
      · exact safe_quiet (.ok _) hquiet
      rw [not_not] at hassignee
      cases hnext : apply item with
      | error e =>
        cases e with
        | workItemTransition message => exact safe_quiet (.ok _) hquiet
        | _ => exact safe_failed _
      | ok next =>
        obtain ⟨hid, hnext_assignee, -, -⟩ := happly item next hnext
        have hon : OnBoard next.id t' := by
          rw [OnBoard, hid, hitem_id, Table.key_of_find? hrow.symm, hw, ← hrow]
          rfl
        refine .perform_bind _ ((authenticated_lasting member.id).stable.and
          (onBoard_lasting next.id).stable) ⟨hmember, hon⟩ (fun _ _ h => pre_of_client hclient
            ⟨.inr (.inr hroute), member.id, h.1, fun _ => ⟨hnext_assignee.trans hassignee, h.2⟩⟩)
          (fun u _ u' _ hu h => ?_) fun _ e _ _ _ _ => safe_failed e
        exact safe_recordAs hclient (.inr (.inr hroute)) (hu.1.step h) (by simp [turnedAway])

/-- Every request keeps to the discipline, from where it has done nothing yet. -/
lemma safe_handleAs (hs : ownLabels i s.2 = []) :
    (attributionDiscipline B server actors).Safe i (QuietIfTurnedAway i)
      (handle server request) s := by
  by_cases hroute : request.route.ChangesBoard
  · simp only [handle]
    rcases hroute with hroute | hroute | ⟨id, hroute | hroute⟩
    · rw [hroute]
      exact safe_publishAs hclient hroute hs
    · rw [hroute]
      exact safe_claimNextAs hclient hroute hs
    · rw [hroute]
      exact safe_transitionAs hclient ⟨id, .inl hroute⟩ start_moves hs
    · rw [hroute]
      exact safe_transitionAs hclient ⟨id, .inr hroute⟩ complete_moves hs
  · have hquiet : QuietSoFar i s := by
      intro l hl
      rw [hs] at hl
      cases hl
    refine safe_offBoard hclient hroute (handle_offBoard server request ?_) hquiet
    refine ⟨fun h => hroute (.inl h), fun h => hroute (.inr (.inl h)), fun id => ⟨fun h => ?_,
      fun h => ?_⟩⟩
    · exact hroute (.inr (.inr ⟨id, .inl h⟩))
    · exact hroute (.inr (.inr ⟨id, .inr h⟩))

end Client

/-! ### Every interleaving -/

/-- What a client's request may end with; a runner may end in any way. -/
def ClientEnd (actors : List Actor) (i : ℕ) (r : Except Thrown ActorResult) (s : RecordedWorld) :
    Prop :=
  ∀ request, actors[i]? = some (.client request) → ∀ reply, r = .ok (.reply reply) →
    reply.code ∈ turnedAway → QuietSoFar i s

lemma disciplined_clients (B : Backend) (server : Server) (actors : List Actor) (w : World) :
    Disciplined (attributionDiscipline B server actors) (ClientEnd actors)
      ⟨(w, []), actors.map (Actor.program server)⟩ where
  inv _ _ _ _ _ _ h := by cases h
  safe := by
    intro i p hp
    rw [List.getElem?_map, Option.map_eq_some_iff] at hp
    obtain ⟨actor, hactor, rfl⟩ := hp
    cases actor with
    | client request =>
      refine (safe_handleAs hactor rfl).map _ fun r s hr _ _ reply h hcode => ?_
      cases r with
      | error e => cases h
      | ok =>
        cases h
        exact hr reply rfl hcode
    | runner deps =>
      have hrunner {op : ServerOp} {s : RecordedWorld} :
          (attributionDiscipline B server actors).pre i op s := by
        intro request hrequest
        cases hactor.symm.trans hrequest
      refine (Discipline.Safe.of_all (fun _ _ _ _ => hrunner) (.of_forall (fun _ => trivial) _)
        (fun _ _ => trivial) _).mono fun _ _ _ request hrequest => ?_
      cases hactor.symm.trans hrequest

section Step

variable {B : Backend} {server : Server} {actors : List Actor} {request : HttpRequest} {i : ℕ}
  {s : RecordedWorld} {op : ServerOp} {a : Except Thrown (ServerAns op)} {w' : World}

/-- A step from `w` to `w'` in the name of the member: the records that it adds name the member, and
the rows that a transition changes are assigned to the member. -/
structure ActsAs (request : HttpRequest) (memberId : JsString) (w w' : World) : Prop where
  records : ∃ records, w'.db.activities = w.db.activities ++ records ∧
    ∀ record ∈ records, record.actorMemberId = memberId
  transition : request.route.IsTransition → ∀ id,
    w'.db.workItems.find? id ≠ w.db.workItems.find? id →
      ∃ row, w.db.workItems.find? id = some row ∧ row.assigneeMemberId = some memberId

/-- A step that keeps to both disciplines leaves the board as it is, or acts as an authenticated
member. -/
lemma actsAs_of_pre (hboard : boardPre actors i op s) (hpre : attributionPre server request i op s)
    (h : exec B i op s.1 a w') : SameBoard s.1 w' ∨ request.route.ChangesBoard ∧
      ∃ memberId, Authenticated server request i memberId s ∧ ActsAs request memberId s.1 w' := by
  cases a with
  | error e =>
    rw [exec_error h]
    exact .inl ⟨rfl, rfl⟩
  | ok a =>
    have hrecords (h : op.table ≠ some .activities) (memberId : JsString) : ∃ records,
        w'.db.activities = s.1.db.activities ++ records ∧
          ∀ record ∈ records, record.actorMemberId = memberId :=
      ⟨[], by rw [(exec_framed ‹exec B i op s.1 _ w'›).activities h, List.append_nil], by simp⟩
    cases op with
    | workItemsSave item =>
      obtain ⟨hchanges, memberId, hmember, htransition⟩ := hpre
      refine .inr ⟨hchanges, memberId, hmember, hrecords (by simp [ServerOp.table]) _,
        fun hroute id hne => ?_⟩
      obtain ⟨hassignee, hon⟩ := htransition hroute
      obtain ⟨row, hset, hid, -, -⟩ := exec_workItemsSave h
      have hitem : item.id = id := by
        by_contra hother
        exact hne (by rw [hset, Table.find?_set_of_ne (hid ▸ Ne.symm hother)])
      subst hitem
      rcases hboard.1 with ⟨-, old, hold, -, hold_assignee⟩ | ⟨-, -, habsent⟩
      · exact ⟨old, hold, hold_assignee.trans hassignee⟩
      · rw [OnBoard, habsent] at hon
        cases hon
    | workItemsClaimNext member =>
      refine .inr ⟨.inr (.inl hpre.1), member.id, hpre.2, hrecords (by simp [ServerOp.table]) _, ?_⟩
      rintro ⟨id, h | h⟩ <;> cases hpre.1.symm.trans h
    | activitiesInsert input =>
      obtain ⟨record, hrecord, hactor, -⟩ := exec_activitiesInsert h
      refine .inr ⟨hpre.1, input.actor.id, hpre.2, ⟨[record], hrecord, by simpa using hactor⟩,
        fun _ id hne => ?_⟩
      rw [workItems_of_exec h (by simp [ServerOp.table])] at hne
      exact absurd rfl hne
    | _ =>
      exact .inl ⟨workItems_of_exec h (by simp [ServerOp.table]),
        (exec_framed h).activities (by simp [ServerOp.table])⟩

/-- A request that changes the board is authenticated for one member, throughout its run. -/
lemma Authenticated.unique {s' : RecordedWorld} {w : World} {ls : List ServerLabel}
    (honce : ClockReadOnce actors (w, ls)) (hclient : actors[i]? = some (.client request))
    (hroute : request.route.ChangesBoard) (hs : s.2 ⊆ ls) (hs' : s'.2 ⊆ ls)
    {memberId memberId' : JsString} (h : Authenticated server request i memberId s)
    (h' : Authenticated server request i memberId' s') : memberId = memberId' := by
  obtain ⟨token, t, htoken, hread, haccepted⟩ := h.accepted
  obtain ⟨token', t', htoken', hread', haccepted'⟩ := h'.accepted
  cases htoken.symm.trans htoken'
  cases honce i request hclient hroute t t' (hs hread) (hs' hread')
  exact Option.some.inj (haccepted.symm.trans haccepted')

end Step

/-- What holds of every step of a request in a run that has got to `c`: it changes the board only as
the member, who is authenticated by then, and not at all where the request is turned away. -/
structure Attributed (server : Server) (request : HttpRequest) (i : ℕ) (memberId : JsString)
    (c : Config ServerOp ServerAns Thrown ActorResult World) (history : List ServerLabel)
    (w w' : World) : Prop where
  acts : SameBoard w w' ∨
    Authenticated server request i memberId (w, history) ∧ ActsAs request memberId w w'
  turned_away : ∀ reply, c.pool[i]? = some (.ret (.reply reply)) → reply.code ∈ turnedAway →
    SameBoard w w'

/-- A request changes the board only as the member that its token was accepted for. -/
theorem board_attributed (B : Backend) (server : Server) (actors : List Actor) (w : World)
    {ls : List ServerLabel} {c : Config ServerOp ServerAns Thrown ActorResult World}
    (run : Run (exec B) ⟨w, actors.map (Actor.program server)⟩ ls c) {i : ℕ} {request : HttpRequest}
    (hclient : actors[i]? = some (.client request)) :
    ∃ memberId, ∀ history l rest c₁ c₂, ls = history ++ l :: rest → l.thread = i →
      Run (exec B) ⟨w, actors.map (Actor.program server)⟩ history c₁ → Step (exec B) c₁ l c₂ →
      Run (exec B) c₂ rest c →
        Attributed server request i memberId c history c₁.store c₂.store := by
  have hend := (disciplined_clients B server actors w).run run.recorded
  -- the member, if the request was authenticated at all
  obtain ⟨memberId, hmemberId⟩ : ∃ memberId, ∀ memberId' s, s.2 ⊆ ls →
      request.route.ChangesBoard → Authenticated server request i memberId' s →
        memberId = memberId' := by
    by_cases hany : ∃ memberId s, s.2 ⊆ ls ∧ Authenticated server request i memberId s
    · obtain ⟨memberId, s, hs, h⟩ := hany
      exact ⟨memberId, fun memberId' s' hs' hroute h' =>
        h.unique hend.inv hclient hroute hs hs' h'⟩
    · exact ⟨[], fun memberId' s' hs' _ h' => absurd ⟨memberId', s', hs', h'⟩ hany⟩
  refine ⟨memberId, ?_⟩
  rintro history l rest c₁ c₂ rfl rfl before step after
  have hboard := ((disciplined_actors B server actors w).run before.recorded).pre
    (step.recorded history)
  have hpre := ((disciplined_clients B server actors w).run before.recorded).pre
    (step.recorded history) request hclient
  cases step with
  | @perform i op k a w' awaits answered =>
    constructor
    case acts =>
      rcases actsAs_of_pre hboard hpre answered with hsame | ⟨hroute, other, hother, hacts⟩
      · exact .inl hsame
      · obtain rfl := hmemberId other (c₁.store, history)
          (List.subset_append_left _ _) hroute hother
        exact .inr ⟨hother, hacts⟩
    case turned_away =>
      intro reply hreply hcode
      have hquiet := hend.result (show _ = some (Prog.ofExcept (.ok _)) from hreply) request
        hclient reply rfl hcode
      refine (hquiet ⟨i, op, a⟩ ?_).sameBoard answered
      exact mem_ownLabels.mpr ⟨List.mem_append_right _ (.head _), rfl⟩

/-- Where the tokens are those of the session token service, the member that a request is
authenticated for has been issued the token it carries. -/
theorem Authenticated.issued {hmac : Bytes → Bytes → Bytes} {service : Auth.SessionTokenService}
    {calls : List Auth.IssueCall} {server : Server} {request : HttpRequest} {i : ℕ}
    {memberId : JsString} {s : RecordedWorld} (hserver : server.sessions = service.sessions hmac)
    (hunforgeable : ∀ token, bearerToken request = some token →
      Auth.Unforgeable hmac service calls token)
    (h : Authenticated server request i memberId s) :
    ∃ call ∈ calls, bearerToken request = some (call.token hmac service) ∧
      call.memberId = memberId := by
  obtain ⟨token, t, htoken, -, haccepted⟩ := h.accepted
  rw [hserver] at haccepted
  obtain ⟨call, hcall, rfl, hmember⟩ :=
    Auth.SessionTokenService.exists_call_of_sessions (hunforgeable token htoken) haccepted
  exact ⟨call, hcall, htoken, hmember⟩

/-! The stored agent asks for the next item. -/

def claimingClient : List Actor := [.client ⟨.claimNext, some "Bearer m_agent", none⟩]

/-- The members that the records name. -/
def recordedActors (w : World) : List JsString := w.db.activities.map ActivityRow.actorMemberId

theorem board_attributed_claim : ∃ ls c,
    Run (exec .faultless) ⟨⟨Db.board none, []⟩, claimingClient.map (Actor.program someServer)⟩
      ls c ∧ recordedActors c.store = [("m_agent" : JsString)] ∧
      ∃ memberId, ∀ history l rest c₁ c₂, ls = history ++ l :: rest → l.thread = 0 →
        Run (exec .faultless) ⟨⟨Db.board none, []⟩, claimingClient.map (Actor.program someServer)⟩
          history c₁ → Step (exec .faultless) c₁ l c₂ → Run (exec .faultless) c₂ rest c →
        Attributed someServer ⟨.claimNext, some "Bearer m_agent", none⟩ 0 memberId c history
          c₁.store c₂.store := by
  have hclaim : (follow (World.attempt .faultless)
      [(0, .plain), (0, .plain), (0, { Oracle.plain with scan := (Db.board none).workItems.rows }),
        (0, .plain)]
      ⟨⟨Db.board none, []⟩, claimingClient.map (Actor.program someServer)⟩).map
        (fun (_, c) => recordedActors c.store) = some [("m_agent" : JsString)] := by
    decide +kernel
  obtain ⟨⟨ls, c⟩, hfollow, hactors⟩ := Option.map_eq_some_iff.mp hclaim
  exact ⟨ls, c, run_of_follow hfollow, hactors,
    board_attributed .faultless someServer claimingClient _ (run_of_follow hfollow) rfl⟩

end WorkspaceOs
