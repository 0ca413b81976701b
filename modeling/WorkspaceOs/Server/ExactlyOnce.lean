import WorkspaceOs.Adapters.ClaimNext
import WorkspaceOs.Server.BoardInvariant

/-!
# Clients and runners on one board

Every request and every turn of a runner keeps to the discipline of the board, so the discipline
holds in every interleaving.
-/

namespace WorkspaceOs

open Js Effect Relational

variable {B : Backend} {actors : List Actor} {i : ℕ} {server : Server}

/-- The discipline of the board. -/
def boardDiscipline (B : Backend) (actors : List Actor) : Discipline (recorded (exec B)) where
  inv := BoardInv
  pre := boardPre actors
  keeps := BoardInv.step

lemma heldBy_lasting (id : JsString) (assignee : Option JsString) :
    (boardDiscipline B actors).Lasting fun s => HeldBy id assignee s.1 :=
  fun _ _ _ _ _ _ hpre h held => held.step hpre h.1

lemma boardPre_offBoard {op : ServerOp} (hop : op.OffBoard) (s : RecordedWorld) :
    boardPre actors i op s := by
  cases op with
  | workItemsSave => exact absurd rfl hop.1
  | activitiesInsert => exact absurd rfl hop.2
  | _ => trivial

/-! ### Recording -/

/-- A record may be written, if what it says of a completion holds. -/
lemma safe_record {input : RecordActivityInput} {s : RecordedWorld}
    (h : input.action = "work.complete" → HeldBy input.resourceId (some input.actor.id) s.1) :
    (boardDiscipline B actors).Safe i
      (fun r _ => ∀ message, r ≠ .error (.workItemTransition message))
      (DrizzleActivityLog.record input) s := by
  have hlasting : (boardDiscipline B actors).Lasting fun s =>
      input.action = "work.complete" → HeldBy input.resourceId (some input.actor.id) s.1 :=
    fun _ _ _ _ _ _ hpre hexec held hc => (held hc).step hpre hexec.1
  refine Discipline.Safe.call _ hlasting.stable h (fun _ _ held => held) fun t a t' _ _ hexec => ?_
  cases a with
  | ok => exact .ret (Discipline.Stable.const _) nofun
  | error e =>
    show (boardDiscipline B actors).Safe i _
      (if e = .database .foreignKeyViolation then _ else _) t'
    split_ifs
    · exact .throw (Discipline.Stable.const _) nofun
    · refine .throw (Discipline.Stable.const _) fun message h => ?_
      exact exec_ne_transition hexec.1 message (Except.error.inj h)

/-! ### Clients -/

section Client

variable {request : HttpRequest} {s : RecordedWorld}

/-- Any end of a client's request is fine. -/
abbrev AnyEnd {α : Type} (_ : Except Thrown α) (_ : RecordedWorld) : Prop := True

lemma safe_anyEnd {α : Type} (r : Except Thrown α) :
    (boardDiscipline B actors).Safe i AnyEnd (Prog.ofExcept r : ServerProg α) s := by
  cases r with
  | ok a => exact .ret (Discipline.Stable.const _) trivial
  | error e => exact .throw (Discipline.Stable.const _) trivial

/-- A handler that is safe for every member is safe behind authentication. -/
lemma safe_behind_authentication {handler : Member → ServerProg Reply}
    (h : ∀ member s, (boardDiscipline B actors).Safe i AnyEnd (handler member) s) :
    (boardDiscipline B actors).Safe i AnyEnd (withCurrentMember server request handler) s :=
  safe_withCurrentMember (Discipline.Stable.const True)
    (fun _ hop s _ _ => boardPre_offBoard hop.readOnly.offBoard s) (fun _ _ _ _ _ _ _ _ => trivial)
    (fun member s _ _ => h member s) (fun _ _ => safe_anyEnd (.ok _))
    (fun e _ _ => safe_anyEnd (.error e)) trivial

/-- Recording what a request did to an item, and then answering. -/
lemma safe_recordWork {member : Member} {action : JsString} {item : WorkItem} {reply : Reply}
    (h : action = "work.complete" → HeldBy item.id (some member.id) s.1) :
    (boardDiscipline B actors).Safe i AnyEnd
      (do recordWork member action item
          return reply) s :=
  (safe_record h).bind (fun _ _ _ => safe_anyEnd (.ok reply)) fun e _ _ => safe_anyEnd (.error e)

/-- A method of the lifecycle that keeps the item's identity and assignee, from a state that is not
open to one that is not open. -/
def Moves (apply : WorkItem → Except Thrown WorkItem) : Prop :=
  ∀ item next, apply item = .ok next → next.id = item.id ∧
    next.assigneeMemberId = item.assigneeMemberId ∧ item.state ≠ .opened ∧ next.state ≠ .opened

lemma start_moves : Moves WorkItem.start := by
  intro item next h
  obtain ⟨hstate, rfl⟩ := WorkItem.start_eq_ok_iff.mp h
  exact ⟨rfl, rfl, by simp [hstate], by simp⟩

lemma complete_moves : Moves WorkItem.complete := by
  intro item next h
  obtain ⟨hstate, rfl⟩ := WorkItem.complete_eq_ok_iff.mp h
  exact ⟨rfl, rfl, by simp [hstate], by simp⟩

variable (hclient : ∀ deps, actors[i]? ≠ some (.runner deps))
include hclient

lemma safe_transition {id action : JsString} {apply : WorkItem → Except Thrown WorkItem}
    (happly : Moves apply) : (boardDiscipline B actors).Safe i AnyEnd
      (transition server request id action apply) s := by
  apply safe_behind_authentication
  intro member s
  rw [DrizzleWorkItemRepository.findById_bind]
  refine .perform_bind (fun _ => True) (Discipline.Stable.const _) trivial
    (fun _ _ _ => trivial) (fun t row? t' _ _ hexec => ?_) fun _ e _ _ _ _ => safe_anyEnd (.error e)
  obtain ⟨hrow, ht⟩ := exec_workItemsFindById hexec.1
  cases row? with
  | none => exact safe_anyEnd (.ok _)
  | some row =>
    dsimp only
    cases hitem : Db.toWorkItem server.rt row with
    | error e => exact safe_anyEnd (.error e)
    | ok item =>
      obtain ⟨hitem_id, -, -, -, -, hitem_state, hitem_assignee⟩ := Db.toWorkItem_ok hitem
      dsimp only
      split_ifs with hassignee
      · exact safe_anyEnd (.ok _)
      rw [not_not] at hassignee
      cases hnext : apply item with
      | error e =>
        cases e with
        | workItemTransition message => exact safe_anyEnd (.ok _)
        | _ => exact safe_anyEnd (.error _)
      | ok next =>
        obtain ⟨hid, hnext_assignee, hstate, hnext_state⟩ := happly item next hnext
        -- the item that was read is held by the member, and stays so until it is written
        have held : HeldBy next.id (some member.id) t'.1 := by
          have hkey : row.id = id := Table.key_of_find? hrow.symm
          refine ⟨row, ?_, hitem_state ▸ hstate, hitem_assignee ▸ hassignee⟩
          rw [hid, hitem_id, hkey, ht]
          exact hrow.symm
        refine .perform_bind _ (heldBy_lasting _ _).stable held (fun u _ held => ⟨?_, ?_⟩)
          (fun u _ u' hinv held hexec => ?_) fun _ e _ _ _ _ => safe_anyEnd (.error e)
        · refine .transition hnext_state ?_
          rwa [hnext_assignee, hassignee]
        · exact fun deps hdeps => absurd hdeps (hclient deps)
        · obtain ⟨row', hset, hrow_id, hrow_state, hrow_assignee⟩ := exec_workItemsSave hexec.1
          refine safe_recordWork fun _ => held.set hset fun _ => ?_
          exact ⟨hrow_state ▸ hnext_state, by rw [hrow_assignee, hnext_assignee, hassignee]⟩

omit hclient in
/-- An identifier that program `i` drew, and that no item has yet, is its own until it is used. -/
lemma publishable_stable (uuid : JsString) : (boardDiscipline B actors).Stable i fun s =>
    Drew s.2 i uuid ∧ s.1.db.workItems.find? ("w_" ++ uuid) = none := by
  rintro s s' ⟨hdrew, habsent⟩ ⟨j, op, a, hne, hinv, hpre, hexec, hhistory⟩
  refine ⟨hdrew.step ⟨hexec, hhistory⟩, ?_⟩
  cases op with
  | workItemsSave item =>
    cases a with
    | error e => rwa [exec_error hexec]
    | ok =>
      obtain ⟨row, hset, hid, -⟩ := exec_workItemsSave hexec
      rw [hset, Table.find?_set_of_ne, habsent]
      rw [hid]
      intro hsame
      rcases hpre.1 with ⟨-, row', hrow', -⟩ | ⟨hdrew', hid', -⟩
      · rw [← hsame, habsent] at hrow'
        cases hrow'
      · rw [hid'] at hsame
        cases List.append_cancel_left hsame
        exact hne (hinv.drawn_once j i _ hdrew' hdrew)
  | workItemsClaimNext member =>
    match a with
    | .error e => rwa [exec_error hexec]
    | .ok none => rwa [exec_workItemsClaimNext_none hexec]
    | .ok (some claimed) =>
      obtain ⟨row, row', item, hfind, -, -, -, hset, hid, -⟩ := exec_workItemsClaimNext hexec
      rw [hset, Table.find?_set_of_ne, habsent]
      rw [hid]
      intro hsame
      rw [← hsame, habsent] at hfind
      cases hfind
  | _ =>
    rw [workItems_of_exec hexec (by simp [ServerOp.table])]
    exact habsent

lemma safe_publish :
    (boardDiscipline B actors).Safe i AnyEnd (publish server request) s := by
  apply safe_behind_authentication
  intro member s
  dsimp only
  cases nonEmptyString? ((Json.orEmpty request.body).prop? "title") with
  | none => exact safe_anyEnd (.ok _)
  | some title =>
    refine .perform_bind (fun _ => True) (Discipline.Stable.const _) trivial
      (fun _ _ _ => trivial) (fun t uuid t' _ _ hexec => ?_)
      fun _ e _ _ _ _ => safe_anyEnd (.error e)
    obtain ⟨hfresh, ht⟩ := exec_randomUUID hexec.1
    cases hitem : WorkItem.create server.rt
      { id := "w_" ++ uuid, title, description := stringOrNull (Json.orEmpty request.body)
          "description", priority := priorityOrZero (Json.orEmpty request.body),
        requiredRole := stringOrNull (Json.orEmpty request.body) "requiredRole" } with
    | error e => exact safe_anyEnd (.error e)
    | ok item =>
      have hid : item.id = "w_" ++ uuid := (WorkItem.create_ok hitem).1
      refine .perform_bind _ (publishable_stable uuid) ⟨?_, ?_⟩ (fun u _ hu => ⟨?_, ?_⟩)
        (fun u _ u' _ _ _ => safe_recordWork fun h => absurd h (by decide))
        fun _ e _ _ _ _ => safe_anyEnd (.error e)
      · rw [hexec.2]
        exact List.mem_append_right _ (List.mem_singleton_self _)
      · rw [ht]
        exact hfresh.workItem
      · exact .publication hu.1 hid (hid ▸ hu.2)
      · exact fun deps hdeps => absurd hdeps (hclient deps)

omit hclient in
lemma safe_claimNext :
    (boardDiscipline B actors).Safe i AnyEnd (claimNext server request) s := by
  apply safe_behind_authentication
  intro member s
  refine .perform_bind (fun _ => True) (Discipline.Stable.const _) trivial
    (fun _ _ _ => trivial) (fun t claimed? t' _ _ _ => ?_) fun _ e _ _ _ _ => safe_anyEnd (.error e)
  cases claimed? with
  | none => exact safe_anyEnd (.ok _)
  | some claimed => exact safe_recordWork fun h => absurd h (by decide)

/-- Every request keeps to the discipline, at any time. -/
lemma safe_handle : (boardDiscipline B actors).Safe i AnyEnd (handle server request) s := by
  by_cases hroute : request.route ≠ .publish ∧ request.route ≠ .claimNext ∧
      ∀ id, request.route ≠ .start id ∧ request.route ≠ .complete id
  · exact .of_all (fun op hop s _ => boardPre_offBoard hop s)
      (handle_offBoard server request hroute)
      (fun _ _ => trivial) s
  · simp only [handle]
    cases hr : request.route with
    | publish => exact safe_publish hclient
    | claimNext => exact safe_claimNext
    | start id => exact safe_transition hclient start_moves
    | complete id => exact safe_transition hclient complete_moves
    | _ => exact absurd ⟨by simp [hr], by simp [hr], by simp [hr]⟩ hroute

end Client

/-! ### Runners -/

/-- The program did not end with the error of a lifecycle method. -/
abbrev NoTransitionError {α : Type} (r : Except Thrown α) (_ : RecordedWorld) : Prop :=
  ∀ message, r ≠ .error (.workItemTransition message)

lemma noTransitionError_ok {α : Type} (a : α) (s : RecordedWorld) :
    NoTransitionError (.ok a) s := nofun

/-- A turn of a runner keeps to the discipline, and its lifecycle methods never throw. -/
lemma safe_runOnce {deps : AgentRunnerDeps} (hrunner : actors[i]? = some (.runner deps))
    (s : RecordedWorld) :
    (boardDiscipline B actors).Safe i NoTransitionError (AgentRunner.runOnce deps) s := by
  have hfault : ∀ {op : ServerOp} {e : Thrown} {s s' : RecordedWorld},
      recorded (exec B) i op s (.error e) s' → (boardDiscipline B actors).Safe i
        NoTransitionError (.throw e : ServerProg AgentRunResult) s' := fun h =>
    .throw (Discipline.Stable.const _) fun message he =>
      exec_ne_transition h.1 message (Except.error.inj he)
  refine .perform_bind (fun _ => True) (Discipline.Stable.const _) trivial
    (fun _ _ _ => trivial) (fun t claimed? t' _ _ hexec => ?_) fun _ _ _ _ _ => hfault
  cases claimed? with
  | none => exact .ret (Discipline.Stable.const _) (noTransitionError_ok _ t')
  | some claimed =>
    obtain ⟨-, hstate, hassignee, held⟩ := claim_spec hexec.1
    -- from here to the save the runner relies on nothing but that the item stays held
    have hclaim : ("work.claim" : JsString) ≠ "work.complete" := by decide
    refine ((safe_record fun h => absurd h hclaim).lasting (heldBy_lasting _ _) held).bind
      (fun _ u hu => ?_) fun e u hu => .throw (Discipline.Stable.const _) fun message he =>
        hu.1 message (congrArg Except.error (Except.error.inj he))
    refine .perform_bind _ (heldBy_lasting _ _).stable hu.2 (fun _ _ _ => trivial)
      (fun v content v' _ held hexec => ?_) fun _ _ _ _ _ => hfault
    rw [start_complete hstate]
    have held : HeldBy claimed.id (some deps.agent.id) v'.1 :=
      held.congr (workItems_of_exec hexec.1 (by simp [ServerOp.table]))
    refine .perform_bind _ (heldBy_lasting _ _).stable held (fun x _ held => ⟨?_, ?_⟩)
      (fun x _ x' _ held hexec => ?_) fun _ _ _ _ _ => hfault
    · exact .transition (by simp) (hassignee ▸ held)
    · intro deps' hdeps'
      cases hrunner.symm.trans hdeps'
      exact ⟨rfl, hassignee, held⟩
    · obtain ⟨row, hset, -, hrow_state, hrow_assignee⟩ := exec_workItemsSave hexec.1
      have held : HeldBy claimed.id (some deps.agent.id) x'.1 :=
        held.set hset fun _ => ⟨by simp [hrow_state], hrow_assignee.trans hassignee⟩
      refine (safe_record fun _ => held).bind
        (fun _ y _ => .ret (Discipline.Stable.const _) (noTransitionError_ok _ y)) fun e _ he =>
          .throw (Discipline.Stable.const _) fun message h => ?_
      exact he message (congrArg Except.error (Except.error.inj h))

/-! ### Every interleaving -/

/-- What an actor may end with: a runner never with the error of a lifecycle method. -/
def ActorEnd (actors : List Actor) (i : ℕ) (r : Except Thrown ActorResult) (s : RecordedWorld) :
    Prop :=
  ∀ deps, actors[i]? = some (.runner deps) → NoTransitionError r s

lemma disciplined_actors (B : Backend) (server : Server) (actors : List Actor) (w : World) :
    Disciplined (boardDiscipline B actors) (ActorEnd actors)
      ⟨(w, []), actors.map (Actor.program server)⟩ where
  inv := ⟨⟨nofun, nofun⟩, List.nodup_nil, nofun⟩
  safe := by
    intro i p hp
    rw [List.getElem?_map, Option.map_eq_some_iff] at hp
    obtain ⟨actor, hactor, rfl⟩ := hp
    cases actor with
    | client request =>
      have hclient : ∀ deps, actors[i]? ≠ some (.runner deps) := by simp [hactor]
      exact (safe_handle hclient).map _ fun _ _ _ deps hdeps => absurd hdeps (hclient deps)
    | runner deps =>
      apply (safe_runOnce hactor _).map _
      intro r s hr _ _ message
      cases r with
      | ok => exact nofun
      | error e => exact fun h => hr message (congrArg Except.error (Except.error.inj h))

/-- What holds where a run has got to, of the claims it made, of its next step, and of the runners
that have ended. -/
structure ExactlyOnce (B : Backend) (actors : List Actor) (ls : List ServerLabel)
    (c : Config ServerOp ServerAns Thrown ActorResult World) : Prop where
  /-- No item was returned by two claims. -/
  claimed_once : ((claims ls).map fun claim => claim.2.id).Nodup
  /-- What was claimed is not open, and assigned to who claimed it. -/
  held : ∀ claim ∈ claims ls, HeldBy claim.2.id (some claim.1.id) c.store
  /-- No step opens an item that is not open, or assigns it to somebody else. -/
  lasting : ∀ l c', Step (exec B) c l c' → ∀ id assignee, HeldBy id assignee c.store →
    HeldBy id assignee c'.store
  /-- A claim finds its item open, and the claimer with the role it requires. -/
  claim : ∀ i member item c', Step (exec B) c ⟨i, .workItemsClaimNext member, .ok (some item)⟩ c' →
    ∃ row, c.store.db.workItems.find? item.id = some row ∧ row.state = .opened ∧
      ∀ role, row.requiredRole = some role → role ≠ [] → member.hasRole role = true
  /-- A runner saves an item as done, while its own agent is the assignee. -/
  runner_save : ∀ i deps item a c', actors[i]? = some (Actor.runner deps) →
    Step (exec B) c ⟨i, .workItemsSave item, a⟩ c' → item.state = .done ∧
      item.assigneeMemberId = some deps.agent.id ∧ HeldBy item.id (some deps.agent.id) c.store
  /-- Who reports that an item is complete is its assignee. -/
  completed : ∀ i input a c', Step (exec B) c ⟨i, .activitiesInsert input, a⟩ c' →
    input.action = "work.complete" → HeldBy input.resourceId (some input.actor.id) c.store
  /-- The lifecycle methods of a runner do not throw. -/
  runner_end : ∀ (i : ℕ) deps message, actors[i]? = some (Actor.runner deps) →
    c.pool[i]? ≠ some (.throw (.workItemTransition message))

/-- Every item is claimed at most once, whoever works on the board and in whatever order. -/
theorem claimed_exactly_once (B : Backend) (server : Server) (actors : List Actor) (w : World)
    {ls : List ServerLabel} {c : Config ServerOp ServerAns Thrown ActorResult World}
    (run : Run (exec B) ⟨w, actors.map (Actor.program server)⟩ ls c) :
    ExactlyOnce B actors ls c := by
  have hd := (disciplined_actors B server actors w).run run.recorded
  have hpre : ∀ {l c'}, Step (exec B) c l c' → boardPre actors l.thread l.op (c.store, ls) :=
    fun step => hd.pre (step.recorded ls)
  constructor
  case claimed_once => exact hd.inv.claims_nodup
  case held => exact hd.inv.claims_held
  case lasting =>
    intro l c' step id assignee held
    have h := hpre step
    cases step with
    | perform awaits answered => exact held.step h answered
  case claim =>
    intro i member item c' step
    cases step with
    | perform awaits answered => exact (claim_spec answered).1
  case runner_save =>
    intro i deps item a c' hdeps step
    exact (hpre step).2 deps hdeps
  case completed =>
    intro i input a c' step
    exact hpre step
  case runner_end =>
    intro i deps message hdeps hthrow
    exact hd.result (show _ = some (Prog.ofExcept (.error _)) from hthrow) deps hdeps message rfl

/-! One agent takes its turn on a board with one item. -/

def someActors : List Actor := [.runner { agent := .bot [], persona := .analyst }]

theorem claimed_exactly_once_turn : ∃ ls c,
    Run (exec .faultless) ⟨⟨Db.board none, []⟩, someActors.map (Actor.program someServer)⟩ ls c ∧
      (claims ls).length = 1 ∧ ExactlyOnce .faultless someActors ls c := by
  have hturn : (follow (World.attempt .faultless)
      [(0, { Oracle.plain with scan := (Db.board none).workItems.rows }), (0, .plain), (0, .plain),
        (0, .plain), (0, .plain)]
      ⟨⟨Db.board none, []⟩, someActors.map (Actor.program someServer)⟩).map
        (fun (ls, _) => (claims ls).length) = some 1 := by
    decide +kernel
  obtain ⟨⟨ls, c⟩, hfollow, hlength⟩ := Option.map_eq_some_iff.mp hturn
  exact ⟨ls, c, run_of_follow hfollow, hlength,
    claimed_exactly_once .faultless someServer someActors _ (run_of_follow hfollow)⟩

end WorkspaceOs
