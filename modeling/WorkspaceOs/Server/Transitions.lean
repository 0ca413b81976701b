import WorkspaceOs.Effect.Register
import WorkspaceOs.Server.ExactlyOnce

/-!
# Starting and completing an item

A transition reads the item, decides, and writes all of it back, without a check that the row is
still the one it read. An item is a register here, and its accesses are those of the requests.
-/

namespace WorkspaceOs

open Js Effect Relational Register

/-- The transitions of the two routes. -/
inductive Moved : WorkItemState → WorkItemState → Prop where
  | start : Moved .claimed .inProgress
  | complete : Moved .inProgress .done

/-- How many transitions lead to a state. -/
def WorkItemState.progress : WorkItemState → ℕ
  | .inProgress => 1
  | .done => 2
  | _ => 0

lemma Moved.progress {state state' : WorkItemState} (h : Moved state state') :
    state'.progress = state.progress + 1 := by
  cases h <;> rfl

/-- What a label does to the item `id`. -/
def access? (id : JsString) : ServerLabel → Option (Access WorkItemState)
  | ⟨i, .workItemsFindById id', .ok (some row)⟩ =>
    if id' = id then some (.read i row.state) else none
  | ⟨i, .workItemsSave item, .ok ()⟩ => if item.id = id then some (.write i item.state) else none
  | _ => none

/-- The accesses to the item in a run. -/
def accesses (id : JsString) (history : List ServerLabel) : List (Access WorkItemState) :=
  history.filterMap (access? id)

/-- A save writes a step from the state that its own request has read, over whatever is there. -/
def transitionPre (id : JsString) (i : ℕ) (op : ServerOp) (s : RecordedWorld) : Prop :=
  match op with
  | .workItemsSave item =>
    item.id = id ∧ Lawful Moved .claimed (accesses id s.2) (.write i item.state)
  | .workItemsClaimNext _ => False
  | _ => True

/-- The row of an item that was claimed at first, and the accesses to it so far. -/
structure TransitionInv (id : JsString) (s : RecordedWorld) : Prop where
  persisted : ∃ row, s.1.db.workItems.find? id = some row ∧
    row.state = value .claimed (accesses id s.2)
  lawful : Always (Lawful Moved .claimed) (accesses id s.2)

section Step

variable {B : Backend} {i j : ℕ} {op : ServerOp} {s s' : RecordedWorld} {id : JsString}
  {a : Except Thrown (ServerAns op)}

lemma accesses_step (h : recorded (exec B) i op s a s') :
    accesses id s'.2 = accesses id s.2 ++ (access? id ⟨i, op, a⟩).toList := by
  rw [h.2]
  exact filterMap_concat ..

lemma program_of_access? {access : Access WorkItemState} (h : access? id ⟨i, op, a⟩ = some access) :
    access.program = i := by
  simp only [access?] at h
  split at h
  · split_ifs at h
    cases h
    rename_i heq _
    cases heq
    rfl
  · split_ifs at h
    cases h
    rename_i heq _
    cases heq
    rfl
  · cases h

/-- A step that does not access the item leaves it as it is. -/
lemma TransitionInv.of_none (hinv : TransitionInv id s) (h : recorded (exec B) i op s a s')
    (hnone : access? id ⟨i, op, a⟩ = none) (hrow : s'.1.db.workItems = s.1.db.workItems) :
    TransitionInv id s' := by
  have haccesses : accesses id s'.2 = accesses id s.2 := by
    rw [accesses_step h, hnone, Option.toList_none, List.append_nil]
  exact ⟨by rw [haccesses, hrow]; exact hinv.persisted, haccesses ▸ hinv.lawful⟩

lemma TransitionInv.step (hinv : TransitionInv id s) (hpre : transitionPre id i op s)
    (h : recorded (exec B) i op s a s') : TransitionInv id s' := by
  cases op with
  | workItemsSave item =>
    cases a with
    | error e => exact hinv.of_none h rfl (by rw [exec_error h.1])
    | ok =>
      obtain ⟨hid, hlawful⟩ := hpre
      obtain ⟨row, hset, hrow_id, hrow_state, -⟩ := exec_workItemsSave h.1
      have haccesses : accesses id s'.2 = accesses id s.2 ++ [.write i item.state] := by
        rw [accesses_step h]
        simp only [access?, hid, if_true, Option.toList_some]
      refine ⟨⟨row, ?_, ?_⟩, ?_⟩
      · rw [hset, ← hid, ← hrow_id, Table.find?_set_self]
      · rw [haccesses, hrow_state, value, written_append]
        simp [written, Access.written?]
      · rw [haccesses]
        exact Always.concat_iff.mpr ⟨hinv.lawful, hlawful⟩
  | workItemsFindById id' =>
    cases a with
    | error e => exact hinv.of_none h rfl (by rw [exec_error h.1])
    | ok row? =>
      cases row? with
      | none => exact hinv.of_none h rfl (by rw [(exec_workItemsFindById h.1).2])
      | some row =>
        obtain ⟨hrow, hw⟩ := exec_workItemsFindById h.1
        by_cases hid : id' = id
        · obtain ⟨row', hrow', hstate⟩ := hinv.persisted
          rw [hid, hrow'] at hrow
          cases hrow
          have haccesses : accesses id s'.2 = accesses id s.2 ++ [.read i row.state] := by
            rw [accesses_step h]
            simp only [access?, hid, if_true, Option.toList_some]
          refine ⟨⟨row, by rwa [hw], ?_⟩, ?_⟩
          · rw [haccesses, hstate, value, value, written_append]
            simp [written, Access.written?]
          · rw [haccesses]
            exact Always.concat_iff.mpr ⟨hinv.lawful, hstate⟩
        · exact hinv.of_none h (by simp only [access?, hid, if_false]) (by rw [hw])
  | workItemsClaimNext => exact hpre.elim
  | _ => exact hinv.of_none h rfl (workItems_of_exec h.1 (by simp [ServerOp.table]))

/-- The discipline of the requests on one item. -/
def transitionDiscipline (B : Backend) (id : JsString) : Discipline (recorded (exec B)) where
  inv := TransitionInv id
  pre := transitionPre id
  keeps := TransitionInv.step

/-- What a program did to the item itself so far. -/
def Own (id : JsString) (i : ℕ) (did : List (Access WorkItemState)) (s : RecordedWorld) : Prop :=
  own i (accesses id s.2) = did

lemma Own.step {did : List (Access WorkItemState)} (hown : Own id i did s)
    (h : recorded (exec B) j op s a s') :
    Own id i (did ++ own i (access? id ⟨j, op, a⟩).toList) s' := by
  simp only [Own]
  rw [accesses_step h, own_append, hown]

/-- Only what the program does itself changes what it did. -/
lemma own_stable (id : JsString) (did : List (Access WorkItemState)) :
    (transitionDiscipline B id).Stable i (Own id i did) := by
  rintro s s' hown ⟨j, op, a, hne, -, -, h⟩
  have hnone : own i (access? id ⟨j, op, a⟩).toList = [] := by
    apply List.filter_eq_nil_iff.mpr
    intro access haccess
    rw [program_of_access? (Option.mem_toList.mp haccess)]
    simpa using hne
  simpa [hnone] using hown.step h

end Step

/-! ### A request -/

/-- The state that a transition route leads to. -/
def Route.target : Route → WorkItemState
  | .start _ => .inProgress
  | _ => .done

/-- How a request ended: it is answered 200 if and only if it wrote its transition, as far as the
backend has no faults of its own. -/
structure TransitionEnd (B : Backend) (id : JsString) (i : ℕ) (target : WorkItemState)
    (r : Except Thrown Reply) (s : RecordedWorld) : Prop where
  answered : ∀ reply, r = .ok reply → reply.code = 200 →
    ∃ state, Own id i [.read i state, .write i target] s
  acknowledged : (∀ op, ¬ B.mayFail op) → ∀ state, .write i state ∈ accesses id s.2 →
    ∃ reply, r = .ok reply ∧ reply.code = 200

section Request

variable {B : Backend} {server : Server} {request : HttpRequest} {i : ℕ} {id : JsString}
  {s : RecordedWorld} {target : WorkItemState}

/-- A request that wrote nothing may end in any way but a reply of 200. -/
lemma safe_unwritten {did : List (Access WorkItemState)} (hown : Own id i did s)
    (hread : ∀ state, .write i state ∉ did) {r : Except Thrown Reply}
    (hr : ∀ reply, r = .ok reply → reply.code ≠ 200) :
    (transitionDiscipline B id).Safe i (TransitionEnd B id i target) (.ofExcept r) s := by
  have hend : ∀ s, Own id i did s → TransitionEnd B id i target r s := by
    intro s hown
    refine ⟨fun reply hok h200 => absurd h200 (hr reply hok), fun _ state hwrite => ?_⟩
    exact absurd (hown ▸ mem_own.mpr ⟨hwrite, rfl⟩) (hread state)
  cases r with
  | ok reply => exact fun s' hs => hend s' ((own_stable id did).reach hown hs)
  | error e => exact fun s' hs => hend s' ((own_stable id did).reach hown hs)

/-- A request that wrote nothing may throw. -/
lemma safe_thrown {did : List (Access WorkItemState)} (hown : Own id i did s)
    (hread : ∀ state, .write i state ∉ did) (e : Thrown) :
    (transitionDiscipline B id).Safe i (TransitionEnd B id i target) (.throw e) s := by
  apply safe_unwritten hown hread (r := .error e)
  intro reply hok
  cases hok

/-- Recording succeeds for a stored member, as far as the backend has no faults of its own. -/
lemma safe_record_own {input : RecordActivityInput} {did : List (Access WorkItemState)}
    (hown : Own id i did s) (hstored : Stored input.actor.id s) :
    (transitionDiscipline B id).Safe i
      (fun r s => Own id i did s ∧ ((∀ op, ¬ B.mayFail op) → r = .ok ()))
      (DrizzleActivityLog.record input) s := by
  have hend : ∀ r : Except Thrown Unit, (transitionDiscipline B id).Stable i fun s =>
      Own id i did s ∧ ((∀ op, ¬ B.mayFail op) → r = .ok ()) :=
    fun r => (own_stable id did).and (Discipline.Stable.const _)
  refine .call _ ((own_stable id did).and (stored_lasting input.actor.id).stable) ⟨hown, hstored⟩
    (fun _ _ _ => trivial) fun t a t' _ ht hexec => ?_
  have hown' : Own id i did t' := by simpa [access?, own] using ht.1.step hexec
  cases a with
  | ok => exact .ret (hend _) ⟨hown', fun _ => rfl⟩
  | error e =>
    have hfault : ¬ ∀ op, ¬ B.mayFail op := by
      intro hfaultless
      rcases exec_activitiesInsert_error hexec.1 with hfail | hnone
      · exact hfaultless _ hfail
      · have hsome := ht.2
        rw [Stored, hnone] at hsome
        cases hsome
    show (transitionDiscipline B id).Safe i _
      (if e = .database .foreignKeyViolation then _ else _) t'
    split_ifs
    · exact .throw (hend _) ⟨hown', fun h => absurd h hfault⟩
    · exact .throw (hend _) ⟨hown', fun h => absurd h hfault⟩

/-- A method that makes one transition. -/
def MovesTo (apply : WorkItem → Except Thrown WorkItem) (target : WorkItemState) : Prop :=
  ∀ item next, apply item = .ok next → next.id = item.id ∧ next.state = target ∧
    Moved item.state target

lemma start_movesTo : MovesTo WorkItem.start .inProgress := by
  intro item next h
  obtain ⟨hstate, rfl⟩ := WorkItem.start_eq_ok_iff.mp h
  exact ⟨rfl, rfl, hstate ▸ .start⟩

lemma complete_movesTo : MovesTo WorkItem.complete .done := by
  intro item next h
  obtain ⟨hstate, rfl⟩ := WorkItem.complete_eq_ok_iff.mp h
  exact ⟨rfl, rfl, hstate ▸ .complete⟩

/-- The second half of a request, with the item it has read. -/
lemma safe_apply {member : Member} {item : WorkItem} {action : JsString}
    {apply : WorkItem → Except Thrown WorkItem} (happly : MovesTo apply target)
    (hown : Own id i [.read i item.state] s) (hid : item.id = id) (hstored : Stored member.id s) :
    (transitionDiscipline B id).Safe i (TransitionEnd B id i target)
      (do
        if item.assigneeMemberId ≠ some member.id then
          return .error 403 "not-assignee"
        match apply item with
        | .error (.workItemTransition message) =>
          return .error 409 "invalid-transition" message
        | .error e => throw e
        | .ok next =>
          DrizzleWorkItemRepository.save next
          recordWork member ("work." ++ action) next
          return ⟨200, .workItem next⟩) s := by
  have hread : ∀ state : WorkItemState, Access.write i state ∉ [Access.read i item.state] := by simp
  split_ifs
  · exact safe_unwritten hown hread (r := .ok _) (by simp [Reply.error])
  · cases hnext : apply item with
    | error e =>
      cases e with
      | workItemTransition => exact safe_unwritten hown hread (r := .ok _) (by simp [Reply.error])
      | _ => exact safe_thrown hown hread _
    | ok next =>
      obtain ⟨hnext_id, hnext_state, hmoved⟩ := happly item next hnext
      refine .perform_bind _ ((own_stable id _).and (stored_lasting member.id).stable)
        ⟨hown, hstored⟩
          (fun t _ ht => ⟨hnext_id.trans hid, item.state, ?_, ?_, hnext_state ▸ hmoved⟩)
        (fun t _ t' _ ht hexec => ?_) fun t e t' _ ht hexec => ?_
      · exact (mem_own.mp (ht.1 ▸ List.mem_singleton_self _)).1
      · intro state hstate
        have hmem : Access.read i state ∈ own i (accesses id t.2) := mem_own.mpr ⟨hstate, rfl⟩
        rw [ht.1, List.mem_singleton] at hmem
        exact (Access.read.inj hmem).2
      · have hwritten : Own id i [.read i item.state, .write i target] t' := by
          have h := ht.1.step hexec
          simpa [access?, own, Access.program, hnext_id, hid, hnext_state] using h
        refine (safe_record_own hwritten (ht.2.step hexec)).bind (fun _ u hu => ?_) fun e u hu => ?_
        · refine fun u' hu' => ⟨fun _ _ _ => ⟨item.state, ?_⟩, fun _ _ _ => ⟨_, rfl, rfl⟩⟩
          exact (own_stable id _).reach hu.1 hu'
        · refine fun u' hu' => ⟨fun reply hok => ?_, fun hfaultless => ?_⟩
          · cases hok
          · cases hu.2 hfaultless
      · have hown : Own id i [.read i item.state] t' := by
          simpa [access?, own] using ht.1.step hexec
        exact safe_thrown hown hread _

/-- A request for a transition writes what follows from the state it read, and is answered 200 for
nothing else. -/
lemma safe_moves {action : JsString} {apply : WorkItem → Except Thrown WorkItem}
    (happly : MovesTo apply target) (hs : Own id i [] s) :
    (transitionDiscipline B id).Safe i (TransitionEnd B id i target)
      (transition server request id action apply) s := by
  have hnothing : ∀ state : WorkItemState, Access.write i state ∉ [] := by simp
  refine safe_withCurrentMember (own_stable id []) ?_ ?_ (fun member s hs hmember => ?_)
    (fun s hs => safe_unwritten hs hnothing (r := .ok _) (by simp [Reply.error]))
    (fun e s hs => safe_thrown hs hnothing e) hs
  · rintro _ (rfl | ⟨_, rfl⟩) _ _ _ <;> trivial
  · rintro _ (rfl | ⟨_, rfl⟩) _ _ _ _ hs hexec <;> simpa [access?, own] using hs.step hexec
  · rw [DrizzleWorkItemRepository.findById_bind]
    refine .perform_bind _ ((own_stable id []).and (stored_lasting member.id).stable)
      ⟨hs, hmember.stored⟩
      (fun _ _ _ => trivial) (fun t row? t' _ ht hexec => ?_) fun t e t' _ ht hexec => ?_
    · cases row? with
      | none =>
        have hown : Own id i [] t' := by simpa [access?, own] using ht.1.step hexec
        exact safe_unwritten hown hnothing (r := .ok _) (by simp [Reply.error])
      | some row =>
        have hown : Own id i [.read i row.state] t' := by
          simpa [access?, own, Access.program] using ht.1.step hexec
        dsimp only
        cases hitem : Db.toWorkItem server.rt row with
        | error e => exact safe_thrown hown (by simp) _
        | ok item =>
          obtain ⟨hitem_id, -, -, -, -, hitem_state, -⟩ := Db.toWorkItem_ok hitem
          have hrow_id : row.id = id := Table.key_of_find? (exec_workItemsFindById hexec.1).1.symm
          exact safe_apply happly (hitem_state ▸ hown) (hitem_id.trans hrow_id) (ht.2.step hexec)
    · have hown : Own id i [] t' := by simpa [access?, own] using ht.1.step hexec
      exact safe_thrown hown hnothing _

end Request

/-! ### Every interleaving -/

/-- The request is for a transition of the item. -/
def Transitions (id : JsString) (request : HttpRequest) : Prop :=
  request.route = .start id ∨ request.route = .complete id

lemma safe_transitions {B : Backend} {server : Server} {request : HttpRequest} {i : ℕ}
    {id : JsString} {s : RecordedWorld} (hroute : Transitions id request) (hs : Own id i [] s) :
    (transitionDiscipline B id).Safe i (TransitionEnd B id i request.route.target)
      (handle server request) s := by
  simp only [handle]
  rcases hroute with hroute | hroute
  · rw [hroute]
    exact safe_moves start_movesTo hs
  · rw [hroute]
    exact safe_moves complete_movesTo hs

/-- What holds where a run of requests on one item has got to. -/
structure LegalTransitions (B : Backend) (requests : List HttpRequest) (id : JsString)
    (ls : List ServerLabel) (c : Config ServerOp ServerAns Thrown Reply World) : Prop where
  /-- The states written to the item are a path from claimed. -/
  path : List.IsChain Moved (.claimed :: written (accesses id ls))
  /-- No transition was made twice. -/
  once : (written (accesses id ls)).Nodup
  /-- The row has the state at the end of the path. -/
  persisted : ∃ row, c.store.db.workItems.find? id = some row ∧
    row.state = value .claimed (accesses id ls)
  /-- A request that was answered 200 has written its own transition, once. -/
  answered : ∀ (i : ℕ) request reply, requests[i]? = some request →
    c.pool[i]? = some (.ret reply) → reply.code = 200 →
    ∃ state, own i (accesses id ls) = [.read i state, .write i request.route.target]
  /-- A request that has written is answered 200, where nothing fails for reasons of its own. -/
  acknowledged : (∀ op, ¬ B.mayFail op) → ∀ (i : ℕ) r state, c.pool[i]? = some (.ofExcept r) →
    .write i state ∈ accesses id ls → ∃ reply, r = .ok reply ∧ reply.code = 200

/-- The transitions of an item are legal exactly when no request is overtaken by another one between
its read and its write. -/
theorem transitions_legal_iff (B : Backend) (server : Server) (requests : List HttpRequest)
    (id : JsString) (w : World) (hroutes : ∀ request ∈ requests, Transitions id request)
    (hclaimed : ∃ row, w.db.workItems.find? id = some row ∧ row.state = .claimed)
    {ls : List ServerLabel} {c : Config ServerOp ServerAns Thrown Reply World}
    (run : Run (exec B) ⟨w, requests.map (handle server)⟩ ls c) :
    LegalTransitions B requests id ls c ↔ Always Undisturbed (accesses id ls) := by
  have hinitial : Disciplined (transitionDiscipline B id) (fun i r s => ∀ request,
      requests[i]? = some request → TransitionEnd B id i request.route.target r s)
      ⟨(w, []), requests.map (handle server)⟩ := by
    refine ⟨⟨hclaimed, .nil⟩, fun i p hp => ?_⟩
    rw [List.getElem?_map, Option.map_eq_some_iff] at hp
    obtain ⟨request, hrequest, rfl⟩ := hp
    have hnothing : Own id i [] (w, []) := rfl
    refine (safe_transitions (hroutes request (List.mem_of_getElem? hrequest)) hnothing).mono
      fun r s hend request' hrequest' => ?_
    cases hrequest.symm.trans hrequest'
    exact hend
  have hd := hinitial.run run.recorded
  have hprogress : ∀ state state', Moved state state' → state'.progress = state.progress + 1 :=
    fun _ _ => Moved.progress
  have hpath := isChain_iff_undisturbed hprogress hd.inv.lawful
  refine ⟨fun hlegal => hpath.mp hlegal.path, fun hundisturbed => ?_⟩
  constructor
  case path => exact hpath.mpr hundisturbed
  case once => exact nodup_of_isChain hprogress (hpath.mpr hundisturbed)
  case persisted => exact hd.inv.persisted
  case answered =>
    intro i request reply hrequest hreply
    exact (hd.result (show _ = some (Prog.ofExcept (.ok reply)) from hreply) request
      hrequest).answered reply rfl
  case acknowledged =>
    intro hfaultless i r state hr
    have hlt : i < requests.length := by
      have hpool := (List.getElem?_eq_some_iff.mp hr).1
      rw [run.pool_length] at hpool
      simpa using hpool
    exact (hd.result hr requests[i] (List.getElem?_eq_getElem hlt)).acknowledged hfaultless state

/-! An item that the stored agent has claimed, and requests by the agent. -/

/-- The board of `Db.board` after the claim. -/
def claimedBoard : World where
  db := (Db.board none).setWorkItem
    { Db.publishedRow none with state := .claimed, assigneeMemberId := some "m_agent" } (by decide)
  drawn := []

/-- A request with the token of the agent. -/
def byAgent (route : Route) : HttpRequest := ⟨route, some "Bearer m_agent", none⟩

/-- The first request reads, the others go from their reads to their replies, and the first goes
on. -/
def overtaken : List (ℕ × Oracle) :=
  [0, 0, 0, 1, 1, 1, 1, 1, 2, 2, 2, 2, 2, 0, 0].map (·, .plain)

theorem transitions_legal_iff_start : ∃ ls c,
    Run (exec .faultless) ⟨claimedBoard, [byAgent (.start "w_1")].map (handle someServer)⟩ ls c ∧
      written (accesses "w_1" ls) = [.inProgress] ∧
      (LegalTransitions .faultless [byAgent (.start "w_1")] "w_1" ls c ↔
        Always Undisturbed (accesses "w_1" ls)) := by
  have hstart : (follow (World.attempt .faultless)
      ([0, 0, 0, 0, 0].map (·, .plain))
      ⟨claimedBoard, [byAgent (.start "w_1")].map (handle someServer)⟩).map
        (fun (ls, _) => written (accesses "w_1" ls)) = some [.inProgress] := by
    decide +kernel
  obtain ⟨⟨ls, c⟩, hfollow, hwritten⟩ := Option.map_eq_some_iff.mp hstart
  refine ⟨ls, c, run_of_follow hfollow, hwritten, ?_⟩
  exact transitions_legal_iff .faultless someServer [byAgent (.start "w_1")] "w_1" claimedBoard
    (by simp [Transitions, byAgent]) ⟨_, rfl, rfl⟩ (run_of_follow hfollow)

/-- The code of the reply, for a request that has one. -/
def replyCode? : ServerProg Reply → Option ℕ
  | .ret reply => some reply.code
  | _ => none

/-- Two requests to start the item and one to complete it are all answered 200, and the item is in
progress again after it was done. -/
theorem overtaken_start_reopens : ∃ ls c,
    Run (exec .faultless) ⟨claimedBoard, [byAgent (.start "w_1"), byAgent (.start "w_1"),
      byAgent (.complete "w_1")].map (handle someServer)⟩ ls c ∧
      c.pool.map replyCode? = [some 200, some 200, some 200] ∧
      written (accesses "w_1" ls) = [.inProgress, .done, .inProgress] ∧
      ¬ List.IsChain Moved (.claimed :: written (accesses "w_1" ls)) := by
  have hovertaken : (follow (World.attempt .faultless) overtaken
      ⟨claimedBoard, [byAgent (.start "w_1"), byAgent (.start "w_1"),
        byAgent (.complete "w_1")].map (handle someServer)⟩).map
        (fun (ls, c) => (c.pool.map replyCode?, written (accesses "w_1" ls))) =
      some ([some 200, some 200, some 200], [.inProgress, .done, .inProgress]) := by
    decide +kernel
  obtain ⟨⟨ls, c⟩, hfollow, hend⟩ := Option.map_eq_some_iff.mp hovertaken
  obtain ⟨hcodes, hwritten⟩ := Prod.mk.inj hend
  refine ⟨ls, c, run_of_follow hfollow, hcodes, hwritten, fun hchain => ?_⟩
  rw [hwritten] at hchain
  simp only [List.isChain_cons_cons] at hchain
  cases hchain.2.2.1

end WorkspaceOs
