import WorkspaceOs.Effect.Service
import WorkspaceOs.Agent.StrandedWork

/-!
# Turns of many agents

Agents with different roles take turns at one board. No item starves that some agent has the role
for, whatever its priority and whatever the gateway answers; and agents that have all roles work the
board in its order until it is empty.
-/

namespace WorkspaceOs

open Js Effect Relational

/-- The rows of the open items. -/
def Workplace.waiting (w : Workplace) : List WorkItemRow :=
  w.db.workItems.rows.filter fun row => row.state = .opened

namespace AgentTurn

variable {Impl : Type} (config : ModelGatewayConfig Impl) (B : Backend)

/-- The agent has the role that the item requires, if it requires any. -/
def hasRoleFor (turn : AgentTurn Impl) (row : WorkItemRow) : Bool :=
  row.requiredRole.all turn.deps.agent.hasRole

/-- Nothing from outside hinders the claim: no row is locked, and the agent is stored, with roles
that are texts. -/
structure Unhindered (turn : AgentTurn Impl) (w : Workplace) : Prop where
  unlocked : ∀ rows, ∀ row ∈ rows, row ∈ turn.scan rows
  roles : ∃ roles : List Role, turn.deps.agent.roles = roles.map .str ∧
    ∀ role ∈ roles, Column.IsText role
  stored : (w.db.members.find? turn.deps.agent.id).isSome

/-- The row that the turn claims, as it finds it. -/
def takes (turn : AgentTurn Impl) (w : Workplace) : Option WorkItemRow :=
  match turn.claims config B w with
  | .ok (some claimed) => w.db.workItems.find? claimed.id
  | _ => none

/-- What each of the turns claims. -/
def takings : List (AgentTurn Impl) → Workplace → List (Option WorkItemRow)
  | [], _ => []
  | turn :: turns, w => turn.takes config B w :: takings turns (turn.run config B w).2

/-- How the turn leaves the row of the item that it claimed: done where the gateway answered, and
with its agent where it did not. -/
def Leaves (turn : AgentTurn Impl) (w : Workplace) (claimed : WorkItem)
    (row : WorkItemRow) : Prop :=
  match answerFor config turn claimed w with
  | .ok _ => row.state = .done
  | .error _ => row.state = .claimed ∧ row.assigneeMemberId = some turn.deps.agent.id

variable {config B} {turn : AgentTurn Impl} {turns : List (AgentTurn Impl)} {w w' : Workplace}
  {row : WorkItemRow} {claimed : WorkItem}

lemma mem_waiting : row ∈ w.waiting ↔ row ∈ w.db.workItems.rows ∧ row.state = .opened := by
  simp [Workplace.waiting]

lemma mem_waiting_iff_find? : row ∈ w.waiting ↔
    w.db.workItems.find? row.id = some row ∧ row.state = .opened := by
  rw [mem_waiting, Table.find?_eq_some_iff, and_iff_left rfl]

lemma nodup_waiting : w.waiting.Nodup := (List.Nodup.of_map _ w.db.workItems.keyed).filter _

/-! ### What a turn leaves as it was -/

/-- Members are never deleted. -/
lemma stored_perform {op : ServerOp} {id : JsString} (h : (w.db.members.find? id).isSome) :
    ((turn.perform config B op w).2.db.members.find? id).isSome := by
  have hexecute (op : ServerOp) :
      ((turn.execute B op w).2.db.members.find? id).isSome := by
    rcases hrun : w.world.execute B (turn.oracle op w) op with ⟨a, world⟩
    have hdb : (turn.execute B op w).2.db = world.db := by simp only [execute, hrun, Workplace.db]
    rw [hdb]
    by_cases htable : op.table = some .members
    · cases op <;> cases htable
      rcases commit_map_cases hrun with ⟨-, -, -, rfl⟩ | ⟨hsave, -, -⟩
      · exact h
      · rw [(Db.saveMember_ok hsave).1]
        exact Table.isSome_find?_set h
    · rw [(execute_framed hrun).members htable]
      exact h
  cases op with
  | complete => exact h
  | activitiesInsert input =>
    rw [perform]
    split
    · exact h
    · exact hexecute _
  | _ => exact hexecute _

lemma stored_run {id : JsString} (h : (w.db.members.find? id).isSome) :
    ((turn.run config B w).2.db.members.find? id).isSome := by
  have hperform : ∀ (op : ServerOp) (w : Workplace), (w.db.members.find? id).isSome →
      ((turn.perform config B op w).2.db.members.find? id).isSome := fun _ _ => stored_perform
  exact Prog.run_invariant hperform _ h

lemma Unhindered.run {turn' : AgentTurn Impl} (h : turn.Unhindered w) :
    turn.Unhindered (turn'.run config B w).2 :=
  { h with stored := stored_run h.stored }

/-! ### The claim of an unhindered turn -/

/-- What the statement finds eligible is what waits and the agent has the role for. -/
lemma eligible_iff_hasRoleFor {roles : List Role}
    (hroles : turn.deps.agent.roles = roles.map .str) :
    Db.eligible roles row = true ↔ row.state = .opened ∧ turn.hasRoleFor row = true := by
  rw [Db.eligible_iff, hasRoleFor, Option.all_eq_true]
  simp only [Member.hasRole_iff, hroles, List.mem_map, Json.str.injEq, exists_eq_right]

/-- An open row that the agent has the role for can be claimed by it. -/
lemma claimable_of_hasRoleFor {item : WorkItem} (hrow : row.Holds item)
    (hopened : row.state = .opened) (hrole : turn.hasRoleFor row = true) :
    Db.Claimable B.rt row turn.deps.agent := by
  rw [hasRoleFor, Option.all_eq_true] at hrole
  exact (Db.claimable_iff hrow).mpr ⟨hopened, fun role hrequired _ => hrole role hrequired⟩

/-- Texts are sent as they are. -/
lemma filterMap_textParam {roles : List Role} (htexts : ∀ role ∈ roles, Column.IsText role) :
    (roles.map Json.str).filterMap B.textParam = roles := by
  have hsent : ∀ role ∈ roles, (B.textParam ∘ Json.str) role = some role := fun role hrole =>
    B.textParam_str role (htexts role hrole)
  rw [List.filterMap_map, List.filterMap_congr hsent, List.filterMap_some]

/-- What it claims was open, and is not open any more. -/
lemma left_of_claims (h : turn.claims config B w = .ok (some claimed)) : ∃ row row',
    w.db.workItems.find? claimed.id = some row ∧ row.state = .opened ∧
    (∀ id, id ≠ claimed.id →
      (turn.run config B w).2.db.workItems.find? id = w.db.workItems.find? id) ∧
    (turn.run config B w).2.db.workItems.find? claimed.id = some row' ∧
    Leaves config turn w claimed row' := by
  cases @run_ended Impl config B turn w with
  | idle claim => exact absurd h (claim claimed)
  | rejected row row' claimed' e rejected found claimable others written state assignee =>
    cases h.symm.trans rejected.claim
    refine ⟨row, row', found, opened_of_claimable claimable, others, written, ?_⟩
    simp only [Leaves, rejected.answer]
    exact ⟨state, assignee⟩
  | worked row row' claimed' result claim answer found claimable others written state =>
    cases h.symm.trans claim
    refine ⟨row, row', found, opened_of_claimable claimable, others, written, ?_⟩
    simp only [Leaves, answer]
    exact state

lemma Leaves.not_opened (h : Leaves config turn w claimed row) : row.state ≠ .opened := by
  rw [Leaves] at h
  split at h
  · simp [h]
  · simp [h.1]

lemma takes_of_claims (h : turn.claims config B w = .ok (some claimed)) :
    turn.takes config B w = w.db.workItems.find? claimed.id := by
  simp only [takes, h]

lemma claims_of_takes (h : turn.takes config B w = some row) :
    ∃ claimed, turn.claims config B w = .ok (some claimed) := by
  rw [takes] at h
  split at h
  · exact ⟨_, ‹_›⟩
  · cases h

/-- The row that it claims waits no more, and no other row is concerned. -/
lemma waiting_of_takes (h : turn.takes config B w = some row) :
    w.waiting.Perm (row :: (turn.run config B w).2.waiting) := by
  obtain ⟨claimed, hclaims⟩ := claims_of_takes h
  obtain ⟨row₀, row', hfound, hopened, hothers, hwritten, hleaves⟩ := left_of_claims hclaims
  rw [takes_of_claims hclaims, hfound] at h
  cases h
  have hid : row.id = claimed.id := Table.key_of_find? hfound
  have hwaits : ∀ r ∈ (turn.run config B w).2.waiting, r.id ≠ claimed.id := by
    rintro r hmem hr
    obtain ⟨hfind, hstate⟩ := mem_waiting_iff_find?.mp hmem
    rw [hr, hwritten] at hfind
    cases hfind
    exact hleaves.not_opened hstate
  refine (List.perm_ext_iff_of_nodup nodup_waiting
    (nodup_waiting.cons fun hmem => hwaits row hmem hid)).mpr fun r => ?_
  rw [List.mem_cons]
  by_cases hr : r.id = claimed.id
  · have hnot : r ∉ (turn.run config B w).2.waiting := fun hmem => hwaits r hmem hr
    rw [mem_waiting_iff_find?, hr, hfound]
    refine ⟨fun h => .inl (Option.some.inj h.1).symm, ?_⟩
    rintro (rfl | hmem)
    · exact ⟨rfl, hopened⟩
    · exact absurd hmem hnot
  · have hne : r ≠ row := fun h => hr (h ▸ hid)
    rw [mem_waiting_iff_find?, mem_waiting_iff_find?, hothers r.id hr]
    simp [hne]

/-- A turn that claims nothing leaves the board as it is. -/
lemma waiting_of_idle (h : ∀ claimed, turn.claims config B w ≠ .ok (some claimed)) :
    (turn.run config B w).2.waiting = w.waiting := by
  cases @run_ended Impl config B turn w with
  | idle _ unchanged => rw [Workplace.waiting, unchanged, Workplace.waiting]
  | rejected row row' claimed e rejected => exact absurd rejected.claim (h claimed)
  | worked row row' claimed result claim => exact absurd claim (h claimed)

lemma perform_claimNext {roles : List Role} {claimed? : Option WorkItem} {db' : Db}
    (hroles : turn.deps.agent.roles = roles.map .str) (htexts : ∀ role ∈ roles, Column.IsText role)
    (hclaim : Db.claimNext B.rt w.db (turn.scan w.db.workItems.rows)
      (turn.clock (.workItemsClaimNext turn.deps.agent)) roles turn.deps.agent =
        .ok (claimed?, db')) :
    turn.claims config B w = .ok claimed? := by
  have hexecute : w.world.execute B (turn.oracle (.workItemsClaimNext turn.deps.agent) w)
      (.workItemsClaimNext turn.deps.agent) = (.ok claimed?, { w.world with db := db' }) := by
    change w.world.commit (Db.claimNext B.rt w.db _ _
      (turn.deps.agent.roles.filterMap B.textParam) _) = _
    rw [hroles, filterMap_textParam htexts]
    exact congrArg w.world.commit hclaim
  change (turn.execute B (.workItemsClaimNext turn.deps.agent) w).1 = _
  rw [execute, hexecute]

/-- It claims a row that comes first among those that wait and that the agent has the role for, or
nothing if there is none. -/
lemma serve (hitems : ∀ row ∈ w.waiting, ∃ item, row.Holds item) (h : turn.Unhindered w) :
    Service.Serve hasRoleFor Db.Before turn w.waiting (turn.takes config B w)
      (turn.run config B w).2.waiting := by
  obtain ⟨roles, hroles, htexts⟩ := h.roles
  have heligible (row : WorkItemRow) : row ∈ turn.scan w.db.workItems.rows ∧
      Db.eligible roles row = true ↔ row ∈ w.waiting ∧ turn.hasRoleFor row = true := by
    rw [eligible_iff_hasRoleFor hroles, mem_waiting, ← and_assoc]
    have hscan : row ∈ turn.scan w.db.workItems.rows ↔ row ∈ w.db.workItems.rows :=
      ⟨turn.scan_mem _ row, h.unlocked _ row⟩
    rw [hscan]
  cases hcandidate : Db.candidate roles (turn.scan w.db.workItems.rows) with
  | none =>
    have hclaims : turn.claims config B w = .ok none :=
      perform_claimNext hroles htexts (Db.claimNext_of_none hcandidate)
    have htakes : turn.takes config B w = none := by simp only [takes, hclaims]
    have hsame : (turn.run config B w).2.waiting = w.waiting :=
      waiting_of_idle fun claimed hclaimed => by
        rw [hclaims] at hclaimed
        cases hclaimed
    rw [htakes, hsame]
    refine .idle fun row hrow => ?_
    by_contra hrole
    have hfound := (heligible row).mpr ⟨hrow, by simpa using hrole⟩
    rw [Db.candidate_eq_none.mp hcandidate row hfound.1] at hfound
    cases hfound.2
  | some row =>
    obtain ⟨hscan, helig, hfirst⟩ := Db.candidate_some hcandidate
    obtain ⟨hwaiting, hrole⟩ := (heligible row).mp ⟨hscan, helig⟩
    obtain ⟨item, hholds⟩ := hitems row hwaiting
    obtain ⟨hmem, hopened⟩ := mem_waiting.mp hwaiting
    obtain ⟨item', hitem, hcan⟩ :=
      @claimable_of_hasRoleFor Impl B turn row item hholds hopened hrole
    have hstored : w.db.AssigneeStored (some turn.deps.agent.id) := by
      rintro id ⟨⟩
      exact h.stored
    have hclaims : turn.claims config B w = _ :=
      perform_claimNext hroles htexts (Db.claimNext_of_stored hcandidate hitem hcan hstored)
    have htakes : turn.takes config B w = some row := by
      rw [takes_of_claims hclaims, ← Table.find?_key hmem]
      exact congrArg _ (Db.toWorkItem_ok hitem).1
    rw [htakes]
    refine .take row _ (waiting_of_takes htakes) hrole fun row' hrow' hrole' => ?_
    obtain ⟨hscan', helig'⟩ := (heligible row').mpr ⟨hrow', hrole'⟩
    exact hfirst row' hscan' helig'

/-! ### Any number of turns -/

lemma served (hitems : ∀ row ∈ w.waiting, ∃ item, row.Holds item)
    (hturns : ∀ turn ∈ turns, turn.Unhindered w) :
    Service.Served hasRoleFor Db.Before turns w.waiting (takings config B turns w)
      (play config B turns w).waiting := by
  induction turns generalizing w with
  | nil => exact .nil _
  | cons turn turns ih =>
    have hserve := @serve Impl config B turn w hitems (hturns turn List.mem_cons_self)
    refine .cons hserve (ih (fun row hrow => hitems row (hserve.mem_of_mem hrow)) ?_)
    exact fun turn' hturn' => (hturns turn' (List.mem_cons_of_mem _ hturn')).run

lemma Unhindered.play (h : turn.Unhindered w) : turn.Unhindered (play config B turns w) := by
  induction turns generalizing w with
  | nil => exact h
  | cons turn' turns ih => exact ih h.run

/-- Nobody touches an item that is not open. -/
lemma find?_play_of_not_opened {id : JsString} (h : w.db.workItems.find? id = some row)
    (hstate : row.state ≠ .opened) : (play config B turns w).db.workItems.find? id = some row := by
  induction turns generalizing w with
  | nil => exact h
  | cons turn turns ih =>
    apply ih
    by_cases hclaim : ∃ claimed, turn.claims config B w = .ok (some claimed)
    · obtain ⟨claimed, hclaims⟩ := hclaim
      obtain ⟨row₀, _, hfound, hopened, hothers, -, -⟩ := left_of_claims hclaims
      rw [hothers id fun hid => ?_, h]
      rw [← hid, h] at hfound
      cases hfound
      exact hstate hopened
    · cases @run_ended Impl config B turn w with
      | idle _ unchanged => rw [unchanged, h]
      | rejected _ _ claimed _ rejected => exact absurd ⟨claimed, rejected.claim⟩ hclaim
      | worked _ _ claimed _ claim => exact absurd ⟨claimed, claim⟩ hclaim

lemma exists_of_mem_takings (h : some row ∈ takings config B turns w) :
    ∃ before turn after, turns = before ++ turn :: after ∧
      turn.takes config B (play config B before w) = some row := by
  induction turns generalizing w with
  | nil => cases h
  | cons turn turns ih =>
    rcases List.mem_cons.mp h with htakes | hmem
    · exact ⟨[], turn, turns, rfl, htakes.symm⟩
    · obtain ⟨before, turn', after, rfl, htakes⟩ := ih hmem
      exact ⟨turn :: before, turn', after, rfl, htakes⟩

lemma play_append {before after : List (AgentTurn Impl)} :
    play config B (before ++ after) w = play config B after (play config B before w) :=
  List.foldl_append

/-- No item starves. Whatever the gateway answers, an open item is claimed once there were as many
turns of agents that have the role for it as there are open items that do not come after it. It ends
done or, where the gateway gave no answer about it, with the agent that claimed it. -/
theorem play_serves (hitems : ∀ row ∈ w.waiting, ∃ item, row.Holds item)
    (hturns : ∀ turn ∈ turns, turn.Unhindered w) (hrow : row ∈ w.waiting)
    (hcount : w.waiting.countP (Db.Before · row) ≤ turns.countP (·.hasRoleFor row)) :
    ∃ before turn after claimed row', turns = before ++ turn :: after ∧
      turn.hasRoleFor row = true ∧ claimed.id = row.id ∧
      turn.claims config B (play config B before w) = .ok (some claimed) ∧
      (play config B turns w).db.workItems.find? row.id = some row' ∧
      Leaves config turn (play config B before w) claimed row' := by
  have hserved := @served Impl config B turns w hitems hturns
  have hmem := List.reduceOption_mem_iff.mp (hserved.mem_of_countP_le hrow hcount)
  obtain ⟨before, turn, after, rfl, htakes⟩ := exists_of_mem_takings hmem
  obtain ⟨claimed, hclaims⟩ := claims_of_takes htakes
  obtain ⟨row₀, row', hfound, -, -, hwritten, hleaves⟩ := left_of_claims hclaims
  have hid : claimed.id = row.id := by
    rw [takes_of_claims hclaims] at htakes
    exact (Table.key_of_find? htakes).symm
  refine ⟨before, turn, after, claimed, row', rfl, ?_, hid, hclaims, ?_, hleaves⟩
  · have hbefore := @served Impl config B before w hitems fun t ht =>
      hturns t (List.mem_append_left _ ht)
    have hserve := @serve Impl config B turn _
      (fun r hr => hitems r (hbefore.mem_of_mem hr)) (hturns turn (by simp)).play
    rw [htakes] at hserve
    exact hserve.able
  · rw [play_append, ← hid]
    show (play config B after (turn.run config B _).2).db.workItems.find? _ = _
    exact find?_play_of_not_opened hwritten hleaves.not_opened

/-- Nothing is lost and no item is claimed twice. Of two items, the one that is claimed earlier
comes first in the order of the board if its agent has the role for the other one. Agents that have
the role for every item work the board in its order, one item a turn, until it is empty. -/
theorem play_in_order (hitems : ∀ row ∈ w.waiting, ∃ item, row.Holds item)
    (hturns : ∀ turn ∈ turns, turn.Unhindered w) :
    w.waiting.Perm ((takings config B turns w).reduceOption ++ (play config B turns w).waiting) ∧
    ((turns.zip (takings config B turns w)).Pairwise fun p q => ∀ row row', p.2 = some row →
      q.2 = some row' → p.1.hasRoleFor row' = true → Db.Before row row') ∧
    ((∀ turn ∈ turns, ∀ row ∈ w.waiting, turn.hasRoleFor row = true) →
      (takings config B turns w).reduceOption.Pairwise Db.Before ∧
      (play config B turns w).waiting.length = w.waiting.length - turns.length) := by
  have hserved := @served Impl config B turns w hitems hturns
  exact ⟨hserved.perm, hserved.pairwise, fun hall => ⟨hserved.sorted hall, hserved.length_add hall⟩⟩

/-! The board with one item, and its agent. -/

lemma waiting_somePlace : somePlace.waiting = [Db.publishedRow none] := rfl

lemma unhindered_someTurn : (someTurn []).Unhindered somePlace :=
  ⟨fun _ _ h => h, ⟨[], rfl, by simp⟩, rfl⟩

lemma holds_of_mem_somePlace {row : WorkItemRow} (h : row ∈ somePlace.waiting) :
    ∃ item, row.Holds item := by
  rw [waiting_somePlace, List.mem_singleton] at h
  exact ⟨_, h ▸ Db.publishedRow_holds none⟩

theorem play_serves_somePlace : ∃ before turn after claimed row',
    [someTurn []] = before ++ turn :: after ∧
      turn.hasRoleFor (Db.publishedRow none) = true ∧ claimed.id = (Db.publishedRow none).id ∧
      turn.claims noRoutes .faultless (play noRoutes .faultless before somePlace) =
        .ok (some claimed) ∧
      (play noRoutes .faultless [someTurn []] somePlace).db.workItems.find?
        (Db.publishedRow none).id = some row' ∧
      Leaves noRoutes turn (play noRoutes .faultless before somePlace) claimed row' := by
  refine play_serves (fun row h => holds_of_mem_somePlace h) ?_ ?_ (by decide)
  · simp [unhindered_someTurn]
  · simp [waiting_somePlace]

theorem play_in_order_somePlace :
    (takings noRoutes .faultless [someTurn []] somePlace).reduceOption.Pairwise Db.Before ∧
      (play noRoutes .faultless [someTurn []] somePlace).waiting = [] := by
  obtain ⟨-, -, hall⟩ := @play_in_order Unit noRoutes .faultless [someTurn []] somePlace
    (fun row h => holds_of_mem_somePlace h) (by simp [unhindered_someTurn])
  obtain ⟨hsorted, hlength⟩ := hall (by simp [waiting_somePlace, hasRoleFor, Db.publishedRow])
  exact ⟨hsorted, List.eq_nil_of_length_eq_zero (by rw [hlength]; rfl)⟩

end AgentTurn

end WorkspaceOs
