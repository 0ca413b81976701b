import WorkspaceOs.Effect.History
import WorkspaceOs.Server.Lasting

/-!
# Every item is claimed at most once

`save` overwrites every column from an item that may be stale. What keeps the board sound is that a
save of an item that exists writes back an assignee that the row already has, over a state that is
no longer open, and that a save of a new item uses an identifier nobody else drew. This is the
precondition of `save` in the discipline below; the invariant relates the board to the claims of the
run so far.
-/

namespace WorkspaceOs

open Js Effect Relational

/-- The claim that a label records: who got which item. -/
def claim? : ServerLabel → Option (Member × WorkItem)
  | ⟨_, .workItemsClaimNext member, .ok (some item)⟩ => some (member, item)
  | _ => none

/-- The claims of a run, in order. -/
def claims (history : List ServerLabel) : List (Member × WorkItem) := history.filterMap claim?

/-- The item is on the board with this assignee, and not open. -/
def HeldBy (id : JsString) (assignee : Option JsString) (w : World) : Prop :=
  ∃ row, w.db.workItems.find? id = some row ∧ row.state ≠ .opened ∧
    row.assigneeMemberId = assignee

/-- A save by program `i` either moves on an item that is held by the assignee it writes, or
publishes an item under an identifier of its own. -/
inductive SavePre (i : ℕ) (item : WorkItem) (s : RecordedWorld) : Prop where
  | transition (hstate : item.state ≠ .opened) (held : HeldBy item.id item.assigneeMemberId s.1)
  | publication {uuid : JsString} (drew : Drew s.2 i uuid) (hid : item.id = "w_" ++ uuid)
      (absent : s.1.db.workItems.find? item.id = none)

/-- What each program keeps to. A runner saves only an item that its own agent holds, as done; who
reports a completion holds the item. -/
def boardPre (actors : List Actor) (i : ℕ) (op : ServerOp) (s : RecordedWorld) : Prop :=
  match op with
  | .workItemsSave item => SavePre i item s ∧
      ∀ deps, actors[i]? = some (.runner deps) → item.state = .done ∧
        item.assigneeMemberId = some deps.agent.id ∧ HeldBy item.id (some deps.agent.id) s.1
  | .activitiesInsert input =>
      input.action = "work.complete" → HeldBy input.resourceId (some input.actor.id) s.1
  | _ => True

/-- The board and the claims of the run so far. -/
structure BoardInv (s : RecordedWorld) : Prop extends DrawnInv s where
  claims_nodup : ((claims s.2).map fun claim => claim.2.id).Nodup
  claims_held : ∀ claim ∈ claims s.2, HeldBy claim.2.id (some claim.1.id) s.1

section Step

variable {B : Backend} {actors : List Actor} {i j : ℕ} {op : ServerOp} {s s' : RecordedWorld}
  {a : Except Thrown (ServerAns op)} {id uuid : JsString} {assignee : Option JsString}

/-- Only a save and a claim touch the board. -/
lemma workItems_of_exec {w w' : World} (h : exec B i op w a w')
    (hop : op.table ≠ some .workItems) : w'.db.workItems = w.db.workItems :=
  (exec_framed h).workItems hop

lemma HeldBy.congr {w w' : World} (held : HeldBy id assignee w)
    (h : w'.db.workItems = w.db.workItems) : HeldBy id assignee w' := by
  simp only [HeldBy]
  rwa [h]

/-- Writing the row of a held item keeps it held, if the row has the same assignee and is not open;
writing any other row does not matter. -/
lemma HeldBy.set {w w' : World} {row : WorkItemRow} (held : HeldBy id assignee w)
    (h : w'.db.workItems = w.db.workItems.set row)
    (hrow : row.id = id → row.state ≠ .opened ∧ row.assigneeMemberId = assignee) :
    HeldBy id assignee w' := by
  obtain ⟨old, hold, hstate, hassignee⟩ := held
  by_cases hid : row.id = id
  · refine ⟨row, ?_, hrow hid⟩
    rw [h, ← hid, Table.find?_set_self]
  · exact ⟨old, by rwa [h, Table.find?_set_of_ne (Ne.symm hid)], hstate, hassignee⟩

/-- No step takes a held item from its assignee, or opens it again. -/
lemma HeldBy.step {w' : World} (held : HeldBy id assignee s.1) (hpre : boardPre actors j op s)
    (h : exec B j op s.1 a w') : HeldBy id assignee w' := by
  cases op with
  | workItemsSave item =>
    cases a with
    | error e => rwa [exec_error h]
    | ok =>
      obtain ⟨row, hset, hid, hstate, hassignee⟩ := exec_workItemsSave h
      apply held.set hset
      intro hrow
      have hitem : item.id = id := hid.symm.trans hrow
      obtain ⟨old, hold, -, hold_assignee⟩ := held
      rcases hpre.1 with ⟨hopen, ⟨old', hold', -, hassignee'⟩⟩ | ⟨-, -, habsent⟩
      · rw [hitem, hold] at hold'
        cases hold'
        exact ⟨hstate ▸ hopen, hassignee.trans (hassignee'.symm.trans hold_assignee)⟩
      · rw [hitem, hold] at habsent
        cases habsent
  | workItemsClaimNext member =>
    match a with
    | .error e => rwa [exec_error h]
    | .ok none => exact held.congr (by rw [exec_workItemsClaimNext_none h])
    | .ok (some claimed) =>
      obtain ⟨row, row', item, hfind, hitem, hcan, -, hset, hid, -⟩ := exec_workItemsClaimNext h
      apply held.set hset
      intro hrow
      -- the row that was claimed was open, and a held item is not
      obtain ⟨old, hold, hstate, -⟩ := held
      rw [← hrow, hid, hfind] at hold
      cases hold
      refine absurd ?_ hstate
      rw [← (Db.toWorkItem_ok hitem).2.2.2.2.2.1]
      exact (WorkItem.canBeClaimedBy_iff.mp hcan).1
  | _ => exact held.congr (workItems_of_exec h (by simp [ServerOp.table]))

/-- A claim returns an open item, whose required role the claimer holds, and leaves it held by the
claimer. -/
lemma claim_spec {member : Member} {claimed : WorkItem} {w w' : World}
    (h : exec B i (.workItemsClaimNext member) w (.ok (some claimed)) w') :
    (∃ row, w.db.workItems.find? claimed.id = some row ∧ row.state = .opened ∧
      ∀ role, row.requiredRole = some role → role ≠ [] → member.hasRole role = true) ∧
    claimed.state = .claimed ∧ claimed.assigneeMemberId = some member.id ∧
    HeldBy claimed.id (some member.id) w' := by
  obtain ⟨row, row', item, hfind, hitem, hcan, rfl, hset, hid, hstate, hassignee⟩ :=
    exec_workItemsClaimNext h
  obtain ⟨hopen, hrole⟩ := WorkItem.canBeClaimedBy_iff.mp hcan
  obtain ⟨hitem_id, -, -, -, hitem_role, hitem_state, -⟩ := Db.toWorkItem_ok hitem
  refine ⟨⟨row, by rwa [hitem_id], hitem_state ▸ hopen, ?_⟩, rfl, rfl, row', ?_, ?_, hassignee⟩
  · rw [← hitem_role]
    exact WorkItem.not_lacksRole_iff.mp hrole
  · rw [hset, hitem_id, ← hid, Table.find?_set_self]
  · rw [hstate]
    decide

lemma BoardInv.step (hinv : BoardInv s) (hpre : boardPre actors i op s)
    (h : recorded (exec B) i op s a s') : BoardInv s' := by
  have hdrawn := hinv.toDrawnInv.step h
  obtain ⟨hexec, hhistory⟩ := h
  have hheld : ∀ claim ∈ claims s.2, HeldBy claim.2.id (some claim.1.id) s'.1 :=
    fun claim hclaim => (hinv.claims_held claim hclaim).step hpre hexec
  have hclaims : claims s'.2 = claims s.2 ++ (claim? ⟨i, op, a⟩).toList := by
    rw [hhistory]
    exact filterMap_concat ..
  cases hnew : claim? ⟨i, op, a⟩ with
  | none =>
    rw [hnew, Option.toList_none, List.append_nil] at hclaims
    exact ⟨hdrawn, hclaims ▸ hinv.claims_nodup, hclaims ▸ hheld⟩
  | some claim =>
    rw [hnew, Option.toList_some] at hclaims
    simp only [claim?] at hnew
    split at hnew
    · rename_i member item hl
      cases hnew
      cases hl
      obtain ⟨⟨row, hfind, hopen, -⟩, -, -, hself⟩ := claim_spec hexec
      refine ⟨hdrawn, ?_, ?_⟩
      · rw [hclaims, List.map_append, List.nodup_append]
        refine ⟨hinv.claims_nodup, List.nodup_singleton _, ?_⟩
        rintro _ hid _ hid' rfl
        obtain ⟨old, hold, hsame⟩ := List.mem_map.mp hid
        -- an item that was claimed before is not open
        obtain ⟨row', hfind', hstate, -⟩ := hinv.claims_held old hold
        rw [hsame, List.mem_singleton.mp hid', hfind] at hfind'
        cases hfind'
        exact hstate hopen
      · intro c hc
        rw [hclaims, List.mem_append, List.mem_singleton] at hc
        rcases hc with hc | rfl
        · exact hheld c hc
        · exact hself
    · cases hnew

end Step

end WorkspaceOs
