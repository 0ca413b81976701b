import WorkspaceOs.Agent.AgentTurn

/-!
# Turns that the gateway rejects

A claim is committed before the model is asked, and nothing gives a claimed item back. A turn that
the gateway rejects leaves the item that it claimed assigned to its agent, where nobody can claim
it, and leaves everything else as it was.
-/

namespace WorkspaceOs

open Js Effect Relational

namespace AgentTurn

variable {Impl : Type} (config : ModelGatewayConfig Impl) (B : Backend)

/-! ### What a board says of an item -/

/-- The member can claim the item. -/
def CanClaim (w : Workplace) (id : JsString) (member : Member) : Prop :=
  ∃ row, w.db.workItems.find? id = some row ∧ Db.Claimable B.rt row member

/-- The item is assigned, neither open any more nor done. -/
def Held (w : Workplace) (id : JsString) : Prop :=
  ∃ row, w.db.workItems.find? id = some row ∧ row.state ≠ .opened ∧ row.state ≠ .done ∧
    row.assigneeMemberId ≠ none

/-- What the turn claims, if anything. -/
def claims (turn : AgentTurn Impl) (w : Workplace) : Except Thrown (Option WorkItem) :=
  (turn.perform config B (.workItemsClaimNext turn.deps.agent) w).1

/-- The turn claims an item, and the gateway refuses to answer about it or fails. -/
structure Rejected (turn : AgentTurn Impl) (w : Workplace) (claimed : WorkItem) (e : Thrown) :
    Prop where
  claim : turn.claims config B w = .ok (some claimed)
  answer : answerFor config turn claimed w = .error e

/-- The item of a turn that the gateway rejects. -/
def stranded? (turn : AgentTurn Impl) (w : Workplace) : Option JsString :=
  match turn.claims config B w with
  | .ok (some claimed) =>
    match answerFor config turn claimed w with
    | .ok _ => none
    | .error _ => some claimed.id
  | _ => none

/-- One turn after the other. -/
def play (turns : List (AgentTurn Impl)) (w : Workplace) : Workplace :=
  turns.foldl (fun w turn => (turn.run config B w).2) w

/-- The items of the turns that the gateway rejected. -/
def stranded : List (AgentTurn Impl) → Workplace → List JsString
  | [], _ => []
  | turn :: turns, w =>
    (turn.stranded? config B w).toList ++ stranded turns (turn.run config B w).2

/-- The turn fails with the error of the gateway. The item that it claimed was open; now its agent
has it, and nobody can claim it. All other items are as they were. -/
structure Strands (turn : AgentTurn Impl) (w : Workplace) (claimed : WorkItem) (e : Thrown) :
    Prop where
  result : (turn.run config B w).1 = .error e
  opened : ∃ row, w.db.workItems.find? claimed.id = some row ∧ row.state = .opened ∧
    Db.Claimable B.rt row turn.deps.agent
  held : ∃ row, (turn.run config B w).2.db.workItems.find? claimed.id = some row ∧
    row.state = .claimed ∧ row.assigneeMemberId = some turn.deps.agent.id
  others : ∀ id, id ≠ claimed.id →
    (turn.run config B w).2.db.workItems.find? id = w.db.workItems.find? id
  claimable : ∀ id member, CanClaim B (turn.run config B w).2 id member ↔
    CanClaim B w id member ∧ id ≠ claimed.id

variable {config B} {turn : AgentTurn Impl} {w w' : Workplace} {claimed : WorkItem} {e : Thrown}

/-! ### One turn -/

/-- What a turn can be. -/
inductive Ended (config : ModelGatewayConfig Impl) (B : Backend) (turn : AgentTurn Impl)
    (w w' : Workplace) : Prop where
  /-- It claims nothing. -/
  | idle (claim : ∀ claimed, turn.claims config B w ≠ .ok (some claimed))
      (unchanged : w'.db.workItems = w.db.workItems)
  /-- The gateway rejects it. -/
  | rejected (row row' : WorkItemRow) (claimed : WorkItem) (e : Thrown)
      (rejected : Rejected config B turn w claimed e)
      (found : w.db.workItems.find? claimed.id = some row)
      (claimable : Db.Claimable B.rt row turn.deps.agent)
      (others : ∀ id, id ≠ claimed.id → w'.db.workItems.find? id = w.db.workItems.find? id)
      (written : w'.db.workItems.find? claimed.id = some row') (state : row'.state = .claimed)
      (assignee : row'.assigneeMemberId = some turn.deps.agent.id)
      (result : (turn.run config B w).1 = .error e)
  /-- It drives its item to done. -/
  | worked (row row' : WorkItemRow) (claimed : WorkItem) (result : ModelCompletionResult)
      (claim : turn.claims config B w = .ok (some claimed))
      (answer : answerFor config turn claimed w = .ok result)
      (found : w.db.workItems.find? claimed.id = some row)
      (claimable : Db.Claimable B.rt row turn.deps.agent)
      (others : ∀ id, id ≠ claimed.id → w'.db.workItems.find? id = w.db.workItems.find? id)
      (written : w'.db.workItems.find? claimed.id = some row') (state : row'.state = .done)

/-- The board right after a claim. -/
lemma after_claim
    (h : turn.perform config B (.workItemsClaimNext turn.deps.agent) w = (.ok (some claimed), w')) :
    ∃ row, w.db.workItems.find? claimed.id = some row ∧ Db.Claimable B.rt row turn.deps.agent ∧
      (∀ id, id ≠ claimed.id → w'.db.workItems.find? id = w.db.workItems.find? id) ∧
      w'.usage = w.usage ∧ ∃ row', w'.db.workItems.find? claimed.id = some row' ∧
        row'.state = .claimed ∧ row'.assigneeMemberId = some turn.deps.agent.id := by
  obtain ⟨row, item, hrow, hmem, hitem, hcan, rfl, hdb, husage⟩ := perform_claim h
  have hid : item.id = row.id := (Db.toWorkItem_ok hitem).1
  let row' : WorkItemRow := { row with
    state := .claimed, assigneeMemberId := some turn.deps.agent.id
    updatedAt := turn.clock (.workItemsClaimNext turn.deps.agent) }
  have hitems : w'.db.workItems = w.db.workItems.set row' := congrArg Db.workItems hdb
  refine ⟨row, ?_, ⟨item, hitem, hcan⟩, fun id hne => ?_, husage, row', ?_, rfl, rfl⟩
  · show w.db.workItems.find? item.id = _
    rw [hid, Table.find?_key hmem]
  · rw [hitems]
    exact Table.find?_set_of_ne (hid ▸ hne)
  · show w'.db.workItems.find? item.id = _
    rw [hid, hitems]
    exact Table.find?_set_self

lemma run_ended : Ended config B turn w (turn.run config B w).2 := by
  rcases hclaim : turn.perform config B (.workItemsClaimNext turn.deps.agent) w with ⟨a, w₁⟩
  by_cases ha : ∃ claimed, a = .ok (some claimed)
  · obtain ⟨claimed, rfl⟩ := ha
    have hclaims : turn.claims config B w = .ok (some claimed) := congrArg Prod.fst hclaim
    obtain ⟨row, hfound, hclaimable, hothers, husage, row', hwritten, hstate, hassignee⟩ :=
      after_claim hclaim
    have hholds := holds_of_claim hclaim
    have hrun := run_of_claim hclaim
    cases hanswer : answerFor config turn claimed w with
    | error e =>
      have hanswer₁ : answerFor config turn claimed w₁ = .error e := by rwa [answerFor, husage]
      obtain ⟨w₂, hwork, hsame⟩ := run_work_rejected hholds hanswer₁
      rw [hwork] at hrun
      refine .rejected row row' claimed e ⟨hclaims, hanswer⟩ hfound hclaimable ?_ ?_ hstate
        hassignee (congrArg Prod.fst hrun)
      · rwa [hrun, hsame.workItems]
      · rwa [hrun, hsame.workItems]
    | ok result =>
      have hanswer₁ : answerFor config turn claimed w₁ = .ok result := by rwa [answerFor, husage]
      obtain ⟨row'', hdone, hrow⟩ := @run_work_done Impl config B turn w₁ claimed hholds result
        hanswer₁
      have hid : row''.id = claimed.id := hrow.id
      refine .worked row row'' claimed result hclaims hanswer hfound hclaimable ?_ ?_ hrow.state
      · intro id hne
        rw [hrun, hdone, ← hothers id hne]
        exact Table.find?_set_of_ne (hid ▸ hne)
      · rw [hrun, hdone, ← hid]
        exact Table.find?_set_self
  · have hnothing : ∀ claimed, a ≠ .ok (some claimed) := fun claimed h => ha ⟨claimed, h⟩
    refine .idle (by rwa [claims, hclaim]) ?_
    rw [run, AgentRunner.runOnce_eq, Prog.run_perform_bind, hclaim]
    have hdb := perform_claim_nothing hclaim hnothing
    rcases a with e | _ | claimed
    · exact congrArg Db.workItems hdb
    · exact congrArg Db.workItems hdb
    · exact absurd rfl (hnothing claimed)

lemma opened_of_claimable {row : WorkItemRow} {member : Member}
    (h : Db.Claimable B.rt row member) : row.state = .opened := by
  obtain ⟨item, hitem, hcan⟩ := h
  obtain ⟨-, -, -, -, -, hstate, -⟩ := Db.toWorkItem_ok hitem
  rw [← hstate]
  exact (WorkItem.canBeClaimedBy_iff.mp hcan).1

lemma canClaim_congr {id : JsString} {member : Member}
    (h : w'.db.workItems.find? id = w.db.workItems.find? id) :
    CanClaim B w' id member ↔ CanClaim B w id member := by
  simp only [CanClaim, h]

lemma held_congr {id : JsString} (h : w'.db.workItems.find? id = w.db.workItems.find? id) :
    Held w' id ↔ Held w id := by
  simp only [Held, h]

/-- A turn that the gateway rejects strands its item, and no other. -/
lemma strands_of_rejected (h : Rejected config B turn w claimed e) :
    Strands config B turn w claimed e := by
  cases @run_ended Impl config B turn w with
  | idle claim _ => exact absurd h.claim (claim claimed)
  | worked row row' claimed' result claim answer =>
    cases h.claim.symm.trans claim
    cases h.answer.symm.trans answer
  | rejected row row' claimed' e' rejected found claimable others written state assignee result =>
    cases h.claim.symm.trans rejected.claim
    cases h.answer.symm.trans rejected.answer
    refine ⟨result, ⟨row, found, opened_of_claimable claimable, claimable⟩,
      ⟨row', written, state, assignee⟩, others, fun id member => ?_⟩
    by_cases hid : id = claimed.id
    · refine iff_of_false ?_ fun h => h.2 hid
      rintro ⟨row₂, hrow₂, hclaimable⟩
      rw [hid, written] at hrow₂
      cases hrow₂
      cases state.symm.trans (opened_of_claimable hclaimable)
    · rw [canClaim_congr (others id hid)]
      simp [hid]

/-- A turn leaves an item held if it was held before, or if the gateway rejects its turn. -/
lemma held_run_iff {id : JsString} : Held (turn.run config B w).2 id ↔
    Held w id ∨ id ∈ (turn.stranded? config B w).toList := by
  cases @run_ended Impl config B turn w with
  | idle claim unchanged =>
    have hnone : turn.stranded? config B w = none := by
      rcases hclaims : turn.claims config B w with e | _ | claimed
      · simp only [stranded?, hclaims]
      · simp only [stranded?, hclaims]
      · exact absurd hclaims (claim claimed)
    have hsame : (turn.run config B w).2.db.workItems.find? id = w.db.workItems.find? id := by
      rw [unchanged]
    rw [hnone, held_congr hsame]
    simp
  | rejected row row' claimed e rejected found claimable others written state assignee =>
    have hsome : turn.stranded? config B w = some claimed.id := by
      simp only [stranded?, rejected.claim, rejected.answer]
    rw [hsome, Option.toList_some, List.mem_singleton]
    by_cases hid : id = claimed.id
    · refine iff_of_true ⟨row', hid ▸ written, ?_⟩ (.inr hid)
      simp [state, assignee]
    · rw [held_congr (others id hid)]
      simp [hid]
  | worked row row' claimed result claim answer found claimable others written state =>
    have hnone : turn.stranded? config B w = none := by
      simp only [stranded?, claim, answer]
    rw [hnone]
    by_cases hid : id = claimed.id
    · subst hid
      simp [Held, found, written, state, opened_of_claimable claimable]
    · rw [held_congr (others id hid)]
      simp

/-! ### Any number of turns -/

/-- Every turn that the gateway rejects strands its item, and no other; and when all turns have
ended the items that are held are those that were, and those of the rejected turns. -/
theorem play_strands (turns : List (AgentTurn Impl)) (w : Workplace) :
    (∀ before turn after, turns = before ++ turn :: after →
      ∀ claimed e, Rejected config B turn (play config B before w) claimed e →
        Strands config B turn (play config B before w) claimed e) ∧
    ∀ id, Held (play config B turns w) id ↔ Held w id ∨ id ∈ stranded config B turns w := by
  refine ⟨fun _ _ _ _ _ _ => strands_of_rejected, fun id => ?_⟩
  induction turns generalizing w with
  | nil => simp [play, stranded]
  | cons turn turns ih =>
    rw [stranded, List.mem_append, ← or_assoc, ← held_run_iff]
    exact ih _

/-! A gateway that knows no task. -/

def noRoutes : ModelGatewayConfig Unit := { ModelGateway.triageConfig with routing := [] }

lemma someTurn_rejected : ∃ claimed, claimed.id = JsString.ofString "w_1" ∧
    Rejected noRoutes .faultless (someTurn []) somePlace claimed (.unknownTask "triage") := by
  obtain ⟨claimed, hclaim⟩ := someTurn_claims []
  refine ⟨claimed, ?_, hclaim, rfl⟩
  obtain ⟨row, hrow, -⟩ := @after_claim Unit ModelGateway.triageConfig .faultless (someTurn [])
    somePlace _ claimed (Prod.ext hclaim rfl)
  rw [← Table.key_of_find? hrow, List.mem_singleton.mp (Table.mem_of_find? hrow)]
  rfl

theorem play_strands_unknownTask : ∃ claimed e,
    Rejected noRoutes .faultless (someTurn []) somePlace claimed e ∧
      Strands noRoutes .faultless (someTurn []) somePlace claimed e ∧
      ∀ id, Held (play noRoutes .faultless [someTurn []] somePlace) id ↔
        Held somePlace id ∨ id ∈ stranded noRoutes .faultless [someTurn []] somePlace := by
  obtain ⟨claimed, -, hrejected⟩ := someTurn_rejected
  obtain ⟨hstrands, hheld⟩ := @play_strands Unit noRoutes .faultless [someTurn []] somePlace
  exact ⟨claimed, _, hrejected, hstrands [] _ [] rfl claimed _ hrejected, hheld⟩

/-- Only the agent could claim the item, and nobody can any more. -/
theorem unknownTask_strands :
    ((someTurn []).run noRoutes .faultless somePlace).1 = .error (.unknownTask "triage") ∧
    CanClaim .faultless somePlace "w_1" (.bot []) ∧
    ¬ CanClaim .faultless ((someTurn []).run noRoutes .faultless somePlace).2 "w_1" (.bot []) ∧
    Held ((someTurn []).run noRoutes .faultless somePlace).2 "w_1" := by
  obtain ⟨claimed, hid, hrejected⟩ := someTurn_rejected
  have hstrands := strands_of_rejected hrejected
  obtain ⟨row, hrow, -, hclaimable⟩ := hstrands.opened
  obtain ⟨row', hrow', hstate, hassignee⟩ := hstrands.held
  rw [hid] at hrow hrow'
  refine ⟨hstrands.result, ⟨row, hrow, hclaimable⟩, fun h => ?_, row', hrow', ?_⟩
  · exact ((hstrands.claimable _ _).mp h).2 hid.symm
  · simp [hstate, hassignee]

end AgentTurn

end WorkspaceOs
