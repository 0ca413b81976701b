import WorkspaceOs.Effect.Guarded
import WorkspaceOs.Core.WorkItem

/-!
# The lifecycle of a work item

What an item is follows from the calls that went through on it: at most one claim, by its assignee,
then a start, then pairs of a block and an unblock, then perhaps a completion; and a cancellation at
any point before.
-/

namespace WorkspaceOs

open Js Effect

namespace WorkItem

/-- A call of one of the methods. -/
inductive Operation where
  | claimBy (member : Member)
  | start
  | complete
  | block
  | unblock
  | cancel

/-- What the call returns or throws. -/
def perform (item : WorkItem) : Operation → Except Thrown WorkItem
  | .claimBy member => item.claimBy member
  | .start => item.start
  | .complete => item.complete
  | .block => item.block
  | .unblock => item.unblock
  | .cancel => item.cancel

/-- The member of a claim. -/
def Operation.claimant? : Operation → Option Member
  | .claimBy member => some member
  | _ => none

/-- A claim, a start, and `n` interruptions. -/
def workedOn (member : Member) (n : ℕ) : List Operation :=
  .claimBy member :: .start :: (List.replicate n [.block, .unblock]).flatten

/-- The histories that lead to a state, and the member that claimed the item in them. -/
inductive Lived : List Operation → WorkItemState → Option Member → Prop where
  | created : Lived [] .opened none
  | claimed (member) : Lived [.claimBy member] .claimed (some member)
  | working (member n) : Lived (workedOn member n) .inProgress (some member)
  | interrupted (member n) : Lived (workedOn member n ++ [.block]) .blocked (some member)
  | completed (member n) : Lived (workedOn member n ++ [.complete]) .done (some member)
  | cancelled {history state claimant} (lived : Lived history state claimant)
      (alive : state ≠ .done ∧ state ≠ .cancelled) :
      Lived (history ++ [.cancel]) .cancelled claimant

variable {rt : Runtime} {props : WorkItemProps} {created item next : WorkItem} {op : Operation}
  {history : List Operation} {state : WorkItemState} {claimant : Option Member} {member : Member}
  {n : ℕ}

/-! ### Histories -/

@[simp] lemma filterMap_workedOn :
    (workedOn member n).filterMap Operation.claimant? = [member] := by
  have hpairs : (List.replicate n [Operation.block, .unblock]).flatten.filterMap
      Operation.claimant? = [] := by
    rw [List.filterMap_eq_nil_iff]
    intro op hop
    obtain ⟨pair, hpair, hop⟩ := List.mem_flatten.mp hop
    rw [List.eq_of_mem_replicate hpair] at hop
    rcases List.mem_pair.mp hop with rfl | rfl <;> rfl
  have hclaim : Operation.claimant? (.claimBy member) = some member := rfl
  have hstart : Operation.claimant? .start = none := rfl
  rw [workedOn, List.filterMap_cons_some hclaim, List.filterMap_cons_none hstart, hpairs]

lemma workedOn_succ : workedOn member n ++ [.block] ++ [.unblock] = workedOn member (n + 1) := by
  simp [workedOn, List.replicate_succ']

namespace Lived

/-- The claims of a history are the one of its claimant. -/
lemma claims (h : Lived history state claimant) :
    history.filterMap Operation.claimant? = claimant.toList := by
  induction h with
  | created => rfl
  | claimed => rfl
  | working => simp
  | interrupted => simp [Operation.claimant?]
  | completed => simp [Operation.claimant?]
  | cancelled _ _ ih => simp [ih, Operation.claimant?]

lemma opened (h : Lived history .opened claimant) : history = [] ∧ claimant = none := by
  cases h
  exact ⟨rfl, rfl⟩

lemma done_eq (h : Lived history .done claimant) :
    ∃ member n, history = workedOn member n ++ [.complete] := by
  cases h with
  | completed member n => exact ⟨member, n, rfl⟩

lemma exists_claimant (h : Lived history state claimant)
    (hstate : state ≠ .opened ∧ state ≠ .cancelled) : ∃ member, claimant = some member := by
  cases h with
  | created => exact absurd rfl hstate.1
  | claimed member => exact ⟨member, rfl⟩
  | working member => exact ⟨member, rfl⟩
  | interrupted member => exact ⟨member, rfl⟩
  | completed member => exact ⟨member, rfl⟩
  | cancelled => exact absurd rfl hstate.2

end Lived

/-! ### Calls -/

/-- What a call that goes through does. -/
inductive Moved (item : WorkItem) : Operation → WorkItem → Prop where
  | claimed {member : Member} (opened : item.state = .opened)
      (eligible : item.lacksRole member = false) :
      Moved item (.claimBy member)
        { item with state := .claimed, assigneeMemberId := some member.id }
  | started (claimed : item.state = .claimed) : Moved item .start { item with state := .inProgress }
  | completed (working : item.state = .inProgress) :
      Moved item .complete { item with state := .done }
  | blocked (working : item.state = .inProgress) :
      Moved item .block { item with state := .blocked }
  | unblocked (interrupted : item.state = .blocked) :
      Moved item .unblock { item with state := .inProgress }
  | cancelled (alive : item.state ≠ .done ∧ item.state ≠ .cancelled) :
      Moved item .cancel { item with state := .cancelled }

lemma moved_of_perform (h : item.perform op = .ok next) : Moved item op next := by
  cases op with
  | claimBy member =>
    obtain ⟨hclaim, rfl⟩ := claimBy_eq_ok_iff.mp h
    obtain ⟨hopened, heligible⟩ := canBeClaimedBy_iff.mp hclaim
    exact .claimed hopened heligible
  | start =>
    obtain ⟨hstate, rfl⟩ := start_eq_ok_iff.mp h
    exact .started hstate
  | complete =>
    obtain ⟨hstate, rfl⟩ := complete_eq_ok_iff.mp h
    exact .completed hstate
  | block =>
    obtain ⟨hstate, rfl⟩ := move_eq_ok_iff.mp h
    exact .blocked (List.mem_singleton.mp hstate)
  | unblock =>
    obtain ⟨hstate, rfl⟩ := move_eq_ok_iff.mp h
    exact .unblocked (List.mem_singleton.mp hstate)
  | cancel =>
    obtain ⟨hstate, rfl⟩ := move_eq_ok_iff.mp h
    refine .cancelled ⟨?_, ?_⟩ <;> rintro hend <;> rw [hend] at hstate <;> simp at hstate

/-- Nothing moves an item that is done or cancelled. -/
lemma perform_of_ended (h : item.state = .done ∨ item.state = .cancelled) :
    ∃ e, item.perform op = .error e := by
  cases hstep : item.perform op with
  | error e => exact ⟨e, rfl⟩
  | ok next =>
    cases moved_of_perform hstep <;> simp_all

/-- The item is what its history makes of the item that was created. -/
def Follows (created : WorkItem) (history : List Operation) (item : WorkItem) : Prop :=
  ∃ state claimant, Lived history state claimant ∧
    item = { created with state, assigneeMemberId := claimant.map Member.id } ∧
    ∀ member, claimant = some member → created.lacksRole member = false

/-- A call that goes through goes on with the history. -/
lemma Follows.perform (h : Follows created history item) (hstep : item.perform op = .ok next) :
    Follows created (history ++ [op]) next := by
  obtain ⟨state, claimant, hlived, rfl, heligible⟩ := h
  cases moved_of_perform hstep with
  | claimed hopened helig =>
    rename_i member
    cases hopened
    obtain ⟨rfl, rfl⟩ := hlived.opened
    refine ⟨.claimed, some member, .claimed member, rfl, ?_⟩
    rintro _ ⟨⟩
    exact helig
  | started hclaimed =>
    cases hclaimed
    cases hlived with
    | claimed member => exact ⟨_, _, .working member 0, rfl, heligible⟩
  | completed hworking =>
    cases hworking
    cases hlived with
    | working member n => exact ⟨_, _, .completed member n, rfl, heligible⟩
  | blocked hworking =>
    cases hworking
    cases hlived with
    | working member n => exact ⟨_, _, .interrupted member n, rfl, heligible⟩
  | unblocked hinterrupted =>
    cases hinterrupted
    cases hlived with
    | interrupted member n =>
      rw [workedOn_succ]
      exact ⟨_, _, .working member (n + 1), rfl, heligible⟩
  | cancelled halive => exact ⟨_, _, .cancelled hlived halive, rfl, heligible⟩

/-! ### Runs -/

/-- The item after calls, where one that throws leaves it as it was. -/
def after (created : WorkItem) (ops : List Operation) : WorkItem := settle perform created ops

/-- The calls that went through. -/
def passed (created : WorkItem) (ops : List Operation) : List Operation :=
  accepted perform created ops

lemma after_append {ops ops' : List Operation} :
    created.after (ops ++ ops') = (created.after ops).after ops' := settle_append

lemma after_of_ended {ops : List Operation} (h : item.state = .done ∨ item.state = .cancelled) :
    item.after ops = item := settle_of_stuck fun _ => perform_of_ended h

/-- What holds of an item after any calls. -/
structure Lifecycle (rt : Runtime) (created : WorkItem) (ops : List Operation) : Prop where
  unassigned : (created.after ops).assigneeMemberId = none ↔
    ∀ member, .claimBy member ∉ created.passed ops
  one_claim : ((created.passed ops).filterMap Operation.claimant?).length ≤ 1
  /-- The member whose claim went through had the role, and is the assignee from then on. -/
  claimed : ∀ earlier member later next, ops = earlier ++ .claimBy member :: later →
    (created.after earlier).claimBy member = .ok next →
    (created.after ops).assigneeMemberId = some member.id ∧
      ∀ role, created.requiredRole = some role → role ≠ [] → member.hasRole role = true
  assigned : (created.after ops).state ∈ [.claimed, .inProgress, .blocked, .done] →
    (created.after ops).assigneeMemberId ≠ none
  opened : (created.after ops).state = .opened → (created.after ops).assigneeMemberId = none
  ended : (created.after ops).state = .done ∨ (created.after ops).state = .cancelled →
    ∀ later, (created.after (ops ++ later)).state = (created.after ops).state
  completed : (created.after ops).state = .done →
    ∃ member n, created.passed ops = workedOn member n ++ [.complete]
  kept : (created.after ops).id = created.id ∧ (created.after ops).title = created.title ∧
    (created.after ops).priority = created.priority ∧
    (created.after ops).description = created.description ∧
    (created.after ops).requiredRole = created.requiredRole
  rehydrated : ∃ item, create rt (created.after ops).toJSON = .ok item ∧
    ∀ later, outcomes perform item later = outcomes perform (created.after ops) later

lemma mem_passed_iff {ops : List Operation}
    (h : (created.passed ops).filterMap Operation.claimant? = claimant.toList) :
    .claimBy member ∈ created.passed ops ↔ claimant = some member := by
  rw [← Option.mem_toList, ← h, List.mem_filterMap]
  constructor
  · exact fun hmem => ⟨_, hmem, rfl⟩
  · rintro ⟨op, hmem, hop⟩
    cases op <;> cases hop
    exact hmem

lemma follows_after (hstate : created.state = .opened) (hassignee : created.assigneeMemberId = none)
    (ops : List Operation) : Follows created (created.passed ops) (created.after ops) := by
  refine history_invariant ⟨.opened, none, .created, ?_, ?_⟩ (fun _ _ _ _ => Follows.perform) ops
  · cases created
    cases hstate
    cases hassignee
    rfl
  · simp

/-- The lifecycle of every item that is created without a state and an assignee. -/
theorem lifecycle (h : create rt props = .ok created) (hstate : props.state = none)
    (hassignee : props.assigneeMemberId = none) (ops : List Operation) :
    Lifecycle rt created ops := by
  obtain ⟨-, -, -, -, -, hopened, hnone⟩ := create_ok h
  rw [hstate, Option.getD_none] at hopened
  rw [hassignee] at hnone
  obtain ⟨state, claimant, hlived, hafter, heligible⟩ := follows_after hopened hnone ops
  have hmem (member : Member) : .claimBy member ∈ created.passed ops ↔ claimant = some member :=
    mem_passed_iff hlived.claims
  have hassigned : (created.after ops).assigneeMemberId = claimant.map Member.id := by rw [hafter]
  have hstate' : (created.after ops).state = state := by rw [hafter]
  constructor
  · rw [hassigned, Option.map_eq_none_iff, Option.eq_none_iff_forall_ne_some]
    exact forall_congr' fun member => not_congr (hmem member).symm
  · rw [hlived.claims]
    cases claimant <;> simp
  · rintro earlier member later next rfl hclaim
    have hclaimed := (hmem member).mp (mem_accepted hclaim)
    rw [hassigned, hclaimed]
    exact ⟨rfl, not_lacksRole_iff.mp (heligible member hclaimed)⟩
  · intro hin
    rw [hstate'] at hin
    have hstates : state ≠ .opened ∧ state ≠ .cancelled := by
      constructor <;> rintro rfl <;> simp at hin
    obtain ⟨member, hclaimed⟩ := hlived.exists_claimant hstates
    rw [hassigned, hclaimed]
    simp
  · intro hopened
    rw [hstate'] at hopened
    cases hopened
    rw [hassigned, hlived.opened.2, Option.map_none]
  · intro hended later
    rw [after_append, after_of_ended hended]
  · intro hdone
    rw [hstate'] at hdone
    cases hdone
    exact hlived.done_eq
  · rw [hafter]
    exact ⟨rfl, rfl, rfl, rfl, rfl⟩
  · exact ⟨_, create_toJSON rt _, fun _ => rfl⟩

/-- An item that only a reviewer can claim. -/
def review : WorkItemProps where
  id := "i"
  title := "Review"
  priority := 1
  requiredRole := some "reviewer"

/-- It is worked on with one interruption, after a call that comes too early. -/
theorem lifecycle_review : ∃ created, create .ascii review = .ok created ∧
    Lifecycle .ascii created
      [.start, .claimBy (.bot ["reviewer"]), .start, .block, .unblock, .complete, .cancel] := by
  have hcreate := create_of_visible .ascii review (by decide) (by decide) (by decide +kernel)
  exact ⟨_, hcreate, lifecycle hcreate rfl rfl _⟩

end WorkItem

end WorkspaceOs
