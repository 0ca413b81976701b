import WorkspaceOs.Js.Number
import WorkspaceOs.Core.Member

/-!
# Work items

The unit of work on the shared board, with its guarded lifecycle. Every lifecycle method is the same
guarded move, from a list of states to one state; claiming is the one that also looks at the member.
-/

namespace WorkspaceOs

open Js

/-- `opened` is the state the source calls `open`. -/
inductive WorkItemState where
  | opened
  | claimed
  | inProgress
  | blocked
  | done
  | cancelled
deriving DecidableEq

def WorkItemState.name : WorkItemState → JsString
  | .opened => "open"
  | .claimed => "claimed"
  | .inProgress => "in_progress"
  | .blocked => "blocked"
  | .done => "done"
  | .cancelled => "cancelled"

/-- The arguments of `WorkItem.create`; a property that is `null` or absent is `none`. -/
structure WorkItemProps where
  id : JsString
  title : JsString
  priority : Float
  description : Option JsString := none
  requiredRole : Option Role := none
  state : Option WorkItemState := none
  assigneeMemberId : Option JsString := none

structure WorkItem where
  id : JsString
  title : JsString
  priority : Float
  description : Option JsString
  requiredRole : Option Role
  state : WorkItemState
  assigneeMemberId : Option JsString
  id_visible : ¬ id.IsBlank
  title_visible : ¬ title.IsBlank
  priority_integer : isInteger priority

namespace WorkItem

/-- `requireNonBlank` of `work-item.ts`. -/
def requireNonBlank := WorkspaceOs.requireNonBlank .invalidWorkItem

def create (rt : Runtime) (props : WorkItemProps) : Except Thrown WorkItem := do
  let ⟨hid⟩ ← requireNonBlank "id" props.id
  let ⟨htitle⟩ ← requireNonBlank "title" props.title
  if hpriority : isInteger props.priority then
    return { id := props.id, title := props.title, priority := props.priority,
             description := props.description, requiredRole := props.requiredRole,
             state := props.state.getD .opened, assigneeMemberId := props.assigneeMemberId,
             id_visible := hid, title_visible := htitle, priority_integer := hpriority }
  else
    throw (.invalidWorkItem
      ("priority must be an integer, got " ++ rt.numberToString props.priority))

variable (item : WorkItem) (member : Member)

/-- `this._requiredRole && !member.hasRole(this._requiredRole)`. The empty string is falsy, so a
required role of no characters is none at all. -/
def lacksRole : Bool :=
  match item.requiredRole with
  | some role => role ≠ [] && !member.hasRole role
  | none => false

def canBeClaimedBy : Bool :=
  if item.state ≠ .opened then false
  else if item.lacksRole member then false
  else true

def claimBy : Except Thrown WorkItem :=
  if item.state ≠ .opened then
    .error (.workItemClaim ("work item " ++ item.id ++ " is not open (state: " ++ item.state.name
      ++ ")"))
  else if item.lacksRole member then
    .error (.workItemClaim ("member " ++ member.id ++ " lacks required role \""
      ++ item.requiredRole.getD [] ++ "\" to claim " ++ item.id))
  else
    .ok { item with state := .claimed, assigneeMemberId := some member.id }

/-- The body of every lifecycle method: a move from one of the states `sources` to `target`. -/
def move (sources : List WorkItemState) (action : JsString) (target : WorkItemState) :
    Except Thrown WorkItem :=
  if item.state ∈ sources then .ok { item with state := target }
  else .error (.workItemTransition
    ("cannot " ++ action ++ " a work item in state \"" ++ item.state.name ++ "\""))

def start : Except Thrown WorkItem := item.move [.claimed] "start" .inProgress

def complete : Except Thrown WorkItem := item.move [.inProgress] "complete" .done

def block : Except Thrown WorkItem := item.move [.inProgress] "block" .blocked

def unblock : Except Thrown WorkItem := item.move [.blocked] "unblock" .inProgress

def cancel : Except Thrown WorkItem :=
  item.move [.opened, .claimed, .inProgress, .blocked] "cancel" .cancelled

/-- `item.toJSON()`. -/
def toJSON : WorkItemProps where
  id := item.id
  title := item.title
  priority := item.priority
  description := item.description
  requiredRole := item.requiredRole
  state := some item.state
  assigneeMemberId := item.assigneeMemberId

/-! ### What the operations can do -/

variable {item : WorkItem} {member : Member} {rt : Runtime} {props : WorkItemProps}

lemma create_of_visible (rt : Runtime) (props : WorkItemProps) (hid : ¬ props.id.IsBlank)
    (htitle : ¬ props.title.IsBlank) (hpriority : isInteger props.priority) :
    create rt props = .ok
      { id := props.id, title := props.title, priority := props.priority,
        description := props.description, requiredRole := props.requiredRole,
        state := props.state.getD .opened, assigneeMemberId := props.assigneeMemberId,
        id_visible := hid, title_visible := htitle, priority_integer := hpriority } := by
  simp only [create, requireNonBlank]
  rw [requireNonBlank_of_visible hid, requireNonBlank_of_visible htitle]
  exact dif_pos hpriority

/-- What `create` accepts, it keeps. -/
lemma create_ok (h : create rt props = .ok item) :
    item.id = props.id ∧ item.title = props.title ∧ item.priority = props.priority ∧
      item.description = props.description ∧ item.requiredRole = props.requiredRole ∧
      item.state = props.state.getD .opened ∧
      item.assigneeMemberId = props.assigneeMemberId := by
  simp only [create, bind_eq_ok] at h
  obtain ⟨⟨hid⟩, -, ⟨htitle⟩, -, h⟩ := h
  split_ifs at h
  cases h
  exact ⟨rfl, rfl, rfl, rfl, rfl, rfl, rfl⟩

/-- What is created is what the properties say, whatever texts the errors would have. -/
lemma create_eq_ok_iff : create rt props = .ok item ↔
    item.id = props.id ∧ item.title = props.title ∧ item.priority = props.priority ∧
      item.description = props.description ∧ item.requiredRole = props.requiredRole ∧
      item.state = props.state.getD .opened ∧
      item.assigneeMemberId = props.assigneeMemberId := by
  refine ⟨create_ok, ?_⟩
  rintro ⟨hid, htitle, hpriority, hdescription, hrole, hstate, hassignee⟩
  rw [create_of_visible rt props (hid ▸ item.id_visible) (htitle ▸ item.title_visible)
    (hpriority ▸ item.priority_integer)]
  cases item
  cases hid
  cases htitle
  cases hpriority
  cases hdescription
  cases hrole
  cases hstate
  cases hassignee
  rfl

/-- An item is made again of what it is written as. -/
lemma create_toJSON (rt : Runtime) (item : WorkItem) : create rt item.toJSON = .ok item :=
  create_eq_ok_iff.mpr ⟨rfl, rfl, rfl, rfl, rfl, rfl, rfl⟩

lemma create_ne_transition {message : JsString} :
    create rt props ≠ .error (.workItemTransition message) := by
  intro h
  rcases bind_eq_error.mp h with h | ⟨⟨hid⟩, -, h⟩
  · cases requireNonBlank_error h
  rcases bind_eq_error.mp h with h | ⟨⟨htitle⟩, -, h⟩
  · cases requireNonBlank_error h
  dsimp only at h
  split_ifs at h
  · cases h
  · cases h

lemma not_lacksRole_iff : item.lacksRole member = false ↔
    ∀ role, item.requiredRole = some role → role ≠ [] → member.hasRole role = true := by
  simp only [lacksRole]
  cases item.requiredRole with
  | none => simp
  | some role =>
    simp only [ne_eq, decide_not, Bool.and_eq_false_imp, Bool.not_eq_eq_eq_not, Bool.not_true,
      decide_eq_false_iff_not, Bool.not_false, Option.some.injEq, forall_eq']

lemma canBeClaimedBy_iff : item.canBeClaimedBy member = true ↔
    item.state = .opened ∧ item.lacksRole member = false := by
  simp only [canBeClaimedBy]
  split_ifs with hstate hrole
  · simp [hstate]
  · simp [hrole]
  · simp only [true_iff]
    exact ⟨not_ne_iff.mp hstate, by simpa using hrole⟩

/-- `claimBy` succeeds for exactly the members that `canBeClaimedBy` admits. -/
lemma claimBy_eq_ok_iff {next : WorkItem} : item.claimBy member = .ok next ↔
    item.canBeClaimedBy member = true ∧
      next = { item with state := .claimed, assigneeMemberId := some member.id } := by
  simp only [claimBy, canBeClaimedBy]
  split_ifs <;> simp [eq_comm]

lemma move_eq_ok_iff {sources : List WorkItemState} {action : JsString} {target : WorkItemState}
    {next : WorkItem} : item.move sources action target = .ok next ↔
      item.state ∈ sources ∧ next = { item with state := target } := by
  simp only [move]
  split_ifs with h <;> simp [h, eq_comm]

lemma start_eq_ok_iff {next : WorkItem} : item.start = .ok next ↔
    item.state = .claimed ∧ next = { item with state := .inProgress } := by
  simp only [start, move_eq_ok_iff, List.mem_singleton]

lemma complete_eq_ok_iff {next : WorkItem} : item.complete = .ok next ↔
    item.state = .inProgress ∧ next = { item with state := .done } := by
  simp only [complete, move_eq_ok_iff, List.mem_singleton]

/-- A lifecycle method that refuses says so with its own error class and nothing else. -/
lemma move_error {sources : List WorkItemState} {action : JsString} {target : WorkItemState}
    {e : Thrown} (h : item.move sources action target = .error e) :
    ∃ message, e = .workItemTransition message := by
  simp only [move] at h
  split_ifs at h
  exact ⟨_, (Except.error.inj h).symm⟩

end WorkItem

end WorkspaceOs
