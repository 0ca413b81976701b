import WorkspaceOs.Js.Json
import WorkspaceOs.Js.Number
import WorkspaceOs.Js.Collections
import WorkspaceOs.Core.Member

/-!
# The policy engine

The central authorization decision point. Deny by default: an unknown action is refused. The gates
of an action run before its consequence decides between doing and proposing.
-/

namespace WorkspaceOs

open Js

/-- An action of a policy. `consequence` is cast from stored JSON, so it can be any value or absent;
a gate that is `null` or absent is `none`. -/
structure ActionDefinition where
  name : JsString
  consequence : Option Json
  description : Option JsString := none
  requiredRoles : Option (List Role) := none
  requiredRelationship : Option JsString := none

/-- The arguments of `PolicyDefinition.create`. -/
structure PolicyDefinitionProps where
  policyId : JsString
  actions : List ActionDefinition
  version : Option Float := none

structure PolicyRevision where
  actions : List ActionDefinition

structure PolicyDefinition where
  policyId : JsString
  actions : List ActionDefinition
  version : Float
  policyId_visible : ¬ policyId.IsBlank
  names_nodup : (actions.map ActionDefinition.name).Nodup
  version_integer : isInteger version

namespace PolicyDefinition

/-- The loop over the actions: the first name that an earlier action already has. -/
def duplicate? (names : List JsString) : List ActionDefinition → Option JsString
  | [] => none
  | action :: actions =>
    if action.name ∈ names then some action.name else duplicate? (action.name :: names) actions

lemma duplicate?_eq_none {names : List JsString} {actions : List ActionDefinition}
    (h : duplicate? names actions = none) :
    (actions.map ActionDefinition.name).Nodup ∧ ∀ action ∈ actions, action.name ∉ names := by
  induction actions generalizing names with
  | nil => simp
  | cons action actions ih =>
    simp only [duplicate?] at h
    split_ifs at h with hmem
    obtain ⟨hnodup, hnew⟩ := ih h
    refine ⟨List.nodup_cons.mpr ⟨fun hdup => ?_, hnodup⟩, fun a ha => ?_⟩
    · obtain ⟨a, ha, hname⟩ := List.mem_map.mp hdup
      exact hnew a ha (hname ▸ List.mem_cons_self)
    · rcases List.mem_cons.mp ha with rfl | ha
      · exact hmem
      · exact fun h => hnew a ha (List.mem_cons_of_mem _ h)

lemma duplicate?_of_nodup {names : List JsString} {actions : List ActionDefinition}
    (h : (actions.map ActionDefinition.name).Nodup)
    (hnew : ∀ action ∈ actions, action.name ∉ names) : duplicate? names actions = none := by
  induction actions generalizing names with
  | nil => rfl
  | cons action actions ih =>
    obtain ⟨hfirst, hrest⟩ := List.nodup_cons.mp h
    simp only [duplicate?, if_neg (hnew action List.mem_cons_self)]
    apply ih hrest
    intro a ha hmem
    rcases List.mem_cons.mp hmem with heq | hmem
    · exact hfirst (heq ▸ List.mem_map_of_mem ha)
    · exact hnew a (List.mem_cons_of_mem _ ha) hmem

def create (rt : Runtime) (props : PolicyDefinitionProps) : Except Thrown PolicyDefinition :=
  if hid : props.policyId.IsBlank then
    .error (.invalidPolicy "policyId must be a non-blank string")
  else
    match hnames : duplicate? [] props.actions with
    | some name => .error (.invalidPolicy ("duplicate action name: " ++ name))
    | none =>
      let version := props.version.getD 1
      if hversion : isInteger version ∧ ¬ version < 1 then
        .ok { policyId := props.policyId, actions := props.actions, version,
              policyId_visible := hid, names_nodup := (duplicate?_eq_none hnames).1,
              version_integer := hversion.1 }
      else
        .error (.invalidPolicy ("version must be an integer >= 1, got "
          ++ rt.numberToString version))

lemma create_ok {rt : Runtime} {props : PolicyDefinitionProps} {policy : PolicyDefinition}
    (h : create rt props = .ok policy) : policy.policyId = props.policyId ∧
      policy.actions = props.actions ∧ policy.version = props.version.getD 1 := by
  rw [create] at h
  split_ifs at h
  split at h
  · simp at h
  · dsimp only at h
    split_ifs at h
    cases h
    exact ⟨rfl, rfl, rfl⟩

lemma create_version {rt : Runtime} {props : PolicyDefinitionProps} {policy : PolicyDefinition}
    (h : create rt props = .ok policy) : ¬ policy.version < 1 := by
  rw [create] at h
  split_ifs at h
  split at h
  · simp at h
  · dsimp only at h
    split_ifs at h with hversion
    cases h
    exact hversion.2

/-- `policy.toJSON()`. -/
def toJSON (policy : PolicyDefinition) : PolicyDefinitionProps where
  policyId := policy.policyId
  actions := policy.actions
  version := some policy.version

/-- `policy.revise(changes)`. -/
def revise (rt : Runtime) (policy : PolicyDefinition) (changes : PolicyRevision) :
    Except Thrown PolicyDefinition :=
  create rt
    { policyId := policy.policyId, actions := changes.actions,
      version := some (policy.version + 1) }

/-- A visible id, distinct names and a positive version are enough. -/
lemma create_of_valid (rt : Runtime) (props : PolicyDefinitionProps)
    (hid : ¬ props.policyId.IsBlank) (hnames : (props.actions.map ActionDefinition.name).Nodup)
    (hinteger : isInteger (props.version.getD 1)) (hpositive : ¬ props.version.getD 1 < 1) :
    create rt props = .ok ⟨props.policyId, props.actions, props.version.getD 1, hid, hnames,
      hinteger⟩ := by
  have hnone : duplicate? [] props.actions = none :=
    duplicate?_of_nodup hnames fun _ _ => List.not_mem_nil
  rw [create]
  rw [dif_neg hid]
  split
  · rename_i name hname
    exact absurd (hnone.symm.trans hname) (by simp)
  · exact dif_pos ⟨hinteger, hpositive⟩

/-- A policy can be made again of its own id and actions, with any version. -/
lemma exists_create {rt : Runtime} {policy : PolicyDefinition} {version : Float}
    (hinteger : isInteger version) (hpositive : ¬ version < 1) :
    ∃ policy', create rt { policy.toJSON with version := some version } = .ok policy' :=
  ⟨_, create_of_valid rt { policy.toJSON with version := some version } policy.policyId_visible
    policy.names_nodup hinteger hpositive⟩

end PolicyDefinition

/-- `ActionRegistry`, a map from the names of its definitions. -/
structure ActionRegistry where
  definitions : List ActionDefinition

def ActionRegistry.get (registry : ActionRegistry) (name : JsString) : Option ActionDefinition :=
  mapGet ActionDefinition.name registry.definitions name

def PolicyDefinition.toActionRegistry (policy : PolicyDefinition) : ActionRegistry :=
  ⟨policy.actions⟩

inductive AuthorizationOutcome where
  | allow
  | deny
  | requiresApproval
deriving DecidableEq

def AuthorizationOutcome.name : AuthorizationOutcome → JsString
  | .allow => "allow"
  | .deny => "deny"
  | .requiresApproval => "requires_approval"

structure AuthorizationDecision where
  outcome : AuthorizationOutcome
  reason : JsString
  approversRequired : Option ℕ := none
deriving DecidableEq

structure PolicyEngine where
  registry : ActionRegistry

namespace PolicyEngine

def fromDefinition (policy : PolicyDefinition) : PolicyEngine := ⟨policy.toActionRegistry⟩

/-- A `switch` with three cases and no default: any other value gives `undefined`. -/
def decideByConsequence : Option Json → Option AuthorizationDecision
  | some (.str s) =>
    if s = "routine" then some { outcome := .allow, reason := "routine-allowed" }
    else if s = "consequential" then
      some { outcome := .requiresApproval, reason := "consequential-requires-approval",
             approversRequired := some 1 }
    else if s = "irreversible" then
      some { outcome := .requiresApproval, reason := "irreversible-requires-dual-control",
             approversRequired := some 2 }
    else none
  | _ => none

/-- `relationships` is `context.relationships ?? []`. -/
def authorize (engine : PolicyEngine) (member : Member) (actionName : JsString)
    (relationships : List JsString := []) : Option AuthorizationDecision :=
  match engine.registry.get actionName with
  | none => some { outcome := .deny, reason := "unknown-action" }
  | some action =>
    if action.requiredRoles.any fun roles => !member.hasAnyRole roles then
      some { outcome := .deny, reason := "insufficient-role" }
    else if action.requiredRelationship.any fun relationship =>
        relationship ≠ [] && !relationships.contains relationship then
      some { outcome := .deny, reason := "missing-relationship" }
    else decideByConsequence action.consequence

/-- `.outcome` of `undefined` throws. -/
def canExecuteDirectly (engine : PolicyEngine) (member : Member) (actionName : JsString)
    (relationships : List JsString := []) : Except Thrown Bool :=
  match engine.authorize member actionName relationships with
  | some decision => .ok (decision.outcome = .allow)
  | none => .error .typeError

/-! ### When the engine allows -/

variable {policy : PolicyDefinition} {member : Member} {actionName : JsString}
  {relationships : List JsString} {decision : AuthorizationDecision}

lemma get_fromDefinition {action : ActionDefinition} :
    (fromDefinition policy).registry.get actionName = some action ↔
      action ∈ policy.actions ∧ action.name = actionName :=
  mapGet_eq_some_iff policy.names_nodup

lemma decideByConsequence_allow {consequence : Option Json}
    (h : decideByConsequence consequence = some decision) (hallow : decision.outcome = .allow) :
    consequence = some (.str "routine") := by
  simp only [decideByConsequence] at h
  split at h
  · split_ifs at h with hr hc hi
    · rw [hr]
    · cases h; cases hallow
    · cases h; cases hallow
  · cases h

/-- An allowed action is in the policy, routine, and both its gates are open to the member. -/
lemma authorize_allow (h : (fromDefinition policy).authorize member actionName relationships =
      some decision) (hallow : decision.outcome = .allow) :
    ∃ action ∈ policy.actions, action.name = actionName ∧
      action.consequence = some (.str "routine") ∧
      (∀ roles, action.requiredRoles = some roles → ∃ role ∈ roles, member.hasRole role = true) ∧
      ∀ relationship, action.requiredRelationship = some relationship →
        relationship = [] ∨ relationship ∈ relationships := by
  simp only [authorize] at h
  cases hget : (fromDefinition policy).registry.get actionName with
  | none =>
    rw [hget] at h
    cases h
    cases hallow
  | some action =>
    obtain ⟨hmem, hname⟩ := get_fromDefinition.mp hget
    simp only [hget] at h
    split_ifs at h with hroles hrel
    · cases h; cases hallow
    · cases h; cases hallow
    refine ⟨action, hmem, hname, decideByConsequence_allow h hallow, ?_, ?_⟩
    · intro roles hsome
      rw [hsome] at hroles
      exact Member.hasAnyRole_iff.mp (by simpa using hroles)
    · intro relationship hsome
      rw [hsome] at hrel
      by_cases hempty : relationship = []
      · exact .inl hempty
      · exact .inr (by simpa [hempty] using hrel)

end PolicyEngine

end WorkspaceOs
