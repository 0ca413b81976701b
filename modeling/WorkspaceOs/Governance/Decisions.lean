import WorkspaceOs.Access.Rule
import WorkspaceOs.Governance.PolicyEngine

/-!
# What the policy engine decides

An action of a policy is a rule: its gates admit members by their roles and by their relationships
to the resource, and its consequence decides for those that they admit. The rule that the engine
enforces is the one that the definition states, but for a required relationship of no characters.
-/

namespace WorkspaceOs

open Js Access

/-- What the gates look at: the roles of a member, and its relationships to the resource. -/
structure Credentials where
  roles : Set Role
  relationships : Set JsString

instance : Preorder Credentials where
  le held held' := held.roles ⊆ held'.roles ∧ held.relationships ⊆ held'.relationships
  le_refl _ := ⟨subset_rfl, subset_rfl⟩
  le_trans _ _ _ h h' := ⟨h.1.trans h'.1, h.2.trans h'.2⟩

def Member.credentials (member : Member) (relationships : List JsString) : Credentials where
  roles := {role | member.hasRole role = true}
  relationships := {relationship | relationship ∈ relationships}

namespace ActionDefinition

variable (action : ActionDefinition)

/-- The gate on roles: one of the required roles is held, where they are set. -/
def RoleGate (held : Set Role) : Prop :=
  ∀ roles, action.requiredRoles = some roles → ∃ role ∈ roles, role ∈ held

/-- The gate on relationships: the required one is held, where it is set. -/
def RelationshipGate (held : Set JsString) : Prop :=
  ∀ relationship, action.requiredRelationship = some relationship → relationship ∈ held

variable {action}

lemma RoleGate.mono {held held' : Set Role} (h : action.RoleGate held) (hle : held ⊆ held') :
    action.RoleGate held' := by
  intro roles hroles
  obtain ⟨role, hmem, hheld⟩ := h roles hroles
  exact ⟨role, hmem, hle hheld⟩

variable (action)

/-- The rule that the definition states. -/
def stated : Rule Credentials (Option AuthorizationDecision) where
  admitted := {held | action.RoleGate held.roles ∧ action.RelationshipGate held.relationships}
  decision := PolicyEngine.decideByConsequence action.consequence
  admitted_upper := by
    rintro held held' ⟨hroles, hrelationships⟩ ⟨hgate, hrelationship⟩
    exact ⟨hgate.mono hroles, fun r hr => hrelationships (hrelationship r hr)⟩

/-- The rule that the engine enforces. The empty string is falsy, so it requires no relationship. -/
def enforced : Rule Credentials (Option AuthorizationDecision) where
  admitted := {held | action.RoleGate held.roles ∧
    (action.requiredRelationship = some [] ∨ action.RelationshipGate held.relationships)}
  decision := PolicyEngine.decideByConsequence action.consequence
  admitted_upper := by
    rintro held held' ⟨hroles, hrelationships⟩ ⟨hgate, hrelationship⟩
    refine ⟨hgate.mono hroles, ?_⟩
    rcases hrelationship with hempty | hrelationship
    · exact .inl hempty
    · exact .inr fun r hr => hrelationships (hrelationship r hr)

end ActionDefinition

/-- The decision is to deny. -/
def Denial (decision : Option AuthorizationDecision) : Prop :=
  ∃ d, decision = some d ∧ d.outcome = .deny

namespace PolicyEngine

variable {rt : Runtime} {props : PolicyDefinitionProps} {policy : PolicyDefinition}
  {engine : PolicyEngine} {member : Member} {actionName : JsString} {relationships : List JsString}
  {action : ActionDefinition}

/-! ### An action is a rule -/

lemma not_denial_decideByConsequence {consequence : Option Json} :
    ¬ Denial (decideByConsequence consequence) := by
  rintro ⟨d, hd, hdeny⟩
  simp only [decideByConsequence] at hd
  split at hd
  · split_ifs at hd <;> cases hd <;> cases hdeny
  · cases hd

/-- The test that the engine makes for the gate on roles. -/
lemma roleGate_iff : action.RoleGate (member.credentials relationships).roles ↔
    (action.requiredRoles.any fun roles => !member.hasAnyRole roles) = false := by
  rw [Option.any_eq_false]
  apply forall₂_congr
  intro roles _
  rw [Bool.not_eq_false', Member.hasAnyRole_iff]
  rfl

/-- The test that the engine makes for the gate on relationships. -/
lemma relationshipGate_iff : (action.requiredRelationship = some [] ∨
      action.RelationshipGate (member.credentials relationships).relationships) ↔
    (action.requiredRelationship.any fun relationship =>
      relationship ≠ [] && !relationships.contains relationship) = false := by
  rw [ActionDefinition.RelationshipGate]
  cases action.requiredRelationship with
  | none => simp
  | some relationship =>
    by_cases hempty : relationship = []
    · simp [hempty]
    · simp [hempty, Member.credentials]

lemma authorize_unknown (h : engine.registry.get actionName = none) :
    Denial (engine.authorize member actionName relationships) := by
  simp only [authorize, h]
  exact ⟨_, rfl, rfl⟩

/-- What the engine answers for an action that it knows. -/
lemma authorize_answers (h : engine.registry.get actionName = some action) :
    action.enforced.Answers Denial (member.credentials relationships)
      (engine.authorize member actionName relationships) := by
  simp only [authorize, h]
  split_ifs with hroles hrelationship
  · apply Rule.Answers.refused
    · rintro ⟨hgate, -⟩
      rw [roleGate_iff.mp hgate] at hroles
      cases hroles
    · exact ⟨_, rfl, rfl⟩
  · apply Rule.Answers.refused
    · rintro ⟨-, hgate⟩
      rw [relationshipGate_iff.mp hgate] at hrelationship
      cases hrelationship
    · exact ⟨_, rfl, rfl⟩
  · apply Rule.Answers.decided
    rw [Bool.not_eq_true] at hroles hrelationship
    exact ⟨roleGate_iff.mpr hroles, relationshipGate_iff.mpr hrelationship⟩

/-- The engine of a policy does not deny what one of its actions admits, and nothing else. -/
lemma not_denial_iff :
    ¬ Denial ((fromDefinition policy).authorize member actionName relationships) ↔
    ∃ action ∈ policy.actions, action.name = actionName ∧
      member.credentials relationships ∈ action.enforced.admitted := by
  cases hget : (fromDefinition policy).registry.get actionName with
  | none =>
    simp only [authorize_unknown hget, not_true, false_iff]
    rintro ⟨action, hmem, hname, -⟩
    rw [get_fromDefinition.mpr ⟨hmem, hname⟩] at hget
    cases hget
  | some action =>
    obtain ⟨hmem, hname⟩ := get_fromDefinition.mp hget
    rw [(authorize_answers hget).refusal_iff not_denial_decideByConsequence, not_not]
    constructor
    · exact fun h => ⟨action, hmem, hname, h⟩
    · rintro ⟨action', hmem', hname', h⟩
      rw [get_fromDefinition.mpr ⟨hmem', hname'⟩] at hget
      cases hget
      exact h

/-- What is not denied is decided by the consequence of an action that admits the member. -/
lemma exists_action_of_not_denial
    (h : ¬ Denial ((fromDefinition policy).authorize member actionName relationships)) :
    ∃ action ∈ policy.actions, action.name = actionName ∧
      member.credentials relationships ∈ action.enforced.admitted ∧
      (fromDefinition policy).authorize member actionName relationships =
        decideByConsequence action.consequence := by
  obtain ⟨action, hmem, hname, hadmitted⟩ := not_denial_iff.mp h
  have hget := get_fromDefinition.mpr ⟨hmem, hname⟩
  exact ⟨action, hmem, hname, hadmitted, ((authorize_answers hget).of_not_refusal h).2⟩

lemma not_denial_of_eq_some {d : AuthorizationDecision} {answer : Option AuthorizationDecision}
    (h : answer = some d) (hne : d.outcome ≠ .deny) : ¬ Denial answer := by
  rintro ⟨d', hd', hdeny⟩
  rw [h] at hd'
  cases hd'
  exact hne hdeny

/-! ### Whether the gates can be bypassed -/

/-- The engine does not deny exactly where the policy has the action and the member satisfies each
of its gates that is set. -/
def GatesDecide (policy : PolicyDefinition) (member : Member) (actionName : JsString)
    (relationships : List JsString) : Prop :=
  ¬ Denial ((fromDefinition policy).authorize member actionName relationships) ↔
    ∃ action ∈ policy.actions, action.name = actionName ∧
      (∀ roles, action.requiredRoles = some roles → ∃ role ∈ roles, member.hasRole role = true) ∧
      ∀ relationship, action.requiredRelationship = some relationship →
        relationship ∈ relationships

/-- The action's required relationship is the empty string, which the context does not have; the
other gate is open. -/
def Bypassed (action : ActionDefinition) (member : Member) (relationships : List JsString) : Prop :=
  action.requiredRelationship = some [] ∧ [] ∉ relationships ∧
    ∀ roles, action.requiredRoles = some roles → ∃ role ∈ roles, member.hasRole role = true

/-- What an action enforces and what it states differ in nothing but a bypass. -/
lemma mem_enforced_iff : member.credentials relationships ∈ action.enforced.admitted ↔
    member.credentials relationships ∈ action.stated.admitted ∨
      Bypassed action member relationships := by
  constructor
  · rintro ⟨hroles, hempty | hrelationship⟩
    · by_cases hmem : [] ∈ relationships
      · refine .inl ⟨hroles, fun relationship hsome => ?_⟩
        rw [hempty] at hsome
        cases hsome
        exact hmem
      · exact .inr ⟨hempty, hmem, hroles⟩
    · exact .inl ⟨hroles, hrelationship⟩
  · rintro (⟨hroles, hrelationship⟩ | ⟨hempty, -, hroles⟩)
    · exact ⟨hroles, .inr hrelationship⟩
    · exact ⟨hroles, .inl hempty⟩

lemma not_mem_stated_of_bypassed (h : Bypassed action member relationships) :
    member.credentials relationships ∉ action.stated.admitted :=
  fun hstated => h.2.1 (hstated.2 [] h.1)

/-- The gates decide, unless the action of that name has one that is bypassed. -/
theorem gatesDecide_iff (policy : PolicyDefinition) (member : Member) (actionName : JsString)
    (relationships : List JsString) : GatesDecide policy member actionName relationships ↔
      ¬ ∃ action ∈ policy.actions, action.name = actionName ∧
        Bypassed action member relationships := by
  rw [GatesDecide, not_denial_iff]
  constructor
  · rintro h ⟨action, hmem, hname, hbypassed⟩
    obtain ⟨action', hmem', hname', hstated⟩ :=
      h.mp ⟨action, hmem, hname, mem_enforced_iff.mpr (.inr hbypassed)⟩
    have heq : action = action' :=
      List.inj_on_of_nodup_map policy.names_nodup hmem hmem' (hname.trans hname'.symm)
    exact not_mem_stated_of_bypassed hbypassed (heq ▸ hstated)
  · intro hnone
    constructor
    · rintro ⟨action, hmem, hname, henforced⟩
      rcases mem_enforced_iff.mp henforced with hstated | hbypassed
      · exact ⟨action, hmem, hname, hstated⟩
      · exact absurd ⟨action, hmem, hname, hbypassed⟩ hnone
    · rintro ⟨action, hmem, hname, hstated⟩
      exact ⟨action, hmem, hname, mem_enforced_iff.mpr (.inl hstated)⟩

/-- A policy with a routine action that requires the relationship of no characters. -/
def unnamedOwner : PolicyDefinition where
  policyId := "wires"
  actions := [{ name := "wire", consequence := some (.str "routine"),
                requiredRelationship := some [] }]
  version := 1
  policyId_visible := by decide
  names_nodup := by decide
  version_integer := isInteger_one

/-- A member without roles or relationships may do it. -/
theorem empty_relationship_bypasses :
    PolicyDefinition.create .ascii unnamedOwner.toJSON = .ok unnamedOwner ∧
      ¬ GatesDecide unnamedOwner (.bot []) "wire" [] := by
  refine ⟨PolicyDefinition.create_of_valid .ascii unnamedOwner.toJSON unnamedOwner.policyId_visible
    unnamedOwner.names_nodup unnamedOwner.version_integer (by decide +kernel), fun h => ?_⟩
  have hallow : (fromDefinition unnamedOwner).authorize (.bot []) "wire" [] =
      some { outcome := .allow, reason := "routine-allowed" } := by
    decide
  have hdenial := not_denial_of_eq_some hallow (by simp)
  obtain ⟨action, hmem, -, -, hrelationship⟩ := h.mp hdenial
  cases List.mem_singleton.mp hmem
  exact absurd (hrelationship [] rfl) List.not_mem_nil

/-! ### How decisions change -/

/-- Policies with the same actions in another order decide alike. -/
lemma authorize_perm {policy policy' : PolicyDefinition}
    (h : policy.actions.Perm policy'.actions) :
    (fromDefinition policy).authorize member actionName relationships =
      (fromDefinition policy').authorize member actionName relationships := by
  have hget : (fromDefinition policy).registry.get actionName =
      (fromDefinition policy').registry.get actionName := by
    apply Option.ext
    intro action
    rw [get_fromDefinition, get_fromDefinition, h.mem_iff]
  simp only [authorize, hget]

lemma credentials_le {roles : List Role} {relationships' : List JsString}
    (h : relationships ⊆ relationships') :
    member.credentials relationships ≤ (member.withRoles roles).credentials relationships' :=
  ⟨fun _ hrole => Member.hasRole_withRoles hrole, fun _ hr => h hr⟩

/-- What becomes of a decision when the member is granted roles and relationships. -/
structure GrowsWith (policy : PolicyDefinition) (member member' : Member) (actionName : JsString)
    (relationships relationships' : List JsString) : Prop where
  /-- A decision that does not deny stays. -/
  kept : ¬ Denial ((fromDefinition policy).authorize member actionName relationships) →
    (fromDefinition policy).authorize member' actionName relationships' =
      (fromDefinition policy).authorize member actionName relationships
  /-- A denial stays one, or becomes what the consequence of the action decides. -/
  opened : Denial ((fromDefinition policy).authorize member actionName relationships) →
    Denial ((fromDefinition policy).authorize member' actionName relationships') ∨
      ∃ action ∈ policy.actions, action.name = actionName ∧
        (fromDefinition policy).authorize member' actionName relationships' =
          decideByConsequence action.consequence
  /-- What requires approval is not allowed by it. -/
  guarded : ∀ decision decision',
    (fromDefinition policy).authorize member actionName relationships = some decision →
    decision.outcome = .requiresApproval →
    (fromDefinition policy).authorize member' actionName relationships' = some decision' →
    decision'.outcome ≠ .allow

lemma growsWith_withRoles (policy : PolicyDefinition) (member : Member) (roles : List Role)
    (actionName : JsString) {relationships relationships' : List JsString}
    (h : relationships ⊆ relationships') :
    GrowsWith policy member (member.withRoles roles) actionName relationships relationships' := by
  have hkept : ¬ Denial ((fromDefinition policy).authorize member actionName relationships) →
      (fromDefinition policy).authorize (member.withRoles roles) actionName relationships' =
        (fromDefinition policy).authorize member actionName relationships := by
    intro hdenial
    obtain ⟨action, hmem, hname, -⟩ := not_denial_iff.mp hdenial
    have hget := get_fromDefinition.mpr ⟨hmem, hname⟩
    exact (authorize_answers hget).eq_of_le (authorize_answers hget) (credentials_le h) hdenial
  refine ⟨hkept, fun _ => ?_, ?_⟩
  · cases hget : (fromDefinition policy).registry.get actionName with
    | none => exact .inl (authorize_unknown hget)
    | some action =>
      obtain ⟨hmem, hname⟩ := get_fromDefinition.mp hget
      apply (authorize_answers hget).refusal_or_eq.imp_right
      exact fun heq => ⟨action, hmem, hname, heq⟩
  · intro decision decision' hdecision happroval hdecision'
    have hdenial := not_denial_of_eq_some hdecision (by simp [happroval])
    rw [hkept hdenial, hdecision] at hdecision'
    cases hdecision'
    rw [happroval]
    simp

/-- Decisions do not depend on the order of the actions nor on the type of the member, and grow with
the member's roles and relationships. -/
theorem decisions_grow :
    (∀ policy policy' : PolicyDefinition, policy.actions.Perm policy'.actions →
      ∀ member actionName relationships,
        (fromDefinition policy).authorize member actionName relationships =
          (fromDefinition policy').authorize member actionName relationships) ∧
    ∀ (policy : PolicyDefinition) (member : Member) (actionName : JsString)
      (relationships : List JsString),
      (∀ roles relationships', relationships ⊆ relationships' →
        GrowsWith policy member (member.withRoles roles) actionName relationships relationships') ∧
      ∀ type, (fromDefinition policy).authorize { member with type } actionName relationships =
        (fromDefinition policy).authorize member actionName relationships := by
  refine ⟨fun _ _ h _ _ _ => authorize_perm h, fun policy member actionName relationships => ?_⟩
  exact ⟨fun roles _ h => growsWith_withRoles policy member roles actionName h, fun _ => rfl⟩

/-! A policy of two actions, in both orders. -/

def wire : ActionDefinition where
  name := "wire"
  consequence := some (.str "irreversible")
  requiredRoles := some ["payer"]

def read : ActionDefinition where
  name := "read"
  consequence := some (.str "routine")
  requiredRelationship := some "owner"

def payments (actions : List ActionDefinition)
    (names_nodup : (actions.map ActionDefinition.name).Nodup) : PolicyDefinition where
  policyId := "payments"
  actions := actions
  version := 1
  policyId_visible := by decide
  names_nodup := names_nodup
  version_integer := isInteger_one

/-- What a member may do when it becomes a payer, whatever the order of the actions. -/
theorem decisions_grow_payments :
    (fromDefinition (payments [wire, read] (by decide))).authorize (.bot ["payer"]) "wire" [] =
      (fromDefinition (payments [read, wire] (by decide))).authorize (.bot ["payer"]) "wire" [] ∧
    GrowsWith (payments [wire, read] (by decide)) (.bot []) ((Member.bot []).withRoles ["payer"])
      "wire" [] ["owner"] := by
  refine ⟨decisions_grow.1 _ _ (List.Perm.swap ..) _ _ _, ?_⟩
  exact (decisions_grow.2 _ _ _ _).1 ["payer"] ["owner"] (List.nil_subset _)

end PolicyEngine

end WorkspaceOs
