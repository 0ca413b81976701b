import WorkspaceOs.Governance.Decisions
import WorkspaceOs.Adapters.VersionWriters

/-!
# Stored policies

A policy is read from its row with a cast: nothing looks at the consequences of its actions, and the
engine knows three of them.
-/

namespace WorkspaceOs

open Js Access PolicyEngine

/-- The consequences that the engine knows. -/
def KnownConsequence (consequence : Option Json) : Prop :=
  ∃ s ∈ (["routine", "consequential", "irreversible"] : List JsString), consequence = some (.str s)

variable {rt : Runtime} {row : VersionRow (List ActionDefinition)} {policy : PolicyDefinition}
  {member : Member} {actionName : JsString} {relationships : List JsString}
  {decision : AuthorizationDecision} {consequence : Option Json}

namespace PolicyEngine

lemma decideByConsequence_eq_none_iff :
    decideByConsequence consequence = none ↔ ¬ KnownConsequence consequence := by
  simp only [decideByConsequence, KnownConsequence]
  split
  · split_ifs <;> simp [*]
  · rename_i hother
    simp only [true_iff]
    rintro ⟨s, -, rfl⟩
    exact hother s rfl

/-- An action that requires approval says of how many. -/
lemma decideByConsequence_requiresApproval (h : decideByConsequence consequence = some decision)
    (happroval : decision.outcome = .requiresApproval) :
    ∃ n, decision.approversRequired = some n ∧ 1 ≤ n := by
  simp only [decideByConsequence] at h
  split at h
  · split_ifs at h <;> cases h
    · cases happroval
    · exact ⟨1, rfl, le_rfl⟩
    · exact ⟨2, rfl, one_le_two⟩
  · cases h

end PolicyEngine

/-- What the engine answers with the actions of a stored policy. -/
structure DecidesFor (actions : List ActionDefinition) (engine : PolicyEngine) (member : Member)
    (actionName : JsString) (relationships : List JsString) : Prop where
  /-- There is a decision. -/
  decision : ∃ decision, engine.authorize member actionName relationships = some decision
  direct : ∃ answer, engine.canExecuteDirectly member actionName relationships = .ok answer
  routine : ∀ decision, engine.authorize member actionName relationships = some decision →
    decision.outcome = .allow →
    ∃ action ∈ actions, action.name = actionName ∧ action.consequence = some (.str "routine")
  approvers : ∀ decision, engine.authorize member actionName relationships = some decision →
    decision.outcome = .requiresApproval → ∃ n, decision.approversRequired = some n ∧ 1 ≤ n
  unknown : ∀ action ∈ actions, action.name = actionName → ¬ KnownConsequence action.consequence →
    Denial (engine.authorize member actionName relationships)

/-- A policy has the actions of the row that it is read from. -/
lemma actions_of_toEntity (h : (DrizzlePolicyRepository.versioned rt).toEntity row = .ok policy) :
    policy.actions = row.content := by
  have hcreate : PolicyDefinition.create rt ⟨row.id, row.content, some (ofInt row.version)⟩ =
      .ok policy := h
  exact (PolicyDefinition.create_ok hcreate).2.1

/-- An engine without an answer has none to the question that follows from it either. -/
lemma exists_canExecuteDirectly {engine : PolicyEngine}
    (h : engine.authorize member actionName relationships = some decision) :
    ∃ answer, engine.canExecuteDirectly member actionName relationships = .ok answer := by
  simp only [canExecuteDirectly, h]
  exact ⟨_, rfl⟩

/-- Where the gates of the action are closed or its consequence is known, there is a decision. -/
lemma exists_decision (h : ∀ action ∈ policy.actions, action.name = actionName →
      member.credentials relationships ∈ action.enforced.admitted →
        KnownConsequence action.consequence) :
    ∃ decision, (fromDefinition policy).authorize member actionName relationships =
      some decision := by
  apply Option.ne_none_iff_exists'.mp
  intro hnone
  have hdenial : ¬ Denial ((fromDefinition policy).authorize member actionName relationships) := by
    rintro ⟨d, hd, -⟩
    rw [hnone] at hd
    cases hd
  obtain ⟨action, hmem, hname, hadmitted, heq⟩ := exists_action_of_not_denial hdenial
  rw [hnone] at heq
  exact decideByConsequence_eq_none_iff.mp heq.symm (h action hmem hname hadmitted)

/-- A stored policy yields a decision for an action unless its gates are open and its consequence is
none that the engine knows. -/
theorem stored_policy_decides_iff
    (h : (DrizzlePolicyRepository.versioned rt).toEntity row = .ok policy) (member : Member)
    (actionName : JsString) (relationships : List JsString) :
    DecidesFor row.content (fromDefinition policy) member actionName relationships ↔
      ∀ action ∈ row.content, action.name = actionName →
        member.credentials relationships ∈ action.enforced.admitted →
          KnownConsequence action.consequence := by
  rw [← actions_of_toEntity h]
  constructor
  · intro hdecides action hmem hname hadmitted
    by_contra hunknown
    exact not_denial_iff.mpr ⟨action, hmem, hname, hadmitted⟩
      (hdecides.unknown action hmem hname hunknown)
  · intro hknown
    obtain ⟨decision, hdecision⟩ := exists_decision hknown
    refine ⟨⟨decision, hdecision⟩, exists_canExecuteDirectly hdecision, ?_, ?_, ?_⟩
    · intro d hd hallow
      obtain ⟨action, hmem, hname, hroutine, -⟩ := authorize_allow hd hallow
      exact ⟨action, hmem, hname, hroutine⟩
    · intro d hd happroval
      have hdenial := not_denial_of_eq_some hd (by simp [happroval])
      obtain ⟨action, -, -, -, heq⟩ := exists_action_of_not_denial hdenial
      exact decideByConsequence_requiresApproval (heq.symm.trans hd) happroval
    · intro action hmem hname hunknown
      by_contra hdenial
      obtain ⟨action', hmem', hname', hadmitted⟩ := not_denial_iff.mp hdenial
      have heq : action = action' :=
        List.inj_on_of_nodup_map policy.names_nodup hmem hmem' (hname.trans hname'.symm)
      exact hunknown (heq ▸ hknown action' hmem' hname' hadmitted)

/-! Two rows: the engine knows the consequence of one action and not of the other. -/

/-- A stored policy with one action of the given consequence. -/
def storedAction (consequence : JsString) : VersionRow (List ActionDefinition) where
  id := "p"
  version := 1
  content := [{ name := "wire", consequence := some (.str consequence) }]
  createdAt := 0
  version_int32 := by decide

lemma toEntity_storedAction (consequence : JsString) : ∃ policy,
    (DrizzlePolicyRepository.versioned .ascii).toEntity (storedAction consequence) = .ok policy :=
  ⟨_, PolicyDefinition.create_of_valid .ascii
    ⟨"p", (storedAction consequence).content, some (ofInt 1)⟩
    (show ¬ JsString.IsBlank "p" by decide) (List.nodup_singleton _)
    (storedAction consequence).version_int32.isInteger_ofInt
    (not_ofInt_lt_one one_pos (by norm_num))⟩

/-- The engine answers `undefined`, and the question whether to go on throws. -/
theorem unknown_consequence_undecided : ∃ policy,
    (DrizzlePolicyRepository.versioned .ascii).toEntity (storedAction "critical") = .ok policy ∧
      ¬ DecidesFor (storedAction "critical").content (fromDefinition policy)
        (.bot []) "wire" [] := by
  obtain ⟨policy, h⟩ := toEntity_storedAction "critical"
  refine ⟨policy, h, fun hdecides => ?_⟩
  obtain ⟨decision, hdecision⟩ := hdecides.decision
  have hnone : PolicyEngine.authorize ⟨⟨(storedAction "critical").content⟩⟩ (.bot []) "wire" [] =
      none := by
    decide
  rw [fromDefinition, PolicyDefinition.toActionRegistry, actions_of_toEntity h] at hdecision
  cases hnone.symm.trans hdecision

theorem stored_policy_decides_iff_routine : ∃ policy,
    (DrizzlePolicyRepository.versioned .ascii).toEntity (storedAction "routine") = .ok policy ∧
      DecidesFor (storedAction "routine").content (fromDefinition policy) (.bot []) "wire" [] := by
  obtain ⟨policy, h⟩ := toEntity_storedAction "routine"
  refine ⟨policy, h, (stored_policy_decides_iff h (.bot []) "wire" []).mpr ?_⟩
  intro action hmem _ _
  cases List.mem_singleton.mp hmem
  exact ⟨"routine", by decide, rfl⟩

end WorkspaceOs
