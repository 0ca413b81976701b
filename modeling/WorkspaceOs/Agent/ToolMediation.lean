import WorkspaceOs.Agent.ToolGateway

/-!
# Complete mediation and auditing of tool calls

What a call of the gateway can have run, with the policy engine as its authorizer, and which calls
leave a record behind.
-/

namespace WorkspaceOs.ToolGateway

open Js Effect

variable {Impl Input Result : Type}

/-- The event is a run of a tool. -/
def isToolRun : GatewayEvent Impl Input Result → Bool
  | ⟨.invokeTool _ _ _, _⟩ => true
  | _ => false

@[simp] lemma isToolRun_record (input : RecordActivityInput) (answer : Except Thrown Unit) :
    isToolRun (⟨.record input, answer⟩ : GatewayEvent Impl Input Result) = false := rfl

@[simp] lemma isToolRun_getSecret (name : JsString) (answer : Except Thrown JsString) :
    isToolRun (⟨.getSecret name, answer⟩ : GatewayEvent Impl Input Result) = false := rfl

@[simp] lemma isToolRun_invokeTool (impl : Impl) (input : Input) (credentials : StringRecord)
    (answer : Except Thrown Result) :
    isToolRun (⟨.invokeTool impl input credentials, answer⟩ : GatewayEvent Impl Input Result) =
      true := rfl

/-- The record that an event appends to the activity log. -/
def appended? : GatewayEvent Impl Input Result → Option RecordActivityInput
  | ⟨.record input, .ok _⟩ => some input
  | _ => none

/-- The records appended by a call, in order. -/
def appended (events : List (GatewayEvent Impl Input Result)) : List RecordActivityInput :=
  events.filterMap appended?

@[simp] lemma appended_append (events events' : List (GatewayEvent Impl Input Result)) :
    appended (events ++ events') = appended events ++ appended events' :=
  List.filterMap_append

variable {gateway : ToolGateway Impl} {request : ToolInvokeRequest Input}
  {result : Except Thrown (ToolInvokeOutcome Result)}
  {events : List (GatewayEvent Impl Input Result)} {names : List JsString}
  {credentials credentials' : StringRecord}

lemma Brokered.mem (h : Brokered names credentials events credentials')
    {event : GatewayEvent Impl Input Result} (hmem : event ∈ events) :
    ∃ name ∈ names, ∃ value, event = ⟨.getSecret name, .ok value⟩ := by
  induction h with
  | nil => cases hmem
  | cons _ ih =>
    rcases List.mem_cons.mp hmem with rfl | hmem
    · exact ⟨_, List.mem_cons_self, _, rfl⟩
    · obtain ⟨name, hname, value, rfl⟩ := ih hmem
      exact ⟨name, List.mem_cons_of_mem _ hname, value, rfl⟩

lemma Brokered.filter_isToolRun (h : Brokered names credentials events credentials') :
    events.filter isToolRun = [] := by
  apply List.filter_eq_nil_iff.mpr
  intro event hmem
  obtain ⟨name, -, value, rfl⟩ := h.mem hmem
  simp

lemma Brokered.appended (h : Brokered names credentials events credentials') :
    appended events = [] := by
  apply List.filterMap_eq_nil_iff.mpr
  intro event hmem
  obtain ⟨name, -, value, rfl⟩ := h.mem hmem
  rfl

/-- A call runs at most one tool; if it does, the tool is the registered one of that name, and the
authorizer's decision did not stop the call. -/
lemma InvokeExit.toolRuns (h : InvokeExit gateway request result events) :
    events.filter isToolRun = [] ∧ (∀ outcome, result = .ok outcome → outcome.status ≠ .invoked) ∨
    ∃ tool decision credentials answer, Decided gateway request tool decision ∧
      ¬ decision.Stops ∧
      events.filter isToolRun = [⟨.invokeTool tool.impl request.input credentials, answer⟩] := by
  have hmap : ∀ {recorded : Except Thrown Unit} {outcome outcome' : ToolInvokeOutcome Result},
      recorded.map (fun _ => outcome) = .ok outcome' → outcome = outcome' := by
    rintro (_ | _) _ _ h
    · cases h
    · exact Except.ok.inj h
  cases h with
  | notInPersona | unknownTool | denied | proposed =>
    exact .inl ⟨rfl, fun outcome houtcome => by rw [← hmap houtcome]; simp⟩
  | undecided => exact .inl ⟨rfl, by simp⟩
  | secretMissing e _ _ _ hbrokered =>
    exact .inl ⟨by simp [hbrokered.filter_isToolRun], by simp⟩
  | @toolThrew tool decision credentials _ e hdecided hgo hbrokered =>
    exact .inr ⟨tool, decision, credentials, .error e, hdecided, hgo,
      by simp [hbrokered.filter_isToolRun]⟩
  | @invoked recorded result tool decision credentials _ hdecided hgo hbrokered =>
    exact .inr ⟨tool, decision, credentials, .ok result, hdecided, hgo,
      by simp [hbrokered.filter_isToolRun, List.filter_cons]⟩

/-! ### Mediation by a policy -/

/-- The policy lets the member do the action without asking anybody: it is in the policy, routine,
and its gates are open to the member, to whom the gateway grants no relationship. -/
def Permitted (policy : PolicyDefinition) (member : Member) (actionName : JsString) : Prop :=
  ∃ action ∈ policy.actions, action.name = actionName ∧
    action.consequence = some (.str "routine") ∧
    (∀ roles, action.requiredRoles = some roles → ∃ role ∈ roles, member.hasRole role = true) ∧
    ∀ relationship, action.requiredRelationship = some relationship → relationship = []

/-- The policy has the action and lets nobody do it without approval. -/
def Gated (policy : PolicyDefinition) (actionName : JsString) : Prop :=
  ∃ action ∈ policy.actions, action.name = actionName ∧
    (action.consequence = some (.str "consequential") ∨
      action.consequence = some (.str "irreversible"))

/-- An engine whose decision does not stop the call has allowed the action. -/
lemma permitted_of_decided {policy : PolicyDefinition} {tools : List (Tool Impl)} {tool : Tool Impl}
    {decision : ToolDecision} (hdecided : Decided
      ⟨tools, (PolicyEngine.fromDefinition policy).toToolAuthorizer⟩ request tool decision)
    (hgo : ¬ decision.Stops) :
    Permitted policy request.member (actionOf tool request.toolName) := by
  have hauth := hdecided.authorized
  simp only [PolicyEngine.toToolAuthorizer, Except.ok.injEq, Option.map_eq_some_iff] at hauth
  obtain ⟨d, hd, rfl⟩ := hauth
  have hallow : d.outcome = .allow := by
    cases h : d.outcome with
    | allow => rfl
    | deny => exact absurd (.inl (by simp [h, AuthorizationOutcome.name])) hgo
    | requiresApproval => exact absurd (.inr (by simp [h, AuthorizationOutcome.name])) hgo
  obtain ⟨action, hmem, hname, hroutine, hroles, hrel⟩ := PolicyEngine.authorize_allow hd hallow
  exact ⟨action, hmem, hname, hroutine, hroles,
    fun relationship h => (hrel relationship h).resolve_right List.not_mem_nil⟩

/-- The names of a policy are distinct, so no action is both permitted and gated. -/
lemma not_permitted_of_gated {policy : PolicyDefinition} {member : Member} {actionName : JsString}
    (h : Gated policy actionName) : ¬ Permitted policy member actionName := by
  rintro ⟨action, hmem, hname, hroutine, -⟩
  obtain ⟨action', hmem', hname', hgated⟩ := h
  obtain rfl := List.inj_on_of_nodup_map policy.names_nodup hmem hmem' (hname.trans hname'.symm)
  rw [hroutine] at hgated
  revert hgated
  simp only [Option.some.injEq, Json.str.injEq]
  decide

/-- One call with its result and its events, mediated by the persona, the registry and the
policy. -/
structure Mediated (policy : PolicyDefinition) (tools : List (Tool Impl))
    (request : ToolInvokeRequest Input)
    (run : Except Thrown (ToolInvokeOutcome Result) × List (GatewayEvent Impl Input Result)) :
    Prop where
  /-- What ran is the registered tool of that name, for a permitted action. -/
  permitted : ∀ impl input credentials answer,
    ⟨.invokeTool impl input credentials, answer⟩ ∈ run.2 →
      request.persona.allowsTool request.toolName = true ∧ input = request.input ∧
      ∃ tool ∈ tools, tool.name = request.toolName ∧
        mapGet Tool.name tools request.toolName = some tool ∧ tool.impl = impl ∧
        Permitted policy request.member (actionOf tool request.toolName)
  once : (run.2.filter isToolRun).length ≤ 1
  /-- A request for a gated action runs nothing and does not end as invoked. -/
  gated : ∀ tool, mapGet Tool.name tools request.toolName = some tool →
    Gated policy (actionOf tool request.toolName) →
      run.2.filter isToolRun = [] ∧ ∀ outcome, run.1 = .ok outcome → outcome.status ≠ .invoked

/-- Any sequence of calls is mediated, whoever makes them and however the log, the broker and the
tools behave. -/
theorem invoke_mediated (policy : PolicyDefinition) (tools : List (Tool Impl))
    (env : Strategy (GatewayOp Impl Input) (GatewayAns Impl Input Result) Thrown)
    (requests : List (ToolInvokeRequest Input)) :
    List.Forall₂ (Mediated policy tools) requests
      (Prog.observeAll env (requests.map
        (invoke ⟨tools, (PolicyEngine.fromDefinition policy).toToolAuthorizer⟩)) []) := by
  refine Prog.observeAll_forall₂ (fun request h => ?_) requests
  rcases (invoke_exit ⟨tools, _⟩ request env h).toolRuns with
    ⟨hnone, hstatus⟩ | ⟨tool, decision, credentials, answer, hdecided, hgo, hone⟩
  · refine ⟨fun impl input credentials answer hmem => ?_, by simp [hnone], fun _ _ _ =>
      ⟨hnone, hstatus⟩⟩
    exact absurd (isToolRun_invokeTool ..) (List.filter_eq_nil_iff.mp hnone _ hmem)
  · have hpermitted := permitted_of_decided hdecided hgo
    refine ⟨fun impl input credentials' answer' hmem => ?_, by simp [hone],
      fun tool' htool' hg => ?_⟩
    · have hrun := List.mem_filter.mpr ⟨hmem, isToolRun_invokeTool ..⟩
      rw [hone, List.mem_singleton, Event.mk.injEq] at hrun
      obtain ⟨himpl, hinput, -⟩ := GatewayOp.invokeTool.inj hrun.1
      obtain ⟨hreg, hname⟩ := mapGet_some hdecided.registered
      exact ⟨hdecided.allowed, hinput, tool, hreg, hname, hdecided.registered, himpl.symm,
        hpermitted⟩
    · obtain rfl : tool = tool' := Option.some.inj (hdecided.registered.symm.trans htool')
      exact absurd hpermitted (not_permitted_of_gated hg)

/-! ### Auditing -/

/-- The call appended exactly one record: of its tool, by the requesting member. -/
def Audited (request : ToolInvokeRequest Input)
    (events : List (GatewayEvent Impl Input Result)) : Prop :=
  ∃ input, appended events = [input] ∧ input.actor = request.member ∧
    input.resourceType = "tool" ∧ input.resourceId = request.toolName

/-- The authorizer decides when it is asked. -/
def Decides (gateway : ToolGateway Impl) (request : ToolInvokeRequest Input) : Prop :=
  ∀ tool, request.persona.allowsTool request.toolName = true →
    gateway.registry request.toolName = some tool →
      ∃ decision, Decided gateway request tool decision

lemma Decided.decides {tool : Tool Impl} {decision : ToolDecision}
    (h : Decided gateway request tool decision) : Decides gateway request := by
  intro tool' _ htool'
  obtain rfl : tool = tool' := Option.some.inj (h.registered.symm.trans htool')
  exact ⟨decision, h⟩

private lemma audited_singleton {action : JsString} {metadata : StringRecord} :
    Audited request ([⟨.record (auditInput request.member action request.toolName metadata),
      .ok ()⟩] : List (GatewayEvent Impl Input Result)) :=
  ⟨_, rfl, rfl, rfl, rfl⟩

/-- Of the ways out, those that the authorizer, the broker and the tool leave open are audited. -/
lemma InvokeExit.audited_iff (h : InvokeExit gateway request result events)
    (hlog : ∀ input answer, ⟨.record input, answer⟩ ∈ events → answer = .ok ()) :
    Audited request events ↔
      Decides gateway request ∧ ∀ event ∈ events, event.ans.isOk = true := by
  cases h with
  | notInPersona recorded hpersona =>
    obtain rfl := hlog _ recorded List.mem_cons_self
    refine iff_of_true audited_singleton ⟨fun _ h => ?_, by simp [Except.isOk, Except.toBool]⟩
    rw [hpersona] at h
    cases h
  | unknownTool recorded hpersona htool =>
    obtain rfl := hlog _ recorded List.mem_cons_self
    refine iff_of_true audited_singleton ⟨fun _ _ h => ?_, by simp [Except.isOk, Except.toBool]⟩
    rw [htool] at h
    cases h
  | undecided e hpersona htool hdecision =>
    apply iff_of_false (fun ⟨_, h, _⟩ => by simp [appended] at h)
    rintro ⟨hdecides, _⟩
    obtain ⟨decision, hdecided⟩ := hdecides _ hpersona htool
    exact hdecision decision hdecided.authorized
  | denied recorded hdecided | proposed recorded hdecided =>
    obtain rfl := hlog _ recorded List.mem_cons_self
    exact iff_of_true audited_singleton ⟨hdecided.decides, by simp [Except.isOk, Except.toBool]⟩
  | secretMissing e _ _ _ hbrokered | toolThrew e _ _ hbrokered =>
    -- nothing was recorded, and the last event failed
    refine iff_of_false (fun ⟨_, h, _⟩ => ?_) fun ⟨_, hok⟩ => ?_
    · rw [appended_append, hbrokered.appended] at h
      cases h
    · have hlast := hok _ (List.mem_append_right _ List.mem_cons_self)
      simp [Except.isOk, Except.toBool] at hlast
  | invoked recorded result hdecided _ hbrokered =>
    obtain rfl := hlog _ recorded
      (List.mem_append_right _ (List.mem_cons_of_mem _ List.mem_cons_self))
    refine iff_of_true ?_ ⟨hdecided.decides, fun event hmem => ?_⟩
    · rw [Audited, appended_append, hbrokered.appended]
      exact audited_singleton
    · rcases List.mem_append.mp hmem with hmem | hmem
      · obtain ⟨_, _, _, rfl⟩ := hbrokered.mem hmem
        rfl
      · simp only [List.mem_cons, List.not_mem_nil, or_false] at hmem
        rcases hmem with rfl | rfl <;> rfl

/-- Where the log accepts every record, a call is audited exactly when the authorizer decides
whenever it is asked, and none of the secrets and tools that the call awaits fails. -/
theorem invoke_audited_iff (gateway : ToolGateway Impl) (request : ToolInvokeRequest Input)
    (env : Strategy (GatewayOp Impl Input) (GatewayAns Impl Input Result) Thrown)
    (hlog : ∀ h input, env h (.record input) = .ok ()) (h : List (GatewayEvent Impl Input Result)) :
    Audited request ((gateway.invoke request).observe env h).2 ↔
      Decides gateway request ∧
        ∀ event ∈ ((gateway.invoke request).observe env h).2, event.ans.isOk = true := by
  apply (invoke_exit gateway request env h).audited_iff
  intro input answer hmem
  obtain ⟨h', hans⟩ := Prog.observe_answered hmem
  exact hans.trans (hlog h' input)

/-! A gateway with one tool, whose code is the flag whether it throws. -/

def someGateway (throws : Bool) : ToolGateway Bool where
  tools := [{ name := "search", requiredSecrets := some ["API_KEY"], impl := throws }]
  authorizer _ _ := .ok (some { outcome := "allow", reason := "routine-allowed" })

def someRequest : ToolInvokeRequest Unit := ⟨.bot [], .analyst, "search", ()⟩

def someStrategy : Strategy (GatewayOp Bool Unit) (GatewayAns Bool Unit Unit) Thrown
  | _, .record _ => .ok ()
  | _, .getSecret _ => .ok "k"
  | _, .invokeTool throws _ _ => if throws then .error (.foreign "boom") else .ok ()

theorem invoke_audited_iff_search :
    Audited someRequest (((someGateway false).invoke someRequest).observe someStrategy []).2 ↔
      Decides (someGateway false) someRequest ∧
        ∀ event ∈ (((someGateway false).invoke someRequest).observe someStrategy []).2,
          event.ans.isOk = true :=
  invoke_audited_iff (someGateway false) someRequest someStrategy (fun _ _ => rfl) []

/-- A tool that throws has run, and no record says so. -/
theorem throwing_tool_unaudited :
    (∃ event ∈ (((someGateway true).invoke someRequest).observe someStrategy []).2,
      isToolRun event = true) ∧
    ¬ Audited someRequest (((someGateway true).invoke someRequest).observe someStrategy []).2 := by
  refine ⟨⟨_, List.mem_cons_of_mem _ List.mem_cons_self, rfl⟩, fun ⟨_, h, _⟩ => ?_⟩
  have hnone : appended (((someGateway true).invoke someRequest).observe someStrategy []).2 = [] :=
    rfl
  rw [hnone] at h
  cases h

end WorkspaceOs.ToolGateway
