import WorkspaceOs.Effect.Noninterference
import WorkspaceOs.Agent.ToolMediation

/-!
# Secrets of tool calls

What the caller and the log see of a call does not depend on the values of the secrets, and no
secret goes to a tool that did not ask for it.
-/

namespace WorkspaceOs.ToolGateway

open Js Effect

variable {Impl Input Result : Type}

/-! ### Noninterference -/

/-- The names in a tool's context. -/
def keys (credentials : StringRecord) : List JsString := credentials.map Prod.fst

/-- Assigning under the same name keeps the same names. -/
lemma keys_assign {credentials credentials' : StringRecord} {name value value' : JsString}
    (h : keys credentials = keys credentials') :
    keys (credentials.assign name value) = keys (credentials'.assign name value') := by
  have hfilter : ∀ c : StringRecord, keys (c.filter fun entry => entry.1 ≠ name) =
      (keys c).filter fun key => key ≠ name := by
    intro c
    simp only [keys, List.filter_map]
    rfl
  simp only [StringRecord.assign]
  split_ifs with hproto
  · exact h
  · simp only [keys, List.map_cons] at hfilter ⊢
    rw [hfilter, hfilter]
    simp only [keys] at h
    rw [h]

/-- An observer who sees the records and the names of the secrets, but neither a secret nor the
result of a tool; of these only that they were given. -/
def outsider : Observer (GatewayOp Impl Input) (GatewayAns Impl Input Result) Thrown where
  alike
    | .record input, .record input' => input = input'
    | .getSecret name, .getSecret name' => name = name'
    | .invokeTool impl input credentials, .invokeTool impl' input' credentials' =>
      impl = impl' ∧ input = input' ∧ keys credentials = keys credentials'
    | _, _ => False
  agree {op op'} := match op, op' with
    | .record _, .record _ => fun a a' => a = a'
    | .getSecret _, .getSecret _ => fun a a' => a.isOk = a'.isOk
    | .invokeTool _ _ _, .invokeTool _ _ _ => fun a a' => a.isOk = true ∧ a'.isOk = true
    | _, _ => fun _ _ => False

/-- Outcomes that differ in nothing but the result of the tool. -/
def SameOutcome (outcome outcome' : ToolInvokeOutcome Result) : Prop :=
  outcome.status = outcome'.status ∧ outcome.reason = outcome'.reason ∧
    outcome.result.isSome = outcome'.result.isSome

lemma audit_indist (member : Member) (action toolName : JsString) (metadata : StringRecord) :
    outsider.Indist (fun _ _ => True)
      (audit member action toolName metadata : GatewayProg Impl Input Result Unit)
      (audit member action toolName metadata) := by
  refine .call rfl fun a a' h => ?_
  obtain rfl : a = a' := h
  cases a with
  | error e => exact .throw e
  | ok => exact .ret trivial

lemma broker_indist (toolName : JsString) (names : List JsString)
    {credentials credentials' : StringRecord} (h : keys credentials = keys credentials') :
    outsider.Indist (fun c c' => keys c = keys c')
      (broker toolName names credentials : GatewayProg Impl Input Result StringRecord)
      (broker toolName names credentials') := by
  induction names generalizing credentials credentials' with
  | nil => exact .ret h
  | cons name names ih =>
    refine .call rfl fun a a' hagree => ?_
    have hagree : a.isOk = a'.isOk := hagree
    cases a with
    | error e =>
      cases a' with
      | error e' => exact .throw _
      | ok value' => cases hagree
    | ok value =>
      cases a' with
      | error e' => cases hagree
      | ok value' => exact ih (keys_assign h)

/-- Auditing and then returning outcomes that are alike. -/
private lemma audit_return_indist {member : Member} {action toolName : JsString}
    {metadata : StringRecord} {outcome outcome' : ToolInvokeOutcome Result}
    (h : SameOutcome outcome outcome') :
    outsider.Indist SameOutcome
      (do audit member action toolName metadata
          return outcome : GatewayProg Impl Input Result _)
      (do audit member action toolName metadata
          return outcome') :=
  (audit_indist member action toolName metadata).bind fun _ _ _ => .ret h

lemma proceed_indist (request : ToolInvokeRequest Input) (tool : Tool Impl) :
    outsider.Indist SameOutcome
      (proceed request tool : GatewayProg Impl Input Result (ToolInvokeOutcome Result))
      (proceed request tool) := by
  apply (broker_indist _ _ rfl).bind
  intro c c' hkeys
  refine .call ⟨rfl, rfl, hkeys⟩ fun a a' hagree => ?_
  obtain ⟨hok, hok'⟩ : a.isOk = true ∧ a'.isOk = true := hagree
  cases a with
  | error e => cases hok
  | ok result =>
    cases a' with
    | error e => cases hok'
    | ok result' => exact audit_return_indist ⟨rfl, rfl, rfl⟩

/-- The two runs of a call look alike to the outsider. -/
lemma invoke_indist (gateway : ToolGateway Impl) (request : ToolInvokeRequest Input) :
    outsider.Indist SameOutcome
      (gateway.invoke request : GatewayProg Impl Input Result (ToolInvokeOutcome Result))
      (gateway.invoke request) := by
  rw [invoke]
  dsimp only
  split_ifs with hpersona
  · exact audit_return_indist ⟨rfl, rfl, rfl⟩
  cases gateway.registry request.toolName with
  | none => exact audit_return_indist ⟨rfl, rfl, rfl⟩
  | some tool =>
    dsimp only
    cases gateway.authorizer request.member (actionOf tool request.toolName) with
    | error e => exact .throw e
    | ok decision? =>
      cases decision? with
      | none => exact .throw Thrown.typeError
      | some decision =>
        simp only [Prog.ofExcept_ok, Prog.ret_bind]
        split_ifs with hdeny happroval
        · exact audit_return_indist ⟨rfl, rfl, rfl⟩
        · exact audit_return_indist ⟨rfl, rfl, rfl⟩
        · exact proceed_indist request tool

/-- Two worlds in which the same secrets are available with any values, no tool throws, and the log
answers by what was recorded so far. -/
structure SameButSecrets
    (env env' : Strategy (GatewayOp Impl Input) (GatewayAns Impl Input Result) Thrown) : Prop where
  log : ∀ h h' input, appended h = appended h' → env h (.record input) = env' h' (.record input)
  available : ∀ h h' name, (env h (.getSecret name)).isOk = (env' h' (.getSecret name)).isOk
  returns : ∀ h impl input credentials,
    (env h (.invokeTool impl input credentials)).isOk = true
  returns' : ∀ h impl input credentials,
    (env' h (.invokeTool impl input credentials)).isOk = true

lemma appended_of_same {h h' : List (GatewayEvent Impl Input Result)}
    (hsame : List.Forall₂ outsider.Same h h') : appended h = appended h' := by
  induction hsame with
  | nil => rfl
  | @cons e e' h h' hevent _ ih =>
    have hhead : appended? e = appended? e' := by
      obtain ⟨op, a⟩ := e
      obtain ⟨op', a'⟩ := e'
      obtain ⟨halike, hagree⟩ := hevent
      cases op <;> cases op' <;> try cases halike
      · obtain rfl : a = a' := hagree
        rfl
      · rfl
      · rfl
    simp only [appended, List.filterMap_cons, hhead]
    cases appended? e' <;> simpa [appended] using ih

lemma SameButSecrets.strategies
    {env env' : Strategy (GatewayOp Impl Input) (GatewayAns Impl Input Result) Thrown}
    (h : SameButSecrets env env') : outsider.Strategies env env' := by
  intro hist hist' hsame op op' halike
  cases op <;> cases op' <;> try cases halike
  · exact h.log _ _ _ (appended_of_same hsame)
  · exact h.available _ _ _
  · exact ⟨h.returns _ _ _ _, h.returns' _ _ _ _⟩

/-! ### Where secrets go -/

/-- A call fetches secrets only for its registered tool, which requires them, and only after a
decision that was to allow, or none of the three decisions; the tool sees no other values. -/
structure Confined (gateway : ToolGateway Impl) (request : ToolInvokeRequest Input)
    (events : List (GatewayEvent Impl Input Result)) : Prop where
  fetched : ∀ name answer, ⟨.getSecret name, answer⟩ ∈ events →
    ∃ tool decision, Decided gateway request tool decision ∧
      (decision.outcome = "allow" ∨
        ∀ outcome : AuthorizationOutcome, decision.outcome ≠ outcome.name) ∧
      name ∈ tool.requiredSecrets.getD []
  context : ∀ impl input credentials answer,
    ⟨.invokeTool impl input credentials, answer⟩ ∈ events →
      ∃ tool, gateway.registry request.toolName = some tool ∧ tool.impl = impl ∧
        ∀ name value, (name, value) ∈ credentials →
          name ∈ tool.requiredSecrets.getD [] ∧ ⟨.getSecret name, .ok value⟩ ∈ events

variable {gateway : ToolGateway Impl} {request : ToolInvokeRequest Input}
  {result : Except Thrown (ToolInvokeOutcome Result)}
  {events : List (GatewayEvent Impl Input Result)} {names : List JsString}
  {credentials credentials' : StringRecord}

lemma allow_of_not_stops {decision : ToolDecision} (h : ¬ decision.Stops) :
    decision.outcome = "allow" ∨
      ∀ outcome : AuthorizationOutcome, decision.outcome ≠ outcome.name := by
  by_cases hallow : decision.outcome = "allow"
  · exact .inl hallow
  · refine .inr fun outcome hname => ?_
    cases outcome with
    | allow => exact hallow hname
    | deny => exact h (.inl hname)
    | requiresApproval => exact h (.inr hname)

/-- What was brokered was fetched, under a name that was asked for. -/
lemma Brokered.credentials_mem (h : Brokered names credentials events credentials')
    {name value : JsString} (hmem : (name, value) ∈ credentials') :
    (name, value) ∈ credentials ∨ name ∈ names ∧ ⟨.getSecret name, .ok value⟩ ∈ events := by
  induction h with
  | nil => exact .inl hmem
  | cons _ ih =>
    rcases ih hmem with h | ⟨hname, hevent⟩
    · rcases StringRecord.mem_assign h with h | h
      · obtain ⟨rfl, rfl⟩ := Prod.mk.inj h
        exact .inr ⟨List.mem_cons_self, List.mem_cons_self⟩
      · exact .inl h
    · exact .inr ⟨List.mem_cons_of_mem _ hname, List.mem_cons_of_mem _ hevent⟩

/-- Brokering for a tool that may run is confined, whatever comes of the last operation. -/
private lemma confined_of_brokered {tool : Tool Impl} {decision : ToolDecision}
    {last : List (GatewayEvent Impl Input Result)}
    (hdecided : Decided gateway request tool decision) (hgo : ¬ decision.Stops)
    (hbrokered : Brokered names [] events credentials)
    (hnames : ∀ name ∈ names, name ∈ tool.requiredSecrets.getD [])
    (hfetch : ∀ name answer, ⟨.getSecret name, answer⟩ ∈ last →
      name ∈ tool.requiredSecrets.getD [])
    (hrun : ∀ impl input c answer, ⟨.invokeTool impl input c, answer⟩ ∈ last →
      impl = tool.impl ∧ c = credentials) : Confined gateway request (events ++ last) := by
  constructor
  · intro name answer hmem
    refine ⟨tool, decision, hdecided, allow_of_not_stops hgo, ?_⟩
    rcases List.mem_append.mp hmem with hmem | hmem
    · obtain ⟨name', hname, value, heq⟩ := hbrokered.mem hmem
      obtain rfl := GatewayOp.getSecret.inj (Event.mk.inj heq).1
      exact hnames _ hname
    · exact hfetch _ _ hmem
  · intro impl input c answer hmem
    rcases List.mem_append.mp hmem with hmem | hmem
    · obtain ⟨name', -, value, heq⟩ := hbrokered.mem hmem
      cases (Event.mk.inj heq).1
    · obtain ⟨rfl, rfl⟩ := hrun _ _ _ _ hmem
      refine ⟨tool, hdecided.registered, rfl, fun name value hcred => ?_⟩
      obtain ⟨hname, hevent⟩ := (hbrokered.credentials_mem hcred).resolve_left List.not_mem_nil
      exact ⟨hnames _ hname, List.mem_append_left _ hevent⟩

lemma InvokeExit.confined (h : InvokeExit gateway request result events) :
    Confined gateway request events := by
  cases h with
  | notInPersona | unknownTool | undecided | denied | proposed =>
    constructor <;> · intros; simp_all
  | secretMissing e hdecided hgo hsecrets hbrokered =>
    refine confined_of_brokered hdecided hgo hbrokered ?_ ?_ ?_
    · intro name hname
      rw [hsecrets]
      exact List.mem_append_left _ hname
    · intro name answer hmem
      obtain rfl := GatewayOp.getSecret.inj (Event.mk.inj (List.mem_singleton.mp hmem)).1
      rw [hsecrets]
      exact List.mem_append_right _ List.mem_cons_self
    · intro impl input c answer hmem
      cases (Event.mk.inj (List.mem_singleton.mp hmem)).1
  | toolThrew e hdecided hgo hbrokered =>
    refine confined_of_brokered hdecided hgo hbrokered (fun _ h => h) ?_ ?_
    · intro name answer hmem
      cases (Event.mk.inj (List.mem_singleton.mp hmem)).1
    · intro impl input c answer hmem
      obtain ⟨rfl, -, rfl⟩ :=
        GatewayOp.invokeTool.inj (Event.mk.inj (List.mem_singleton.mp hmem)).1
      exact ⟨rfl, rfl⟩
  | invoked recorded result hdecided hgo hbrokered =>
    refine confined_of_brokered hdecided hgo hbrokered (fun _ h => h) ?_ ?_
    · intro name answer hmem
      simp at hmem
    · intro impl input c answer hmem
      simp only [List.mem_cons, List.not_mem_nil, or_false, Event.mk.injEq] at hmem
      rcases hmem with ⟨hop, -⟩ | ⟨hop, -⟩
      · obtain ⟨rfl, -, rfl⟩ := GatewayOp.invokeTool.inj hop
        exact ⟨rfl, rfl⟩
      · cases hop

/-- Runs of the same calls in worlds that differ in the values of their secrets append the same
records, and end alike but for the results of the tools; in every run the secrets are confined. -/
theorem secrets_noninterference (gateway : ToolGateway Impl)
    (requests : List (ToolInvokeRequest Input)) :
    (∀ env env' : Strategy (GatewayOp Impl Input) (GatewayAns Impl Input Result) Thrown,
      SameButSecrets env env' →
      List.Forall₂ (fun run run' => Observer.Results SameOutcome run.1 run'.1 ∧
          appended run.2 = appended run'.2)
        (Prog.observeAll env (requests.map gateway.invoke) [])
        (Prog.observeAll env' (requests.map gateway.invoke) [])) ∧
    ∀ env : Strategy (GatewayOp Impl Input) (GatewayAns Impl Input Result) Thrown,
      List.Forall₂ (fun request run => Confined gateway request run.2) requests
        (Prog.observeAll env (requests.map gateway.invoke) []) := by
  constructor
  · intro env env' hsame
    refine (Observer.Indist.observeAll (List.forall₂_same.mpr fun p hp => ?_) hsame.strategies
      .nil).imp fun _ _ h => ⟨h.1, appended_of_same h.2⟩
    obtain ⟨request, -, rfl⟩ := List.mem_map.mp hp
    exact invoke_indist gateway request
  · intro env
    exact Prog.observeAll_forall₂
      (fun request h => (invoke_exit gateway request env h).confined) requests

/-- A strategy that makes one secret available, with the given value, and answers with what the tool
makes of it. -/
def brokerWith (value : JsString) :
    Strategy (GatewayOp Bool Unit) (GatewayAns Bool Unit JsString) Thrown
  | _, .record _ => .ok ()
  | _, .getSecret name => if name = "API_KEY" then .ok value else .error (.foreign name)
  | _, .invokeTool _ _ credentials => .ok ((credentials.lookup ("API_KEY" : JsString)).getD [])

lemma brokerWith_sameButSecrets (value value' : JsString) :
    SameButSecrets (brokerWith value) (brokerWith value') where
  log _ _ _ _ := rfl
  available _ _ name := by
    simp only [brokerWith]
    split_ifs <;> rfl
  returns _ _ _ _ := rfl
  returns' _ _ _ _ := rfl

theorem secrets_noninterference_two_keys :
    List.Forall₂ (fun run run' => Observer.Results SameOutcome run.1 run'.1 ∧
        appended run.2 = appended run'.2)
      (Prog.observeAll (brokerWith "k1") ([someRequest].map (someGateway false).invoke) [])
      (Prog.observeAll (brokerWith "k2") ([someRequest].map (someGateway false).invoke) []) :=
  (secrets_noninterference (someGateway false) [someRequest]).1 (brokerWith "k1") (brokerWith "k2")
    (brokerWith_sameButSecrets "k1" "k2")

/-- A secret is fetched although the authorizer, by answering something else, did not allow the
call. -/
theorem secret_fetched_unallowed :
    let gateway : ToolGateway Bool :=
      { tools := (someGateway false).tools
        authorizer := fun _ _ => .ok (some { outcome := "abstain", reason := "not-applicable" }) }
    ∃ answer, ⟨.getSecret "API_KEY", answer⟩ ∈
        ((gateway.invoke someRequest).observe (brokerWith "k1") []).2 ∧
      ¬ ∃ tool decision, Decided gateway someRequest tool decision ∧
        decision.outcome = "allow" := by
  refine ⟨.ok "k1", List.mem_cons_self, ?_⟩
  rintro ⟨tool, decision, hdecided, hallow⟩
  have hdecision := hdecided.authorized
  simp only [Except.ok.injEq, Option.some.injEq] at hdecision
  rw [← hdecision] at hallow
  revert hallow
  decide

end WorkspaceOs.ToolGateway
