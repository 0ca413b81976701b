import WorkspaceOs.Effect.Strategy
import WorkspaceOs.Core.ActivityLog
import WorkspaceOs.Core.Persona
import WorkspaceOs.Governance.PolicyEngine

/-!
# The tool gateway

Every call of an external tool passes through `invoke`. What it awaits are records of the activity
log, secrets of the broker and the tool itself, all of them foreign code.

`InvokeExit` lists the ways out of `invoke`; what is proved about the gateway elsewhere goes by
cases on it.
-/

namespace WorkspaceOs

open Js Effect

/-- The operations the gateway awaits. `impl` is the code of a tool. -/
inductive GatewayOp (Impl Input : Type) where
  | record (input : RecordActivityInput)
  | getSecret (name : JsString)
  | invokeTool (impl : Impl) (input : Input) (credentials : StringRecord)

/-- What an operation is answered with; nobody reads the stored record that `record` returns. -/
abbrev GatewayAns (Impl Input Result : Type) : GatewayOp Impl Input → Type
  | .record _ => Unit
  | .getSecret _ => JsString
  | .invokeTool _ _ _ => Result

structure Tool (Impl : Type) where
  name : JsString
  action : Option JsString := none
  requiredSecrets : Option (List JsString) := none
  impl : Impl

/-- The decision of a `ToolAuthorizer`, whose outcome can be any string. -/
structure ToolDecision where
  outcome : JsString
  reason : JsString
  approversRequired : Option ℕ := none

/-- The two outcomes that stop a call; the gateway goes on with any other. -/
def ToolDecision.Stops (decision : ToolDecision) : Prop :=
  decision.outcome = "deny" ∨ decision.outcome = "requires_approval"

/-- `ToolAuthorizer.authorize`: it may throw, and what it returns may be `undefined`. -/
abbrev ToolAuthorizer := Member → JsString → Except Thrown (Option ToolDecision)

/-- A policy engine has the shape of an authorizer. The gateway passes it no context. -/
def PolicyEngine.toToolAuthorizer (engine : PolicyEngine) : ToolAuthorizer :=
  fun member actionName => .ok ((engine.authorize member actionName).map fun decision =>
    { outcome := decision.outcome.name, reason := decision.reason,
      approversRequired := decision.approversRequired })

structure ToolGateway (Impl : Type) where
  tools : List (Tool Impl)
  authorizer : ToolAuthorizer

structure ToolInvokeRequest (Input : Type) where
  member : Member
  persona : Persona
  toolName : JsString
  input : Input

inductive ToolInvokeStatus where
  | invoked
  | requiresApproval
  | denied
deriving DecidableEq

structure ToolInvokeOutcome (Result : Type) where
  status : ToolInvokeStatus
  reason : Option JsString := none
  result : Option Result := none

namespace ToolGateway

variable {Impl Input Result : Type}

abbrev GatewayProg (Impl Input Result : Type) :=
  Prog (GatewayOp Impl Input) (GatewayAns Impl Input Result) Thrown

abbrev GatewayEvent (Impl Input Result : Type) :=
  Event (GatewayOp Impl Input) (GatewayAns Impl Input Result) Thrown

/-- `new Map(deps.tools.map((t) => [t.name, t])).get(toolName)`. -/
def registry (gateway : ToolGateway Impl) (toolName : JsString) : Option (Tool Impl) :=
  mapGet Tool.name gateway.tools toolName

/-- The record that `audit` writes. -/
def auditInput (member : Member) (action toolName : JsString) (metadata : StringRecord) :
    RecordActivityInput :=
  { actor := member, action, resourceType := "tool", resourceId := toolName,
    metadata := some metadata }

def audit (member : Member) (action toolName : JsString) (metadata : StringRecord) :
    GatewayProg Impl Input Result Unit :=
  .perform (GatewayOp.record (auditInput member action toolName metadata))

/-- The loop over the required secrets. Whatever the broker throws becomes a
`ToolCredentialError`. -/
def broker (toolName : JsString) :
    List JsString → StringRecord → GatewayProg Impl Input Result StringRecord
  | [], credentials => return credentials
  | secretName :: secretNames, credentials => do
    let value ← tryCatch (.perform (GatewayOp.getSecret secretName))
      fun _ => throw (.toolCredential toolName secretName)
    broker toolName secretNames (credentials.assign secretName value)

/-- `tool.action ?? "tool." + toolName`. -/
def actionOf (tool : Tool Impl) (toolName : JsString) : JsString :=
  tool.action.getD ("tool." ++ toolName)

/-- The rest of `invoke` once the tool may run: broker its secrets, run it, record the call. -/
def proceed (request : ToolInvokeRequest Input) (tool : Tool Impl) :
    GatewayProg Impl Input Result (ToolInvokeOutcome Result) := do
  let ⟨member, _, toolName, input⟩ := request
  let action := actionOf tool toolName
  let credentials ← broker toolName (tool.requiredSecrets.getD []) []
  let result ← .perform (GatewayOp.invokeTool tool.impl input credentials)
  audit member "tool.invoke" toolName [("action", action), ("status", "invoked")]
  return { status := .invoked, result := some result }

def invoke (gateway : ToolGateway Impl) (request : ToolInvokeRequest Input) :
    GatewayProg Impl Input Result (ToolInvokeOutcome Result) := do
  let ⟨member, persona, toolName, _⟩ := request
  if !persona.allowsTool toolName then
    audit member "tool.denied" toolName [("reason", "not-in-persona")]
    return { status := .denied, reason := some "not-in-persona" }
  match gateway.registry toolName with
  | none =>
    audit member "tool.denied" toolName [("reason", "unknown-tool")]
    return { status := .denied, reason := some "unknown-tool" }
  | some tool =>
    let action := actionOf tool toolName
    match ← .ofExcept (gateway.authorizer member action) with
    | none => throw .typeError
    | some decision =>
      if decision.outcome = "deny" then
        audit member "tool.denied" toolName [("action", action), ("reason", decision.reason)]
        return { status := .denied, reason := some decision.reason }
      if decision.outcome = "requires_approval" then
        audit member "tool.proposed" toolName [("action", action), ("reason", decision.reason)]
        return { status := .requiresApproval, reason := some decision.reason }
      proceed request tool

/-! ### Brokering -/

/-- `Brokered names credentials events credentials'`: the secrets `names` were fetched in order, in
`events`, and added to `credentials`. -/
inductive Brokered : List JsString → StringRecord → List (GatewayEvent Impl Input Result) →
    StringRecord → Prop where
  | nil (credentials) : Brokered [] credentials [] credentials
  | cons {name names credentials value events credentials'}
      (rest : Brokered names (credentials.assign name value) events credentials') :
      Brokered (name :: names) credentials (⟨.getSecret name, .ok value⟩ :: events) credentials'

/-- Brokering fetches all the secrets, or stops at the first one that is not available. -/
lemma observe_broker (env : Strategy (GatewayOp Impl Input) (GatewayAns Impl Input Result) Thrown)
    (toolName : JsString) (names : List JsString) (credentials : StringRecord)
    (h : List (GatewayEvent Impl Input Result)) :
    (∃ credentials' events, Brokered names credentials events credentials' ∧
      (broker toolName names credentials).observe env h = (.ok credentials', events)) ∨
    ∃ fetched name rest credentials' events e, names = fetched ++ name :: rest ∧
      Brokered fetched credentials events credentials' ∧
      (broker toolName names credentials).observe env h =
        (.error (.toolCredential toolName name), events ++ [⟨.getSecret name, .error e⟩]) := by
  induction names generalizing credentials h with
  | nil => exact .inl ⟨credentials, [], .nil _, rfl⟩
  | cons name names ih =>
    cases hans : env h (.getSecret name) with
    | error e =>
      refine .inr ⟨[], name, names, credentials, [], e, rfl, .nil _, ?_⟩
      simp [broker, Prog.perform, hans]
    | ok value =>
      have hstep : (broker toolName (name :: names) credentials).observe env h =
          (((broker toolName names (credentials.assign name value)).observe env
              (h ++ [⟨.getSecret name, .ok value⟩])).1,
            ⟨.getSecret name, .ok value⟩ ::
              ((broker toolName names (credentials.assign name value)).observe env
                (h ++ [⟨.getSecret name, .ok value⟩])).2) := by
        simp [broker, Prog.perform, hans]
      rcases ih (credentials.assign name value) (h ++ [⟨.getSecret name, .ok value⟩]) with
        ⟨credentials', events, hbrokered, hrun⟩ |
        ⟨fetched, missing, rest, credentials', events, e, rfl, hbrokered, hrun⟩
      · exact .inl ⟨credentials', _, .cons hbrokered, by rw [hstep, hrun]⟩
      · exact .inr ⟨name :: fetched, missing, rest, credentials', _, e, rfl, .cons hbrokered,
          by rw [hstep, hrun]; rfl⟩

/-! ### The ways out -/

/-- The request got as far as a decision on its tool. -/
structure Decided (gateway : ToolGateway Impl) (request : ToolInvokeRequest Input)
    (tool : Tool Impl) (decision : ToolDecision) : Prop where
  allowed : request.persona.allowsTool request.toolName = true
  registered : gateway.registry request.toolName = some tool
  authorized : gateway.authorizer request.member (actionOf tool request.toolName) =
    .ok (some decision)

/-- The ways out of `invoke`, each with its result and its events. `recorded` is what the activity
log answers. -/
inductive InvokeExit (gateway : ToolGateway Impl) (request : ToolInvokeRequest Input) :
    Except Thrown (ToolInvokeOutcome Result) → List (GatewayEvent Impl Input Result) → Prop where
  | notInPersona (recorded : Except Thrown Unit)
      (hpersona : request.persona.allowsTool request.toolName = false) :
      InvokeExit gateway request
        (recorded.map fun _ => { status := .denied, reason := some "not-in-persona" })
        [⟨.record (auditInput request.member "tool.denied" request.toolName
          [("reason", "not-in-persona")]), recorded⟩]
  | unknownTool (recorded : Except Thrown Unit)
      (hpersona : request.persona.allowsTool request.toolName = true)
      (htool : gateway.registry request.toolName = none) :
      InvokeExit gateway request
        (recorded.map fun _ => { status := .denied, reason := some "unknown-tool" })
        [⟨.record (auditInput request.member "tool.denied" request.toolName
          [("reason", "unknown-tool")]), recorded⟩]
  | undecided {tool} (e : Thrown)
      (hpersona : request.persona.allowsTool request.toolName = true)
      (htool : gateway.registry request.toolName = some tool)
      (hdecision : ∀ decision, gateway.authorizer request.member
        (actionOf tool request.toolName) ≠ .ok (some decision)) :
      InvokeExit gateway request (.error e) []
  | denied (recorded : Except Thrown Unit) {tool decision}
      (hdecided : Decided gateway request tool decision) (hdeny : decision.outcome = "deny") :
      InvokeExit gateway request
        (recorded.map fun _ => { status := .denied, reason := some decision.reason })
        [⟨.record (auditInput request.member "tool.denied" request.toolName
          [("action", actionOf tool request.toolName), ("reason", decision.reason)]), recorded⟩]
  | proposed (recorded : Except Thrown Unit) {tool decision}
      (hdecided : Decided gateway request tool decision)
      (happroval : decision.outcome = "requires_approval") :
      InvokeExit gateway request
        (recorded.map fun _ => { status := .requiresApproval, reason := some decision.reason })
        [⟨.record (auditInput request.member "tool.proposed" request.toolName
          [("action", actionOf tool request.toolName), ("reason", decision.reason)]), recorded⟩]
  | secretMissing {tool decision fetched name rest credentials events} (e : Thrown)
      (hdecided : Decided gateway request tool decision) (hgo : ¬ decision.Stops)
      (hsecrets : tool.requiredSecrets.getD [] = fetched ++ name :: rest)
      (hbrokered : Brokered fetched [] events credentials) :
      InvokeExit gateway request (.error (.toolCredential request.toolName name))
        (events ++ [⟨.getSecret name, .error e⟩])
  | toolThrew {tool decision credentials events} (e : Thrown)
      (hdecided : Decided gateway request tool decision) (hgo : ¬ decision.Stops)
      (hbrokered : Brokered (tool.requiredSecrets.getD []) [] events credentials) :
      InvokeExit gateway request (.error e)
        (events ++ [⟨.invokeTool tool.impl request.input credentials, .error e⟩])
  | invoked (recorded : Except Thrown Unit) (result : Result) {tool decision credentials events}
      (hdecided : Decided gateway request tool decision) (hgo : ¬ decision.Stops)
      (hbrokered : Brokered (tool.requiredSecrets.getD []) [] events credentials) :
      InvokeExit gateway request
        (recorded.map fun _ => { status := .invoked, result := some result })
        (events ++ [⟨.invokeTool tool.impl request.input credentials, .ok result⟩,
          ⟨.record (auditInput request.member "tool.invoke" request.toolName
            [("action", actionOf tool request.toolName), ("status", "invoked")]), recorded⟩])

variable {gateway : ToolGateway Impl} {request : ToolInvokeRequest Input}
  {env : Strategy (GatewayOp Impl Input) (GatewayAns Impl Input Result) Thrown}
  {h : List (GatewayEvent Impl Input Result)}

/-- Auditing and then returning an outcome. -/
private lemma observe_audit {member : Member} {action toolName : JsString}
    {metadata : StringRecord} {outcome : ToolInvokeOutcome Result} :
    (do audit member action toolName metadata
        return outcome : GatewayProg Impl Input Result _).observe env h =
      ((env h (.record (auditInput member action toolName metadata))).map fun _ => outcome,
        [⟨.record (auditInput member action toolName metadata),
          env h (.record (auditInput member action toolName metadata))⟩]) := by
  cases hans : env h (.record (auditInput member action toolName metadata)) <;>
    simp [audit, Prog.perform, hans, Except.map]

private lemma observe_proceed {tool : Tool Impl} {decision : ToolDecision}
    (hdecided : Decided gateway request tool decision) (hgo : ¬ decision.Stops) :
    InvokeExit gateway request ((proceed request tool).observe env h).1
      ((proceed request tool).observe env h).2 := by
  simp only [proceed]
  rcases observe_broker env request.toolName (tool.requiredSecrets.getD []) [] h with
    ⟨credentials, events, hbrokered, hrun⟩ |
    ⟨fetched, name, rest, credentials, events, e, hsecrets, hbrokered, hrun⟩
  · rw [Prog.observe_bind_ok hrun]
    cases hans : env (h ++ events) (.invokeTool tool.impl request.input credentials) with
    | error e =>
      simpa [Prog.perform, hans] using InvokeExit.toolThrew e hdecided hgo hbrokered
    | ok result =>
      simp only [Prog.perform, Prog.call_bind, Prog.observe_call, hans, Prog.ofExcept_ok,
        Prog.ret_bind, observe_audit]
      exact .invoked _ result hdecided hgo hbrokered
  · rw [Prog.observe_bind_error hrun]
    exact .secretMissing e hdecided hgo hsecrets hbrokered

/-- Every call of `invoke` leaves by one of the ways out. -/
lemma invoke_exit (gateway : ToolGateway Impl) (request : ToolInvokeRequest Input)
    (env : Strategy (GatewayOp Impl Input) (GatewayAns Impl Input Result) Thrown)
    (h : List (GatewayEvent Impl Input Result)) :
    InvokeExit gateway request ((gateway.invoke request).observe env h).1
      ((gateway.invoke request).observe env h).2 := by
  simp only [invoke]
  by_cases hpersona : request.persona.allowsTool request.toolName = true
  swap
  · simp only [hpersona, Bool.not_false, if_true, observe_audit]
    exact .notInPersona _ (by simpa using hpersona)
  simp only [hpersona, Bool.not_true, Bool.false_eq_true, if_false]
  cases htool : gateway.registry request.toolName with
  | none =>
    simp only [observe_audit]
    exact .unknownTool _ hpersona htool
  | some tool =>
    cases hdecision : gateway.authorizer request.member (actionOf tool request.toolName) with
    | error e =>
      simpa [hdecision] using InvokeExit.undecided e hpersona htool (by simp [hdecision])
    | ok decision? =>
      cases decision? with
      | none =>
        simpa [hdecision] using
          InvokeExit.undecided .typeError hpersona htool (by simp [hdecision])
      | some decision =>
        have hdecided : Decided gateway request tool decision := ⟨hpersona, htool, hdecision⟩
        simp only [hdecision, Prog.ofExcept_ok, Prog.ret_bind]
        split_ifs with hdeny happroval
        · rw [observe_audit]
          exact .denied _ hdecided hdeny
        · rw [observe_audit]
          exact .proposed _ hdecided happroval
        · exact observe_proceed hdecided (not_or.mpr ⟨hdeny, happroval⟩)

end ToolGateway

end WorkspaceOs
