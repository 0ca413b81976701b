import WorkspaceOs.Adapters.Profile
import WorkspaceOs.Agent.ToolMediation
import WorkspaceOs.Effect.Handler

/-!
# MCP tools

A tool of an MCP server behind the gateway, with a broker that reads secrets from the environment.
The adapter passes on the input and nothing else, so a server is called for the requests that may
run its tool, and learns nothing of a secret but that it is there.
-/

namespace WorkspaceOs

open Js Effect

/-! ### The tool -/

structure McpCallToolParams where
  name : JsString
  arguments : Json

structure McpContentBlock where
  type : JsString
  text : Option JsString := none

structure McpCallToolResult where
  content : List McpContentBlock
  isError : Option Bool := none

/-- A tool of a server, under the names of the workspace and of the server. -/
structure McpTool (Client : Type) where
  client : Client
  name : JsString
  serverToolName : JsString
  action : Option JsString := none
  requiredSecrets : Option (List JsString) := none

/-- What an agent with such tools awaits: the activity log, and the servers. -/
inductive McpOp (Client : Type) where
  | record (input : RecordActivityInput)
  | callTool (client : Client) (params : McpCallToolParams)

abbrev McpAns (Client : Type) : McpOp Client → Type
  | .record _ => Unit
  | .callTool _ _ => McpCallToolResult

abbrev McpProg (Client : Type) := Prog (McpOp Client) (McpAns Client) Thrown

abbrev McpEvent (Client : Type) := Event (McpOp Client) (McpAns Client) Thrown

def isRecord : Json → Bool
  | .obj _ => true
  | _ => false

namespace McpTool

variable {Client : Type}

/-- What the server is called with. -/
def params (tool : McpTool Client) (input : Json) : McpCallToolParams where
  name := tool.serverToolName
  arguments := if isRecord input then input else .obj []

/-- The texts of a result, joined. -/
def textOf (result : McpCallToolResult) : JsString :=
  (result.content.filter fun block => block.type == JsString.ofString "text").flatMap
    fun block => block.text.getD []

/-- The output of the tool. The context of the invocation is not used. -/
def invoke (tool : McpTool Client) (input : Json) (_context : StringRecord) :
    McpProg Client JsString := do
  let result ← .perform (McpOp.callTool tool.client (tool.params input))
  let text := textOf result
  if result.isError = some true then
    let message : JsString := if text = [] then "unknown error" else text
    throw (.foreign ("MCP tool " ++ tool.name ++ " failed: " ++ message))
  return text

def toTool (tool : McpTool Client) : Tool (McpTool Client) where
  name := tool.name
  action := tool.action
  requiredSecrets := tool.requiredSecrets
  impl := tool

end McpTool

/-! ### Behind the gateway -/

namespace ToolGateway

variable {Client : Type}

/-- What stands behind the operations of the gateway. -/
def host (secrets : SecretsBroker) : (op : GatewayOp (McpTool Client) Json) →
    McpProg Client (GatewayAns (McpTool Client) Json JsString op)
  | .record input => .perform (McpOp.record input)
  | .getSecret name => .ofExcept (secrets name)
  | .invokeTool tool input credentials => tool.invoke input credentials

/-- A gateway in front of tools of MCP servers. -/
def ofMcp (tools : List (McpTool Client)) (authorizer : ToolAuthorizer) :
    ToolGateway (McpTool Client) where
  tools := tools.map McpTool.toTool
  authorizer

/-- A request with everything behind the gateway, down to the servers and the log. -/
def serve (gateway : ToolGateway (McpTool Client)) (secrets : SecretsBroker)
    (request : ToolInvokeRequest Json) : McpProg Client (ToolInvokeOutcome JsString) :=
  (gateway.invoke request).handle (host secrets)

/-- The call of a server. -/
def call? : McpEvent Client → Option (Client × McpCallToolParams)
  | ⟨.callTool client params, _⟩ => some (client, params)
  | _ => none

/-- The calls that the servers got, in order. -/
def calls (events : List (McpEvent Client)) : List (Client × McpCallToolParams) :=
  events.filterMap call?

/-- The request may run the tool, and every secret that the tool requires is there. -/
def Ready (gateway : ToolGateway (McpTool Client)) (secrets : SecretsBroker)
    (request : ToolInvokeRequest Json) (tool : Tool (McpTool Client)) : Prop :=
  (∃ decision, Decided gateway request tool decision ∧ ¬ decision.Stops) ∧
    ∀ name ∈ tool.requiredSecrets.getD [], (secrets name).isOk = true

/-- A run calls one server once, with the input, if the request is ready to run its tool. -/
def CallsReady (gateway : ToolGateway (McpTool Client)) (secrets : SecretsBroker)
    (request : ToolInvokeRequest Json) (events : List (McpEvent Client)) : Prop :=
  (∃ tool, Ready gateway secrets request tool ∧
    calls events = [(tool.impl.client, tool.impl.params request.input)]) ∨
  (∀ tool, ¬ Ready gateway secrets request tool) ∧ calls events = []

/-- The secrets of a tool, fetched one after the other. -/
def fetch (secrets : SecretsBroker) (toolName : JsString) :
    List JsString → StringRecord → Except Thrown StringRecord
  | [], credentials => .ok credentials
  | name :: names, credentials =>
    match secrets name with
    | .ok value => fetch secrets toolName names (credentials.assign name value)
    | .error _ => .error (.toolCredential toolName name)

variable {gateway : ToolGateway (McpTool Client)} {secrets secrets' : SecretsBroker}
  {request : ToolInvokeRequest Json} {tool : Tool (McpTool Client)} {toolName : JsString}
  {names : List JsString} {credentials credentials' : StringRecord}

lemma handle_broker : (broker toolName names credentials :
      GatewayProg (McpTool Client) Json JsString StringRecord).handle (host secrets) =
    .ofExcept (fetch secrets toolName names credentials) := by
  induction names generalizing credentials with
  | nil => rfl
  | cons name names ih =>
    rw [fetch]
    cases hvalue : secrets name with
    | error e =>
      simp [broker, Prog.perform, host, hvalue]
    | ok value =>
      simp [broker, Prog.perform, host, hvalue, ih]

/-- Which secrets are there decides whether the fetch goes on. -/
lemma fetch_isOk_iff : (fetch secrets toolName names credentials).isOk = true ↔
    ∀ name ∈ names, (secrets name).isOk = true := by
  induction names generalizing credentials with
  | nil => simp [fetch, Except.isOk, Except.toBool]
  | cons name names ih =>
    rw [fetch, List.forall_mem_cons]
    cases hvalue : secrets name with
    | error e => simp [Except.isOk, Except.toBool]
    | ok value => simpa [Except.isOk, Except.toBool] using ih

/-- What goes on without the secrets goes on alike where the same ones are there. -/
lemma fetch_bind_eq {α : Type} {q : McpProg Client α}
    (h : ∀ name ∈ names, (secrets name).isOk = (secrets' name).isOk) :
    ((.ofExcept (fetch secrets toolName names credentials) : McpProg Client _) >>= fun _ => q) =
      (.ofExcept (fetch secrets' toolName names credentials') >>= fun _ => q) := by
  induction names generalizing credentials credentials' with
  | nil => rfl
  | cons name names ih =>
    obtain ⟨hname, hnames⟩ := List.forall_mem_cons.mp h
    rw [fetch, fetch]
    cases hvalue : secrets name with
    | error e =>
      cases hvalue' : secrets' name with
      | error e' => rfl
      | ok value' =>
        rw [hvalue, hvalue'] at hname
        cases hname
    | ok value =>
      cases hvalue' : secrets' name with
      | error e' =>
        rw [hvalue, hvalue'] at hname
        cases hname
      | ok value' => exact ih hnames

/-- Record and answer. -/
def recorded (request : ToolInvokeRequest Json) (action : JsString) (metadata : StringRecord)
    (outcome : ToolInvokeOutcome JsString) : McpProg Client (ToolInvokeOutcome JsString) := do
  .perform (McpOp.record (auditInput request.member action request.toolName metadata))
  return outcome

/-- The rest of a call once its secrets are there. -/
def finish (request : ToolInvokeRequest Json) (tool : Tool (McpTool Client)) :
    McpProg Client (ToolInvokeOutcome JsString) := do
  let result ← tool.impl.invoke request.input []
  recorded request "tool.invoke" [("action", actionOf tool request.toolName), ("status", "invoked")]
    { status := .invoked, result := some result }

lemma handle_recorded {action : JsString} {metadata : StringRecord}
    {outcome : ToolInvokeOutcome JsString} :
    (do audit request.member action request.toolName metadata
        return outcome : GatewayProg (McpTool Client) Json JsString _).handle (host secrets) =
      recorded request action metadata outcome := by
  simp only [audit, Prog.handle_bind, Prog.handle_perform]
  rfl

lemma handle_proceed : (proceed request tool :
      GatewayProg (McpTool Client) Json JsString _).handle (host secrets) =
    .ofExcept (fetch secrets request.toolName (tool.requiredSecrets.getD []) []) >>= fun _ =>
      finish request tool := by
  simp only [proceed, Prog.handle_bind, handle_broker, Prog.handle_perform, audit]
  rfl

/-- The ways of a call: it is stopped, with or without a record, or goes on to fetch the secrets. -/
inductive Served (gateway : ToolGateway (McpTool Client)) (request : ToolInvokeRequest Json) :
    (SecretsBroker → McpProg Client (ToolInvokeOutcome JsString)) → Prop where
  | stopped {action metadata outcome}
      (hstopped : ∀ tool decision, Decided gateway request tool decision → decision.Stops) :
      Served gateway request fun _ => recorded request action metadata outcome
  | undecided (e : Thrown)
      (hundecided : ∀ tool decision, ¬ Decided gateway request tool decision) :
      Served gateway request fun _ => .throw e
  | decided {tool decision} (hdecided : Decided gateway request tool decision)
      (hgo : ¬ decision.Stops) :
      Served gateway request fun secrets =>
        .ofExcept (fetch secrets request.toolName (tool.requiredSecrets.getD []) []) >>= fun _ =>
          finish request tool

/-- A request is decided in one way. -/
lemma Decided.unique {tool' : Tool (McpTool Client)} {decision decision' : ToolDecision}
    (h : Decided gateway request tool decision) (h' : Decided gateway request tool' decision') :
    tool = tool' ∧ decision = decision' := by
  obtain rfl := Option.some.inj (h.registered.symm.trans h'.registered)
  have hdecision := h.authorized.symm.trans h'.authorized
  exact ⟨rfl, Option.some.inj (Except.ok.inj hdecision)⟩

lemma served (gateway : ToolGateway (McpTool Client)) (request : ToolInvokeRequest Json) :
    Served gateway request fun secrets => serve gateway secrets request := by
  simp only [serve, invoke]
  split_ifs with hpersona
  · simp only [handle_recorded]
    refine .stopped fun tool decision hdecided => ?_
    rw [hdecided.allowed] at hpersona
    cases hpersona
  rw [Bool.not_eq_true', Bool.not_eq_false] at hpersona
  cases htool : gateway.registry request.toolName with
  | none =>
    simp only [handle_recorded]
    refine .stopped fun tool decision hdecided => ?_
    rw [hdecided.registered] at htool
    cases htool
  | some tool =>
    cases hauthorized : gateway.authorizer request.member (actionOf tool request.toolName) with
    | error e =>
      simp only [hauthorized, Prog.ofExcept_error, Prog.throw_bind, Prog.handle_throw]
      refine .undecided e fun tool' decision hdecided => ?_
      obtain rfl := Option.some.inj (htool.symm.trans hdecided.registered)
      cases hauthorized.symm.trans hdecided.authorized
    | ok decision? =>
      cases decision? with
      | none =>
        simp only [hauthorized, Prog.ofExcept_ok, Prog.ret_bind, Prog.throw_eq, Prog.handle_throw]
        refine .undecided Thrown.typeError fun tool' decision hdecided => ?_
        obtain rfl := Option.some.inj (htool.symm.trans hdecided.registered)
        cases hauthorized.symm.trans hdecided.authorized
      | some decision =>
        have hdecided : Decided gateway request tool decision := ⟨hpersona, htool, hauthorized⟩
        simp only [hauthorized, Prog.ofExcept_ok, Prog.ret_bind]
        split_ifs with hdeny happroval
        · simp only [handle_recorded]
          refine .stopped fun tool' decision' hdecided' => ?_
          obtain ⟨-, rfl⟩ := hdecided.unique hdecided'
          exact .inl hdeny
        · simp only [handle_recorded]
          refine .stopped fun tool' decision' hdecided' => ?_
          obtain ⟨-, rfl⟩ := hdecided.unique hdecided'
          exact .inr happroval
        · simp only [handle_proceed]
          exact .decided hdecided fun hstops => hstops.elim hdeny happroval

section Observed

variable {world : Strategy (McpOp Client) (McpAns Client) Thrown} {h : List (McpEvent Client)}

lemma calls_recorded {action : JsString} {metadata : StringRecord}
    {outcome : ToolInvokeOutcome JsString} :
    calls ((recorded request action metadata outcome).observe world h).2 = [] := by
  simp only [recorded, Prog.perform, Prog.call_bind, Prog.observe_call]
  cases world h (.record (auditInput request.member action request.toolName metadata)) <;> rfl

/-- The rest of a call gets to the server once, whatever the server answers. -/
lemma calls_finish : calls ((finish request tool).observe world h).2 =
    [(tool.impl.client, tool.impl.params request.input)] := by
  simp only [finish, McpTool.invoke, Prog.perform, Prog.call_bind, Prog.observe_call]
  cases world h (.callTool tool.impl.client (tool.impl.params request.input)) with
  | error e => rfl
  | ok result =>
    simp only [Prog.ofExcept_ok, Prog.ret_bind]
    by_cases herror : result.isError = some true
    · simp only [if_pos herror, Prog.throw_eq, Prog.throw_bind]
      rfl
    · simp only [if_neg herror, Prog.pure_eq_ret, Prog.ret_bind]
      exact congrArg (List.cons _) calls_recorded

end Observed

variable {p : SecretsBroker → McpProg Client (ToolInvokeOutcome JsString)}

/-- A call is the same for brokers that have the same secrets of its tool. -/
lemma Served.eq (hserved : Served gateway request p)
    (h : ∀ tool decision, Decided gateway request tool decision →
      ∀ name ∈ tool.requiredSecrets.getD [], (secrets name).isOk = (secrets' name).isOk) :
    p secrets = p secrets' := by
  cases hserved with
  | stopped => rfl
  | undecided => rfl
  | decided hdecided => exact fetch_bind_eq (h _ _ hdecided)

/-- A call gets to a server exactly when it is ready to run a tool. -/
lemma Served.callsReady (hserved : Served gateway request p) (secrets : SecretsBroker)
    (world : Strategy (McpOp Client) (McpAns Client) Thrown) (h : List (McpEvent Client)) :
    CallsReady gateway secrets request ((p secrets).observe world h).2 := by
  cases hserved with
  | stopped hstopped =>
    refine .inr ⟨fun tool hready => ?_, calls_recorded⟩
    obtain ⟨⟨decision, hdecided, hgo⟩, -⟩ := hready
    exact hgo (hstopped tool decision hdecided)
  | undecided e hundecided =>
    refine .inr ⟨fun tool hready => ?_, rfl⟩
    obtain ⟨⟨decision, hdecided, -⟩, -⟩ := hready
    exact hundecided tool decision hdecided
  | @decided tool decision hdecided hgo =>
    have hiff : (fetch secrets request.toolName (tool.requiredSecrets.getD []) []).isOk = true ↔
        ∀ name ∈ tool.requiredSecrets.getD [], (secrets name).isOk = true := fetch_isOk_iff
    cases hfetch : fetch secrets request.toolName (tool.requiredSecrets.getD []) [] with
    | ok credentials =>
      rw [hfetch] at hiff
      simp only [hfetch, Prog.ofExcept_ok, Prog.ret_bind]
      exact .inl ⟨tool, ⟨⟨decision, hdecided, hgo⟩, hiff.mp rfl⟩, calls_finish⟩
    | error e =>
      rw [hfetch] at hiff
      simp only [hfetch, Prog.ofExcept_error, Prog.throw_bind]
      refine .inr ⟨fun tool' hready => ?_, rfl⟩
      obtain ⟨⟨decision', hdecided', -⟩, hsecrets⟩ := hready
      obtain ⟨rfl, -⟩ := hdecided.unique hdecided'
      cases hiff.mpr hsecrets

/-- What the servers and the activity log get depends on no secret, only on which of them are there;
and a server is called exactly for the requests that may run its tool and have all the secrets that
it requires, once and with the input of the request. -/
theorem servers_learn_no_secret (tools : List (McpTool Client)) (authorizer : ToolAuthorizer)
    (requests : List (ToolInvokeRequest Json)) :
    (∀ secrets secrets' : SecretsBroker,
      (∀ tool ∈ tools, ∀ name ∈ tool.requiredSecrets.getD [],
        (secrets name).isOk = (secrets' name).isOk) →
      requests.map (serve (ofMcp tools authorizer) secrets) =
        requests.map (serve (ofMcp tools authorizer) secrets')) ∧
    ∀ (secrets : SecretsBroker) (world : Strategy (McpOp Client) (McpAns Client) Thrown),
      List.Forall₂ (fun request run => CallsReady (ofMcp tools authorizer) secrets request run.2)
        requests
        (Prog.observeAll world (requests.map (serve (ofMcp tools authorizer) secrets)) []) := by
  constructor
  · intro secrets secrets' h
    refine List.map_congr_left fun request _ =>
      (served _ request).eq fun tool decision hdecided => ?_
    obtain ⟨hmem, -⟩ := mapGet_some hdecided.registered
    obtain ⟨mcp, hmcp, rfl⟩ := List.mem_map.mp hmem
    exact h mcp hmcp
  · intro secrets world
    exact Prog.observeAll_forall₂ (fun request h => (served _ request).callsReady secrets world h)
      requests

/-! A deployment with one tool, and its environment with one key or another. -/

def mcpSearch : McpTool Unit where
  client := ()
  name := "search"
  serverToolName := "web_search"
  requiredSecrets := some ["API_KEY"]

def keyed (key : JsString) : SecretsBroker :=
  createSecretsBroker .simple
    (fun name => if name = JsString.ofString "API_KEY" then some key else none)
    none

def searchRequest : ToolInvokeRequest Json :=
  ⟨.bot [], .analyst, "search", .obj [("q", .str "lean")]⟩

def searching : ToolGateway (McpTool Unit) := ofMcp [mcpSearch] (someGateway false).authorizer

/-- The log takes every record, and the server finds nothing. -/
def quietWorld : Strategy (McpOp Unit) (McpAns Unit) Thrown
  | _, .record _ => .ok ()
  | _, .callTool _ _ => .ok ⟨[], none⟩

lemma ready_search : Ready searching (keyed "k1") searchRequest mcpSearch.toTool := by
  refine ⟨⟨_, ⟨by decide, rfl, rfl⟩, ?_⟩, by decide⟩
  simp only [ToolDecision.Stops]
  decide

theorem servers_learn_no_secret_search :
    [searchRequest].map (serve searching (keyed "k1")) =
      [searchRequest].map (serve searching (keyed "k2")) ∧
    ∃ run, Prog.observeAll quietWorld ([searchRequest].map (serve searching (keyed "k1"))) [] =
        [run] ∧
      calls run.2 = [((), ⟨"web_search", searchRequest.input⟩)] := by
  obtain ⟨hsame, hcalls⟩ := servers_learn_no_secret [mcpSearch] (someGateway false).authorizer
    [searchRequest]
  refine ⟨hsame (keyed "k1") (keyed "k2") (by decide), _, rfl, ?_⟩
  rcases (List.forall₂_cons.mp (hcalls (keyed "k1") quietWorld)).1 with
    ⟨tool, ⟨⟨decision, hdecided, -⟩, -⟩, hcall⟩ | ⟨hnone, -⟩
  · have hregistered : searching.registry searchRequest.toolName = some mcpSearch.toTool := rfl
    obtain rfl := Option.some.inj (hdecided.registered.symm.trans hregistered)
    exact hcall
  · exact absurd ready_search (hnone _)

end ToolGateway

end WorkspaceOs
