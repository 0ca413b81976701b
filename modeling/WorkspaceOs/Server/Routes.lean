import WorkspaceOs.Server.SignupService
import WorkspaceOs.Agent.AgentRunner

/-!
# The routes

One program for each route handler. An uncaught throw is what the framework answers 500.
-/

namespace WorkspaceOs

open Js Effect

variable (server : Server) (request : HttpRequest)

/-! ### Members -/

/-- `String(body.key)`; an object that has no string form makes it throw. -/
def stringOf (rt : Runtime) (body : Json) (key : JsString) : Except Thrown JsString :=
  (Json.coerce rt.numberToString (body.prop? key)).elim (.error .typeError) .ok

/-- The member that a body of `POST /members` describes. -/
def memberOfBody (rt : Runtime) (body : Json) : Except Thrown Member := do
  let id ← stringOf rt body "id"
  let identityRef ← stringOf rt body "identityRef"
  let displayName ← stringOf rt body "displayName"
  let roles := match body.prop? "roles" with
    | some (.arr roles) => roles
    | _ => []
  Member.create rt { id, type := body.prop? "type", identityRef, displayName, roles }

def postMembers : ServerProg Reply := do
  match memberOfBody server.rt (Json.orEmpty request.body) with
  | .error (.invalidMember message) => return .error 400 "invalid-member" message
  | .error e => throw e
  | .ok member =>
    DrizzleMemberRepository.save member
    return ⟨201, .member member⟩

def getMember (id : JsString) : ServerProg Reply := do
  match ← DrizzleMemberRepository.findById server.rt id with
  | none => return .error 404 "not-found"
  | some member => return ⟨200, .member member⟩

/-! ### Authentication -/

/-- `SESSION_TTL_MS`, one hour. -/
def sessionTtlMs : ℤ := 60 * 60 * 1000

/-- The body of `POST /signup`, where it is valid. -/
def signupInput? (body : Json) : Option SignupInput := do
  let email ← nonEmptyString? (body.prop? "email")
  let password ← nonEmptyString? (body.prop? "password")
  let displayName ← nonEmptyString? (body.prop? "displayName")
  return { email, password, displayName }

def postSignup : ServerProg Reply := do
  match signupInput? (Json.orEmpty request.body) with
  | none =>
    return .error 400 "invalid-signup" (some "email, password, and displayName are required")
  | some input =>
    tryCatch (do
      let member ← SignupService.signup server.rt input
      return ⟨201, .member member⟩) fun e =>
      match e with
      | .emailAlreadyRegistered _ => return .error 409 "email-taken"
      | e => throw e

def postLogin : ServerProg Reply := do
  let body := Json.orEmpty request.body
  match nonEmptyString? (body.prop? "email"), nonEmptyString? (body.prop? "password") with
  | some email, some password =>
    match ← SignupService.authenticate server.rt email password with
    | none => return .error 401 "invalid-credentials"
    | some member =>
      let now ← .perform ServerOp.now
      let expiresAt := timeClip (ofInt (now + sessionTtlMs))
      return ⟨200, .session member (server.sessions.issue member.id expiresAt)⟩
  | _, _ => return .error 400 "invalid-login"

def getMe : ServerProg Reply :=
  withCurrentMember server request fun member => return ⟨200, .member member⟩

/-! ### Work items -/

/-- `activity.record` of a board route. -/
def recordWork (member : Member) (action : JsString) (item : WorkItem) : ServerProg Unit :=
  DrizzleActivityLog.record
    { actor := member, action, resourceType := "work_item", resourceId := item.id }

/-- A property of a body where it is a string, `null` where it is not. -/
def stringOrNull (body : Json) (key : JsString) : Option JsString :=
  match body.prop? key with
  | some (.str s) => some s
  | _ => none

/-- The priority of a body where it is an integer, 0 where it is not. -/
def priorityOrZero (body : Json) : Float :=
  match body.prop? "priority" with
  | some (.num x) => if isInteger x then x else 0
  | _ => 0

def publish : ServerProg Reply :=
  withCurrentMember server request fun member => do
    let body := Json.orEmpty request.body
    match nonEmptyString? (body.prop? "title") with
    | none => return .error 400 "invalid-work-item" (some "title is required")
    | some title =>
      let uuid ← .perform ServerOp.randomUUID
      let item ← .ofExcept (WorkItem.create server.rt
        { id := "w_" ++ uuid, title, description := stringOrNull body "description",
          priority := priorityOrZero body, requiredRole := stringOrNull body "requiredRole" })
      DrizzleWorkItemRepository.save item
      recordWork member "work.publish" item
      return ⟨201, .workItem item⟩

def listWorkItems : ServerProg Reply :=
  withCurrentMember server request fun _ => do
    let items ← DrizzleWorkItemRepository.listOpen server.rt
    return ⟨200, .workItems items⟩

def claimNext : ServerProg Reply :=
  withCurrentMember server request fun member => do
    match ← DrizzleWorkItemRepository.claimNext member with
    | none => return .error 404 "no-work-available"
    | some claimed =>
      recordWork member "work.claim" claimed
      return ⟨200, .workItem claimed⟩

/-- `transition`: read the item, apply the method, write all of it back. -/
def transition (id action : JsString) (apply : WorkItem → Except Thrown WorkItem) :
    ServerProg Reply :=
  withCurrentMember server request fun member => do
    match ← DrizzleWorkItemRepository.findById server.rt id with
    | none => return .error 404 "not-found"
    | some item =>
      if item.assigneeMemberId ≠ some member.id then
        return .error 403 "not-assignee"
      match apply item with
      | .error (.workItemTransition message) =>
        return .error 409 "invalid-transition" message
      | .error e => throw e
      | .ok next =>
        DrizzleWorkItemRepository.save next
        recordWork member ("work." ++ action) next
        return ⟨200, .workItem next⟩

/-! ### The server -/

/-- The handler of a request. -/
def handle : ServerProg Reply :=
  match request.route with
  | .postMembers => postMembers server request
  | .getMember id => getMember server id
  | .signup => postSignup server request
  | .login => postLogin server request
  | .me => getMe server request
  | .publish => publish server request
  | .listWorkItems => listWorkItems server request
  | .claimNext => claimNext server request
  | .start id => transition server request id "start" WorkItem.start
  | .complete id => transition server request id "complete" WorkItem.complete

/-- Who works on the database: a client with a request, or an agent with a turn. -/
inductive Actor where
  | client (request : HttpRequest)
  | runner (deps : AgentRunnerDeps)

/-- What an actor ends with. -/
inductive ActorResult where
  | reply (reply : Reply)
  | turn (result : AgentRunResult)

def Actor.program : Actor → ServerProg ActorResult
  | .client request => ActorResult.reply <$> handle server request
  | .runner deps => ActorResult.turn <$> AgentRunner.runOnce deps

end WorkspaceOs
