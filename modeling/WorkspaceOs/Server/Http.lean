import WorkspaceOs.Adapters.Repositories

/-!
# Requests, replies and authentication

A request as a route handler sees it: its path parameter is part of the route, and its body is
parsed JSON or absent. Bodies that do not parse never reach a handler.
-/

namespace WorkspaceOs

open Js Effect

inductive Route where
  | postMembers
  | getMember (id : JsString)
  | signup
  | login
  | me
  | publish
  | listWorkItems
  | claimNext
  | start (id : JsString)
  | complete (id : JsString)
deriving DecidableEq

structure HttpRequest where
  route : Route
  authorization : Option JsString
  body : Option Json

/-- What a reply sends. A domain object stands for its `toJSON`. -/
inductive ReplyBody where
  | error (error : JsString) (message : Option JsString)
  | member (member : Member)
  | session (member : Member) (token : JsString)
  | workItem (item : WorkItem)
  | workItems (items : List WorkItem)

structure Reply where
  code : ℕ
  body : ReplyBody

def Reply.error (code : ℕ) (error : JsString) (message : Option JsString := none) : Reply :=
  ⟨code, .error error message⟩

/-- The session tokens, as the routes use them: a token for a member and an expiry, and the member
of a token at a time. Nothing below depends on which tokens are accepted. -/
structure SessionTokenService where
  issue : JsString → TimeValue → JsString
  verify : JsString → TimeValue → Option JsString

/-- What the routes are registered with, besides the repositories. -/
structure Server where
  rt : Runtime
  sessions : SessionTokenService

/-- A server whose tokens are the identifiers of its members, for concrete runs. -/
def someServer : Server where
  rt := .ascii
  sessions := { issue := fun id _ => id, verify := fun token _ => some token }

/-- `s.startsWith(prefix)` and `s.slice(prefix.length)`. -/
def afterPrefix? (start s : JsString) : Option JsString :=
  if start.isPrefixOf s then some (s.drop start.length) else none

def bearerToken (request : HttpRequest) : Option JsString :=
  match request.authorization.bind (afterPrefix? "Bearer ") with
  | some rest => if rest.trim = [] then none else some rest.trim
  | none => none

def authenticate (server : Server) (request : HttpRequest) : ServerProg (Option Member) := do
  match bearerToken request with
  | none => return none
  | some token =>
    let now ← .perform ServerOp.now
    match server.sessions.verify token (some now) with
    | none => return none
    | some memberId => DrizzleMemberRepository.findById server.rt memberId

/-- `currentMember` and the early return after it: the handler runs for an authenticated member,
everybody else is answered 401. -/
def withCurrentMember (server : Server) (request : HttpRequest)
    (handler : Member → ServerProg Reply) : ServerProg Reply := do
  match ← authenticate server request with
  | none => return .error 401 "unauthenticated"
  | some member => handler member

/-- `isNonEmptyString`. -/
def nonEmptyString? : Option Json → Option JsString
  | some (.str s) => if s.IsBlank then none else some s
  | _ => none

end WorkspaceOs
