import WorkspaceOs.Js.Text
import Mathlib.Data.Nat.Notation

/-!
# Model completions

What a caller of the model gateway sends, what the gateway makes of it for a provider, and what a
provider answers. Token counts are natural numbers.
-/

namespace WorkspaceOs

open Js

inductive ModelMessageRole where
  | system
  | user
  | assistant
  | tool
deriving DecidableEq

structure ModelMessage where
  role : ModelMessageRole
  content : JsString
deriving DecidableEq

structure GatewayCompletionRequest where
  memberId : JsString
  task : JsString
  messages : List ModelMessage
  maxTokens : Option Float := none
  temperature : Option Float := none
deriving DecidableEq

/-- The request to a provider. `model` is absent where the route has none. -/
structure ModelCompletionRequest where
  model : Option JsString
  messages : List ModelMessage
  maxTokens : Option Float := none
  temperature : Option Float := none
deriving DecidableEq

structure ModelUsage where
  promptTokens : ℕ
  completionTokens : ℕ
deriving DecidableEq

structure ModelCompletionResult where
  content : JsString
  usage : ModelUsage
deriving DecidableEq

/-- A provider object. `impl` is its code, and `external` its own marker, which not every provider
has. -/
structure ModelProvider (Impl : Type) where
  impl : Impl
  external : Option Bool
deriving DecidableEq

end WorkspaceOs
