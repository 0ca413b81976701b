import WorkspaceOs.Core.Errors

/-!
# Secrets

The profile of a deployment selects its adapters. The broker of secrets is the same in both: it
reads the environment.
-/

namespace WorkspaceOs

open Js

/-- What the environment has under a name. -/
abbrev Environment := JsString → Option JsString

inductive Profile where
  | simple
  | hardened
deriving DecidableEq

/-- `get` of a `SecretsBroker`. -/
abbrev SecretsBroker := JsString → Except Thrown JsString

structure EnvSecretsBroker where
  env : Environment
  namePrefix : JsString

namespace EnvSecretsBroker

def tryGet (broker : EnvSecretsBroker) (name : JsString) : Option JsString :=
  broker.env (broker.namePrefix ++ name)

def get (broker : EnvSecretsBroker) : SecretsBroker := fun name =>
  match broker.tryGet name with
  | none => .error (.foreign ("secret not found: " ++ name))
  | some value => .ok value

end EnvSecretsBroker

/-- Both profiles read the environment, below a prefix that it names itself. -/
def createSecretsBroker (_profile : Profile) (env : Environment)
    (override : Option SecretsBroker) : SecretsBroker :=
  override.getD (EnvSecretsBroker.get ⟨env, (env "SECRETS_PREFIX").getD []⟩)

end WorkspaceOs
