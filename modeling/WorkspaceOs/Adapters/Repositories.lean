import WorkspaceOs.Adapters.Backend

/-!
# The repositories

Each method is one statement, with what the code makes of its rows and its errors.
-/

namespace WorkspaceOs

open Js Effect

namespace DrizzleMemberRepository

def save (member : Member) : ServerProg Unit := .perform (ServerOp.membersSave member)

def findById (rt : Runtime) (id : JsString) : ServerProg (Option Member) := do
  match ← .perform (ServerOp.membersFindById id) with
  | some row => some <$> .ofExcept (Db.toMember rt row)
  | none => return none

end DrizzleMemberRepository

namespace DrizzleHumanCredentialRepository

/-- Only this insert translates a unique violation. -/
def save (record : HumanCredentialRecord) : ServerProg Unit :=
  tryCatch (.perform (ServerOp.credentialsInsert record)) fun e =>
    if e = .database .uniqueViolation then throw (.emailAlreadyRegistered record.email) else throw e

def findByEmail (email : JsString) : ServerProg (Option HumanCredentialRecord) :=
  .perform (ServerOp.credentialsFindByEmail email)

end DrizzleHumanCredentialRepository

namespace DrizzleWorkItemRepository

def save (item : WorkItem) : ServerProg Unit := .perform (ServerOp.workItemsSave item)

def findById (rt : Runtime) (id : JsString) : ServerProg (Option WorkItem) := do
  match ← .perform (ServerOp.workItemsFindById id) with
  | some row => some <$> .ofExcept (Db.toWorkItem rt row)
  | none => return none

def listOpen (rt : Runtime) : ServerProg (List WorkItem) := do
  let rows ← .perform ServerOp.workItemsListOpen
  .ofExcept (rows.mapM (Db.toWorkItem rt))

def claimNext (member : Member) : ServerProg (Option WorkItem) :=
  .perform (ServerOp.workItemsClaimNext member)

/-- Reading an item and going on with it, as one operation and a computation. -/
lemma findById_bind {α : Type} (rt : Runtime) (id : JsString)
    (f : Option WorkItem → ServerProg α) :
    (findById rt id >>= f) =
      Prog.perform (ServerOp.workItemsFindById id) >>= fun row? =>
        match row? with
        | none => f none
        | some row => match Db.toWorkItem rt row with
          | .error e => .throw e
          | .ok item => f (some item) := by
  rw [findById]
  rw [bind_assoc]
  congr 1
  funext row?
  cases row? with
  | none => rfl
  | some row =>
    simp only [Functor.map]
    cases Db.toWorkItem rt row <;> rfl

end DrizzleWorkItemRepository

namespace DrizzleActivityLog

def record (input : RecordActivityInput) : ServerProg Unit :=
  tryCatch (.perform (ServerOp.activitiesInsert input)) fun e =>
    if e = .database .foreignKeyViolation then throw (.unknownActor input.actor.id) else throw e

end DrizzleActivityLog

end WorkspaceOs
