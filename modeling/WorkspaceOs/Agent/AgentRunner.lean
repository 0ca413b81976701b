import WorkspaceOs.Core.Persona
import WorkspaceOs.Adapters.Repositories

/-!
# The agent runner

One turn of the agent loop: claim an item, ask the model, drive the item to done. The claimed item
is held from the claim to the save.
-/

namespace WorkspaceOs

open Js Effect

structure AgentRunnerDeps where
  agent : Member
  persona : Persona
  task : Option JsString := none

inductive AgentRunStatus where
  | idle
  | completed
deriving DecidableEq

structure AgentRunResult where
  status : AgentRunStatus
  workItemId : Option JsString := none
  output : Option JsString := none

namespace AgentRunner

def describeTask (item : WorkItem) : JsString :=
  match item.description with
  | some description => if description ≠ [] then item.title ++ "\n\n" ++ description else item.title
  | none => item.title

/-- At most 500 code units, then an ellipsis. -/
def preview (text : JsString) : JsString :=
  if text.length > 500 then text.take 500 ++ "…" else text

def report (deps : AgentRunnerDeps) (action : JsString) (item : WorkItem)
    (metadata : Option StringRecord := none) : ServerProg Unit :=
  DrizzleActivityLog.record
    { actor := deps.agent, action, resourceType := "work_item", resourceId := item.id, metadata }

def runOnce (deps : AgentRunnerDeps) : ServerProg AgentRunResult := do
  match ← DrizzleWorkItemRepository.claimNext deps.agent with
  | none => return { status := .idle }
  | some claimed =>
    report deps "work.claim" claimed
    let content ← .perform (ServerOp.complete
      { memberId := deps.agent.id, task := deps.task.getD "reasoning",
        messages := [⟨.system, deps.persona.systemPrompt⟩, ⟨.user, describeTask claimed⟩] })
    let done ← .ofExcept (claimed.start >>= WorkItem.complete)
    DrizzleWorkItemRepository.save done
    report deps "work.complete" done (some [("outputPreview", preview content)])
    return { status := .completed, workItemId := some done.id, output := some content }

end AgentRunner

/-- The claimed item of a runner goes through both methods. -/
lemma start_complete {item : WorkItem} (h : item.state = .claimed) :
    (item.start >>= WorkItem.complete) = .ok { item with state := .done } := by
  rw [show item.start = .ok { item with state := .inProgress } from
    WorkItem.start_eq_ok_iff.mpr ⟨h, rfl⟩]
  show WorkItem.complete { item with state := .inProgress } = _
  exact WorkItem.complete_eq_ok_iff.mpr ⟨rfl, rfl⟩

end WorkspaceOs
