import WorkspaceOs.Effect.EventLoop
import WorkspaceOs.Core.Errors
import WorkspaceOs.Core.ModelProvider
import WorkspaceOs.Js.Collections
import Mathlib.Data.Rat.Defs
import Mathlib.Logic.Function.Basic

/-!
# The model gateway

All access to models goes through `complete`: it routes a task to a provider, refuses what the
configuration does not allow, and meters what the provider answers. The provider is foreign code;
its answer is awaited, and other calls of the gateway run in the meantime.
-/

namespace WorkspaceOs

open Js Effect

structure RegisteredProvider (Impl : Type) where
  provider : ModelProvider Impl
  external : Bool

structure ModelRoute where
  providerName : JsString
  model : JsString

/-- An absent `noEgress` is as good as `false`. A quota is a finite number: `Infinity` and NaN never
refuse anything, like an absent one, and `-Infinity` refuses everything, like zero. -/
structure ModelGatewayConfig (Impl : Type) where
  providers : Record (RegisteredProvider Impl)
  routing : Record ModelRoute
  noEgress : Bool := false
  quotaTokensPerMember : Option ℚ := none

structure MemberUsage where
  promptTokens : ℕ
  completionTokens : ℕ
  totalTokens : ℕ
deriving DecidableEq

/-- The state of a gateway, `Map<string, MemberUsage>`. -/
abbrev UsageMap := JsString → Option MemberUsage

/-- What the gateway awaits. -/
structure ProviderCall (Impl : Type) where
  provider : ModelProvider Impl
  request : ModelCompletionRequest
deriving DecidableEq

namespace ModelGateway

variable {Impl : Type}

/-- What a provider answers. -/
abbrev CompletionAns (Impl : Type) : ProviderCall Impl → Type := fun _ => ModelCompletionResult

abbrev GatewayTask (Impl : Type) := Task UsageMap (CompletionAns Impl) Thrown

abbrev GatewayLoop (Impl : Type) :=
  EventLoop GatewayCompletionRequest UsageMap (CompletionAns Impl) Thrown
    ModelCompletionResult

abbrev GatewayEvent (Impl : Type) :=
  EventLoop.Event GatewayCompletionRequest (CompletionAns Impl) Thrown

def usageFor (usage : UsageMap) (memberId : JsString) : MemberUsage :=
  (usage memberId).getD ⟨0, 0, 0⟩

/-- The checks of `complete`, in order, and the call that they let through. Where the name of a task
or of a provider is that of a property that every object has, the lookup finds that property, whose
fields are all undefined. -/
def accept (config : ModelGatewayConfig Impl) (usage : UsageMap)
    (request : GatewayCompletionRequest) : Except Thrown (ProviderCall Impl) :=
  match (config.routing.get request.task).found? with
  | none => .error (.unknownTask request.task)
  | some route =>
    let providerName := (route.map ModelRoute.providerName).getD "undefined"
    match (config.providers.get providerName).found? with
    | none => .error (.foreign ("route \"" ++ request.task ++ "\" points at unknown provider \""
        ++ providerName ++ "\""))
    | some registered =>
      if config.noEgress && registered.any RegisteredProvider.external then
        .error (.noEgressViolation providerName)
      else if config.quotaTokensPerMember.any fun (quota : ℚ) =>
          quota ≤ (usageFor usage request.memberId).totalTokens then
        .error (.quotaExceeded request.memberId)
      else
        match registered with
        | none => .error .typeError
        | some registered => .ok
          { provider := registered.provider,
            request := { model := route.map ModelRoute.model, messages := request.messages,
                         maxTokens := request.maxTokens, temperature := request.temperature } }

/-- The usage with one more answer for a member. -/
def metered (usage : UsageMap) (memberId : JsString) (answer : ModelUsage) : UsageMap :=
  let current := usageFor usage memberId
  let promptTokens := current.promptTokens + answer.promptTokens
  let completionTokens := current.completionTokens + answer.completionTokens
  Function.update usage memberId
    (some { promptTokens, completionTokens, totalTokens := promptTokens + completionTokens })

def meter (memberId : JsString) (result : ModelCompletionResult) : GatewayTask Impl Unit := do
  let usage ← .perform TaskOp.get
  let _ ← .perform (TaskOp.set (metered usage memberId result.usage))

def complete (config : ModelGatewayConfig Impl) (request : GatewayCompletionRequest) :
    GatewayTask Impl ModelCompletionResult := do
  let usage ← .perform TaskOp.get
  let call ← .ofExcept (accept config usage request)
  let result ← .perform (TaskOp.await call)
  meter request.memberId result
  return result

/-- A new gateway. -/
def initial : GatewayLoop Impl := ⟨fun _ => none, []⟩

/-- A gateway with one provider and one task, for concrete runs. -/
def triageConfig : ModelGatewayConfig Unit where
  providers := [("cheap", ⟨⟨(), some false⟩, false⟩)]
  routing := [("triage", ⟨"cheap", "cheap-1"⟩)]

/-- A request of a member for that task. -/
def triageRequest (memberId : JsString) : GatewayCompletionRequest :=
  { memberId, task := "triage", messages := [⟨.user, "do the thing"⟩] }

/-- The answer to call `i`, with its tokens. -/
def answerWith (i promptTokens completionTokens : ℕ) :
    EventLoop.Input GatewayCompletionRequest (CompletionAns Impl) Thrown :=
  .answer i fun _ => .ok ⟨"triaged", ⟨promptTokens, completionTokens⟩⟩

/-! ### The two parts of a call -/

/-- A call that awaits its provider. -/
def inFlight (request : GatewayCompletionRequest) (call : ProviderCall Impl) :
    GatewayTask Impl ModelCompletionResult :=
  .perform (TaskOp.await call) >>= fun result => do
    meter request.memberId result
    return result

/-- The first part of a call checks, and changes nothing. -/
lemma advance_complete (config : ModelGatewayConfig Impl) (usage : UsageMap)
    (request : GatewayCompletionRequest) : (complete config request).advance usage =
    (match accept config usage request with
      | .ok call => inFlight request call
      | .error e => .throw e, usage) := by
  show Task.advance (Prog.ofExcept (accept config usage request) >>= _) usage = _
  cases accept config usage request <;> rfl

variable {config : ModelGatewayConfig Impl} {usage : UsageMap} {memberId m : JsString}
  {request : GatewayCompletionRequest} {call : ProviderCall Impl} {answer : ModelUsage}

@[simp] lemma usageFor_metered : usageFor (metered usage memberId answer) memberId =
    ⟨(usageFor usage memberId).promptTokens + answer.promptTokens,
      (usageFor usage memberId).completionTokens + answer.completionTokens,
      (usageFor usage memberId).promptTokens + answer.promptTokens +
        ((usageFor usage memberId).completionTokens + answer.completionTokens)⟩ := by
  simp only [metered]
  rw [usageFor, Function.update_self]
  rfl

lemma usageFor_metered_of_ne (h : m ≠ memberId) :
    usageFor (metered usage memberId answer) m = usageFor usage m := by
  simp only [metered]
  rw [usageFor, Function.update_of_ne h, usageFor]

/-- What a step of the gateway can be. -/
inductive Stepped (config : ModelGatewayConfig Impl) (c : GatewayLoop Impl) :
    GatewayEvent Impl → GatewayLoop Impl → Prop where
  /-- A call passes the checks and is sent to its provider. -/
  | sent {r : GatewayCompletionRequest} {p : ProviderCall Impl}
      (accepted : accept config c.store r = .ok p) :
      Stepped config c (.call r (some p)) ⟨c.store, c.calls ++ [(r, inFlight r p)]⟩
  /-- A call is refused. -/
  | refused {r : GatewayCompletionRequest} {e : Thrown}
      (rejected : accept config c.store r = .error e) :
      Stepped config c (.call r none) ⟨c.store, c.calls ++ [(r, .throw e)]⟩
  /-- A provider answers, and the answer is metered. -/
  | answered {i : ℕ} {r : GatewayCompletionRequest} {p : ProviderCall Impl}
      {result : ModelCompletionResult} (awaiting : c.calls[i]? = some (r, inFlight r p)) :
      Stepped config c (.answer i r p (.ok result) none)
        ⟨metered c.store r.memberId result.usage, c.calls.set i (r, .ret result)⟩
  /-- A provider fails. -/
  | failed {i : ℕ} {r : GatewayCompletionRequest} {p : ProviderCall Impl} {e : Thrown}
      (awaiting : c.calls[i]? = some (r, inFlight r p)) :
      Stepped config c (.answer i r p (.error e) none) ⟨c.store, c.calls.set i (r, .throw e)⟩

/-- Where a call of `request` has got to: what it was sent to, what it was answered, and what is
left of it. -/
inductive Progress (request : GatewayCompletionRequest) : Option (ProviderCall Impl) →
    List ((_ : ProviderCall Impl) × Except Thrown ModelCompletionResult) →
    GatewayTask Impl ModelCompletionResult → Prop where
  | refused (e : Thrown) : Progress request none [] (.throw e)
  | awaiting (call : ProviderCall Impl) :
      Progress request (some call) [] (inFlight request call)
  | answered (call : ProviderCall Impl) (result : ModelCompletionResult) :
      Progress request (some call) [⟨call, .ok result⟩] (.ret result)
  | failed (call : ProviderCall Impl) (e : Thrown) :
      Progress request (some call) [⟨call, .error e⟩] (.throw e)

/-- Every call of a run has got to one of these points. -/
structure Tracked (ls : List (GatewayEvent Impl)) (c : GatewayLoop Impl) : Prop where
  requests : c.calls.map Prod.fst = (EventLoop.started ls).map Prod.fst
  progress : ∀ (i : ℕ) request next task, (EventLoop.started ls)[i]? = some (request, next) →
    c.calls[i]? = some (request, task) → Progress request next (EventLoop.answersTo i ls) task
  /-- An answer to call `i` comes with the request of call `i`. -/
  owner : ∀ i r p a next, .answer i r p a next ∈ ls →
    ∃ sent, (EventLoop.started ls)[i]? = some (r, sent)

section Tracked

variable {ls : List (GatewayEvent Impl)} {c c' : GatewayLoop Impl} {l : GatewayEvent Impl}

lemma Tracked.length (h : Tracked ls c) : c.calls.length = (EventLoop.started ls).length := by
  simpa using congrArg List.length h.requests

/-- A call that has not started has no answers. -/
lemma Tracked.answersTo_eq_nil (h : Tracked ls c) {i : ℕ}
    (hi : (EventLoop.started ls).length ≤ i) : EventLoop.answersTo i ls = [] := by
  apply List.filterMap_eq_nil_iff.mpr
  intro l hl
  cases l with
  | call => rfl
  | answer j r p a next =>
    obtain ⟨sent, hstarted⟩ := h.owner j r p a next hl
    apply if_neg
    rintro rfl
    rw [List.getElem?_eq_none hi] at hstarted
    cases hstarted

/-- A call of a run is one that started in it. -/
lemma Tracked.progress_of (h : Tracked ls c) {i : ℕ} {task : GatewayTask Impl ModelCompletionResult}
    (hcall : c.calls[i]? = some (request, task)) : ∃ next,
      (EventLoop.started ls)[i]? = some (request, next) ∧
        Progress request next (EventLoop.answersTo i ls) task := by
  have hrequest : (c.calls.map Prod.fst)[i]? = some request := by simp [hcall]
  rw [h.requests, List.getElem?_map, Option.map_eq_some_iff] at hrequest
  obtain ⟨⟨r, next⟩, hstarted, rfl⟩ := hrequest
  exact ⟨next, hstarted, h.progress i r next task hstarted hcall⟩

/-- Only a call that awaits its provider can be answered. -/
lemma Progress.inFlight_of_await {next : Option (ProviderCall Impl)} {answers}
    {k : Except Thrown ModelCompletionResult → GatewayTask Impl ModelCompletionResult}
    (h : Progress request next answers (.call (.await call) k)) :
    next = some call ∧ answers = [] ∧
      (.call (.await call) k : GatewayTask Impl ModelCompletionResult) = inFlight request call := by
  generalize htask : (.call (.await call) k : GatewayTask Impl ModelCompletionResult) = task at h
  cases h with
  | awaiting p =>
    cases htask
    exact ⟨rfl, rfl, rfl⟩
  | _ => cases htask

/-- A step from a tracked state is one of the four. -/
lemma Tracked.stepped (h : Tracked ls c) (step : EventLoop.Step (complete config) c l c') :
    Stepped config c l c' := by
  cases step with
  | @call r task s' advanced =>
    rw [advance_complete] at advanced
    cases haccept : accept config c.store r with
    | ok p =>
      rw [haccept] at advanced
      cases advanced
      exact .sent haccept
    | error e =>
      rw [haccept] at advanced
      cases advanced
      exact .refused haccept
  | @answer i r p k a task s' awaiting advanced =>
    obtain ⟨next, -, hprogress⟩ := h.progress_of awaiting
    obtain ⟨-, -, hflight⟩ := hprogress.inFlight_of_await
    rw [hflight] at awaiting
    cases hflight
    cases a with
    | ok result =>
      cases advanced
      exact .answered awaiting
    | error e =>
      cases advanced
      exact .failed awaiting

lemma Tracked.initial : Tracked [] (initial : GatewayLoop Impl) :=
  ⟨rfl, by simp [EventLoop.started], by simp⟩

/-- A new call takes the next place. -/
lemma Tracked.start (h : Tracked ls c) {next : Option (ProviderCall Impl)} {s' : UsageMap}
    {task : GatewayTask Impl ModelCompletionResult} (hprogress : Progress request next [] task) :
    Tracked (ls ++ [.call request next]) ⟨s', c.calls ++ [(request, task)]⟩ := by
  have hlength := h.length
  refine ⟨by simp [h.requests], ?_, ?_⟩
  · intro i r next' task' hstarted hcall
    rw [EventLoop.started_call, List.getElem?_append] at hstarted
    rw [List.getElem?_append, hlength] at hcall
    rw [EventLoop.answersTo_call]
    split_ifs at hstarted hcall with hi
    · exact h.progress i r next' task' hstarted hcall
    · rw [h.answersTo_eq_nil (Nat.le_of_not_lt hi)]
      cases List.mem_singleton.mp (List.mem_of_getElem? hstarted)
      cases List.mem_singleton.mp (List.mem_of_getElem? hcall)
      exact hprogress
  · intro i r p a next' hmem
    have hold : .answer i r p a next' ∈ ls := by simpa using hmem
    obtain ⟨sent, hsent⟩ := h.owner i r p a next' hold
    exact ⟨sent, by rw [EventLoop.started_call, List.getElem?_append_left
      (List.getElem?_eq_some_iff.mp hsent).1, hsent]⟩

/-- An answer moves on the call that awaited it, and no other one. -/
lemma Tracked.resume (h : Tracked ls c) {i : ℕ} {s' : UsageMap}
    {a : Except Thrown ModelCompletionResult} {task : GatewayTask Impl ModelCompletionResult}
    (awaiting : c.calls[i]? = some (request, inFlight request call))
    (hprogress : Progress request (some call) [⟨call, a⟩] task) :
    Tracked (ls ++ [.answer i request call a none]) ⟨s', c.calls.set i (request, task)⟩ := by
  obtain ⟨next, hstarted, hflight⟩ := h.progress_of awaiting
  obtain ⟨rfl, hanswers, -⟩ := hflight.inFlight_of_await
  obtain ⟨hi, -⟩ := List.getElem?_eq_some_iff.mp hstarted
  have hrequest : (c.calls.map Prod.fst)[i]? = some request := by simp [awaiting]
  refine ⟨?_, ?_, ?_⟩
  · obtain ⟨hi', rfl⟩ := List.getElem?_eq_some_iff.mp hrequest
    rw [List.map_set, List.set_getElem_self, EventLoop.started_answer, h.requests]
  · intro j r next' task' hstarted' hcall
    rw [EventLoop.started_answer] at hstarted'
    by_cases hij : i = j
    · subst hij
      rw [EventLoop.answersTo_self, hanswers]
      rw [List.getElem?_set_self (h.length ▸ hi)] at hcall
      rw [hstarted] at hstarted'
      cases hcall
      cases hstarted'
      exact hprogress
    · rw [EventLoop.answersTo_of_ne hij]
      rw [List.getElem?_set_ne hij] at hcall
      exact h.progress j r next' task' hstarted' hcall
  · intro j r p a' next' hmem
    rw [EventLoop.started_answer]
    rcases List.mem_append.mp hmem with hold | hnew
    · exact h.owner j r p a' next' hold
    · cases List.mem_singleton.mp hnew
      exact ⟨_, hstarted⟩

lemma Tracked.step (h : Tracked ls c) (step : Stepped config c l c') : Tracked (ls ++ [l]) c' := by
  cases step with
  | sent accepted => exact h.start (.awaiting _)
  | refused rejected => exact h.start (.refused _)
  | answered awaiting => exact h.resume awaiting (.answered _ _)
  | failed awaiting => exact h.resume awaiting (.failed _ _)

/-- Every state of a run is tracked. -/
lemma tracked_of_run (run : EventLoop.Run (complete config) initial ls c) : Tracked ls c := by
  induction run with
  | refl => exact .initial
  | snoc _ step ih => exact ih.step (ih.stepped step)

/-- What holds of a new gateway, and is kept by the steps of a tracked one, holds after every
run. -/
lemma run_invariant {P : List (GatewayEvent Impl) → GatewayLoop Impl → Prop} (h : P [] initial)
    (hstep : ∀ ls c l c', Tracked ls c → P ls c → Stepped config c l c' → P (ls ++ [l]) c')
    (run : EventLoop.Run (complete config) initial ls c) : P ls c := by
  induction run with
  | refl => exact h
  | snoc run step ih =>
    have htracked := tracked_of_run run
    exact hstep _ _ _ _ htracked ih (htracked.stepped step)

end Tracked

end ModelGateway

end WorkspaceOs
