import WorkspaceOs.Effect.Prog
import WorkspaceOs.Core.Errors
import WorkspaceOs.Core.ModelProvider

/-!
# The Anthropic model provider

A completion request becomes one call of the Anthropic client, whose parameters have the system
messages in a field of their own and know no other roles than `user` and `assistant`.
-/

namespace WorkspaceOs

open Js Effect

inductive AnthropicRole where
  | user
  | assistant
deriving DecidableEq

structure AnthropicMessage where
  role : AnthropicRole
  content : JsString
deriving DecidableEq

/-- What the client is called with. -/
structure MessageCreateParams where
  model : Option JsString
  max_tokens : Float
  system : Option JsString
  messages : List AnthropicMessage
  temperature : Option Float

structure ContentBlock where
  type : JsString
  text : Option JsString := none

structure AnthropicUsage where
  input_tokens : ℕ
  output_tokens : ℕ

structure AnthropicResponse where
  content : List ContentBlock
  usage : AnthropicUsage

structure AnthropicModelProvider where
  defaultMaxTokens : Float := 4096

namespace AnthropicModelProvider

abbrev AnthropicProg := Prog MessageCreateParams (fun _ => AnthropicResponse) Thrown

def isSystem (m : ModelMessage) : Bool := m.role = .system

def isText (block : ContentBlock) : Bool := block.type = JsString.ofString "text"

/-- The role of a message that the client knows. -/
def role? : ModelMessageRole → Option AnthropicRole
  | .user => some .user
  | .assistant => some .assistant
  | .system => none
  | .tool => none

/-- `contents.join("\n\n")`. -/
def joinParagraphs (contents : List JsString) : JsString :=
  List.intercalate (JsString.ofString "\n\n") contents

def createParams (provider : AnthropicModelProvider) (request : ModelCompletionRequest) :
    MessageCreateParams :=
  let system := joinParagraphs ((request.messages.filter isSystem).map ModelMessage.content)
  { model := request.model
    max_tokens := request.maxTokens.getD provider.defaultMaxTokens
    system := if system ≠ [] then some system else none
    messages := request.messages.filterMap fun m =>
      (role? m.role).map fun role => { role, content := m.content }
    temperature := request.temperature }

def complete (provider : AnthropicModelProvider) (request : ModelCompletionRequest) :
    AnthropicProg ModelCompletionResult := do
  let response ← .perform (createParams provider request)
  let texts := (response.content.filter isText).map fun block => block.text.getD ""
  return {
    content := texts.flatten
    usage :=
      { promptTokens := response.usage.input_tokens
        completionTokens := response.usage.output_tokens } }

/-! ### What is sent and what comes back -/

/-- The parameters have the content of every message once: those of the system messages joined, and
those of all others in their order. -/
structure Carries (request : ModelCompletionRequest) (params : MessageCreateParams) : Prop where
  system : params.system.getD [] =
    joinParagraphs ((request.messages.filter isSystem).map ModelMessage.content)
  messages : params.messages.map AnthropicMessage.content =
    (request.messages.filter fun m => !isSystem m).map ModelMessage.content

/-- The result has the texts of all text blocks in their order, and the usage of the response. -/
structure Returns (response : AnthropicResponse) (result : ModelCompletionResult) : Prop where
  content : result.content = response.content.flatMap fun block =>
    if isText block then block.text.getD [] else []
  promptTokens : result.usage.promptTokens = response.usage.input_tokens
  completionTokens : result.usage.completionTokens = response.usage.output_tokens

/-- The provider makes one call, with parameters that carry every message; it returns what the call
answers, and throws what the call throws. -/
def Faithful (provider : AnthropicModelProvider) (request : ModelCompletionRequest) : Prop :=
  ∃ params k, provider.complete request = .call params k ∧ Carries request params ∧
    (∀ response, ∃ result, k (.ok response) = .ret result ∧ Returns response result) ∧
    ∀ e, k (.error e) = .throw e

variable {provider : AnthropicModelProvider} {request : ModelCompletionRequest}

/-- A response is returned, whatever was asked. -/
lemma complete_eq : ∃ k, provider.complete request = .call (createParams provider request) k ∧
    (∀ response, ∃ result, k (.ok response) = .ret result ∧ Returns response result) ∧
    ∀ e, k (.error e) = .throw e := by
  refine ⟨_, rfl, fun response => ⟨_, rfl, ?_, rfl, rfl⟩, fun e => rfl⟩
  induction response.content with
  | nil => rfl
  | cons block blocks ih =>
    rw [List.flatMap_cons, ← ih]
    cases htext : isText block <;> simp [htext, JsString.ofString]

lemma createParams_system : (createParams provider request).system.getD [] =
    joinParagraphs ((request.messages.filter isSystem).map ModelMessage.content) := by
  simp only [createParams]
  split_ifs with hsystem
  · rfl
  · exact (not_not.mp hsystem).symm

/-- The two filters leave out the messages of tools. -/
lemma createParams_messages :
    (createParams provider request).messages.map AnthropicMessage.content =
    (request.messages.filter fun m => (role? m.role).isSome).map ModelMessage.content := by
  simp only [createParams]
  induction request.messages with
  | nil => rfl
  | cons m messages ih =>
    cases hrole : role? m.role with
    | none => simpa [List.filterMap_cons, List.filter_cons, hrole] using ih
    | some role => simpa [List.filterMap_cons, List.filter_cons, hrole] using ih

/-- A message with a role that the client knows is no system message, and no message of a tool. -/
lemma isSome_role?_iff {m : ModelMessage} :
    (role? m.role).isSome = true ↔ isSystem m = false ∧ m.role ≠ .tool := by
  cases hrole : m.role <;> simp [isSystem, role?, hrole]

/-- As many messages are carried as are no system messages only if none is a message of a tool. -/
lemma role_ne_tool {messages : List ModelMessage}
    (h : (messages.filter fun m => (role? m.role).isSome).length =
      (messages.filter fun m => !isSystem m).length) : ∀ m ∈ messages, m.role ≠ .tool := by
  have hfilter : messages.filter (fun m => (role? m.role).isSome) =
      (messages.filter fun m => !isSystem m).filter fun m => (role? m.role).isSome := by
    rw [List.filter_filter]
    refine List.filter_congr fun m _ => ?_
    cases hrole : m.role <;> simp [isSystem, role?, hrole]
  rw [hfilter, List.length_filter_eq_length_iff] at h
  intro m hm htool
  have hother : isSystem m = false := by simp [isSystem, htool]
  exact (isSome_role?_iff.mp (h m (List.mem_filter.mpr ⟨hm, by simp [hother]⟩))).2 htool

/-- Every message is carried exactly when none is a message of a tool. -/
theorem faithful_iff : Faithful provider request ↔ ∀ m ∈ request.messages, m.role ≠ .tool := by
  obtain ⟨k, hcomplete, hreturns, hthrows⟩ := @complete_eq provider request
  constructor
  · rintro ⟨params, k', hcall, hcarries, -⟩
    obtain ⟨rfl, -⟩ := Prog.call.inj (hcomplete.symm.trans hcall)
    have hlength := congrArg List.length hcarries.messages
    rw [createParams_messages, List.length_map, List.length_map] at hlength
    exact role_ne_tool hlength
  · intro htool
    refine ⟨_, k, hcomplete, ⟨createParams_system, ?_⟩, hreturns, hthrows⟩
    rw [createParams_messages]
    congr 1
    refine List.filter_congr fun m hm => Bool.eq_iff_iff.mpr ?_
    rw [isSome_role?_iff]
    simp [htool m hm]

/-- The answer of a tool is not sent. -/
theorem not_faithful_tool : ¬ Faithful {}
    { model := some "m", messages := [⟨.user, "what time is it?"⟩, ⟨.tool, "noon"⟩] } := by
  rintro ⟨params, k, hcall, hcarries, -⟩
  obtain ⟨rfl, -⟩ := Prog.call.inj hcall
  exact absurd hcarries.messages (by decide)

end AnthropicModelProvider

end WorkspaceOs
