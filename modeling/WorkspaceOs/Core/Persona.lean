import WorkspaceOs.Js.Json
import WorkspaceOs.Js.Number
import WorkspaceOs.Js.Collections
import WorkspaceOs.Core.Member

/-!
# Personas

A versioned agent persona: system prompt, allowed tools, model configuration and role.
-/

namespace WorkspaceOs

open Js

structure PersonaModelConfig where
  modelId : JsString
  temperature : Option Float := none
  maxTokens : Option Float := none

/-- The arguments of `Persona.create`. -/
structure PersonaProps where
  personaId : JsString
  name : JsString
  role : Role
  systemPrompt : JsString
  allowedTools : List JsString
  model : PersonaModelConfig
  version : Option Float := none

/-- What a revision changes. A field that is there may be `undefined`. -/
structure PersonaRevision where
  name : Option (Option JsString) := none
  role : Option (Option Role) := none
  systemPrompt : Option (Option JsString) := none
  allowedTools : Option (Option (List JsString)) := none
  model : Option (Option PersonaModelConfig) := none

/-- A persona. `allowedTools` lists a `Set` in insertion order. -/
structure Persona where
  personaId : JsString
  name : JsString
  role : Role
  systemPrompt : JsString
  allowedTools : List JsString
  model : PersonaModelConfig
  version : Float
  personaId_visible : ¬ personaId.IsBlank
  name_visible : ¬ name.IsBlank
  role_visible : ¬ role.IsBlank
  systemPrompt_visible : ¬ systemPrompt.IsBlank
  version_integer : isInteger version

namespace Persona

/-- `requireNonBlank` of `persona.ts`. -/
def requireNonBlank := WorkspaceOs.requireNonBlank .invalidPersona

def validateModel (rt : Runtime) (model : PersonaModelConfig) : Except Thrown Unit := do
  let _ ← requireNonBlank "model.modelId" model.modelId
  if let some temperature := model.temperature then
    if temperature < 0 ∨ temperature > 2 then
      throw (.invalidPersona ("model.temperature must be within [0, 2], got "
        ++ rt.numberToString temperature))
  if let some maxTokens := model.maxTokens then
    if !isInteger maxTokens ∨ maxTokens < 1 then
      throw (.invalidPersona ("model.maxTokens must be a positive integer, got "
        ++ rt.numberToString maxTokens))

def create (rt : Runtime) (props : PersonaProps) : Except Thrown Persona := do
  let ⟨hid⟩ ← requireNonBlank "personaId" props.personaId
  let ⟨hname⟩ ← requireNonBlank "name" props.name
  let ⟨hrole⟩ ← requireNonBlank "role" props.role
  let ⟨hprompt⟩ ← requireNonBlank "systemPrompt" props.systemPrompt
  validateModel rt props.model
  let version := props.version.getD 1
  if hversion : isInteger version ∧ ¬ version < 1 then
    return { personaId := props.personaId, name := props.name, role := props.role,
             systemPrompt := props.systemPrompt, allowedTools := newSet props.allowedTools,
             model := props.model, version,
             personaId_visible := hid, name_visible := hname, role_visible := hrole,
             systemPrompt_visible := hprompt, version_integer := hversion.1 }
  else
    throw (.invalidPersona ("version must be an integer >= 1, got " ++ rt.numberToString version))

def allowsTool (persona : Persona) (tool : JsString) : Bool := persona.allowedTools.contains tool

/-- `persona.toJSON()`. -/
def toJSON (persona : Persona) : PersonaProps where
  personaId := persona.personaId
  name := persona.name
  role := persona.role
  systemPrompt := persona.systemPrompt
  allowedTools := persona.allowedTools
  model := persona.model
  version := some persona.version

/-- `persona.revise(changes)`. A text that is `undefined` fails the check that a blank one fails,
and a set made of `undefined` is empty. -/
def revise (rt : Runtime) (persona : Persona) (changes : PersonaRevision) : Except Thrown Persona :=
  let props : PersonaProps :=
    { persona.toJSON with
      name := changes.name.elim persona.name (Option.getD · [])
      role := changes.role.elim persona.role (Option.getD · [])
      systemPrompt := changes.systemPrompt.elim persona.systemPrompt (Option.getD · [])
      allowedTools := changes.allowedTools.elim persona.allowedTools (Option.getD · [])
      version := some (persona.version + 1) }
  match changes.model with
  | none => create rt props
  | some (some model) => create rt { props with model }
  | some none => do
    let _ ← requireNonBlank "personaId" props.personaId
    let _ ← requireNonBlank "name" props.name
    let _ ← requireNonBlank "role" props.role
    let _ ← requireNonBlank "systemPrompt" props.systemPrompt
    -- `validateModel` reads a field of `undefined`
    throw .typeError

variable {rt : Runtime} {props : PersonaProps} {persona persona' : Persona}

/-- The checks of a model. -/
lemma validateModel_ok_iff {model : PersonaModelConfig} : validateModel rt model = .ok () ↔
    ¬ model.modelId.IsBlank ∧
      (∀ temperature, model.temperature = some temperature →
        ¬ (temperature < 0 ∨ temperature > 2)) ∧
      ∀ maxTokens, model.maxTokens = some maxTokens →
        ¬ (!isInteger maxTokens ∨ maxTokens < 1) := by
  obtain ⟨modelId, temperature, maxTokens⟩ := model
  have hid : (∃ a, requireNonBlank "model.modelId" modelId = .ok a) ↔ ¬ modelId.IsBlank :=
    ⟨fun ⟨⟨h⟩, _⟩ => h, fun h => ⟨⟨h⟩, requireNonBlank_of_visible h⟩⟩
  simp only [validateModel, bind_eq_ok, exists_and_right, hid]
  apply and_congr_right
  intro _
  rcases temperature with _ | temperature <;> rcases maxTokens with _ | maxTokens <;>
    simp only [check_bind_ok_iff, check_ok_iff] <;> simp [pure, Except.pure]

/-- What `create` returns has passed every check. -/
lemma create_checked (h : create rt props = .ok persona) :
    ∃ hid hname hrole hprompt, validateModel rt props.model = .ok () ∧
      ∃ hversion : isInteger (props.version.getD 1) ∧ ¬ props.version.getD 1 < 1,
        persona = ⟨props.personaId, props.name, props.role, props.systemPrompt,
          newSet props.allowedTools, props.model, props.version.getD 1, hid, hname, hrole, hprompt,
          hversion.1⟩ := by
  simp only [create] at h
  obtain ⟨⟨hid⟩, -, h⟩ := bind_eq_ok.mp h
  obtain ⟨⟨hname⟩, -, h⟩ := bind_eq_ok.mp h
  obtain ⟨⟨hrole⟩, -, h⟩ := bind_eq_ok.mp h
  obtain ⟨⟨hprompt⟩, -, h⟩ := bind_eq_ok.mp h
  obtain ⟨_, hmodel, h⟩ := bind_eq_ok.mp h
  split_ifs at h with hversion
  cases h
  exact ⟨hid, hname, hrole, hprompt, hmodel, hversion, rfl⟩

lemma create_ok (h : create rt props = .ok persona) :
    validateModel rt props.model = .ok () ∧ persona.personaId = props.personaId ∧
      persona.name = props.name ∧ persona.role = props.role ∧
      persona.systemPrompt = props.systemPrompt ∧
      persona.allowedTools = newSet props.allowedTools ∧ persona.model = props.model ∧
      persona.version = props.version.getD 1 := by
  obtain ⟨-, -, -, -, hmodel, -, rfl⟩ := create_checked h
  exact ⟨hmodel, rfl, rfl, rfl, rfl, rfl, rfl, rfl⟩

lemma create_version (h : create rt props = .ok persona) : ¬ persona.version < 1 := by
  obtain ⟨-, -, -, -, -, hversion, rfl⟩ := create_checked h
  exact hversion.2

/-- Props that pass every check make a persona. -/
lemma exists_create (hid : ¬ props.personaId.IsBlank) (hname : ¬ props.name.IsBlank)
    (hrole : ¬ props.role.IsBlank) (hprompt : ¬ props.systemPrompt.IsBlank)
    (hmodel : validateModel rt props.model = .ok ()) (hinteger : isInteger (props.version.getD 1))
    (hpositive : ¬ props.version.getD 1 < 1) : ∃ persona, create rt props = .ok persona := by
  refine ⟨⟨props.personaId, props.name, props.role, props.systemPrompt, newSet props.allowedTools,
    props.model, props.version.getD 1, hid, hname, hrole, hprompt, hinteger⟩, ?_⟩
  refine bind_eq_ok.mpr ⟨⟨hid⟩, requireNonBlank_of_visible hid, ?_⟩
  refine bind_eq_ok.mpr ⟨⟨hname⟩, requireNonBlank_of_visible hname, ?_⟩
  refine bind_eq_ok.mpr ⟨⟨hrole⟩, requireNonBlank_of_visible hrole, ?_⟩
  refine bind_eq_ok.mpr ⟨⟨hprompt⟩, requireNonBlank_of_visible hprompt, ?_⟩
  exact bind_eq_ok.mpr ⟨(), hmodel, dif_pos ⟨hinteger, hpositive⟩⟩

/-- The arguments for the next version of a persona, with what the changes give in the place of what
it has. -/
structure Changed (persona : Persona) (changes : PersonaRevision)
    (props : PersonaProps) : Prop where
  personaId : props.personaId = persona.personaId
  name : props.name = changes.name.elim persona.name (Option.getD · [])
  role : props.role = changes.role.elim persona.role (Option.getD · [])
  systemPrompt :
    props.systemPrompt = changes.systemPrompt.elim persona.systemPrompt (Option.getD · [])
  allowedTools :
    props.allowedTools = changes.allowedTools.elim persona.allowedTools (Option.getD · [])
  model : (changes.model = none ∧ props.model = persona.model) ∨
    changes.model = some (some props.model)
  version : props.version = some (persona.version + 1)

/-- A revision is made of what it revises and its changes. -/
lemma revise_ok {changes : PersonaRevision} (h : revise rt persona changes = .ok persona') :
    ∃ props, create rt props = .ok persona' ∧ Changed persona changes props := by
  simp only [revise] at h
  split at h
  · rename_i hmodel
    exact ⟨_, h, rfl, rfl, rfl, rfl, rfl, .inl ⟨hmodel, rfl⟩, rfl⟩
  · rename_i hmodel
    exact ⟨_, h, rfl, rfl, rfl, rfl, rfl, .inr hmodel, rfl⟩
  · simp only [bind_eq_ok] at h
    obtain ⟨_, -, _, -, _, -, _, -, h⟩ := h
    cases h

/-- A persona that may search, for concrete runs. -/
def analyst : Persona where
  personaId := "p"
  name := "Researcher"
  role := "analyst"
  systemPrompt := "You research."
  allowedTools := ["search"]
  model := { modelId := "m" }
  version := 1
  personaId_visible := by decide
  name_visible := by decide
  role_visible := by decide
  systemPrompt_visible := by decide
  version_integer := by decide +kernel

end Persona

end WorkspaceOs
