import WorkspaceOs.Adapters.RoundTrip
import WorkspaceOs.Adapters.VersionHistory

/-!
# Personas and policies

The two repositories of versions, and the writers that revise what they hold. What is read of a
version is what its writer asked for, as far as the columns keep it.
-/

namespace WorkspaceOs

open Js Effect
open RoundTrip (StoredPersona writePersona writeAction validateModel_filled
  elements_jsonString_eq_ok_iff writeModel_eq_ok_iff maxTokens_isJsonNumber)

variable {rt : Runtime} {id : JsString}

/-! ### Personas -/

namespace DrizzlePersonaRepository

/-- The insert of `saveVersion`, `toPersona`, and the error. A number that is read as `null` is NaN
here: both pass and fail the same checks, and both are written as `null`. -/
def versioned (rt : Runtime) : Versioned Persona StoredPersona where
  id := Persona.personaId
  version := Persona.version
  write := writePersona
  rehydrate personaId version row := Persona.create rt
    { personaId, name := row.name, role := row.role, systemPrompt := row.systemPrompt,
      allowedTools := row.allowedTools, model := row.model.filled (0 / 0),
      version := some version }
  conflict := .personaVersionConflict

def saveVersion (rt : Runtime) (persona : Persona) : VersionProg StoredPersona Unit :=
  (versioned rt).saveVersion persona

def findLatest (rt : Runtime) (personaId : JsString) :
    VersionProg StoredPersona (Option Persona) :=
  (versioned rt).findLatest personaId

end DrizzlePersonaRepository

/-- What a writer of personas creates where there is none, and how it revises the latest one. -/
structure PersonaWriter where
  props : PersonaProps
  changes : Persona → PersonaRevision

namespace PersonaWriter

def program (rt : Runtime) (w : PersonaWriter) : VersionProg StoredPersona Unit := do
  let latest ← DrizzlePersonaRepository.findLatest rt w.props.personaId
  let next ← .ofExcept (latest.elim (Persona.create rt { w.props with version := none })
    fun persona => persona.revise rt (w.changes persona))
  DrizzlePersonaRepository.saveVersion rt next

def writer (rt : Runtime) (w : PersonaWriter) : Writer Persona where
  id := w.props.personaId
  first := Persona.create rt { w.props with version := none }
  revise persona := persona.revise rt (w.changes persona)

/-- What the writer asks for, given the latest version of its id. -/
inductive Asks (rt : Runtime) (w : PersonaWriter) (id : JsString) :
    Option (Version StoredPersona) → PersonaProps → Prop where
  | first : Asks rt w id none { w.props with version := none }
  | revise {version persona props}
      (read : (DrizzlePersonaRepository.versioned rt).rehydrate id (ofInt version.number)
        version.content = .ok persona)
      (changed : persona.Changed (w.changes persona) props) : Asks rt w id (some version) props

end PersonaWriter

/-- The persona is the one of these arguments, as far as its columns keep it: an unpaired surrogate
of a text is replaced, the sign of zero is lost, and NaN is `null`. -/
structure PersonaKept (props : PersonaProps) (persona : Persona) : Prop where
  personaId : Column.text props.personaId = .ok persona.personaId
  name : Column.text props.name = .ok persona.name
  role : Column.text props.role = .ok persona.role
  systemPrompt : Column.text props.systemPrompt = .ok persona.systemPrompt
  allowedTools : persona.allowedTools = newSet props.allowedTools
  modelId : persona.model.modelId = props.model.modelId
  temperature : persona.model.temperature =
    props.model.temperature.map fun x => (Column.jsonNumber x).getD (0 / 0)
  maxTokens : persona.model.maxTokens = props.model.maxTokens
  version : persona.version = props.version.getD 1

/-- The persona that is read is the one that was saved, as far as its columns keep it. -/
abbrev KeepsPersona (persona persona' : Persona) : Prop := PersonaKept persona.toJSON persona'

/-- What was written of a persona can be read again, and is what was written. -/
lemma persona_readable {persona : Persona}
    (hmodel : Persona.validateModel rt persona.model = .ok ()) :
    Readable (DrizzlePersonaRepository.versioned rt)
      KeepsPersona persona := by
  rintro id ⟨n, content⟩ hid hwrite hpos hlt hversion
  refine ⟨hversion, hwrite, ?_⟩
  simp only [DrizzlePersonaRepository.versioned] at hid hwrite hversion ⊢
  simp only [writePersona, bind_eq_ok] at hwrite
  obtain ⟨name, hname, role, hrole, prompt, hprompt, tools, htools, model, hwritten, h⟩ := hwrite
  cases h
  obtain ⟨persona', hread⟩ := @Persona.exists_create rt
    ⟨id, name, role, prompt, tools, model.filled (0 / 0), some (ofInt n)⟩
    (Column.visible_of_text hid persona.personaId_visible)
    (Column.visible_of_text hname persona.name_visible)
    (Column.visible_of_text hrole persona.role_visible)
    (Column.visible_of_text hprompt persona.systemPrompt_visible)
    (validateModel_filled hwritten hmodel (by decide +kernel))
    (by rw [Option.getD_some, ← hversion]; exact persona.version_integer)
    (not_ofInt_lt_one hpos hlt)
  refine ⟨persona', hread, ?_⟩
  obtain ⟨-, hid', hname', hrole', hprompt', htools', hmodel', hversion'⟩ := Persona.create_ok hread
  obtain ⟨rfl, -⟩ := elements_jsonString_eq_ok_iff.mp htools
  obtain ⟨-, rfl⟩ := writeModel_eq_ok_iff.mp hwritten
  have htokens : persona.model.maxTokens.map Column.jsonNumber = persona.model.maxTokens.map some :=
    RoundTrip.map_jsonNumber_eq_iff.mpr (maxTokens_isJsonNumber hmodel)
  exact
    { personaId := hid'.symm ▸ hid
      name := hname'.symm ▸ hname
      role := hrole'.symm ▸ hrole
      systemPrompt := hprompt'.symm ▸ hprompt
      allowedTools := htools'
      modelId := by rw [hmodel']; rfl
      temperature := by
        rw [hmodel']
        exact Option.map_map ..
      maxTokens := by
        rw [hmodel']
        simp only [RoundTrip.StoredModel.filled, htokens, Option.map_map]
        exact Option.map_id_apply
      version := hversion'.trans hversion.symm }

lemma PersonaWriter.lawful (w : PersonaWriter) :
    (w.writer rt).Lawful (DrizzlePersonaRepository.versioned rt)
      KeepsPersona where
  first persona h := by
    obtain ⟨hmodel, hid, -, -, -, -, hmodel', hversion⟩ := Persona.create_ok h
    exact ⟨hid, hversion, persona_readable (hmodel' ▸ hmodel)⟩
  revise base persona h := by
    obtain ⟨props, hcreate, hchanged⟩ := Persona.revise_ok h
    obtain ⟨hmodel, hid, -, -, -, -, hmodel', hversion⟩ := Persona.create_ok hcreate
    refine ⟨hid.trans hchanged.personaId, hversion.trans ?_, persona_readable (hmodel' ▸ hmodel)⟩
    rw [hchanged.version]
    rfl

namespace DrizzlePolicyRepository

/-- The insert of `saveVersion`, `toPolicy`, and the error. -/
def versioned (rt : Runtime) : Versioned PolicyDefinition (List ActionDefinition) where
  id := PolicyDefinition.policyId
  version := PolicyDefinition.version
  write policy := Column.elements writeAction policy.actions
  rehydrate policyId version actions := PolicyDefinition.create rt
    { policyId, actions, version := some version }
  conflict := .policyVersionConflict

def saveVersion (rt : Runtime) (policy : PolicyDefinition) :
    VersionProg (List ActionDefinition) Unit :=
  (versioned rt).saveVersion policy

def findLatest (rt : Runtime) (policyId : JsString) :
    VersionProg (List ActionDefinition) (Option PolicyDefinition) :=
  (versioned rt).findLatest policyId

end DrizzlePolicyRepository

/-- What a writer of policies creates where there is none, and how it revises the latest one. -/
structure PolicyWriter where
  props : PolicyDefinitionProps
  changes : PolicyDefinition → PolicyRevision

namespace PolicyWriter

def program (rt : Runtime) (w : PolicyWriter) : VersionProg (List ActionDefinition) Unit := do
  let latest ← DrizzlePolicyRepository.findLatest rt w.props.policyId
  let next ← .ofExcept (latest.elim (PolicyDefinition.create rt { w.props with version := none })
    fun policy => policy.revise rt (w.changes policy))
  DrizzlePolicyRepository.saveVersion rt next

def writer (rt : Runtime) (w : PolicyWriter) : Writer PolicyDefinition where
  id := w.props.policyId
  first := PolicyDefinition.create rt { w.props with version := none }
  revise policy := policy.revise rt (w.changes policy)

/-- What the writer asks for, given the latest version of its id. -/
inductive Asks (rt : Runtime) (w : PolicyWriter) (id : JsString) :
    Option (Version (List ActionDefinition)) → PolicyDefinitionProps → Prop where
  | first : Asks rt w id none { w.props with version := none }
  | revise {version policy}
      (read : (DrizzlePolicyRepository.versioned rt).rehydrate id (ofInt version.number)
        version.content = .ok policy) :
      Asks rt w id (some version)
        ⟨policy.policyId, (w.changes policy).actions, some (policy.version + 1)⟩

end PolicyWriter

/-- The action as it is kept: in its consequence, the numbers are as JSON holds them. -/
structure ActionKept (action action' : ActionDefinition) : Prop where
  name : action'.name = action.name
  consequence : Column.optional Column.json action.consequence = .ok action'.consequence
  description : action'.description = action.description
  requiredRoles : action'.requiredRoles = action.requiredRoles
  requiredRelationship : action'.requiredRelationship = action.requiredRelationship

/-- The policy is the one of these arguments, as far as its columns keep it. -/
structure PolicyKept (props : PolicyDefinitionProps) (policy : PolicyDefinition) : Prop where
  policyId : Column.text props.policyId = .ok policy.policyId
  actions : List.Forall₂ ActionKept props.actions policy.actions
  version : policy.version = props.version.getD 1

/-- The policy that is read is the one that was saved, as far as its columns keep it. -/
abbrev KeepsPolicy (policy policy' : PolicyDefinition) : Prop := PolicyKept policy.toJSON policy'

lemma optional_jsonString_eq {o o' : Option JsString}
    (h : Column.optional Column.jsonString o = .ok o') : o' = o := by
  cases o with
  | none =>
    cases h
    rfl
  | some s =>
    obtain ⟨s', hs, rfl⟩ := map_eq_ok.mp h
    rw [(Column.jsonString_eq_ok_iff.mp hs).1]

/-- An action that is written is kept. -/
lemma actionKept_of_write {action action' : ActionDefinition}
    (h : writeAction action = .ok action') : ActionKept action action' := by
  simp only [writeAction, bind_eq_ok] at h
  obtain ⟨name, hname, consequence, hconsequence, description, hdescription, roles, hroles,
    relationship, hrelationship, h⟩ := h
  cases h
  refine ⟨(Column.jsonString_eq_ok_iff.mp hname).1, hconsequence,
    optional_jsonString_eq hdescription, ?_, optional_jsonString_eq hrelationship⟩
  cases hsome : action.requiredRoles with
  | none =>
    rw [hsome] at hroles
    cases hroles
    rfl
  | some given =>
    rw [hsome] at hroles
    obtain ⟨written, hwritten, rfl⟩ := map_eq_ok.mp hroles
    exact congrArg some (elements_jsonString_eq_ok_iff.mp hwritten).1

/-- What was written of a policy can be read again, and is what was written. -/
lemma policy_readable {policy : PolicyDefinition} :
    Readable (DrizzlePolicyRepository.versioned rt)
      KeepsPolicy policy := by
  rintro id ⟨n, actions⟩ hid hwrite hpos hlt hversion
  refine ⟨hversion, hwrite, ?_⟩
  simp only [DrizzlePolicyRepository.versioned] at hid hwrite hversion ⊢
  refine ⟨_, PolicyDefinition.create_of_valid rt ⟨id, actions, some (ofInt n)⟩
    (Column.visible_of_text hid policy.policyId_visible)
    (RoundTrip.names_of_write hwrite ▸ policy.names_nodup)
    (by rw [Option.getD_some, ← hversion]; exact policy.version_integer)
    (not_ofInt_lt_one hpos hlt), hid, ?_, hversion.symm⟩
  exact (Column.forall₂_of_elements hwrite).imp fun _ _ => actionKept_of_write

lemma PolicyWriter.lawful (w : PolicyWriter) :
    (w.writer rt).Lawful (DrizzlePolicyRepository.versioned rt)
      KeepsPolicy where
  first policy h := by
    obtain ⟨hid, -, hversion⟩ := PolicyDefinition.create_ok h
    exact ⟨hid, hversion, policy_readable⟩
  revise base policy h := by
    obtain ⟨hid, -, hversion⟩ := PolicyDefinition.create_ok h
    exact ⟨hid, hversion, policy_readable⟩

end WorkspaceOs
