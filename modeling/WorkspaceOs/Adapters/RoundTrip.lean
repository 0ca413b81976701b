import WorkspaceOs.Adapters.Sending
import WorkspaceOs.Adapters.StoredVersions
import WorkspaceOs.Core.Persona
import WorkspaceOs.Governance.PolicyEngine

/-!
# Round trips

What `create` accepts is saved and read back, column by column. The checks of the domain let numbers
through that the columns do not hold.
-/

namespace WorkspaceOs

open Js Column

namespace RoundTrip

lemma elements_jsonString_eq_ok_iff {ss ts : List JsString} :
    elements jsonString ss = .ok ts ↔ ts = ss ∧ ∀ s ∈ ss, IsText s := by
  induction ss generalizing ts with
  | nil => simp [elements, eq_comm]
  | cons s ss ih =>
    rw [elements, List.forall_mem_cons]
    simp only [bind_eq_ok, jsonString_eq_ok_iff, ih]
    constructor
    · rintro ⟨_, ⟨rfl, hs⟩, _, ⟨rfl, hss⟩, h⟩
      cases h
      exact ⟨rfl, hs, hss⟩
    · rintro ⟨rfl, hs, hss⟩
      exact ⟨s, ⟨rfl, hs⟩, ss, ⟨rfl, hss⟩, rfl⟩

/-! ### Work items -/

section WorkItems

variable (rt : Runtime) (db : Db) (now timestamp : ℤ) (item : WorkItem)

/-- `save` of `DrizzleWorkItemRepository`. -/
def saveWorkItem : Except Thrown Db := do
  let sent ← Column.workItem item
  db.saveWorkItem now timestamp sent

/-- `findById` of `DrizzleWorkItemRepository`. -/
def findWorkItem (id : JsString) : Except Thrown (Option WorkItem) := do
  let id ← text id
  match db.workItems.find? id with
  | some row => return some (← Db.toWorkItem rt row)
  | none => return none

/-- The item is saved and read back as it was. -/
def KeepsWorkItem : Prop := ∃ db' item', saveWorkItem db now timestamp item = .ok db' ∧
  findWorkItem rt db' item.id = .ok (some item') ∧ item'.toJSON = item.toJSON

/-- The columns hold the item, and its assignee is a member that is stored. -/
structure WorkItemFits : Prop where
  id : IsText item.id
  title : IsText item.title
  description : ∀ s, item.description = some s → IsText s
  priority : IsInteger item.priority
  requiredRole : ∀ s, item.requiredRole = some s → IsText s
  assigneeMemberId : ∀ s, item.assigneeMemberId = some s → IsText s
  assignee : db.AssigneeStored item.assigneeMemberId

variable {rt db now timestamp item}

lemma WorkItemFits.fits (h : WorkItemFits db item) : Db.Fits item :=
  ⟨h.title, h.description, h.priority, h.requiredRole⟩

/-- An item that fits is saved as where its identifiers are kept as they are. -/
lemma saveWorkItem_of_fits (h : WorkItemFits db item) :
    saveWorkItem db now timestamp item = db.saveWorkItem now timestamp item := by
  have hsent : Column.workItem item = .ok item :=
    workItem_eq_ok_iff.mpr ⟨text_eq_ok_iff.mpr h.id, optional_text_eq_ok_iff.mpr h.assigneeMemberId,
      rfl, rfl, rfl, rfl, rfl⟩
  rw [saveWorkItem, hsent]
  rfl

lemma keepsWorkItem_of_fits (h : WorkItemFits db item) :
    KeepsWorkItem rt db now timestamp item := by
  obtain ⟨db', hsave⟩ := Db.exists_saveWorkItem h.fits h.assignee
  obtain ⟨row, hrow, rfl, holds⟩ := Db.saveWorkItem_ok hsave
  refine ⟨_, item, (saveWorkItem_of_fits h).trans hsave, ?_, rfl⟩
  have hfind : (db.setWorkItem row hrow).workItems.find? item.id = some row := by
    rw [← holds.id]
    exact Relational.Table.find?_set_self
  have hread : Db.toWorkItem rt row = .ok item :=
    Db.toWorkItem_eq_ok_iff.mpr (Db.standsFor_of_holds holds h.fits)
  simp only [findWorkItem]
  rw [text_eq_ok_iff.mpr h.id]
  simp only [bind_eq_ok]
  refine ⟨_, rfl, ?_⟩
  rw [hfind]
  exact bind_eq_ok.mpr ⟨item, hread, rfl⟩

lemma fits_of_keepsWorkItem (h : KeepsWorkItem rt db now timestamp item) :
    WorkItemFits db item := by
  obtain ⟨db', item', hsave, hfind, hjson⟩ := h
  obtain ⟨sent, hsent, hsave⟩ := bind_eq_ok.mp hsave
  obtain ⟨hid, hassignee, htitle, hdescription, -, hrole, -⟩ := workItem_eq_ok_iff.mp hsent
  obtain ⟨row, hstored, rfl, hholds⟩ := Db.saveWorkItem_ok hsave
  simp only [findWorkItem, bind_eq_ok] at hfind
  obtain ⟨id, hid', hfind⟩ := hfind
  rw [hid] at hid'
  rw [← Except.ok.inj hid', ← hholds.id] at hfind
  simp only [Db.setWorkItem] at hfind
  rw [Relational.Table.find?_set_self] at hfind
  obtain ⟨_, hread, hitem⟩ := bind_eq_ok.mp hfind
  cases hitem
  -- each column holds what was sent, and is read back as it was given
  have stands := Db.toWorkItem_eq_ok_iff.mp hread
  have hid_eq : sent.id = item.id :=
    (hholds.id.symm.trans stands.id.symm).trans (congrArg WorkItemProps.id hjson)
  have htitle_eq : row.title = item.title :=
    stands.title.symm.trans (congrArg WorkItemProps.title hjson)
  have hdescription_eq : row.description = item.description :=
    stands.description.symm.trans (congrArg WorkItemProps.description hjson)
  have hrole_eq : row.requiredRole = item.requiredRole :=
    stands.requiredRole.symm.trans (congrArg WorkItemProps.requiredRole hjson)
  have hassignee_eq : row.assigneeMemberId = item.assigneeMemberId :=
    stands.assigneeMemberId.symm.trans (congrArg WorkItemProps.assigneeMemberId hjson)
  exact
    { id := text_eq_ok_iff.mp (hid_eq ▸ hid)
      title := htitle_eq ▸ row.title_text
      description := hdescription_eq ▸ row.description_text
      priority := ⟨row.priority, row.priority_int32,
        (congrArg WorkItemProps.priority hjson).symm.trans stands.priority⟩
      requiredRole := hrole_eq ▸ row.requiredRole_text
      assigneeMemberId := optional_text_eq_ok_iff.mp
        (by rwa [← hholds.assigneeMemberId, hassignee_eq] at hassignee)
      assignee := hassignee_eq ▸ hstored }

/-- A work item is kept if and only if it fits. -/
lemma keepsWorkItem_iff : KeepsWorkItem rt db now timestamp item ↔ WorkItemFits db item :=
  ⟨fits_of_keepsWorkItem, keepsWorkItem_of_fits⟩

end WorkItems

/-! ### Personas -/

/-- A model as JSON keeps it: a number can be `null`. -/
structure StoredModel where
  modelId : JsString
  temperature : Option (Option Float)
  maxTokens : Option (Option Float)

/-- The model with a number in the place of `null`. -/
def StoredModel.filled (model : StoredModel) (x : Float) : PersonaModelConfig where
  modelId := model.modelId
  temperature := model.temperature.map (Option.getD · x)
  maxTokens := model.maxTokens.map (Option.getD · x)

/-- The model as its checks see it. They compare `null` as `0`; where they refuse it, only the text
of the error differs. -/
def StoredModel.counted (model : StoredModel) : PersonaModelConfig := model.filled 0

/-- The columns of `persona_versions` besides its key. -/
structure StoredPersona where
  name : JsString
  role : Role
  systemPrompt : JsString
  allowedTools : List JsString
  model : StoredModel

/-- `toJSON()` of a persona, with the model as it was given. -/
structure PersonaRecord extends StoredPersona where
  personaId : JsString
  version : Float

/-- `toJSON()` of a persona that was made of this model. -/
def personaRecord (persona : Persona) (model : StoredModel) : PersonaRecord where
  personaId := persona.personaId
  name := persona.name
  role := persona.role
  systemPrompt := persona.systemPrompt
  allowedTools := persona.allowedTools
  model := model
  version := persona.version

/-- A model without `null`. -/
def givenModel (model : PersonaModelConfig) : StoredModel where
  modelId := model.modelId
  temperature := model.temperature.map some
  maxTokens := model.maxTokens.map some

def writeModel (model : PersonaModelConfig) : Except Thrown StoredModel := do
  let modelId ← jsonString model.modelId
  return { modelId, temperature := model.temperature.map jsonNumber,
           maxTokens := model.maxTokens.map jsonNumber }

def writePersona (persona : Persona) : Except Thrown StoredPersona := do
  let name ← text persona.name
  let role ← text persona.role
  let systemPrompt ← text persona.systemPrompt
  let allowedTools ← elements jsonString persona.allowedTools
  let model ← writeModel persona.model
  return { name, role, systemPrompt, allowedTools, model }

/-- `toPersona`, and `toJSON` of the persona. -/
def readPersona (rt : Runtime) (personaId : JsString) (version : Float) (row : StoredPersona) :
    Except Thrown PersonaRecord := do
  let persona ← Persona.create rt
    { personaId, name := row.name, role := row.role, systemPrompt := row.systemPrompt,
      allowedTools := row.allowedTools, model := row.model.counted, version := some version }
  return personaRecord persona row.model

variable {rt : Runtime}

lemma readPersona_eq_ok {personaId : JsString} {version : Float} {row : StoredPersona}
    {record : PersonaRecord} (h : readPersona rt personaId version row = .ok record) :
    record = { row with personaId, version, allowedTools := newSet row.allowedTools } := by
  obtain ⟨persona, hcreate, h⟩ := bind_eq_ok.mp h
  obtain ⟨-, hid, hname, hrole, hprompt, htools, -, hversion⟩ := Persona.create_ok hcreate
  cases h
  simp only [personaRecord, hid, hname, hrole, hprompt, htools, hversion, Option.getD_some]

/-- How `DrizzlePersonaRepository` stores personas. -/
def personas (rt : Runtime) : Stored Persona StoredPersona PersonaRecord where
  id := Persona.personaId
  version := Persona.version
  record persona := personaRecord persona (givenModel persona.model)
  write := writePersona
  read := readPersona rt
  conflict := .personaVersionConflict
  read_record h := by
    have heq := readPersona_eq_ok h
    exact ⟨(congrArg PersonaRecord.personaId heq).symm, (congrArg PersonaRecord.version heq).symm⟩

/-- The columns hold the persona. Its number of tokens is one that they hold. -/
structure PersonaFits (persona : Persona) : Prop where
  personaId : IsText persona.personaId
  name : IsText persona.name
  role : IsText persona.role
  systemPrompt : IsText persona.systemPrompt
  allowedTools : ∀ tool ∈ persona.allowedTools, IsText tool
  modelId : IsText persona.model.modelId
  temperature : ∀ x, persona.model.temperature = some x → IsJsonNumber x
  version : IsInteger persona.version

lemma map_jsonNumber_eq_iff {o : Option Float} :
    o.map jsonNumber = o.map some ↔ ∀ x, o = some x → IsJsonNumber x := by
  cases o with
  | none => simp
  | some x => simp [jsonNumber_eq_some_iff]

lemma writeModel_eq_ok_iff {model : PersonaModelConfig} {stored : StoredModel} :
    writeModel model = .ok stored ↔ IsText model.modelId ∧
      stored = { modelId := model.modelId, temperature := model.temperature.map jsonNumber,
                 maxTokens := model.maxTokens.map jsonNumber } := by
  simp only [writeModel, bind_eq_ok, jsonString_eq_ok_iff]
  constructor
  · rintro ⟨_, ⟨rfl, hid⟩, h⟩
    cases h
    exact ⟨hid, rfl⟩
  · rintro ⟨hid, rfl⟩
    exact ⟨_, ⟨rfl, hid⟩, rfl⟩

/-- What `create` accepts has a number of tokens that JSON holds. -/
lemma maxTokens_isJsonNumber {model : PersonaModelConfig}
    (h : Persona.validateModel rt model = .ok ()) :
    ∀ x, model.maxTokens = some x → IsJsonNumber x := by
  intro x hx
  have hchecks := (Persona.validateModel_ok_iff.mp h).2.2 x hx
  simp only [Bool.not_eq_eq_eq_not, Bool.not_true, not_or, Bool.not_eq_false] at hchecks
  exact isJsonNumber_of_isInteger hchecks.1 hchecks.2

/-- A model that was written passes its checks again, with any number that they let pass. -/
lemma validateModel_filled {model : PersonaModelConfig} {stored : StoredModel} {x : Float}
    (hwrite : writeModel model = .ok stored) (h : Persona.validateModel rt model = .ok ())
    (hx : ¬ (x < 0 ∨ x > 2)) : Persona.validateModel rt (stored.filled x) = .ok () := by
  obtain ⟨-, rfl⟩ := writeModel_eq_ok_iff.mp hwrite
  obtain ⟨hid, htemperature, htokens⟩ := Persona.validateModel_ok_iff.mp h
  refine Persona.validateModel_ok_iff.mpr ⟨hid, ?_, ?_⟩
  · intro y hy
    obtain ⟨_, hy', rfl⟩ := Option.map_eq_some_iff.mp hy
    obtain ⟨temperature, hsome, rfl⟩ := Option.map_eq_some_iff.mp hy'
    rw [jsonNumber]
    split_ifs
    · show ¬ ((0 : Float) < 0 ∨ (0 : Float) > 2)
      decide +kernel
    · exact htemperature temperature hsome
    · exact hx
  · intro y hy
    obtain ⟨_, hy', rfl⟩ := Option.map_eq_some_iff.mp hy
    obtain ⟨tokens, hsome, rfl⟩ := Option.map_eq_some_iff.mp hy'
    rw [jsonNumber_eq_some_iff.mpr (maxTokens_isJsonNumber h tokens hsome)]
    exact htokens tokens hsome

lemma personaFits_of_versionFits {persona : Persona} (h : VersionFits (personas rt) persona) :
    PersonaFits persona := by
  obtain ⟨row, hwrite, hread⟩ := h.columns
  simp only [personas, writePersona, bind_eq_ok] at hwrite
  obtain ⟨name, hname, role, hrole, prompt, hprompt, tools, htools, model, hmodel, hrow⟩ := hwrite
  cases hrow
  have heq := readPersona_eq_ok hread
  have hname_eq : name = persona.name := (congrArg (·.name) heq).symm
  have hrole_eq : role = persona.role := (congrArg (·.role) heq).symm
  have hprompt_eq : prompt = persona.systemPrompt := (congrArg (·.systemPrompt) heq).symm
  have hmodel_eq : model = givenModel persona.model := (congrArg (·.model) heq).symm
  subst hname_eq hrole_eq hprompt_eq hmodel_eq
  obtain ⟨hid, hwritten⟩ := writeModel_eq_ok_iff.mp hmodel
  exact
    { personaId := h.id
      name := text_eq_ok_iff.mp hname
      role := text_eq_ok_iff.mp hrole
      systemPrompt := text_eq_ok_iff.mp hprompt
      allowedTools := (elements_jsonString_eq_ok_iff.mp htools).2
      modelId := hid
      temperature := map_jsonNumber_eq_iff.mp (congrArg StoredModel.temperature hwritten).symm
      version := h.version }

lemma counted_givenModel (model : PersonaModelConfig) : (givenModel model).counted = model := by
  obtain ⟨_, _ | _, _ | _⟩ := model <;> rfl

/-- A persona that fits is written as it is. -/
lemma writePersona_of_fits {persona : Persona}
    (hmodel : Persona.validateModel rt persona.model = .ok ()) (h : PersonaFits persona) :
    writePersona persona = .ok ⟨persona.name, persona.role, persona.systemPrompt,
      persona.allowedTools, givenModel persona.model⟩ := by
  have hwritten : writeModel persona.model = .ok (givenModel persona.model) := by
    refine writeModel_eq_ok_iff.mpr ⟨h.modelId, ?_⟩
    rw [map_jsonNumber_eq_iff.mpr h.temperature,
      map_jsonNumber_eq_iff.mpr (maxTokens_isJsonNumber hmodel)]
    rfl
  simp only [writePersona, bind_eq_ok]
  exact ⟨_, text_eq_ok_iff.mpr h.name, _, text_eq_ok_iff.mpr h.role, _,
    text_eq_ok_iff.mpr h.systemPrompt, _,
    elements_jsonString_eq_ok_iff.mpr ⟨rfl, h.allowedTools⟩, _, hwritten, rfl⟩

lemma versionFits_of_personaFits {props : PersonaProps} {persona : Persona}
    (hcreate : Persona.create rt props = .ok persona) (h : PersonaFits persona) :
    VersionFits (personas rt) persona := by
  obtain ⟨hmodel, -, -, -, -, htools, hmodel_eq, -⟩ := Persona.create_ok hcreate
  rw [← hmodel_eq] at hmodel
  have hset : newSet persona.allowedTools = persona.allowedTools := by rw [htools, newSet_newSet]
  refine ⟨h.personaId, h.version, _, writePersona_of_fits hmodel h, ?_⟩
  obtain ⟨persona', hpersona⟩ := @Persona.exists_create rt
    ⟨persona.personaId, persona.name, persona.role, persona.systemPrompt, persona.allowedTools,
      persona.model, some persona.version⟩
    persona.personaId_visible persona.name_visible persona.role_visible
    persona.systemPrompt_visible hmodel persona.version_integer (Persona.create_version hcreate)
  have hread : readPersona rt persona.personaId persona.version ⟨persona.name, persona.role,
      persona.systemPrompt, persona.allowedTools, givenModel persona.model⟩ =
      .ok (personaRecord persona' (givenModel persona.model)) := by
    refine bind_eq_ok.mpr ⟨persona', ?_, rfl⟩
    rw [counted_givenModel]
    exact hpersona
  have heq := readPersona_eq_ok hread
  rw [hset] at heq
  exact hread.trans (congrArg _ heq)

/-! ### Policies -/

def writeAction (action : ActionDefinition) : Except Thrown ActionDefinition := do
  let name ← jsonString action.name
  let consequence ← optional json action.consequence
  let description ← optional jsonString action.description
  let requiredRoles ← optional (elements jsonString) action.requiredRoles
  let requiredRelationship ← optional jsonString action.requiredRelationship
  return { name, consequence, description, requiredRoles, requiredRelationship }

/-- `toPolicy`, and `toJSON` of the policy. -/
def readPolicy (rt : Runtime) (policyId : JsString) (version : Float)
    (actions : List ActionDefinition) : Except Thrown PolicyDefinitionProps := do
  let policy ← PolicyDefinition.create rt { policyId, actions, version := some version }
  return policy.toJSON

lemma readPolicy_eq_ok {policyId : JsString} {version : Float} {actions : List ActionDefinition}
    {record : PolicyDefinitionProps} (h : readPolicy rt policyId version actions = .ok record) :
    record = ⟨policyId, actions, some version⟩ := by
  obtain ⟨policy, hcreate, h⟩ := bind_eq_ok.mp h
  obtain ⟨hid, hactions, hversion⟩ := PolicyDefinition.create_ok hcreate
  cases h
  simp only [PolicyDefinition.toJSON, hid, hactions, hversion, Option.getD_some]

/-- How `DrizzlePolicyRepository` stores policies. -/
def policies (rt : Runtime) :
    Stored PolicyDefinition (List ActionDefinition) PolicyDefinitionProps where
  id := PolicyDefinition.policyId
  version := PolicyDefinition.version
  record := PolicyDefinition.toJSON
  write policy := elements writeAction policy.actions
  read := readPolicy rt
  conflict := .policyVersionConflict
  read_record h := by
    have heq := readPolicy_eq_ok h
    exact ⟨(congrArg PolicyDefinitionProps.policyId heq).symm,
      Option.some.inj (congrArg PolicyDefinitionProps.version heq).symm⟩

/-- JSON holds the action. -/
structure ActionFits (action : ActionDefinition) : Prop where
  name : IsText action.name
  consequence : ∀ v, action.consequence = some v → IsJson v
  description : ∀ s, action.description = some s → IsText s
  requiredRoles : ∀ roles, action.requiredRoles = some roles → ∀ role ∈ roles, IsText role
  requiredRelationship : ∀ s, action.requiredRelationship = some s → IsText s

/-- The columns hold the policy. -/
structure PolicyFits (policy : PolicyDefinition) : Prop where
  policyId : IsText policy.policyId
  actions : ∀ action ∈ policy.actions, ActionFits action
  version : IsInteger policy.version

lemma jsonString_self_iff {s : JsString} : jsonString s = .ok s ↔ IsText s := by
  simp [jsonString_eq_ok_iff]

lemma writeAction_eq_ok_iff {action : ActionDefinition} :
    writeAction action = .ok action ↔ ActionFits action := by
  simp only [writeAction, bind_eq_ok]
  constructor
  · rintro ⟨name, hname, consequence, hconsequence, description, hdescription, roles, hroles,
      relationship, hrelationship, h⟩
    cases h
    exact
      { name := jsonString_self_iff.mp hname
        consequence := fun v hv => (json_eq_ok_iff v).mp (optional_eq_ok_iff.mp hconsequence v hv)
        description := fun s hs => jsonString_self_iff.mp (optional_eq_ok_iff.mp hdescription s hs)
        requiredRoles := fun roles hr =>
          (elements_jsonString_eq_ok_iff.mp (optional_eq_ok_iff.mp hroles roles hr)).2
        requiredRelationship := fun s hs =>
          jsonString_self_iff.mp (optional_eq_ok_iff.mp hrelationship s hs) }
  · intro h
    exact ⟨_, jsonString_self_iff.mpr h.name,
      _, optional_eq_ok_iff.mpr fun v hv => (json_eq_ok_iff v).mpr (h.consequence v hv),
      _, optional_eq_ok_iff.mpr fun s hs => jsonString_self_iff.mpr (h.description s hs),
      _, optional_eq_ok_iff.mpr fun roles hr =>
        elements_jsonString_eq_ok_iff.mpr ⟨rfl, h.requiredRoles roles hr⟩,
      _, optional_eq_ok_iff.mpr fun s hs => jsonString_self_iff.mpr (h.requiredRelationship s hs),
      rfl⟩

/-- The names of the actions are written as they are. -/
lemma names_of_write {actions written : List ActionDefinition}
    (h : elements writeAction actions = .ok written) :
    written.map ActionDefinition.name = actions.map ActionDefinition.name := by
  induction actions generalizing written with
  | nil =>
    cases h
    rfl
  | cons action actions ih =>
    simp only [elements, bind_eq_ok] at h
    obtain ⟨first, hfirst, rest, hrest, h⟩ := h
    cases h
    simp only [writeAction, bind_eq_ok] at hfirst
    obtain ⟨name, hname, _, -, _, -, _, -, _, -, h⟩ := hfirst
    cases h
    rw [List.map_cons, List.map_cons, ih hrest, (jsonString_eq_ok_iff.mp hname).1]

lemma policyFits_of_versionFits {policy : PolicyDefinition}
    (h : VersionFits (policies rt) policy) : PolicyFits policy := by
  obtain ⟨actions, hwrite, hread⟩ := h.columns
  have hactions : actions = policy.actions :=
    (congrArg PolicyDefinitionProps.actions (readPolicy_eq_ok hread)).symm
  subst hactions
  refine ⟨h.id, fun action haction => ?_, h.version⟩
  exact writeAction_eq_ok_iff.mp (elements_eq_ok_iff.mp hwrite action haction)

lemma versionFits_of_policyFits {props : PolicyDefinitionProps} {policy : PolicyDefinition}
    (hcreate : PolicyDefinition.create rt props = .ok policy) (h : PolicyFits policy) :
    VersionFits (policies rt) policy := by
  refine ⟨h.policyId, h.version, policy.actions, ?_, ?_⟩
  · exact elements_eq_ok_iff.mpr fun action haction =>
      writeAction_eq_ok_iff.mpr (h.actions action haction)
  · obtain ⟨policy', hpolicy⟩ := @PolicyDefinition.exists_create rt policy policy.version
      policy.version_integer (PolicyDefinition.create_version hcreate)
    have hread : readPolicy rt policy.policyId policy.version policy.actions = .ok policy'.toJSON :=
      bind_eq_ok.mpr ⟨policy', hpolicy, rfl⟩
    exact hread.trans (congrArg _ (readPolicy_eq_ok hread))

/-! ### What is kept -/

lemma free_empty {E C R : Type} {S : Stored E C R} {e : E} : Free S ∅ e := fun _ _ => rfl

/-- What `create` accepts is saved and read back as it was exactly when its columns hold it. -/
theorem accepted_kept_iff (rt : Runtime) :
    (∀ db now timestamp props item, WorkItem.create rt props = .ok item →
      (KeepsWorkItem rt db now timestamp item ↔ WorkItemFits db item)) ∧
    (∀ t now props persona, Persona.create rt props = .ok persona →
      Free (personas rt) t persona →
        (KeepsVersion (personas rt) t now persona ↔ PersonaFits persona)) ∧
    ∀ t now props policy, PolicyDefinition.create rt props = .ok policy →
      Free (policies rt) t policy →
        (KeepsVersion (policies rt) t now policy ↔ PolicyFits policy) := by
  refine ⟨fun _ _ _ _ _ _ => keepsWorkItem_iff, ?_, ?_⟩
  · intro t now props persona hcreate hfree
    rw [keepsVersion_iff hfree]
    exact ⟨personaFits_of_versionFits, versionFits_of_personaFits hcreate⟩
  · intro t now props policy hcreate hfree
    rw [keepsVersion_iff hfree]
    exact ⟨policyFits_of_versionFits, versionFits_of_policyFits hcreate⟩

/-! A work item, a persona and a policy that fit, and a work item and a persona that do not. -/

/-- A work item of this priority. -/
def shipping (priority : Float) : WorkItemProps where
  id := "w"
  title := "Ship"
  priority := priority

/-- A persona of this temperature. -/
def tempered (temperature : Float) : PersonaProps :=
  { Persona.analyst.toJSON with model := { modelId := "m", temperature := some temperature } }

/-- A policy with one action. -/
def wiring : PolicyDefinitionProps where
  policyId := "p"
  actions := [{ name := "wire", consequence := some (.str "irreversible") }]

lemma create_shipping {priority : Float} (h : isInteger priority) :
    ∃ item, WorkItem.create .ascii (shipping priority) = .ok item :=
  ⟨_, WorkItem.create_of_visible .ascii (shipping priority)
    (show ¬ JsString.IsBlank "w" by decide) (show ¬ JsString.IsBlank "Ship" by decide) h⟩

lemma create_tempered {temperature : Float} (h : ¬ (temperature < 0 ∨ temperature > 2)) :
    ∃ persona, Persona.create .ascii (tempered temperature) = .ok persona := by
  refine Persona.exists_create Persona.analyst.personaId_visible Persona.analyst.name_visible
    Persona.analyst.role_visible Persona.analyst.systemPrompt_visible ?_ isInteger_one
    (show ¬ (1 : Float) < 1 by decide +kernel)
  refine Persona.validateModel_ok_iff.mpr ⟨show ¬ JsString.IsBlank "m" by decide, ?_, ?_⟩
  · rintro _ ⟨⟩
    exact h
  · rintro _ ⟨⟩

/-- A priority that an `integer` column does not hold, and a temperature that JSON does not hold. -/
theorem accepted_not_kept :
    (∃ item, WorkItem.create .ascii (shipping 2147483648) = .ok item ∧
      ¬ KeepsWorkItem .ascii Db.empty 0 0 item) ∧
    ∃ persona, Persona.create .ascii (tempered (0 / 0)) = .ok persona ∧
      ¬ KeepsVersion (personas .ascii) ∅ 0 persona := by
  constructor
  · obtain ⟨item, hcreate⟩ := create_shipping (show isInteger 2147483648 by decide +kernel)
    refine ⟨item, hcreate, fun hkeeps => ?_⟩
    obtain ⟨n, hint32, hn⟩ := (keepsWorkItem_iff.mp hkeeps).priority
    obtain ⟨-, -, hpriority, -⟩ := WorkItem.create_ok hcreate
    have hvalue : integer? 2147483648 = some n := by
      rw [← integer?_ofInt hint32.natAbs_lt, ← hn, hpriority]
      rfl
    have hlarge : integer? 2147483648 = some 2147483648 := by decide +kernel
    obtain rfl : 2147483648 = n := Option.some.inj (hlarge.symm.trans hvalue)
    exact absurd hint32 (by decide)
  · obtain ⟨persona, hcreate⟩ := @create_tempered (0 / 0) (by decide +kernel)
    refine ⟨persona, hcreate, fun hkeeps => ?_⟩
    have hfits := personaFits_of_versionFits (fits_of_keepsVersion hkeeps)
    obtain ⟨-, -, -, -, -, -, hmodel, -⟩ := Persona.create_ok hcreate
    have hfinite := (hfits.temperature (0 / 0) (by rw [hmodel]; rfl)).1
    exact absurd hfinite (by decide +kernel)

lemma isInteger_column_one : IsInteger 1 := ⟨1, by decide, ofInt_one.symm⟩

lemma fits_shipping {item : WorkItem} (h : WorkItem.create .ascii (shipping 1) = .ok item) :
    WorkItemFits Db.empty item := by
  obtain ⟨hid, htitle, hpriority, hdescription, hrole, -, hassignee⟩ := WorkItem.create_ok h
  exact
    { id := by rw [hid]; exact .of_all rfl
      title := by rw [htitle]; exact .of_all rfl
      description := by rw [hdescription]; rintro _ ⟨⟩
      priority := by rw [hpriority]; exact isInteger_column_one
      requiredRole := by rw [hrole]; rintro _ ⟨⟩
      assigneeMemberId := by rw [hassignee]; rintro _ ⟨⟩
      assignee := by rw [hassignee]; rintro _ ⟨⟩ }

lemma fits_tempered {persona : Persona} (h : Persona.create .ascii (tempered 1) = .ok persona) :
    PersonaFits persona := by
  obtain ⟨-, hid, hname, hrole, hprompt, htools, hmodel, hversion⟩ := Persona.create_ok h
  exact
    { personaId := by rw [hid]; exact .of_all rfl
      name := by rw [hname]; exact .of_all rfl
      role := by rw [hrole]; exact .of_all rfl
      systemPrompt := by rw [hprompt]; exact .of_all rfl
      allowedTools := by
        intro tool htool
        rw [htools, mem_newSet] at htool
        obtain rfl : tool = "search" := List.mem_singleton.mp htool
        exact .of_all rfl
      modelId := by rw [hmodel]; exact .of_all rfl
      temperature := by
        rw [hmodel]
        rintro _ ⟨⟩
        exact isJsonNumber_of_isInteger isInteger_one (by decide +kernel)
      version := by rw [hversion]; exact isInteger_column_one }

lemma fits_wiring {policy : PolicyDefinition}
    (h : PolicyDefinition.create .ascii wiring = .ok policy) : PolicyFits policy := by
  obtain ⟨hid, hactions, hversion⟩ := PolicyDefinition.create_ok h
  refine ⟨hid ▸ .of_all rfl, fun action haction => ?_, hversion ▸ isInteger_column_one⟩
  rw [hactions] at haction
  obtain rfl := List.mem_singleton.mp haction
  exact
    { name := .of_all rfl
      consequence := by
        rintro _ ⟨⟩
        exact .of_all rfl
      description := by rintro _ ⟨⟩
      requiredRoles := by rintro _ ⟨⟩
      requiredRelationship := by rintro _ ⟨⟩ }

theorem accepted_kept_iff_small :
    (∃ item, WorkItem.create .ascii (shipping 1) = .ok item ∧
      KeepsWorkItem .ascii Db.empty 0 0 item) ∧
    (∃ persona, Persona.create .ascii (tempered 1) = .ok persona ∧
      KeepsVersion (personas .ascii) ∅ 0 persona) ∧
    ∃ policy, PolicyDefinition.create .ascii wiring = .ok policy ∧
      KeepsVersion (policies .ascii) ∅ 0 policy := by
  obtain ⟨hitem, hpersona, hpolicy⟩ := accepted_kept_iff .ascii
  refine ⟨?_, ?_, ?_⟩
  · obtain ⟨item, hcreate⟩ := create_shipping isInteger_one
    exact ⟨item, hcreate, (hitem Db.empty 0 0 _ item hcreate).mpr (fits_shipping hcreate)⟩
  · obtain ⟨persona, hcreate⟩ := @create_tempered 1 (by decide +kernel)
    exact ⟨persona, hcreate,
      (hpersona ∅ 0 _ persona hcreate free_empty).mpr (fits_tempered hcreate)⟩
  · have hcreate := PolicyDefinition.create_of_valid .ascii wiring
      (show ¬ JsString.IsBlank "p" by decide) (List.nodup_singleton _) isInteger_one
      (show ¬ (1 : Float) < 1 by decide +kernel)
    exact ⟨_, hcreate, (hpolicy ∅ 0 _ _ hcreate free_empty).mpr (fits_wiring hcreate)⟩

end RoundTrip

end WorkspaceOs
