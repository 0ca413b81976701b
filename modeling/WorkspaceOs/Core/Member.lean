import WorkspaceOs.Js.Json
import WorkspaceOs.Core.Errors

/-!
# Members

The single first-class principal: a human and an agent are the same kind of thing.
-/

namespace WorkspaceOs

open Js

inductive MemberType where
  | human
  | agent
deriving DecidableEq

def MemberType.name : MemberType → JsString
  | .human => "human"
  | .agent => "agent"

/-- `MEMBER_TYPES.includes(v)`, with the member type it recognises. -/
def MemberType.of? (v : Option Json) : Option MemberType :=
  match v with
  | some (.str s) => if s = "human" then some .human else if s = "agent" then some .agent else none
  | _ => none

abbrev Role := JsString

/-- The arguments of `Member.create`. The members route casts `type` and `roles` from a parsed body,
so what arrives is any value, respectively any list of values. -/
structure MemberProps where
  id : JsString
  type : Option Json
  identityRef : JsString
  displayName : JsString
  roles : List Json

/-- A member. `roles` lists a `Set` in insertion order. -/
structure Member where
  id : JsString
  type : MemberType
  identityRef : JsString
  displayName : JsString
  roles : List Json
  id_visible : ¬ id.IsBlank
  identityRef_visible : ¬ identityRef.IsBlank
  displayName_visible : ¬ displayName.IsBlank

namespace Member

/-- `requireNonBlank` of `member.ts`. -/
def requireNonBlank := WorkspaceOs.requireNonBlank .invalidMember

/-- Quoting a `type` that has no string form throws on its own. -/
def create (rt : Runtime) (props : MemberProps) : Except Thrown Member := do
  match MemberType.of? props.type with
  | none =>
    match Json.coerce rt.numberToString props.type with
    | none => .error .typeError
    | some text => .error (.invalidMember ("unknown member type: " ++ text))
  | some type =>
    let ⟨hid⟩ ← requireNonBlank "id" props.id
    let ⟨href⟩ ← requireNonBlank "identityRef" props.identityRef
    let ⟨hname⟩ ← requireNonBlank "displayName" props.displayName
    return { id := props.id, type, identityRef := props.identityRef,
             displayName := props.displayName, roles := Json.dedupe props.roles,
             id_visible := hid, identityRef_visible := href, displayName_visible := hname }

/-- `this._roles.has(role)`. -/
def hasRole (m : Member) (role : Role) : Bool := m.roles.any (·.isStr role)

def hasAnyRole (m : Member) (roles : List Role) : Bool := roles.any m.hasRole

/-- `new Member({ ...this.toJSON(), roles: [...this._roles, role] })`, where it has not got the
role. -/
def withRole (m : Member) (role : Role) : Member :=
  if m.hasRole role then m
  else { m with roles := Json.dedupe (m.roles ++ [.str role]) }

/-- `member.withRole(role)`, one role after another. -/
def withRoles (m : Member) (roles : List Role) : Member := roles.foldl withRole m

@[simp] lemma hasRole_iff {m : Member} {role : Role} :
    m.hasRole role = true ↔ .str role ∈ m.roles := by
  simp only [hasRole, List.any_eq_true, Json.isStr_iff, exists_eq_right]

lemma hasAnyRole_iff {m : Member} {roles : List Role} :
    m.hasAnyRole roles = true ↔ ∃ role ∈ roles, m.hasRole role = true := by
  simp only [hasAnyRole, List.any_eq_true]

/-- A grant adds the role that it names, and takes none away. -/
lemma hasRole_withRole {m : Member} {role role' : Role} :
    (m.withRole role).hasRole role' = true ↔ m.hasRole role' = true ∨ role' = role := by
  simp only [withRole]
  split_ifs with h
  · constructor
    · exact .inl
    · rintro (h' | rfl)
      · exact h'
      · exact h
  · simp only [hasRole_iff, Json.str_mem_dedupe, List.mem_append, List.mem_singleton,
      Json.str.injEq]

lemma hasRole_withRoles {m : Member} {roles : List Role} {role : Role} (h : m.hasRole role = true) :
    (m.withRoles roles).hasRole role = true := by
  induction roles generalizing m with
  | nil => exact h
  | cons granted roles ih => exact ih (hasRole_withRole.mpr (.inl h))

/-- What `create` accepts, it keeps. -/
lemma create_ok {rt : Runtime} {props : MemberProps} {m : Member}
    (h : create rt props = .ok m) :
    m.id = props.id ∧ MemberType.of? props.type = some m.type ∧
      m.identityRef = props.identityRef ∧ m.displayName = props.displayName ∧
      m.roles = Json.dedupe props.roles := by
  simp only [create] at h
  split at h
  · split at h <;> cases h
  · rename_i type htype
    simp only [bind_eq_ok] at h
    obtain ⟨⟨hid⟩, -, ⟨href⟩, -, ⟨hname⟩, -, h⟩ := h
    cases h
    exact ⟨rfl, htype, rfl, rfl, rfl⟩

/-- Three visible strings and a type are enough. -/
lemma create_of_visible (rt : Runtime) {props : MemberProps} {type : MemberType}
    (htype : MemberType.of? props.type = some type) (hid : ¬ props.id.IsBlank)
    (href : ¬ props.identityRef.IsBlank) (hname : ¬ props.displayName.IsBlank) :
    ∃ m, create rt props = .ok m := by
  simp only [create, requireNonBlank]
  rw [htype]
  dsimp only
  rw [requireNonBlank_of_visible hid, requireNonBlank_of_visible href,
    requireNonBlank_of_visible hname]
  exact ⟨_, rfl⟩

/-- What `create` throws is an error of its own class, or of the language. -/
lemma create_error {rt : Runtime} {props : MemberProps} {e : Thrown}
    (h : create rt props = .error e) : e = .typeError ∨ ∃ message, e = .invalidMember message := by
  simp only [create] at h
  split at h
  · split at h <;> cases h
    · exact .inl rfl
    · exact .inr ⟨_, rfl⟩
  · simp only [bind_eq_error] at h
    rcases h with h | ⟨_, -, h | ⟨_, -, h | ⟨_, -, h⟩⟩⟩
    · exact .inr ⟨_, requireNonBlank_error h⟩
    · exact .inr ⟨_, requireNonBlank_error h⟩
    · exact .inr ⟨_, requireNonBlank_error h⟩
    · cases h

/-- An agent with the given roles, for concrete runs. -/
def bot (roles : List Role) : Member where
  id := "m_agent"
  type := .agent
  identityRef := "cred|a"
  displayName := "Bot"
  roles := roles.map .str
  id_visible := by decide
  identityRef_visible := by decide
  displayName_visible := by decide

end Member

end WorkspaceOs
