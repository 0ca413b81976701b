import WorkspaceOs.Server.Http

/-!
# Signup

Local signup for human members: a member and a hashed credential, in two statements.
-/

namespace WorkspaceOs

open Js Effect

structure SignupInput where
  email : JsString
  password : JsString
  displayName : JsString

/-- A signup, for concrete runs. -/
def SignupInput.ada : SignupInput where
  email := "Ada@example.org "
  password := "p"
  displayName := "Ada"

namespace SignupService

def normalizeEmail (rt : Runtime) (email : JsString) : JsString := rt.toLowerCase email.trim

/-- The arguments of `Member.create` for a signup. -/
def memberProps (uuid email displayName : JsString) : MemberProps where
  id := "m_" ++ uuid
  type := some (.str "human")
  identityRef := "local|" ++ email
  displayName := displayName
  roles := []

def signup (rt : Runtime) (input : SignupInput) : ServerProg Member := do
  let email := normalizeEmail rt input.email
  if (← DrizzleHumanCredentialRepository.findByEmail email).isSome then
    throw (.emailAlreadyRegistered email)
  let uuid ← .perform ServerOp.randomUUID
  let member ← .ofExcept (Member.create rt (memberProps uuid email input.displayName))
  DrizzleMemberRepository.save member
  let passwordHash ← .perform (ServerOp.hashPassword input.password)
  DrizzleHumanCredentialRepository.save { memberId := member.id, email, passwordHash }
  return member

def authenticate (rt : Runtime) (email password : JsString) : ServerProg (Option Member) := do
  match ← DrizzleHumanCredentialRepository.findByEmail (normalizeEmail rt email) with
  | none => return none
  | some record =>
    if ← .perform (ServerOp.verifyPassword password record.passwordHash) then
      DrizzleMemberRepository.findById rt record.memberId
    else return none

section

variable {rt : Runtime} {uuid email displayName : JsString}

/-- The member of a signup. -/
lemma memberProps_ok {member : Member}
    (h : Member.create rt (memberProps uuid email displayName) = .ok member) :
    member.id = "m_" ++ uuid ∧ member.type = .human ∧ member.identityRef = "local|" ++ email ∧
      member.roles = [] ∧ ¬ displayName.IsBlank := by
  obtain ⟨hid, htype, href, hname, hroles⟩ := Member.create_ok h
  have hvisible := member.displayName_visible
  rw [hname] at hvisible
  exact ⟨hid, (Option.some.inj htype).symm, href, hroles, hvisible⟩

/-- A signup whose name can be read makes a member. -/
lemma memberProps_of_visible (hname : ¬ displayName.IsBlank) :
    ∃ member, Member.create rt (memberProps uuid email displayName) = .ok member := by
  have hid : ¬ JsString.IsBlank ("m_" ++ uuid) := JsString.not_isBlank_append_left (by decide)
  have href : ¬ JsString.IsBlank ("local|" ++ email) :=
    JsString.not_isBlank_append_left (by decide)
  exact Member.create_of_visible rt rfl hid href hname

/-- Nothing but the name of a signup is ever refused. -/
lemma memberProps_error {e : Thrown}
    (h : Member.create rt (memberProps uuid email displayName) = .error e) :
    displayName.IsBlank ∧ e ≠ .emailAlreadyRegistered email := by
  constructor
  · by_contra hname
    obtain ⟨member, hmember⟩ := memberProps_of_visible hname
    cases h.symm.trans hmember
  · rintro rfl
    rcases Member.create_error h with he | ⟨_, he⟩ <;> cases he

end

end SignupService

end WorkspaceOs
