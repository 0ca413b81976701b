import WorkspaceOs.Js.Json
import WorkspaceOs.Js.Number
import WorkspaceOs.Js.Collections
import WorkspaceOs.Core.Errors

/-!
# Agent credentials

Agents never hold a long-lived key: a credential expires, and one hour is the ceiling.
-/

namespace WorkspaceOs

open Js

/-- `MAX_AGENT_CREDENTIAL_TTL_MS`, one hour. -/
def maxAgentCredentialTtlMs : ℤ := 60 * 60 * 1000

structure AgentCredentialProps where
  id : JsString
  agentMemberId : JsString
  tokenHash : JsString
  scopes : List JsString
  issuedAt : TimeValue
  expiresAt : TimeValue

/-- An agent credential. `scopes` lists a `Set` in insertion order. -/
structure AgentCredential where
  id : JsString
  agentMemberId : JsString
  tokenHash : JsString
  scopes : List JsString
  issuedAt : TimeValue
  expiresAt : TimeValue
  id_visible : ¬ id.IsBlank
  agentMemberId_visible : ¬ agentMemberId.IsBlank
  tokenHash_visible : ¬ tokenHash.IsBlank
  ttl_positive : (expiresAt.sub issuedAt).le (some 0) = false
  ttl_capped : (expiresAt.sub issuedAt).gt (some maxAgentCredentialTtlMs) = false

namespace AgentCredential

/-- `requireNonBlank` of `agent-credential.ts`. -/
def requireNonBlank := WorkspaceOs.requireNonBlank .invalidAgentCredential

/-- `${ttl}`. -/
def ttlText (rt : Runtime) (ttl : TimeValue) : JsString := rt.numberToString ttl.toNumber

def create (rt : Runtime) (props : AgentCredentialProps) : Except Thrown AgentCredential := do
  let ⟨hid⟩ ← requireNonBlank "id" props.id
  let ⟨hagent⟩ ← requireNonBlank "agentMemberId" props.agentMemberId
  let ⟨hhash⟩ ← requireNonBlank "tokenHash" props.tokenHash
  let ttl := props.expiresAt.sub props.issuedAt
  if hpositive : ttl.le (some 0) then
    throw (.invalidAgentCredential "expiresAt must be after issuedAt")
  else if hcapped : ttl.gt (some maxAgentCredentialTtlMs) then
    throw (.invalidAgentCredential ("credential TTL " ++ ttlText rt ttl
      ++ "ms exceeds the maximum " ++ ttlText rt (some maxAgentCredentialTtlMs) ++ "ms"))
  else
    return { id := props.id, agentMemberId := props.agentMemberId, tokenHash := props.tokenHash,
             scopes := newSet props.scopes, issuedAt := props.issuedAt,
             expiresAt := props.expiresAt, id_visible := hid, agentMemberId_visible := hagent,
             tokenHash_visible := hhash, ttl_positive := by simpa using hpositive,
             ttl_capped := by simpa using hcapped }

variable (credential : AgentCredential)

def isExpired (now : TimeValue) : Bool := now.ge credential.expiresAt

def hasAllScopes (scopes : List JsString) : Bool := scopes.all credential.scopes.contains

def matchesTokenHash (tokenHash : JsString) : Bool := credential.tokenHash == tokenHash

variable {credential} {rt : Runtime} {props : AgentCredentialProps}

lemma create_ok (h : create rt props = .ok credential) :
    credential.tokenHash = props.tokenHash ∧ credential.scopes = newSet props.scopes ∧
      credential.issuedAt = props.issuedAt ∧ credential.expiresAt = props.expiresAt := by
  simp only [create, bind_eq_ok] at h
  obtain ⟨⟨hid⟩, -, ⟨hagent⟩, -, ⟨hhash⟩, -, h⟩ := h
  split_ifs at h
  cases h
  exact ⟨rfl, rfl, rfl, rfl⟩

/-- No comparison with NaN answers true, so an invalid expiry passes both checks. -/
lemma create_of_expiresAt_none (rt : Runtime) (props : AgentCredentialProps)
    (hid : ¬ props.id.IsBlank) (hagent : ¬ props.agentMemberId.IsBlank)
    (hhash : ¬ props.tokenHash.IsBlank) (hexpires : props.expiresAt = none) :
    ∃ credential, create rt props = .ok credential := by
  have hpositive : ¬ (props.expiresAt.sub props.issuedAt).le (some 0) = true := by simp [hexpires]
  have hcapped :
      ¬ (props.expiresAt.sub props.issuedAt).gt (some maxAgentCredentialTtlMs) = true := by
    simp [hexpires]
  simp only [create, requireNonBlank]
  rw [requireNonBlank_of_visible hid, requireNonBlank_of_visible hagent,
    requireNonBlank_of_visible hhash]
  exact ⟨_, (dif_neg hpositive).trans (dif_neg hcapped)⟩

/-- A credential whose two dates are valid expires within the hour. -/
lemma expiresAt_le {issued expires : ℤ} (hissued : credential.issuedAt = some issued)
    (hexpires : credential.expiresAt = some expires) :
    issued < expires ∧ expires ≤ issued + maxAgentCredentialTtlMs := by
  have hpositive := credential.ttl_positive
  have hcapped := credential.ttl_capped
  simp only [hissued, hexpires, TimeValue.sub_some, TimeValue.le_some, TimeValue.gt_some,
    decide_eq_false_iff_not] at hpositive hcapped
  omega

end AgentCredential

end WorkspaceOs
