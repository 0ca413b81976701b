import WorkspaceOs.Core.Member
import WorkspaceOs.Core.AgentCredential

/-!
# Issuing and verifying agent credentials

The random token and identifier of an issue are arguments here, and the digest of a token is any
function whose values are visible.
-/

namespace WorkspaceOs

open Js

structure IssueCredentialInput where
  agent : Member
  scopes : List JsString
  ttlMs : Float

structure IssuedCredential where
  credential : AgentCredential
  token : JsString

/-- What `node:crypto` supplies: the digest of `hashToken`, a random identifier and token. -/
structure CredentialCrypto where
  hashToken : JsString → JsString
  randomUUID : JsString
  token : JsString
  hashToken_visible : ∀ t, ¬ (hashToken t).IsBlank
  randomUUID_visible : ¬ randomUUID.IsBlank

namespace AgentCredentialService

variable (rt : Runtime) (crypto : CredentialCrypto)

def issue (input : IssueCredentialInput) (now : TimeValue) : Except Thrown IssuedCredential :=
  if input.agent.type ≠ .agent then .error (.notAnAgent input.agent.id)
  else do
    let credential ← AgentCredential.create rt
      { id := crypto.randomUUID, agentMemberId := input.agent.id,
        tokenHash := crypto.hashToken crypto.token, scopes := input.scopes, issuedAt := now,
        expiresAt := timeClip (now.toNumber + input.ttlMs) }
    return { credential, token := crypto.token }

def verify (token : JsString) (credential : AgentCredential) (requiredScopes : List JsString)
    (now : TimeValue) : Except Thrown Unit :=
  if !credential.matchesTokenHash (crypto.hashToken token) then
    .error (.credentialVerification .invalidToken)
  else if credential.isExpired now then .error (.credentialVerification .expired)
  else if !credential.hasAllScopes requiredScopes then
    .error (.credentialVerification .insufficientScope)
  else .ok ()

variable {rt crypto} {input : IssueCredentialInput} {now : TimeValue} {issued : IssuedCredential}

lemma issue_ok (h : issue rt crypto input now = .ok issued) :
    issued.token = crypto.token ∧
      issued.credential.tokenHash = crypto.hashToken crypto.token ∧
      issued.credential.scopes = newSet input.scopes ∧ issued.credential.issuedAt = now ∧
      issued.credential.expiresAt = timeClip (now.toNumber + input.ttlMs) := by
  simp only [issue] at h
  split_ifs at h
  obtain ⟨credential, hcreate, h⟩ := bind_eq_ok.mp h
  cases h
  exact ⟨rfl, AgentCredential.create_ok hcreate⟩

lemma verify_eq_ok_iff {token : JsString} {credential : AgentCredential} {scopes : List JsString} :
    verify crypto token credential scopes now = .ok () ↔
      credential.tokenHash = crypto.hashToken token ∧ now.ge credential.expiresAt = false ∧
        ∀ scope ∈ scopes, scope ∈ credential.scopes := by
  unfold verify AgentCredential.matchesTokenHash AgentCredential.isExpired
    AgentCredential.hasAllScopes
  split_ifs with htoken hexpired hscopes <;> simp_all

/-! ### Short-lived credentials -/

/-- The credential is refused from one hour after its issue on, and accepted only before its expiry
for scopes it was issued with. -/
def ShortLived (crypto : CredentialCrypto) (now : ℤ) (input : IssueCredentialInput)
    (issued : IssuedCredential) : Prop :=
  (∀ scopes (t : ℤ), t.natAbs ≤ maxTime → now + maxAgentCredentialTtlMs ≤ t →
    ∃ e, verify crypto issued.token issued.credential scopes (some t) = .error e) ∧
  ∀ scopes (t : ℤ), t.natAbs ≤ maxTime →
    verify crypto issued.token issued.credential scopes (some t) = .ok () →
    issued.credential.expiresAt.gt (some t) = true ∧ ∀ scope ∈ scopes, scope ∈ input.scopes

/-- A credential with a valid expiry is short-lived. -/
lemma shortLived_of_expiresAt {n expires : ℤ} (h : issue rt crypto input (some n) = .ok issued)
    (hexpires : issued.credential.expiresAt = some expires) : ShortLived crypto n input issued := by
  obtain ⟨-, -, hscopes, hissued, -⟩ := issue_ok h
  obtain ⟨-, hle⟩ := AgentCredential.expiresAt_le hissued hexpires
  refine ⟨fun scopes t _ ht => ?_, fun scopes t _ hok => ?_⟩
  · cases hverify : verify crypto issued.token issued.credential scopes (some t) with
    | error e => exact ⟨e, rfl⟩
    | ok =>
      have hfresh := (verify_eq_ok_iff.mp hverify).2.1
      simp only [hexpires, TimeValue.ge_some, decide_eq_false_iff_not] at hfresh
      omega
  · obtain ⟨-, hfresh, hall⟩ := verify_eq_ok_iff.mp hok
    simp only [hexpires, TimeValue.ge_some, decide_eq_false_iff_not] at hfresh
    refine ⟨by simp [hexpires]; omega, fun scope hmem => ?_⟩
    exact mem_newSet.mp (hscopes ▸ hall scope hmem)

/-- A credential without a valid expiry is accepted for ever. -/
lemma verify_of_expiresAt_none (h : issue rt crypto input now = .ok issued)
    (hexpires : issued.credential.expiresAt = none) (t : TimeValue) :
    verify crypto issued.token issued.credential [] t = .ok () := by
  obtain ⟨htoken, hhash, -⟩ := issue_ok h
  exact verify_eq_ok_iff.mpr ⟨by rw [hhash, htoken], by simp [hexpires], by simp⟩

/-- Credentials are short-lived exactly when the sum of the issue time and the lifetime, as the
numbers of the language add up, is the time of a date. -/
theorem shortLived_iff (rt : Runtime) (crypto : CredentialCrypto) (input : IssueCredentialInput)
    (n : ℤ) (hnow : n.natAbs ≤ maxTime) (hagent : input.agent.type = .agent) :
    (∀ issued, issue rt crypto input (some n) = .ok issued → ShortLived crypto n input issued) ↔
      timeClip (ofInt n + input.ttlMs) ≠ none := by
  constructor
  · intro hshort hclip
    have hissue : ∃ issued, issue rt crypto input (some n) = .ok issued := by
      obtain ⟨credential, hcreate⟩ := AgentCredential.create_of_expiresAt_none rt
        { id := crypto.randomUUID, agentMemberId := input.agent.id,
          tokenHash := crypto.hashToken crypto.token, scopes := input.scopes, issuedAt := some n,
          expiresAt := timeClip (ofInt n + input.ttlMs) }
        crypto.randomUUID_visible input.agent.id_visible (crypto.hashToken_visible _) hclip
      exact ⟨⟨credential, crypto.token⟩,
        by rw [issue, if_neg (by simp [hagent])]; exact bind_eq_ok.mpr ⟨_, hcreate, rfl⟩⟩
    obtain ⟨issued, hissue⟩ := hissue
    have hexpires : issued.credential.expiresAt = none := (issue_ok hissue).2.2.2.2.trans hclip
    have hok := verify_of_expiresAt_none hissue hexpires (some n)
    have hgt := ((hshort issued hissue).2 [] n hnow hok).1
    simp [hexpires] at hgt
  · intro hclip issued hissue
    obtain ⟨expires, hexpires⟩ := Option.ne_none_iff_exists'.mp
      ((issue_ok hissue).2.2.2.2 ▸ hclip : issued.credential.expiresAt ≠ none)
    exact shortLived_of_expiresAt hissue hexpires

/-- The digest of one token. -/
def someCrypto : CredentialCrypto where
  hashToken _ := "0f007385b6f9d4b7eeb2748605afe1a984a0a3bfa3f014d09e2a784ce9e5cd1a"
  randomUUID := "00000000-0000-4000-8000-000000000000"
  token := "AAAAAAAAAAAAAAAAAAAAAAAAAAAAAAAAAAAAAAAAAAA"
  hashToken_visible _ := by decide
  randomUUID_visible := by decide

theorem shortLived_iff_half_hour :
    (∀ issued, issue .ascii someCrypto ⟨.bot [], ["read"], 1800000⟩ (some 0) = .ok issued →
      ShortLived someCrypto 0 ⟨.bot [], ["read"], 1800000⟩ issued) ↔
      timeClip (ofInt 0 + 1800000) ≠ none :=
  shortLived_iff .ascii someCrypto ⟨.bot [], ["read"], 1800000⟩ 0 (by decide) rfl

/-- A lifetime without end is accepted, and the credential with it for ever. -/
theorem not_shortLived_infinity :
    ¬ ∀ issued, issue .ascii someCrypto ⟨.bot [], [], 1 / 0⟩ (some 0) = .ok issued →
      ShortLived someCrypto 0 ⟨.bot [], [], 1 / 0⟩ issued := by
  intro hshort
  have hissue : ∃ issued, issue .ascii someCrypto ⟨.bot [], [], 1 / 0⟩ (some 0) = .ok issued :=
    ⟨_, rfl⟩
  obtain ⟨issued, hissue⟩ := hissue
  have hexpires : issued.credential.expiresAt = none :=
    (issue_ok hissue).2.2.2.2.trans (by decide +kernel)
  obtain ⟨e, he⟩ := (hshort issued hissue).1 [] 3600000 (by decide) (by decide)
  rw [verify_of_expiresAt_none hissue hexpires] at he
  cases he

end AgentCredentialService

end WorkspaceOs
