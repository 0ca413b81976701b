import WorkspaceOs.Effect.History
import WorkspaceOs.Server.Lasting

/-!
# What signups for one email preserve

The unique index on the identity of a member picks the one signup that goes on, before the index on
the email of a credential is asked. So what has been saved and inserted for the email can be read
off the history of a run.
-/

namespace WorkspaceOs

open Js Effect Relational

/-- The member that a label saved. -/
def saved? : ServerLabel → Option (ℕ × Member)
  | ⟨i, .membersSave member, .ok ()⟩ => some (i, member)
  | _ => none

/-- The credential that a label inserted. -/
def inserted? : ServerLabel → Option (ℕ × HumanCredentialRecord)
  | ⟨i, .credentialsInsert record, .ok ()⟩ => some (i, record)
  | _ => none

def saves (history : List ServerLabel) : List (ℕ × Member) := history.filterMap saved?

def inserts (history : List ServerLabel) : List (ℕ × HumanCredentialRecord) :=
  history.filterMap inserted?

/-- Program `i` found no credential for the email. -/
def FoundFree (email : JsString) (i : ℕ) (history : List ServerLabel) : Prop :=
  ⟨i, .credentialsFindByEmail email, .ok none⟩ ∈ history

/-- A lookup of the email finds a credential exactly when one has been inserted before. -/
def LookupSpec (email : JsString) (before : List ServerLabel) (l : ServerLabel) : Prop :=
  ∀ i found, l = ⟨i, .credentialsFindByEmail email, .ok found⟩ →
    (found = none ↔ inserts before = [])

/-- What a signup for the email keeps to: it saves a member of the email under an identifier of its
own after it found the email free, and inserts a credential for the only member that was saved. -/
def signupPre (email : JsString) (i : ℕ) (op : ServerOp) (s : RecordedWorld) : Prop :=
  match op with
  | .membersSave member => FoundFree email i s.2 ∧ member.identityRef = "local|" ++ email ∧
      s.1.db.members.find? member.id = none ∧ ∃ uuid, Drew s.2 i uuid ∧ member.id = "m_" ++ uuid
  | .credentialsInsert record => record.email = email ∧ inserts s.2 = [] ∧
      ∃ member, saves s.2 = [(i, member)] ∧ record.memberId = member.id
  | _ => True

/-- The two tables, as the history of the signups for the email tells. -/
structure SignupInv (email : JsString) (s : RecordedWorld) : Prop extends DrawnInv s where
  unsaved : saves s.2 = [] → ∀ r ∈ s.1.db.members.rows, r.identityRef ≠ "local|" ++ email
  saved : ∀ i member, (i, member) ∈ saves s.2 → saves s.2 = [(i, member)] ∧
    s.1.db.members.find? member.id = some (Db.memberRow member) ∧
    member.identityRef = "local|" ++ email ∧ FoundFree email i s.2 ∧
    (inserts s.2 = [] → ∀ r ∈ s.1.db.credentials.rows, r.memberId ≠ member.id)
  uninserted : inserts s.2 = [] → ∀ r ∈ s.1.db.credentials.rows, r.email ≠ email
  inserted : ∀ i record, (i, record) ∈ inserts s.2 → record ∈ s.1.db.credentials.rows ∧
    record.email = email ∧ ∃ member, (i, member) ∈ saves s.2 ∧ record.memberId = member.id
  lookups : Always (LookupSpec email) s.2

section Step

variable {B : Backend} {i j : ℕ} {op : ServerOp} {s s' : RecordedWorld} {email : JsString}
  {a : Except Thrown (ServerAns op)}

lemma lookupSpec_of_ne {before : List ServerLabel} (hop : op ≠ .credentialsFindByEmail email) :
    LookupSpec email before ⟨i, op, a⟩ := by
  intro j found hl
  cases hl
  exact absurd rfl hop

lemma saves_step (h : recorded (exec B) i op s a s') :
    saves s'.2 = saves s.2 ++ (saved? ⟨i, op, a⟩).toList := by
  rw [h.2]
  exact filterMap_concat ..

lemma inserts_step (h : recorded (exec B) i op s a s') :
    inserts s'.2 = inserts s.2 ++ (inserted? ⟨i, op, a⟩).toList := by
  rw [h.2]
  exact filterMap_concat ..

lemma FoundFree.step (hfree : FoundFree email j s.2) (h : recorded (exec B) i op s a s') :
    FoundFree email j s'.2 := by
  rw [h.2]
  exact List.mem_append_left _ hfree

/-- A step that neither saves nor inserts keeps the invariant, if its answer to a lookup is
right. -/
lemma SignupInv.of_none (hinv : SignupInv email s) (h : recorded (exec B) i op s a s')
    (hsaved : saved? ⟨i, op, a⟩ = none) (hinserted : inserted? ⟨i, op, a⟩ = none)
    (hmembers : s'.1.db.members = s.1.db.members)
    (hcredentials : s'.1.db.credentials = s.1.db.credentials)
    (hlookup : LookupSpec email s.2 ⟨i, op, a⟩) : SignupInv email s' := by
  have hsaves : saves s'.2 = saves s.2 := by simp [saves_step h, hsaved]
  have hinserts : inserts s'.2 = inserts s.2 := by simp [inserts_step h, hinserted]
  refine ⟨hinv.toDrawnInv.step h, ?_, ?_, ?_, ?_, ?_⟩
  · rw [hsaves, hmembers]
    exact hinv.unsaved
  · rw [hsaves, hinserts, hmembers, hcredentials]
    intro j member hmem
    obtain ⟨hone, hrow, href, hfree, hunused⟩ := hinv.saved j member hmem
    exact ⟨hone, hrow, href, hfree.step h, hunused⟩
  · rw [hinserts, hcredentials]
    exact hinv.uninserted
  · rw [hsaves, hinserts, hcredentials]
    exact hinv.inserted
  · rw [h.2]
    exact Always.concat_iff.mpr ⟨hinv.lookups, hlookup⟩

/-- The first save of a member for the email. -/
lemma SignupInv.save {member : Member} (hinv : SignupInv email s)
    (hpre : signupPre email i (.membersSave member) s)
    (h : recorded (exec B) i (.membersSave member) s (.ok ()) s') : SignupInv email s' := by
  obtain ⟨hfree, href, habsent, -⟩ := hpre
  obtain ⟨hset, hunique⟩ := exec_membersSave h.1
  have hcredentials : s'.1.db.credentials = s.1.db.credentials :=
    (exec_framed h.1).credentials (by simp [ServerOp.table])
  -- whoever had been saved before would hold the identity, and the save would have failed
  have hnone : saves s.2 = [] := by
    apply List.eq_nil_iff_forall_not_mem.mpr
    rintro ⟨j, other⟩ hmem
    obtain ⟨-, hrow, hother, -⟩ := hinv.saved j other hmem
    have hid := hunique _ (Table.mem_of_find? hrow) (hother.trans href.symm)
    rw [← hid] at habsent
    cases habsent.symm.trans hrow
  have hsaves : saves s'.2 = [(i, member)] := by rw [saves_step h, hnone]; rfl
  have huninserted : inserts s.2 = [] := by
    apply List.eq_nil_iff_forall_not_mem.mpr
    rintro ⟨j, record⟩ hmem
    obtain ⟨-, -, other, hother, -⟩ := hinv.inserted j record hmem
    rw [hnone] at hother
    cases hother
  have hinserts : inserts s'.2 = [] := by rw [inserts_step h, huninserted]; rfl
  refine ⟨hinv.toDrawnInv.step h, ?_, ?_, ?_, ?_, ?_⟩
  · intro hnil
    rw [hsaves] at hnil
    cases hnil
  · intro j other hmem
    rw [hsaves, List.mem_singleton] at hmem
    cases hmem
    refine ⟨hsaves, by rw [hset]; exact Table.find?_set_self, href, hfree.step h, fun _ r hr => ?_⟩
    rw [hcredentials] at hr
    exact Db.memberId_ne_of_absent habsent hr
  · rw [hcredentials]
    exact fun _ => hinv.uninserted huninserted
  · intro j record hmem
    rw [hinserts] at hmem
    cases hmem
  · rw [h.2]
    exact Always.concat_iff.mpr ⟨hinv.lookups, lookupSpec_of_ne (by simp)⟩

/-- The first insert of a credential for the email. -/
lemma SignupInv.insert {record : HumanCredentialRecord} (hinv : SignupInv email s)
    (hpre : signupPre email i (.credentialsInsert record) s)
    (h : recorded (exec B) i (.credentialsInsert record) s (.ok ()) s') : SignupInv email s' := by
  obtain ⟨hemail, hnone, member, hone, hid⟩ := hpre
  have hset := (exec_credentialsInsert h.1).1
  have hmembers : s'.1.db.members = s.1.db.members :=
    (exec_framed h.1).members (by simp [ServerOp.table])
  have hsaves : saves s'.2 = saves s.2 := by rw [saves_step h]; exact List.append_nil _
  have hinserts : inserts s'.2 = [(i, record)] := by rw [inserts_step h, hnone]; rfl
  refine ⟨hinv.toDrawnInv.step h, ?_, ?_, ?_, ?_, ?_⟩
  · rw [hsaves, hmembers]
    exact hinv.unsaved
  · rw [hsaves, hinserts, hmembers]
    intro j other hmem
    obtain ⟨hone, hrow, href, hfree, -⟩ := hinv.saved j other hmem
    refine ⟨hone, hrow, href, hfree.step h, fun hnil => ?_⟩
    cases hnil
  · intro hnil
    rw [hinserts] at hnil
    cases hnil
  · intro j other hmem
    rw [hinserts, List.mem_singleton] at hmem
    cases hmem
    refine ⟨by rw [hset]; exact Table.mem_set.mpr (.inl rfl), hemail, member, ?_, hid⟩
    rw [hsaves, hone]
    exact List.mem_singleton_self _
  · rw [h.2]
    exact Always.concat_iff.mpr ⟨hinv.lookups, lookupSpec_of_ne (by simp)⟩

lemma SignupInv.step (hinv : SignupInv email s) (hpre : signupPre email i op s)
    (h : recorded (exec B) i op s a s') : SignupInv email s' := by
  cases op with
  | membersSave member =>
    cases a with
    | error e =>
      have hw := exec_error h.1
      exact hinv.of_none h rfl rfl (by rw [hw]) (by rw [hw]) (lookupSpec_of_ne (by simp))
    | ok => exact hinv.save hpre h
  | credentialsInsert record =>
    cases a with
    | error e =>
      have hw := exec_error h.1
      exact hinv.of_none h rfl rfl (by rw [hw]) (by rw [hw]) (lookupSpec_of_ne (by simp))
    | ok => exact hinv.insert hpre h
  | credentialsFindByEmail sought =>
    have hframed := exec_framed h.1
    refine hinv.of_none h rfl rfl (hframed.members (by simp [ServerOp.table]))
      (hframed.credentials (by simp [ServerOp.table])) ?_
    intro j found hl
    cases hl
    rw [(exec_credentialsFindByEmail h.1).1, Db.findCredential_eq_none]
    constructor
    · intro hnone
      apply List.eq_nil_iff_forall_not_mem.mpr
      rintro ⟨j, record⟩ hmem
      obtain ⟨hrecord, hemail, -⟩ := hinv.inserted j record hmem
      exact hnone record hrecord hemail
    · exact hinv.uninserted
  | _ =>
    have hframed := exec_framed h.1
    exact hinv.of_none h rfl rfl (hframed.members (by simp [ServerOp.table]))
      (hframed.credentials (by simp [ServerOp.table])) (lookupSpec_of_ne (by simp))

/-- The discipline of the signups for one email. -/
def signupDiscipline (B : Backend) (email : JsString) : Discipline (recorded (exec B)) where
  inv := SignupInv email
  pre := signupPre email
  keeps := SignupInv.step

end Step

end WorkspaceOs
