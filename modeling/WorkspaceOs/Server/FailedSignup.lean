import WorkspaceOs.Server.SignupService

/-!
# Signups that fail

One signup alone, where every operation gets an oracle of its own: the lookup of the email, the
random identifier, the save of the member, the hashing of the password and the insert of the
credential, in this order. Nothing ties the two writes together.
-/

namespace WorkspaceOs

open Js Effect Relational

/-- An operation is answered by the next oracle. -/
def World.answer (B : Backend) (o : ℕ → Oracle) (op : ServerOp) (s : World × ℕ) :
    Except Thrown (ServerAns op) × World × ℕ :=
  ((s.1.perform B (o s.2) op).1, (s.1.perform B (o s.2) op).2, s.2 + 1)

/-- The two states differ at most in the identifiers that were drawn. -/
def SameDb (s t : World × ℕ) : Prop := s.1.db = t.1.db ∧ s.2 = t.2

section Answer

variable {B : Backend} {o : ℕ → Oracle} {op : ServerOp} {w : World} {n : ℕ}

lemma answer_of_none (h : (o n).fault = none) : World.answer B o op (w, n) =
    ((w.execute B (o n) op).1, (w.execute B (o n) op).2, n + 1) := by
  simp only [World.answer, World.perform]
  rw [h]

lemma answer_of_fault {message : JsString} (hop : op.isLocal = false)
    (h : (o n).fault = some message) :
    World.answer B o op (w, n) = (.error (.foreign message), w, n + 1) := by
  simp only [World.answer, World.perform]
  rw [h]
  simp only [hop, Bool.false_eq_true, if_false]

lemma answer_randomUUID : World.answer B o .randomUUID (w, n) =
    (.ok (o n).uuid, { w with drawn := (o n).uuid :: w.drawn }, n + 1) := by
  simp only [World.answer, World.perform]
  cases (o n).fault <;> rfl

lemma execute_db (op : ServerOp) {o : Oracle} {w v : World} (h : w.db = v.db) :
    (w.execute B o op).1 = (v.execute B o op).1 ∧
      (w.execute B o op).2.db = (v.execute B o op).2.db := by
  have hcommit : ∀ {α : Type} (r : Except Thrown (α × Db)),
      (w.commit r).1 = (v.commit r).1 ∧ (w.commit r).2.db = (v.commit r).2.db := by
    intro α r
    cases r with
    | ok x => exact ⟨rfl, rfl⟩
    | error e => exact ⟨rfl, h⟩
  cases op <;> simp only [World.execute, h, hcommit, and_self]

/-- What an operation does depends on the database only. -/
lemma answer_sameDb (op : ServerOp) (s t : World × ℕ) (h : SameDb s t) :
    (World.answer B o op s).1 = (World.answer B o op t).1 ∧
      SameDb (World.answer B o op s).2 (World.answer B o op t).2 := by
  obtain ⟨w, n⟩ := s
  obtain ⟨v, m⟩ := t
  obtain ⟨hdb, hn⟩ := h
  cases hn
  obtain ⟨hanswer, hdb'⟩ := execute_db (B := B) op (o := o n) hdb
  simp only [World.answer, World.perform]
  cases hfault : (o n).fault with
  | none => exact ⟨hanswer, hdb', rfl⟩
  | some message =>
    dsimp only
    split_ifs
    · exact ⟨hanswer, hdb', rfl⟩
    · exact ⟨rfl, hdb, rfl⟩

end Answer

namespace SignupService

/-- A signup, alone from start to end. -/
def attempt (B : Backend) (rt : Runtime) (input : SignupInput) (o : ℕ → Oracle) (w : World) :
    Except Thrown Member × World :=
  let run := (signup rt input).run (World.answer B o) (w, 0)
  (run.1, run.2.1)

/-- The signup gets as far as storing its member; then hashing or the insert fails. -/
structure Orphans (rt : Runtime) (input : SignupInput) (o : ℕ → Oracle) (w : World) : Prop where
  lookup : (o 0).fault = none
  free : w.db.findCredential (normalizeEmail rt input.email) = none
  visible : ¬ input.displayName.IsBlank
  save : (o 2).fault = none
  unclaimed : ∀ r ∈ w.db.members.rows, r.identityRef ≠ "local|" ++ normalizeEmail rt input.email
  fails : (o 3).fault ≠ none ∨ (o 4).fault ≠ none

/-- What a signup alone can come to. -/
inductive Attempt (rt : Runtime) (input : SignupInput) (o : ℕ → Oracle) (w : World) :
    Except Thrown Member × World → Prop where
  /-- It threw before it wrote anything. -/
  | unchanged {e : Thrown} {w' : World} (kept : ¬ Orphans rt input o w) (db : w'.db = w.db) :
      Attempt rt input o w (.error e, w')
  /-- It threw and left its member without a credential. -/
  | orphaned {e : Thrown} {w' : World} {member : Member} (orphans : Orphans rt input o w)
      (absent : w.db.members.find? member.id = none)
      (identity : member.identityRef = "local|" ++ normalizeEmail rt input.email)
      (members : w'.db.members = w.db.members.set (Db.memberRow member)) :
      Attempt rt input o w (.error e, w')
  /-- It went through. -/
  | done {member : Member} {w' : World} (kept : ¬ Orphans rt input o w)
      (unclaimed : ∀ r ∈ w.db.members.rows,
        r.identityRef ≠ "local|" ++ normalizeEmail rt input.email) :
      Attempt rt input o w (.ok member, w')

section Attempt

variable {B : Backend} {rt : Runtime} {input : SignupInput} {o : ℕ → Oracle} {w : World}

/-- The insert of a credential that nothing conflicts with, for a member that is stored. -/
lemma run_save (record : HumanCredentialRecord) {n : ℕ}
    (hstored : (w.db.members.find? record.memberId).isSome)
    (hunused : ∀ r ∈ w.db.credentials.rows, r.memberId ≠ record.memberId ∧ r.email ≠ record.email) :
    let run := (DrizzleHumanCredentialRepository.save record).run (World.answer B o) (w, n)
    (o n).fault = none ∧ run.1 = .ok () ∨
      (o n).fault ≠ none ∧ (∃ e, run.1 = .error e) ∧ run.2.1.db = w.db := by
  simp only [DrizzleHumanCredentialRepository.save, Prog.perform]
  rw [Prog.tryCatch_call, Prog.run_call]
  cases hfault : (o n).fault with
  | some message =>
    rw [answer_of_fault rfl hfault]
    exact .inr ⟨Option.some_ne_none _, ⟨_, rfl⟩, rfl⟩
  | none =>
    obtain ⟨db, hdb⟩ := Db.insertCredential_of_free hstored hunused
    rw [answer_of_none hfault]
    simp only [World.execute, hdb]
    exact .inl ⟨trivial, rfl⟩

/-- What is left of a signup that has stored its member: it goes through unless something fails, and
then it leaves everything as it is. -/
lemma run_credential {member : Member} (password : JsString) {email : JsString} {n : ℕ}
    (hstored : (w.db.members.find? member.id).isSome)
    (hunused : ∀ r ∈ w.db.credentials.rows, r.memberId ≠ member.id ∧ r.email ≠ email) :
    let run := Prog.run (World.answer B o)
      (do
        let passwordHash ← .perform (ServerOp.hashPassword password)
        DrizzleHumanCredentialRepository.save { memberId := member.id, email, passwordHash }
        return member : ServerProg Member) (w, n)
    ¬ ((o n).fault ≠ none ∨ (o (n + 1)).fault ≠ none) ∧ run.1 = .ok member ∨
      ((o n).fault ≠ none ∨ (o (n + 1)).fault ≠ none) ∧
        (∃ e, run.1 = .error e) ∧ run.2.1.db = w.db := by
  rw [Prog.run_perform_bind]
  cases hhash : (o n).fault with
  | some message =>
    rw [answer_of_fault rfl hhash]
    exact .inr ⟨.inl (Option.some_ne_none _), ⟨_, rfl⟩, rfl⟩
  | none =>
    rw [answer_of_none hhash]
    dsimp only [World.execute]
    rw [Prog.run_bind]
    have hsave := run_save (B := B) (o := o) (n := n + 1)
      ⟨member.id, email, (o n).passwordHash⟩ hstored hunused
    dsimp only at hsave
    generalize Prog.run (World.answer B o) (DrizzleHumanCredentialRepository.save _) _ = run at *
    obtain ⟨result, w', m⟩ := run
    rcases hsave with ⟨hfault, hresult⟩ | ⟨hfault, ⟨e, hresult⟩, hdb⟩
    · cases hresult
      exact .inl ⟨by simp [hfault], rfl⟩
    · cases hresult
      exact .inr ⟨.inr hfault, ⟨e, rfl⟩, hdb⟩

/-- What is left of a signup that has found the email free and made its member. -/
lemma attempt_of_member {member : Member} (drawn : List JsString) (hlookup : (o 0).fault = none)
    (hfree : w.db.findCredential (normalizeEmail rt input.email) = none)
    (hvisible : ¬ input.displayName.IsBlank) (habsent : w.db.members.find? member.id = none)
    (href : member.identityRef = "local|" ++ normalizeEmail rt input.email) :
    let run := Prog.run (World.answer B o)
      (do
        DrizzleMemberRepository.save member
        let passwordHash ← .perform (ServerOp.hashPassword input.password)
        DrizzleHumanCredentialRepository.save
          { memberId := member.id, email := normalizeEmail rt input.email, passwordHash }
        return member : ServerProg Member) (⟨w.db, drawn⟩, 2)
    Attempt rt input o w (run.1, run.2.1) := by
  simp only [DrizzleMemberRepository.save]
  rw [Prog.run_perform_bind]
  cases hsave : (o 2).fault with
  | some message =>
    rw [answer_of_fault rfl hsave]
    exact .unchanged (fun h => by simp [h.save] at hsave) rfl
  | none =>
    rw [answer_of_none hsave]
    dsimp only [World.execute]
    cases hsaved : w.db.saveMember member with
    | error e =>
      obtain ⟨-, r, hr, hother, -⟩ := Db.saveMember_error hsaved
      exact .unchanged (fun h => h.unclaimed r hr (hother.trans href)) rfl
    | ok db =>
      obtain ⟨hmembers, hcredentials, -⟩ := Db.saveMember_ok hsaved
      obtain ⟨hunclaimed, hstored, hunused⟩ := Db.saveMember_new habsent hsaved
      rw [href] at hunclaimed
      have hconflict : ∀ r ∈ db.credentials.rows,
          r.memberId ≠ member.id ∧ r.email ≠ normalizeEmail rt input.email := by
        intro r hr
        refine ⟨hunused r hr, ?_⟩
        rw [hcredentials] at hr
        exact Db.findCredential_eq_none.mp hfree r hr
      have hrest := run_credential (B := B) (o := o) (n := 3) (w := ⟨db, drawn⟩) input.password
        hstored hconflict
      dsimp only [World.commit, Except.map] at hrest ⊢
      generalize Prog.run _ (Prog.perform (ServerOp.hashPassword input.password) >>= _) _ =
        run at hrest ⊢
      obtain ⟨result, w', n⟩ := run
      rcases hrest with ⟨hfine, hresult⟩ | ⟨hfails, ⟨e, hresult⟩, hdb⟩
      · cases hresult
        exact .done (fun h => hfine h.fails) hunclaimed
      · cases hresult
        have horphans : Orphans rt input o w :=
          ⟨hlookup, hfree, hvisible, hsave, hunclaimed, hfails⟩
        exact .orphaned horphans habsent href (by rw [hdb, hmembers])

/-- A signup alone comes to one of the three. -/
lemma attempt_cases (B : Backend) (rt : Runtime) (input : SignupInput)
    (hfresh : w.db.members.find? ("m_" ++ (o 1).uuid) = none) :
    Attempt rt input o w (attempt B rt input o w) := by
  rw [attempt, signup, DrizzleHumanCredentialRepository.findByEmail]
  dsimp only
  rw [Prog.run_perform_bind]
  cases hlookup : (o 0).fault with
  | some message =>
    rw [answer_of_fault rfl hlookup]
    exact .unchanged (fun h => by simp [h.lookup] at hlookup) rfl
  | none =>
    rw [answer_of_none hlookup]
    dsimp only [World.execute]
    cases hfree : w.db.findCredential (normalizeEmail rt input.email) with
    | some record => exact .unchanged (fun h => by simp [h.free] at hfree) rfl
    | none =>
      dsimp only [Option.isSome_none]
      rw [if_neg Bool.false_ne_true, Prog.run_perform_bind, answer_randomUUID]
      dsimp only
      cases hmember : Member.create rt (memberProps (o 1).uuid (normalizeEmail rt input.email)
          input.displayName) with
      | error e => exact .unchanged (fun h => h.visible (memberProps_error hmember).1) rfl
      | ok member =>
        obtain ⟨hid, -, href, -, hvisible⟩ := memberProps_ok hmember
        have habsent : w.db.members.find? member.id = none := by rwa [hid]
        exact attempt_of_member _ hlookup hfree hvisible habsent href

/-- A signup that throws leaves both tables as they were, and any later signup for the email ends
and leaves them as if it had never happened. -/
structure LeavesNoTrace (B : Backend) (rt : Runtime) (input : SignupInput) (o : ℕ → Oracle)
    (w : World) : Prop where
  members : ∀ e w', attempt B rt input o w = (.error e, w') → w'.db.members = w.db.members
  credentials : ∀ e w', attempt B rt input o w = (.error e, w') →
    w'.db.credentials = w.db.credentials
  forgotten : ∀ e w', attempt B rt input o w = (.error e, w') → ∀ later o',
    normalizeEmail rt later.email = normalizeEmail rt input.email →
    (attempt B rt later o' w').1 = (attempt B rt later o' w).1 ∧
    (attempt B rt later o' w').2.db.members = (attempt B rt later o' w).2.db.members ∧
    (attempt B rt later o' w').2.db.credentials = (attempt B rt later o' w).2.db.credentials

/-- A failed signup leaves no trace exactly when it does not fail between its two writes. The email
and the name are kept as they are sent, as a text column keeps those without U+0000 and unpaired
surrogates. -/
theorem leavesNoTrace_iff (B : Backend) (rt : Runtime) (input : SignupInput) (o : ℕ → Oracle)
    (w : World) (hfresh : w.db.members.find? ("m_" ++ (o 1).uuid) = none) :
    LeavesNoTrace B rt input o w ↔ ¬ Orphans rt input o w := by
  have hcases := attempt_cases B rt input hfresh
  constructor
  · intro htrace horphans
    generalize hrun : attempt B rt input o w = run at hcases
    cases hcases with
    | unchanged kept => exact kept horphans
    | @orphaned e w' member _ habsent _ hmembers =>
      have hkept := htrace.members e w' hrun
      have hstored : w'.db.members.find? member.id = some (Db.memberRow member) := by
        rw [hmembers]
        exact Table.find?_set_self
      rw [hkept, habsent] at hstored
      cases hstored
    | done kept => exact kept horphans
  · intro hkept
    have hdb : ∀ e w', attempt B rt input o w = (.error e, w') → w'.db = w.db := by
      intro e w' hrun
      rw [hrun] at hcases
      cases hcases with
      | unchanged _ db => exact db
      | orphaned horphans => exact absurd horphans hkept
    refine ⟨fun e w' hrun => by rw [hdb e w' hrun], fun e w' hrun => by rw [hdb e w' hrun], ?_⟩
    intro e w' hrun later o' _
    have hsame : SameDb (w', 0) (w, 0) := ⟨hdb e w' hrun, rfl⟩
    obtain ⟨hresult, hafter, -⟩ := Prog.run_rel answer_sameDb (signup rt later) hsame
    exact ⟨hresult, by rw [attempt, hafter]; rfl, by rw [attempt, hafter]; rfl⟩

/-- Everything from outside is plain, but the operation in this place fails. -/
def faultAt (n k : ℕ) : Oracle :=
  if k = n then { Oracle.plain with fault := some "fault" } else .plain

/-- Nothing is written when the save of the member fails. -/
theorem leavesNoTrace_iff_save :
    (attempt .faulty .ascii .ada (faultAt 2) ⟨Db.empty, []⟩).1.map Member.id =
        .error (.foreign "fault") ∧
      LeavesNoTrace .faulty .ascii .ada (faultAt 2) ⟨Db.empty, []⟩ := by
  refine ⟨by decide +kernel, ?_⟩
  apply (leavesNoTrace_iff .faulty .ascii .ada (faultAt 2) ⟨Db.empty, []⟩ rfl).mpr
  intro horphans
  exact absurd horphans.save (by decide)

/-- The password of a first signup cannot be hashed; a second one for the same email, which nothing
keeps from going through, then fails with an error of the database, though it would have made a
member without the first. -/
theorem failed_hash_blocks :
    let w : World := ⟨Db.empty, []⟩
    let w' := (attempt .faulty .ascii .ada (faultAt 3) w).2
    let later := fun _ => { Oracle.plain with uuid := "2" }
    (attempt .faulty .ascii .ada (faultAt 3) w).1.map Member.id = .error (.foreign "fault") ∧
      w'.db.members.rows.map MemberRow.id = ["m_1"] ∧
      (attempt .faulty .ascii .ada later w').1.map Member.id =
        .error (.database .uniqueViolation) ∧
      (attempt .faulty .ascii .ada later w).1.map Member.id = .ok "m_2" ∧
      ¬ LeavesNoTrace .faulty .ascii .ada (faultAt 3) w := by
  intro w w' later
  have hfails : (attempt .faulty .ascii .ada (faultAt 3) w).1.map Member.id =
      .error (.foreign "fault") := by decide +kernel
  have hrows : w'.db.members.rows.map MemberRow.id = ["m_1"] := by decide +kernel
  refine ⟨hfails, hrows, by decide +kernel, by decide +kernel, fun htrace => ?_⟩
  generalize hrun : attempt .faulty .ascii .ada (faultAt 3) w = run at hfails
  obtain ⟨result, v⟩ := run
  cases result with
  | ok => cases hfails
  | error e =>
    have hw' : w' = v := congrArg Prod.snd hrun
    rw [hw', htrace.members e v hrun] at hrows
    cases hrows

/-- A member without a credential keeps its email from ever being signed up. -/
theorem orphan_blocks (B : Backend) {rt : Runtime} {input later : SignupInput} {o o' : ℕ → Oracle}
    {w : World} (hfresh : w.db.members.find? ("m_" ++ (o 1).uuid) = none)
    (horphans : Orphans rt input o w)
    (hemail : normalizeEmail rt later.email = normalizeEmail rt input.email)
    (hfresh' : (attempt B rt input o w).2.db.members.find? ("m_" ++ (o' 1).uuid) = none) :
    ∃ e, (attempt B rt later o' (attempt B rt input o w).2).1 = .error e := by
  have hcases := attempt_cases B rt input hfresh
  have hcases' := attempt_cases B rt later hfresh'
  generalize attempt B rt input o w = run at *
  cases hcases with
  | unchanged kept => exact absurd horphans kept
  | done kept => exact absurd horphans kept
  | @orphaned e w' member _ _ href hmembers =>
    generalize attempt B rt later o' _ = run' at *
    have htaken : ∃ r ∈ w'.db.members.rows,
        r.identityRef = "local|" ++ normalizeEmail rt later.email := by
      rw [hmembers, hemail]
      exact ⟨Db.memberRow member, Table.mem_set.mpr (.inl rfl), href⟩
    obtain ⟨r, hr, hidentity⟩ := htaken
    cases hcases' with
    | unchanged => exact ⟨_, rfl⟩
    | orphaned horphans' => exact absurd hidentity (horphans'.unclaimed r hr)
    | done _ hunclaimed => exact absurd hidentity (hunclaimed r hr)

end Attempt

end SignupService

end WorkspaceOs
