import WorkspaceOs.Server.SignupInvariant

/-!
# Signing up twice at once

Any number of signups for one email, statement by statement. Of those that find it free, the first
to save its member goes on; the others fail with an error that only the insert of a credential would
have translated.
-/

namespace WorkspaceOs

open Js Effect Relational

/-! ### One signup -/

/-- How a signup for the email ended, and what it did until then. -/
inductive SignupEnd (email : JsString) (i : ℕ) (input : SignupInput) (s : RecordedWorld) :
    Except Thrown Member → Prop where
  /-- It found the email taken. -/
  | taken {record : HumanCredentialRecord}
      (own : ownLabels i s.2 = [⟨i, .credentialsFindByEmail email, .ok (some record)⟩]) :
      SignupEnd email i input s (.error (.emailAlreadyRegistered email))
  /-- It found the email free, but has no name to make a member with. -/
  | refused {e : Thrown} (free : FoundFree email i s.2) (blank : input.displayName.IsBlank)
      (other : e ≠ .emailAlreadyRegistered email) : SignupEnd email i input s (.error e)
  /-- It found the email free, and so did another one, which saved its member first. -/
  | late (free : FoundFree email i s.2) (other : ∃ j, j ≠ i ∧ FoundFree email j s.2) :
      SignupEnd email i input s (.error (.database .uniqueViolation))
  /-- An operation failed for reasons of its own. -/
  | faulted {message : JsString} (fault : ∃ op, ⟨i, op, .error (.foreign message)⟩ ∈ s.2) :
      SignupEnd email i input s (.error (.foreign message))
  /-- It went through. -/
  | done {member : Member} {uuid passwordHash : JsString} {record : HumanCredentialRecord}
      (own : ownLabels i s.2 = [⟨i, .credentialsFindByEmail email, .ok none⟩,
        ⟨i, .randomUUID, .ok uuid⟩, ⟨i, .membersSave member, .ok ()⟩,
        ⟨i, .hashPassword input.password, .ok passwordHash⟩,
        ⟨i, .credentialsInsert record, .ok ()⟩])
      (visible : ¬ input.displayName.IsBlank) : SignupEnd email i input s (.ok member)

section Signup

variable {B : Backend} {rt : Runtime} {i j : ℕ} {op : ServerOp} {email : JsString}
  {input : SignupInput} {s s' : RecordedWorld} {ls : List ServerLabel}

lemma mem_saves {member : Member} :
    (i, member) ∈ saves ls ↔ ⟨i, .membersSave member, .ok ()⟩ ∈ ls := by
  simp only [saves]
  rw [List.mem_filterMap]
  constructor
  · rintro ⟨l, hl, hsaved⟩
    simp only [saved?] at hsaved
    split at hsaved
    · cases hsaved
      exact hl
    · cases hsaved
  · exact fun hl => ⟨_, hl, rfl⟩

lemma mem_inserts {record : HumanCredentialRecord} :
    (i, record) ∈ inserts ls ↔ ⟨i, .credentialsInsert record, .ok ()⟩ ∈ ls := by
  simp only [inserts]
  rw [List.mem_filterMap]
  constructor
  · rintro ⟨l, hl, hinserted⟩
    simp only [inserted?] at hinserted
    split at hinserted
    · cases hinserted
      exact hl
    · cases hinserted
  · exact fun hl => ⟨_, hl, rfl⟩

/-- What a signup has done so far is in the history. -/
lemma mem_of_ownLabels {l : ServerLabel} (hown : ownLabels i s.2 = ls) (hl : l ∈ ls) : l ∈ s.2 :=
  (mem_ownLabels.mp (hown ▸ hl)).1

/-- What is not among the labels of a program it did not do. -/
lemma not_mem_of_ownLabels {a : Except Thrown (ServerAns op)} (hown : ownLabels i s.2 = ls)
    (hl : ⟨i, op, a⟩ ∉ ls) : ⟨i, op, a⟩ ∉ s.2 :=
  fun hmem => hl (hown ▸ mem_ownLabels.mpr ⟨hmem, rfl⟩)

lemma ownLabels_step {a : Except Thrown (ServerAns op)} (hown : ownLabels i s.2 = ls)
    (h : recorded (exec B) i op s a s') : ownLabels i s'.2 = ls ++ [⟨i, op, a⟩] := by
  rw [h.2, ownLabels_self, hown]

/-- An end that rests on what the signup did is an end whatever the others do. -/
lemma safe_of_own {r : Except Thrown Member} (hown : ownLabels i s.2 = ls)
    (hend : ∀ s, ownLabels i s.2 = ls → SignupEnd email i input s r) :
    (signupDiscipline B email).Safe i (fun r s => SignupEnd email i input s r) (.ofExcept r) s := by
  cases r with
  | ok member => exact fun s' hs => hend s' ((Discipline.ownLabels_stable ls).reach hown hs)
  | error e => exact fun s' hs => hend s' ((Discipline.ownLabels_stable ls).reach hown hs)

/-- A fault is passed on. -/
lemma safe_faulted {message : JsString}
    (hown : ownLabels i s.2 = ls ++ [⟨i, op, .error (.foreign message)⟩]) :
    (signupDiscipline B email).Safe i (fun r s => SignupEnd email i input s r)
      (.throw (.foreign message)) s :=
  safe_of_own (r := .error _) hown fun _ hown =>
    .faulted ⟨op, mem_of_ownLabels hown (List.mem_append_right _ (List.mem_singleton_self _))⟩

/-- An operation that writes nothing can only fail with a fault. -/
lemma safe_error {e : Thrown} (hop : op.table = none) (hown : ownLabels i s.2 = ls)
    (h : recorded (exec B) i op s (.error e) s') :
    (signupDiscipline B email).Safe i (fun r s => SignupEnd email i input s r) (.throw e) s' := by
  obtain ⟨-, message, rfl⟩ := exec_error_of_table hop h.1
  exact safe_faulted (ownLabels_step hown h)

lemma foundFree_lasting : (signupDiscipline B email).Lasting fun s => FoundFree email j s.2 :=
  fun _ _ _ _ _ _ _ h hfree => hfree.step h

/-- The identifier that a signup drew is its own until it is used. -/
lemma drawn_stable_signup (uuid : JsString) : (signupDiscipline B email).Stable i fun s =>
    Drew s.2 i uuid ∧ s.1.db.members.find? ("m_" ++ uuid) = none := by
  rintro s s' ⟨hdrew, habsent⟩ ⟨j, op, a, hne, hinv, hpre, hexec⟩
  refine ⟨hdrew.step hexec, ?_⟩
  cases op with
  | membersSave member =>
    cases a with
    | error e => rwa [exec_error hexec.1]
    | ok =>
      obtain ⟨-, -, -, uuid', hdrew', hid⟩ := hpre
      rw [(exec_membersSave hexec.1).1, Table.find?_set_of_ne, habsent]
      intro hsame
      cases List.append_cancel_left (hsame.trans hid)
      exact hne (hinv.drawn_once j i _ hdrew' hdrew)
  | _ => rwa [(exec_framed hexec.1).members (by simp [ServerOp.table])]

/-- Once a signup has saved its member, the others neither save nor insert. -/
lemma saved_stable (member : Member) : (signupDiscipline B email).Stable i fun s =>
    saves s.2 = [(i, member)] ∧ inserts s.2 = [] := by
  rintro s s' ⟨hsaves, hinserts⟩ ⟨j, op, a, hne, hinv, hpre, hexec⟩
  constructor
  · have hinv' : SignupInv email s' := SignupInv.step hinv hpre hexec
    have hmem : (i, member) ∈ saves s'.2 := by
      rw [saves_step hexec, hsaves]
      exact List.mem_append_left _ (List.mem_singleton_self _)
    exact (hinv'.saved i member hmem).1
  · rw [inserts_step hexec, hinserts]
    cases op with
    | credentialsInsert record =>
      obtain ⟨-, -, other, hother, -⟩ := hpre
      rw [hsaves] at hother
      cases hother
      exact absurd rfl hne
    | _ => rfl

/-- The insert of a signup whose member is the one that was saved succeeds, or it is a fault. -/
lemma safe_insert {member : Member} {passwordHash : JsString}
    (hown : ownLabels i s.2 = ls) (hsaves : saves s.2 = [(i, member)] ∧ inserts s.2 = []) :
    (signupDiscipline B email).Safe i
      (fun r s => (r = .ok () ∨ ∃ message, r = .error (.foreign message)) ∧
        ownLabels i s.2 = ls ++ [⟨i, .credentialsInsert ⟨member.id, email, passwordHash⟩, r⟩])
      (DrizzleHumanCredentialRepository.save ⟨member.id, email, passwordHash⟩) s := by
  have hstable : ∀ r : Except Thrown Unit, (signupDiscipline B email).Stable i fun s =>
      (r = .ok () ∨ ∃ message, r = .error (.foreign message)) ∧
        ownLabels i s.2 = ls ++ [⟨i, .credentialsInsert ⟨member.id, email, passwordHash⟩, r⟩] :=
    fun r => (Discipline.Stable.const _).and (Discipline.ownLabels_stable _)
  simp only [DrizzleHumanCredentialRepository.save]
  refine .tryCatch (Q := fun r s => (r = .ok () ∨ ∃ message, r = .error (.foreign message)) ∧
      ownLabels i s.2 = ls ++ [⟨i, .credentialsInsert ⟨member.id, email, passwordHash⟩, r⟩])
    ?_ (fun _ t ht => .ret (hstable _) ht) fun e t ht => ?_
  · refine .call _ ((Discipline.ownLabels_stable ls).and (saved_stable member)) ⟨hown, hsaves⟩
      (fun t _ ht => ⟨rfl, ht.2.2, member, ht.2.1, rfl⟩) fun t a t' hinv ht hexec => ?_
    have hlabels := ownLabels_step ht.1 hexec
    cases a with
    | ok => exact .ret (hstable _) ⟨.inl rfl, hlabels⟩
    | error e =>
      obtain ⟨-, hrow, -, -, hunused⟩ :=
        hinv.saved i member (by rw [ht.2.1]; exact List.mem_singleton_self _)
      rcases exec_credentialsInsert_error hexec.1 with
        ⟨message, rfl⟩ | ⟨-, r, hr, hid | hemail⟩ | ⟨-, habsent⟩
      · exact .throw (hstable _) ⟨.inr ⟨message, rfl⟩, hlabels⟩
      · exact absurd hid (hunused ht.2.2 r hr)
      · exact absurd hemail (hinv.uninserted ht.2.2 r hr)
      · cases habsent.symm.trans hrow
  · rcases ht.1 with he | ⟨message, he⟩
    · cases he
    · cases he
      rw [if_neg nofun]
      exact .throw (hstable _) ht

/-- What is left of a signup that has saved its member. -/
lemma safe_credential {uuid : JsString} {member : Member} (hvisible : ¬ input.displayName.IsBlank)
    (hown : ownLabels i s.2 = [⟨i, .credentialsFindByEmail email, .ok none⟩,
      ⟨i, .randomUUID, .ok uuid⟩, ⟨i, .membersSave member, .ok ()⟩])
    (hsaves : saves s.2 = [(i, member)] ∧ inserts s.2 = []) :
    (signupDiscipline B email).Safe i (fun r s => SignupEnd email i input s r)
      (do
        let passwordHash ← .perform (ServerOp.hashPassword input.password)
        DrizzleHumanCredentialRepository.save { memberId := member.id, email, passwordHash }
        return member) s := by
  refine .perform_bind _ ((Discipline.ownLabels_stable _).and (saved_stable member)) ⟨hown, hsaves⟩
    (fun _ _ _ => trivial) (fun t passwordHash t' _ ht hexec => ?_)
    fun t e t' _ ht hexec => safe_error rfl ht.1 hexec
  have hsaves' : saves t'.2 = [(i, member)] ∧ inserts t'.2 = [] := by
    rw [saves_step hexec, inserts_step hexec, ht.2.1, ht.2.2]
    exact ⟨rfl, rfl⟩
  refine (safe_insert (ownLabels_step ht.1 hexec) hsaves').bind (fun _ u hu => ?_) fun e u hu => ?_
  · exact safe_of_own (r := .ok member) hu.2 fun _ hown => .done hown hvisible
  · rcases hu.1 with he | ⟨message, he⟩
    · cases he
    · cases he
      exact safe_faulted hu.2

/-- What is left of a signup that has found the email free and made its member. -/
lemma safe_member {uuid : JsString} {member : Member} (hid : member.id = "m_" ++ uuid)
    (href : member.identityRef = "local|" ++ email) (hvisible : ¬ input.displayName.IsBlank)
    (hown : ownLabels i s.2 =
      [⟨i, .credentialsFindByEmail email, .ok none⟩, ⟨i, .randomUUID, .ok uuid⟩])
    (hdrew : Drew s.2 i uuid) (habsent : s.1.db.members.find? ("m_" ++ uuid) = none) :
    (signupDiscipline B email).Safe i (fun r s => SignupEnd email i input s r)
      (do
        DrizzleMemberRepository.save member
        let passwordHash ← .perform (ServerOp.hashPassword input.password)
        DrizzleHumanCredentialRepository.save { memberId := member.id, email, passwordHash }
        return member) s := by
  have hpre : ∀ {t : RecordedWorld}, ownLabels i t.2 =
      [⟨i, .credentialsFindByEmail email, .ok none⟩, ⟨i, .randomUUID, .ok uuid⟩] ∧
      Drew t.2 i uuid ∧ t.1.db.members.find? ("m_" ++ uuid) = none →
        signupPre email i (.membersSave member) t := by
    rintro t ⟨hown, hdrew, habsent⟩
    rw [← hid] at habsent
    exact ⟨mem_of_ownLabels hown List.mem_cons_self, href, habsent, uuid, hdrew, hid⟩
  refine .perform_bind _ ((Discipline.ownLabels_stable _).and (drawn_stable_signup uuid))
    ⟨hown, hdrew, habsent⟩ (fun _ _ ht => hpre ht) (fun t _ t' hinv ht hexec => ?_)
    fun t e t' hinv ht hexec => ?_
  · -- the first to save its member, and so the one that goes on
    have hinv' : SignupInv email t' := SignupInv.step hinv (hpre ht) hexec
    have hown' := ownLabels_step ht.1 hexec
    have hsaved : (i, member) ∈ saves t'.2 := mem_saves.mpr (mem_of_ownLabels hown' (by simp))
    have hone := (hinv'.saved i member hsaved).1
    refine safe_credential hvisible hown' ⟨hone, ?_⟩
    apply List.eq_nil_iff_forall_not_mem.mpr
    rintro ⟨j, record⟩ hmem
    obtain ⟨-, -, other, hother, -⟩ := hinv'.inserted j record hmem
    rw [hone] at hother
    cases List.mem_singleton.mp hother
    exact not_mem_of_ownLabels hown' (by simp) (mem_inserts.mp hmem)
  · rcases exec_membersSave_error hexec.1 with ⟨message, rfl⟩ | ⟨rfl, r, hr, hother, -⟩
    · exact safe_faulted (ownLabels_step ht.1 hexec)
    · -- somebody else has saved a member for the email
      have hsome : saves t.2 ≠ [] := fun hnil => hinv.unsaved hnil r hr (hother.trans href)
      obtain ⟨⟨j, other⟩, hmem⟩ := List.exists_mem_of_ne_nil _ hsome
      have hne : j ≠ i := by
        rintro rfl
        exact not_mem_of_ownLabels ht.1 (by simp) (mem_saves.mp hmem)
      have hfree : FoundFree email i t.2 := (hpre ht).1
      have hfrees : FoundFree email i t'.2 ∧ FoundFree email j t'.2 :=
        ⟨hfree.step hexec, (hinv.saved j other hmem).2.2.2.1.step hexec⟩
      intro u hu
      obtain ⟨hi, hj⟩ := (foundFree_lasting.stable.and foundFree_lasting.stable).reach hfrees hu
      exact .late hi ⟨j, hne, hj⟩

/-- Every signup for the email keeps to the discipline, and ends in one of the five ways. -/
lemma safe_signup_email (hemail : SignupService.normalizeEmail rt input.email = email)
    (hown : ownLabels i s.2 = []) :
    (signupDiscipline B email).Safe i (fun r s => SignupEnd email i input s r)
      (SignupService.signup rt input) s := by
  simp only [SignupService.signup]
  rw [hemail]
  refine .perform_bind _ (Discipline.ownLabels_stable []) hown (fun _ _ _ => trivial)
    (fun t found t' _ ht hexec => ?_) fun t e t' _ ht hexec => safe_error rfl ht hexec
  replace ht := ownLabels_step ht hexec
  cases found with
  | some record => exact safe_of_own (r := .error _) ht fun _ hown => .taken hown
  | none =>
    refine .perform_bind _ (Discipline.ownLabels_stable _) ht (fun _ _ _ => trivial)
      (fun u uuid u' _ hu hexec => ?_) fun u e u' _ hu hexec => safe_error rfl hu hexec
    replace hu := ownLabels_step hu hexec
    cases hmember : Member.create rt (SignupService.memberProps uuid email input.displayName) with
    | error e =>
      obtain ⟨hblank, he⟩ := SignupService.memberProps_error hmember
      apply safe_of_own (r := .error e) hu
      intro _ hown
      exact .refused (mem_of_ownLabels hown List.mem_cons_self) hblank he
    | ok member =>
      obtain ⟨hid, -, href, -, hvisible⟩ := SignupService.memberProps_ok hmember
      obtain ⟨hfresh, hw⟩ := exec_randomUUID hexec.1
      have habsent : u'.1.db.members.find? ("m_" ++ uuid) = none := by
        rw [hw]
        exact hfresh.member
      have hdrew : Drew u'.2 i uuid := by
        rw [hexec.2]
        exact drew_concat.mpr (.inr rfl)
      exact safe_member hid href hvisible hu hdrew habsent

end Signup

/-! ### Every run -/

/-- Program `i` looked the email up before any credential was inserted. -/
def FirstLookup (email : JsString) (i : ℕ) (ls : List ServerLabel) : Prop :=
  ∃ pre found post, ls = pre ++ ⟨i, .credentialsFindByEmail email, found⟩ :: post ∧
    inserts pre = []

/-- One signup went through, and its member and its credential are the only ones of the email; all
the others were told that it is taken. -/
def OneSignup (email : JsString) (c : Config ServerOp ServerAns Thrown Member World) : Prop :=
  ∃ (i : ℕ) (member : Member) (record : HumanCredentialRecord),
    c.pool[i]? = some (.ret member) ∧
    (∀ (j : ℕ) (p : ServerProg Member), j ≠ i → c.pool[j]? = some p →
      p = .throw (.emailAlreadyRegistered email)) ∧
    (∀ r, r ∈ c.store.db.members.rows ∧ r.identityRef = "local|" ++ email ↔
      r = Db.memberRow member) ∧
    (∀ r, r ∈ c.store.db.credentials.rows ∧ r.email = email ↔ r = record) ∧
    record.memberId = member.id

section Run

variable {B : Backend} {rt : Runtime} {inputs : List SignupInput} {email : JsString} {w : World}
  {i : ℕ} {input : SignupInput} {s : RecordedWorld} {ls : List ServerLabel}
  {c : Config ServerOp ServerAns Thrown Member World}

lemma FirstLookup.mem (h : FirstLookup email i ls) :
    ∃ found, ⟨i, .credentialsFindByEmail email, found⟩ ∈ ls := by
  obtain ⟨pre, found, post, rfl, -⟩ := h
  exact ⟨found, List.mem_append_right _ List.mem_cons_self⟩

lemma SignupInv.firstLookup (hinv : SignupInv email s) (hfree : FoundFree email i s.2) :
    FirstLookup email i s.2 := by
  obtain ⟨pre, post, hsplit⟩ := List.append_of_mem hfree
  have hspec := hinv.lookups pre _ post hsplit
  exact ⟨pre, _, post, hsplit, (hspec i none rfl).mp rfl⟩

/-- Who was told that the email is taken did not look it up first. -/
lemma SignupInv.not_firstLookup {record : HumanCredentialRecord} (hinv : SignupInv email s)
    (hown : ownLabels i s.2 = [⟨i, .credentialsFindByEmail email, .ok (some record)⟩]) :
    ¬ FirstLookup email i s.2 := by
  rintro ⟨pre, found, post, hsplit, hnone⟩
  have hmem : (⟨i, .credentialsFindByEmail email, found⟩ : ServerLabel) ∈ ownLabels i s.2 :=
    mem_ownLabels.mpr ⟨by rw [hsplit]; simp, rfl⟩
  rw [hown, List.mem_singleton] at hmem
  cases hmem
  have hspec := hinv.lookups pre _ post hsplit
  cases (hspec i (some record) rfl).mpr hnone

/-- The tables after a signup that went through. -/
lemma SignupInv.tables {member : Member} {record : HumanCredentialRecord} (hinv : SignupInv email s)
    (hsaved : (i, member) ∈ saves s.2) (hinserted : (i, record) ∈ inserts s.2) :
    (∀ r, r ∈ s.1.db.members.rows ∧ r.identityRef = "local|" ++ email ↔
      r = Db.memberRow member) ∧
    (∀ r, r ∈ s.1.db.credentials.rows ∧ r.email = email ↔ r = record) ∧
    record.memberId = member.id := by
  obtain ⟨hone, hrow, href, -, -⟩ := hinv.saved i member hsaved
  obtain ⟨hrecord, hemail, other, hother, hid⟩ := hinv.inserted i record hinserted
  rw [hone, List.mem_singleton] at hother
  cases hother
  have hmem := Table.mem_of_find? hrow
  refine ⟨fun r => ⟨fun ⟨hr, hidentity⟩ => ?_, ?_⟩, fun r => ⟨fun ⟨hr, hr'⟩ => ?_, ?_⟩, hid⟩
  · have hsame : r.id = member.id :=
      s.1.db.identityRef_unique r hr _ hmem (hidentity.trans href.symm)
    have hfound := Table.find?_key hr
    rw [hsame, hrow] at hfound
    exact (Option.some.inj hfound).symm
  · rintro rfl
    exact ⟨hmem, href⟩
  · have hsame := s.1.db.email_unique r hr record hrecord (hr'.trans hemail.symm)
    have hfound := Table.find?_key hr
    rw [hsame, Table.find?_key hrecord] at hfound
    exact (Option.some.inj hfound).symm
  · rintro rfl
    exact ⟨hrecord, hemail⟩

/-- The signup has come to an end, in one of the five ways. -/
def Ended (email : JsString) (inputs : List SignupInput) (ls : List ServerLabel)
    (c : Config ServerOp ServerAns Thrown Member World) (i : ℕ) : Prop :=
  ∃ input r, inputs[i]? = some input ∧ c.pool[i]? = some (.ofExcept r) ∧
    SignupEnd email i input (c.store, ls) r

/-- What holds when all signups have come to their ends. -/
lemma signup_ends (hinputs : ∀ input ∈ inputs, SignupService.normalizeEmail rt input.email = email)
    (hmembers : ∀ r ∈ w.db.members.rows, r.identityRef ≠ "local|" ++ email)
    (hcredentials : ∀ r ∈ w.db.credentials.rows, r.email ≠ email)
    (run : Run (exec B) ⟨w, inputs.map (SignupService.signup rt)⟩ ls c)
    (hended : ∀ p ∈ c.pool, ∃ r, p = .ofExcept r) :
    SignupInv email (c.store, ls) ∧ ∀ i, i < inputs.length → Ended email inputs ls c i := by
  have hinv : SignupInv email (w, []) :=
    ⟨⟨nofun, nofun⟩, fun _ => hmembers, nofun, fun _ => hcredentials, nofun, Always.nil⟩
  have hinitial : Disciplined (signupDiscipline B email)
      (fun i r s => ∀ input, inputs[i]? = some input → SignupEnd email i input s r)
      ⟨(w, []), inputs.map (SignupService.signup rt)⟩ := by
    refine ⟨hinv, fun i p hp => ?_⟩
    rw [List.getElem?_map, Option.map_eq_some_iff] at hp
    obtain ⟨input, hinput, rfl⟩ := hp
    refine (safe_signup_email (hinputs input (List.mem_of_getElem? hinput)) rfl).mono ?_
    intro r s hend input' hinput'
    cases hinput.symm.trans hinput'
    exact hend
  have hd := hinitial.run run.recorded
  refine ⟨hd.inv, fun i hi => ?_⟩
  have hpool : i < c.pool.length := by rwa [run.pool_length, List.length_map]
  obtain ⟨r, hr⟩ := hended _ (List.getElem_mem hpool)
  have hresult : c.pool[i]? = some (.ofExcept r) := by rw [List.getElem?_eq_getElem hpool, hr]
  have hinput : inputs[i]? = some inputs[i] := List.getElem?_eq_getElem hi
  exact ⟨_, r, hinput, hresult, hd.result hresult _ hinput⟩

/-- Exactly one signup, with a name that can be read, looked the email up before any credential was
inserted, and nothing failed for reasons of its own. -/
def Unraced (email : JsString) (inputs : List SignupInput) (ls : List ServerLabel) : Prop :=
  (∃ i input, inputs[i]? = some input ∧ ¬ input.displayName.IsBlank ∧ FirstLookup email i ls ∧
    ∀ j, FirstLookup email j ls → j = i) ∧
  ∀ l ∈ ls, ∀ message, l.ans ≠ .error (.foreign message)

lemma OneSignup.unraced (hinv : SignupInv email (c.store, ls))
    (hends : ∀ i, i < inputs.length → Ended email inputs ls c i)
    (hthread : ∀ l ∈ ls, l.thread < inputs.length) (hlength : c.pool.length = inputs.length)
    (h : OneSignup email c) : Unraced email inputs ls := by
  obtain ⟨i, member, record, hret, hothers, -⟩ := h
  have hi : i < inputs.length := hlength ▸ (List.getElem?_eq_some_iff.mp hret).1
  obtain ⟨input, r, hinput, hpool, hdone⟩ := hends i hi
  obtain rfl : r = .ok member := by
    cases r <;> cases hret.symm.trans hpool
    rfl
  cases hdone with
  | @done _ uuid passwordHash inserted hown hvisible =>
    -- all the others did no more than look the email up
    have htaken : ∀ j, j < inputs.length → j ≠ i → ∃ record, ownLabels j ls =
        [⟨j, .credentialsFindByEmail email, .ok (some record)⟩] := by
      intro j hj hne
      obtain ⟨input', r', -, hpool', hend'⟩ := hends j hj
      have hthrow := hothers j _ hne hpool'
      cases r' with
      | ok => cases hthrow
      | error e =>
        cases hthrow
        cases hend' with
        | taken hown => exact ⟨_, hown⟩
        | refused _ _ hother => exact absurd rfl hother
    have hfree : FoundFree email i ls := mem_of_ownLabels hown (by simp)
    refine ⟨⟨i, input, hinput, hvisible, hinv.firstLookup hfree, fun j hfirst => ?_⟩, ?_⟩
    · by_contra hne
      obtain ⟨found, hl⟩ := hfirst.mem
      obtain ⟨record, hown⟩ := htaken j (hthread _ hl) hne
      exact hinv.not_firstLookup hown hfirst
    · intro l hl message hfault
      have hmem : l ∈ ownLabels l.thread ls := mem_ownLabels.mpr ⟨hl, rfl⟩
      by_cases hli : l.thread = i
      · rw [hli, hown] at hmem
        simp only [List.mem_cons, List.not_mem_nil, or_false] at hmem
        rcases hmem with rfl | rfl | rfl | rfl | rfl <;> cases hfault
      · obtain ⟨record, hown⟩ := htaken l.thread (hthread l hl) hli
        rw [hown, List.mem_singleton] at hmem
        rw [hmem] at hfault
        cases hfault

lemma Unraced.oneSignup (hinv : SignupInv email (c.store, ls))
    (hends : ∀ i, i < inputs.length → Ended email inputs ls c i)
    (hlength : c.pool.length = inputs.length) (h : Unraced email inputs ls) :
    OneSignup email c := by
  obtain ⟨⟨i, input, hinput, hvisible, hfirst, honly⟩, hfaults⟩ := h
  have hfault : ∀ j message, ¬ ∃ op, (⟨j, op, .error (.foreign message)⟩ : ServerLabel) ∈ ls :=
    fun j message ⟨op, hl⟩ => hfaults _ hl message rfl
  obtain ⟨input', r, hinput', hpool, hend⟩ := hends i (List.getElem?_eq_some_iff.mp hinput).1
  cases hinput.symm.trans hinput'
  cases hend with
  | taken hown => exact absurd hfirst (hinv.not_firstLookup hown)
  | refused _ hblank => exact absurd hblank hvisible
  | late _ hother =>
    obtain ⟨j, hne, hfree⟩ := hother
    exact absurd (honly j (hinv.firstLookup hfree)) hne
  | faulted hf => exact absurd hf (hfault i _)
  | @done member uuid passwordHash record hown =>
    have hsaved : (i, member) ∈ saves ls := mem_saves.mpr (mem_of_ownLabels hown (by simp))
    have hinserted : (i, record) ∈ inserts ls :=
      mem_inserts.mpr (mem_of_ownLabels hown (by simp))
    refine ⟨i, member, record, hpool, fun j p hne hp => ?_, hinv.tables hsaved hinserted⟩
    obtain ⟨input', r', -, hpool', hend'⟩ :=
      hends j (hlength ▸ (List.getElem?_eq_some_iff.mp hp).1)
    cases hp.symm.trans hpool'
    have hbusy : ¬ FoundFree email j ls := fun hfree => hne (honly j (hinv.firstLookup hfree))
    cases hend' with
    | taken => rfl
    | refused hfree => exact absurd hfree hbusy
    | late hfree => exact absurd hfree hbusy
    | faulted hf => exact absurd hf (hfault j _)
    | done hown => exact absurd (mem_of_ownLabels hown (by simp)) hbusy

end Run

/-- Signups for one email, all run to their ends, leave one member with one credential and tell all
the others that the email is taken, exactly when they did not race. Emails and names are kept as
they are sent, which is so of those that a text column holds: with U+0000 in one the signup is
refused, and an unpaired surrogate becomes U+FFFD on every way to the database alike. -/
theorem one_signup_iff (B : Backend) (rt : Runtime) (inputs : List SignupInput) (email : JsString)
    (w : World) (hinputs : ∀ input ∈ inputs, SignupService.normalizeEmail rt input.email = email)
    (hmembers : ∀ r ∈ w.db.members.rows, r.identityRef ≠ "local|" ++ email)
    (hcredentials : ∀ r ∈ w.db.credentials.rows, r.email ≠ email) {ls : List ServerLabel}
    {c : Config ServerOp ServerAns Thrown Member World}
    (run : Run (exec B) ⟨w, inputs.map (SignupService.signup rt)⟩ ls c)
    (hended : ∀ p ∈ c.pool, ∃ r, p = .ofExcept r) :
    OneSignup email c ↔ Unraced email inputs ls := by
  obtain ⟨hinv, hends⟩ := signup_ends hinputs hmembers hcredentials run hended
  have hlength : c.pool.length = inputs.length := by rw [run.pool_length, List.length_map]
  have hthread : ∀ l ∈ ls, l.thread < inputs.length := by
    intro l hl
    simpa using run.thread_lt l hl
  exact ⟨OneSignup.unraced hinv hends hthread hlength, Unraced.oneSignup hinv hends hlength⟩

/-! Two signups for one email. -/

def twoSignups : Config ServerOp ServerAns Thrown Member World :=
  ⟨⟨Db.empty, []⟩, [.ada, .ada].map (SignupService.signup .ascii)⟩

/-- What the signups ended with: the identifier of a member, or an error. -/
def endings (c : Config ServerOp ServerAns Thrown Member World) :
    List (Option (Except Thrown JsString)) :=
  c.pool.map fun p => p.result?.map (Except.map Member.id)

lemma ended_of_endings {c : Config ServerOp ServerAns Thrown Member World}
    (h : ∀ r? ∈ endings c, r?.isSome) : ∀ p ∈ c.pool, ∃ r, p = .ofExcept r := by
  intro p hp
  have hsome := h _ (List.mem_map_of_mem hp)
  rw [Option.isSome_map] at hsome
  obtain ⟨r, hr⟩ := Option.isSome_iff_exists.mp hsome
  exact ⟨r, Prog.eq_ofExcept_of_result? hr⟩

/-- One after the other. -/
theorem one_signup_iff_sequential : ∃ ls c, Run (exec .faultless) twoSignups ls c ∧
    endings c = [some (.ok "m_1"), some (.error (.emailAlreadyRegistered "ada@example.org"))] ∧
    (OneSignup "ada@example.org" c ↔ Unraced "ada@example.org" [.ada, .ada] ls) := by
  have hsequential : (follow (World.attempt .faultless) ([0, 0, 0, 0, 0, 1].map (·, .plain))
      twoSignups).map (fun (_, c) => endings c) =
        some [some (.ok "m_1"), some (.error (.emailAlreadyRegistered "ada@example.org"))] := by
    decide +kernel
  obtain ⟨⟨ls, c⟩, hfollow, hendings⟩ := Option.map_eq_some_iff.mp hsequential
  dsimp only at hendings
  refine ⟨ls, c, run_of_follow hfollow, hendings, ?_⟩
  exact one_signup_iff .faultless .ascii [.ada, .ada] "ada@example.org" ⟨Db.empty, []⟩
    (by decide +kernel) (by simp [Db.empty]) (by simp [Db.empty]) (run_of_follow hfollow)
    (ended_of_endings (by rw [hendings]; simp))

/-- The second one looks the email up before the first one is through, and fails with the error of
the index on the identity of a member, which nothing translates. -/
theorem raced_signup_untranslated : ∃ ls c, Run (exec .faultless) twoSignups ls c ∧
    endings c = [some (.ok "m_1"), some (.error (.database .uniqueViolation))] ∧
    ¬ OneSignup "ada@example.org" c := by
  have hraced : (follow (World.attempt .faultless)
      ([0, 1, 0, 0, 0, 0].map (·, .plain) ++ [1, 1].map (·, { Oracle.plain with uuid := "2" }))
      twoSignups).map (fun (_, c) => endings c) =
        some [some (.ok "m_1"), some (.error (.database .uniqueViolation))] := by
    decide +kernel
  obtain ⟨⟨ls, c⟩, hfollow, hendings⟩ := Option.map_eq_some_iff.mp hraced
  dsimp only at hendings
  refine ⟨ls, c, run_of_follow hfollow, hendings, ?_⟩
  rintro ⟨i, member, record, hret, hothers, -⟩
  have hends : ∀ j : ℕ, (endings c)[j]? =
      c.pool[j]?.map fun p => p.result?.map (Except.map Member.id) :=
    fun j => List.getElem?_map
  rw [hendings] at hends
  have hlate := hends 1
  by_cases hi : i = 1
  · subst hi
    rw [hret] at hlate
    cases hlate
  · obtain ⟨p, hp⟩ : ∃ p, c.pool[1]? = some p := by
      cases hp : c.pool[1]? with
      | none =>
        rw [hp] at hlate
        cases hlate
      | some p => exact ⟨p, rfl⟩
    cases hothers 1 p (Ne.symm hi) hp
    rw [hp] at hlate
    cases hlate

end WorkspaceOs
