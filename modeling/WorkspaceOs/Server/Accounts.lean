import WorkspaceOs.Server.Lasting

/-!
# Accounts

A credential is inserted by the signup that hashed its password, for the member whose identifier
that signup drew; and a login reads a member only after the verification of its password against a
credential. So whoever a login finds has signed up.
-/

namespace WorkspaceOs

open Js Effect Relational

/-- Program `i` is a signup with this input. -/
def SignsUp (actors : List Actor) (i : ℕ) (input : SignupInput) : Prop :=
  ∃ request, actors[i]? = some (.client request) ∧ request.route = .signup ∧
    signupInput? (Json.orEmpty request.body) = some input

/-- Program `i` is a login with this email and this password. -/
def LogsIn (actors : List Actor) (i : ℕ) (email password : JsString) : Prop :=
  ∃ request, actors[i]? = some (.client request) ∧ request.route = .login ∧
    nonEmptyString? ((Json.orEmpty request.body).prop? "email") = some email ∧
    nonEmptyString? ((Json.orEmpty request.body).prop? "password") = some password

/-- The credential is the one that signup `i` has made for the member of its identifier. -/
def SignedUp (rt : Runtime) (actors : List Actor) (history : List ServerLabel) (i : ℕ)
    (record : HumanCredentialRecord) : Prop :=
  ∃ input uuid, SignsUp actors i input ∧
    record.email = SignupService.normalizeEmail rt input.email ∧ Drew history i uuid ∧
    record.memberId = "m_" ++ uuid ∧
    ⟨i, .hashPassword input.password, .ok record.passwordHash⟩ ∈ history

/-- The password of program `i` was accepted for a credential of the email that is the member's. -/
def Recognized (rt : Runtime) (history : List ServerLabel) (i : ℕ)
    (email password memberId : JsString) :
    Prop :=
  ∃ record, ⟨i, .credentialsFindByEmail (SignupService.normalizeEmail rt email),
      .ok (some record)⟩ ∈ history ∧
    ⟨i, .verifyPassword password record.passwordHash, .ok true⟩ ∈ history ∧
    record.memberId = memberId

/-- What the programs keep to. -/
def accountsPre (rt : Runtime) (actors : List Actor) (i : ℕ) (op : ServerOp) (s : RecordedWorld) :
    Prop :=
  match op with
  | .credentialsInsert record => SignedUp rt actors s.2 i record
  | .membersFindById id => ∀ email password, LogsIn actors i email password →
      Recognized rt s.2 i email password id
  | _ => True

/-- The credentials, and what has been found, as the history tells. -/
structure AccountsInv (rt : Runtime) (actors : List Actor) (s : RecordedWorld) : Prop where
  credentials : ∀ record ∈ s.1.db.credentials.rows, ∃ i, SignedUp rt actors s.2 i record
  found : ∀ i email record, ⟨i, .credentialsFindByEmail email, .ok (some record)⟩ ∈ s.2 →
    record.email = email ∧ ∃ j, SignedUp rt actors s.2 j record
  members : ∀ i id row, ⟨i, .membersFindById id, .ok (some row)⟩ ∈ s.2 → row.id = id ∧
    ∀ email password, LogsIn actors i email password → Recognized rt s.2 i email password id

section Step

variable {B : Backend} {rt : Runtime} {actors : List Actor} {i j : ℕ} {op : ServerOp}
  {s s' : RecordedWorld} {a : Except Thrown (ServerAns op)} {record : HumanCredentialRecord}
  {email password memberId : JsString} {history history' : List ServerLabel}

lemma LogsIn.unique {email' password' : JsString} (h : LogsIn actors i email password)
    (h' : LogsIn actors i email' password') : email = email' ∧ password = password' := by
  obtain ⟨request, hclient, -, hemail, hpassword⟩ := h
  obtain ⟨request', hclient', -, hemail', hpassword'⟩ := h'
  cases hclient.symm.trans hclient'
  exact ⟨Option.some.inj (hemail.symm.trans hemail'),
    Option.some.inj (hpassword.symm.trans hpassword')⟩

lemma SignedUp.mono (h : SignedUp rt actors history i record) (hle : history ⊆ history') :
    SignedUp rt actors history' i record := by
  obtain ⟨input, uuid, hinput, hemail, hdrew, hid, hhash⟩ := h
  exact ⟨input, uuid, hinput, hemail, hle hdrew, hid, hle hhash⟩

lemma Recognized.mono (h : Recognized rt history i email password memberId)
    (hle : history ⊆ history') : Recognized rt history' i email password memberId := by
  obtain ⟨record, hfound, haccepted, hid⟩ := h
  exact ⟨record, hle hfound, hle haccepted, hid⟩

lemma AccountsInv.step (hinv : AccountsInv rt actors s) (hpre : accountsPre rt actors i op s)
    (h : recorded (exec B) i op s a s') : AccountsInv rt actors s' := by
  have hle := subset_of_recorded h
  constructor
  case credentials =>
    intro record hrecord
    by_cases hop : op.table = some .credentials
    · cases op with
      | credentialsInsert inserted =>
        cases a with
        | error e =>
          rw [exec_error h.1] at hrecord
          exact (hinv.credentials record hrecord).imp fun _ h => h.mono hle
        | ok =>
          rw [(exec_credentialsInsert h.1).1, Table.mem_set] at hrecord
          rcases hrecord with rfl | ⟨hrecord, -⟩
          · exact ⟨i, SignedUp.mono hpre hle⟩
          · exact (hinv.credentials record hrecord).imp fun _ h => h.mono hle
      | _ => cases hop
    · rw [(exec_framed h.1).credentials hop] at hrecord
      exact (hinv.credentials record hrecord).imp fun _ h => h.mono hle
  case found =>
    intro j email record hmem
    rw [h.2, List.mem_append, List.mem_singleton] at hmem
    rcases hmem with hmem | hl
    · obtain ⟨hemail, k, hsigned⟩ := hinv.found j email record hmem
      exact ⟨hemail, k, hsigned.mono hle⟩
    · cases hl
      have hfound := (exec_credentialsFindByEmail h.1).1.symm
      obtain ⟨hrecord, hemail⟩ := Db.findCredential_eq_some.mp hfound
      obtain ⟨k, hsigned⟩ := hinv.credentials record hrecord
      exact ⟨hemail, k, hsigned.mono hle⟩
  case members =>
    intro j id row hmem
    rw [h.2, List.mem_append, List.mem_singleton] at hmem
    rcases hmem with hmem | hl
    · obtain ⟨hid, hlogin⟩ := hinv.members j id row hmem
      exact ⟨hid, fun email password hlogs => (hlogin email password hlogs).mono hle⟩
    · cases hl
      refine ⟨Table.key_of_find? (exec_membersFindById h.1).1.symm, fun email password hlogs => ?_⟩
      exact Recognized.mono (hpre email password hlogs) hle

/-- The discipline of accounts. -/
def accountsDiscipline (B : Backend) (rt : Runtime) (actors : List Actor) :
    Discipline (recorded (exec B)) where
  inv := AccountsInv rt actors
  pre := accountsPre rt actors
  keeps := AccountsInv.step

end Step

/-! ### How a request ends -/

section Ends

variable (server : Server) (i : ℕ) (history : List ServerLabel)

/-- An operation of the program failed, or a member that it read is not valid. -/
def Broke : Prop :=
  (∃ op e, (⟨i, op, .error e⟩ : ServerLabel) ∈ history) ∨
    ∃ id row e, ⟨i, .membersFindById id, .ok (some row)⟩ ∈ history ∧
      Db.toMember server.rt row = .error e

/-- How a signup with this input ends, where it goes through. -/
def SignupDone (input : SignupInput) (member : Member) : Prop :=
  ∃ uuid passwordHash, Drew history i uuid ∧ member.id = "m_" ++ uuid ∧
    ⟨i, .hashPassword input.password, .ok passwordHash⟩ ∈ history ∧
    ⟨i, .credentialsInsert { memberId := member.id, passwordHash,
                             email := SignupService.normalizeEmail server.rt input.email },
      .ok ()⟩ ∈ history

/-- A reply that says 201 names the member that the signup has made. -/
def SignupReply (input : SignupInput) (r : Except Thrown Reply) : Prop :=
  ∀ reply, r = .ok reply → reply.code = 201 →
    ∃ member, reply.body = .member member ∧ SignupDone server i history input member

/-- How reading a member ends. -/
inductive FindEnd (id : JsString) : Except Thrown (Option Member) → Prop
  | absent (absent : ⟨i, .membersFindById id, .ok none⟩ ∈ history) : FindEnd id (.ok none)
  | found (row : MemberRow) (member : Member)
      (read : ⟨i, .membersFindById id, .ok (some row)⟩ ∈ history)
      (valid : Db.toMember server.rt row = .ok member) : FindEnd id (.ok (some member))
  | broke {e : Thrown} (broke : Broke server i history) : FindEnd id (.error e)

/-- How a login with this email and this password ends. -/
inductive LoginEnd (email password : JsString) : Except Thrown Reply → Prop
  | unknown
      (found : ⟨i, .credentialsFindByEmail (SignupService.normalizeEmail server.rt email),
        .ok none⟩ ∈ history) : LoginEnd email password (.ok (.error 401 "invalid-credentials"))
  | wrong (record : HumanCredentialRecord)
      (found : ⟨i, .credentialsFindByEmail (SignupService.normalizeEmail server.rt email),
        .ok (some record)⟩ ∈ history)
      (rejected : ⟨i, .verifyPassword password record.passwordHash, .ok false⟩ ∈ history) :
      LoginEnd email password (.ok (.error 401 "invalid-credentials"))
  | gone (record : HumanCredentialRecord)
      (found : ⟨i, .credentialsFindByEmail (SignupService.normalizeEmail server.rt email),
        .ok (some record)⟩ ∈ history)
      (absent : ⟨i, .membersFindById record.memberId, .ok none⟩ ∈ history) :
      LoginEnd email password (.ok (.error 401 "invalid-credentials"))
  | session (record : HumanCredentialRecord) (row : MemberRow) (member : Member) (t : ℤ)
      (found : ⟨i, .credentialsFindByEmail (SignupService.normalizeEmail server.rt email),
        .ok (some record)⟩ ∈ history)
      (accepted : ⟨i, .verifyPassword password record.passwordHash, .ok true⟩ ∈ history)
      (read : ⟨i, .membersFindById record.memberId, .ok (some row)⟩ ∈ history)
      (valid : Db.toMember server.rt row = .ok member) (now : ⟨i, .now, .ok t⟩ ∈ history) :
      LoginEnd email password (.ok ⟨200, .session member
        (server.sessions.issue member.id (timeClip (ofInt (t + sessionTtlMs))))⟩)
  | broke {e : Thrown} (broke : Broke server i history) : LoginEnd email password (.error e)

/-- How a request ends behind authentication, with what its handler makes of a member. -/
inductive AuthenticationEnd (request : HttpRequest)
    (handles : Member → Except Thrown Reply → Prop) :
    Except Thrown Reply → Prop
  | anonymous (anonymous : bearerToken request = none) :
      AuthenticationEnd request handles (.ok (.error 401 "unauthenticated"))
  | rejected (token : JsString) (t : ℤ) (presented : bearerToken request = some token)
      (now : ⟨i, .now, .ok t⟩ ∈ history) (rejected : server.sessions.verify token (some t) = none) :
      AuthenticationEnd request handles (.ok (.error 401 "unauthenticated"))
  | gone (token id : JsString) (t : ℤ) (presented : bearerToken request = some token)
      (now : ⟨i, .now, .ok t⟩ ∈ history)
      (accepted : server.sessions.verify token (some t) = some id)
      (absent : ⟨i, .membersFindById id, .ok none⟩ ∈ history) :
      AuthenticationEnd request handles (.ok (.error 401 "unauthenticated"))
  | handled (token id : JsString) (t : ℤ) (row : MemberRow) (member : Member)
      (r : Except Thrown Reply) (presented : bearerToken request = some token)
      (now : ⟨i, .now, .ok t⟩ ∈ history)
      (accepted : server.sessions.verify token (some t) = some id)
      (read : ⟨i, .membersFindById id, .ok (some row)⟩ ∈ history)
      (valid : Db.toMember server.rt row = .ok member) (handled : handles member r) :
      AuthenticationEnd request handles r
  | broke {e : Thrown} (broke : Broke server i history) :
    AuthenticationEnd request handles (.error e)

/-- How a request ends, as far as it is about accounts. -/
def AccountEnd (request : HttpRequest) (r : Except Thrown Reply) : Prop :=
  match request.route with
  | .signup => ∀ input, signupInput? (Json.orEmpty request.body) = some input →
      SignupReply server i history input r
  | .login => ∀ email password,
      nonEmptyString? ((Json.orEmpty request.body).prop? "email") = some email →
      nonEmptyString? ((Json.orEmpty request.body).prop? "password") = some password →
        LoginEnd server i history email password r
  | .me =>
    AuthenticationEnd server i history request (fun member r => r = .ok ⟨200, .member member⟩) r
  | .postMembers | .getMember _ => True
  | _ => AuthenticationEnd server i history request (fun _ _ => True) r

end Ends

section Mono

variable {server : Server} {i : ℕ} {history history' : List ServerLabel} {request : HttpRequest}
  {email password : JsString} {r : Except Thrown Reply}
  {handles : Member → Except Thrown Reply → Prop}

lemma Broke.mono (h : Broke server i history) (hle : history ⊆ history') :
    Broke server i history' := by
  rcases h with ⟨op, e, hfault⟩ | ⟨id, row, e, hread, hinvalid⟩
  · exact .inl ⟨op, e, hle hfault⟩
  · exact .inr ⟨id, row, e, hle hread, hinvalid⟩

lemma SignupDone.mono {input : SignupInput} {member : Member}
    (h : SignupDone server i history input member) (hle : history ⊆ history') :
    SignupDone server i history' input member := by
  obtain ⟨uuid, passwordHash, hdrew, hid, hhash, hinsert⟩ := h
  exact ⟨uuid, passwordHash, hle hdrew, hid, hle hhash, hle hinsert⟩

lemma SignupReply.mono {input : SignupInput} (h : SignupReply server i history input r)
    (hle : history ⊆ history') : SignupReply server i history' input r := by
  intro reply hreply hcode
  obtain ⟨member, hbody, hdone⟩ := h reply hreply hcode
  exact ⟨member, hbody, hdone.mono hle⟩

lemma FindEnd.mono {id : JsString} {r : Except Thrown (Option Member)}
    (h : FindEnd server i history id r) (hle : history ⊆ history') :
    FindEnd server i history' id r := by
  cases h with
  | absent absent => exact .absent (hle absent)
  | found row member read valid => exact .found row member (hle read) valid
  | broke broke => exact .broke (broke.mono hle)

lemma LoginEnd.mono (h : LoginEnd server i history email password r) (hle : history ⊆ history') :
    LoginEnd server i history' email password r := by
  cases h with
  | unknown found => exact .unknown (hle found)
  | wrong record found rejected => exact .wrong record (hle found) (hle rejected)
  | gone record found absent => exact .gone record (hle found) (hle absent)
  | session record row member t found accepted read valid now =>
    exact .session record row member t (hle found) (hle accepted) (hle read) valid (hle now)
  | broke broke => exact .broke (broke.mono hle)

lemma AuthenticationEnd.mono (h : AuthenticationEnd server i history request handles r)
    (hle : history ⊆ history') : AuthenticationEnd server i history' request handles r := by
  cases h with
  | anonymous anonymous => exact .anonymous anonymous
  | rejected token t presented now rejected => exact .rejected token t presented (hle now) rejected
  | gone token id t presented now accepted absent =>
    exact .gone token id t presented (hle now) accepted (hle absent)
  | handled token id t row member r presented now accepted read valid handled =>
    exact .handled token id t row member r presented (hle now) accepted (hle read) valid handled
  | broke broke => exact .broke (broke.mono hle)

lemma AccountEnd.mono (h : AccountEnd server i history request r) (hle : history ⊆ history') :
    AccountEnd server i history' request r := by
  rw [AccountEnd] at h ⊢
  cases hroute : request.route with
  | postMembers | getMember => trivial
  | signup =>
    rw [hroute] at h
    exact fun input hinput => (h input hinput).mono hle
  | login =>
    rw [hroute] at h
    exact fun email password hemail hpassword => (h email password hemail hpassword).mono hle
  | _ =>
    rw [hroute] at h
    exact AuthenticationEnd.mono h hle

end Mono

/-! ### One request -/

section Safe

variable {B : Backend} {server : Server} {actors : List Actor} {request : HttpRequest} {i : ℕ}
  {s : RecordedWorld}

/-- An operation that failed. -/
lemma broke_of_error {op : ServerOp} {e : Thrown} {t : RecordedWorld}
    (h : recorded (exec B) i op s (.error e) t) : Broke server i t.2 :=
  .inl ⟨op, e, mem_of_recorded h⟩

lemma safe_findById {P : List ServerLabel → Prop} (hP : ∀ {h h'}, P h → h ⊆ h' → P h')
    {id : JsString}
    (hpre : ∀ s : RecordedWorld, P s.2 → accountsPre server.rt actors i (.membersFindById id) s)
    (hs : P s.2) : (accountsDiscipline B server.rt actors).Safe i
      (fun r s => FindEnd server i s.2 id r ∧ P s.2)
      (DrizzleMemberRepository.findById server.rt id) s := by
  refine Discipline.Safe.lasting (Discipline.history_lasting hP) ?_ hs
  have hstable (r : Except Thrown (Option Member)) :
      (accountsDiscipline B server.rt actors).Stable i fun s => FindEnd server i s.2 id r :=
    (Discipline.history_lasting FindEnd.mono).stable
  refine .perform_bind _ (Discipline.history_lasting hP).stable hs (fun s _ hs => hpre s hs)
    (fun t row? t' _ _ h => ?_) fun t e t' _ _ h => .throw (hstable _) (.broke (broke_of_error h))
  have hread := mem_of_recorded h
  cases row? with
  | none => exact .ret (hstable _) (.absent hread)
  | some row =>
    cases hvalid : Db.toMember server.rt row with
    | error e =>
      simp only [hvalid]
      exact .throw (hstable _) (.broke (.inr ⟨id, row, e, hread, hvalid⟩))
    | ok member =>
      simp only [hvalid]
      exact .ret (hstable _) (.found row member hread hvalid)

lemma signupDone_stable {D : Discipline (recorded (exec B))} {input : SignupInput}
    (r : Except Thrown Member) :
    D.Stable i fun s => ∀ member, r = .ok member → SignupDone server i s.2 input member := by
  rintro s s' hdone ⟨j, op, a, -, -, -, h⟩ member hmember
  exact (hdone member hmember).mono (subset_of_recorded h)

/-- The insert of a credential that the signup has made. -/
lemma safe_insertMade {record : HumanCredentialRecord}
    (hmade : SignedUp server.rt actors s.2 i record) :
    (accountsDiscipline B server.rt actors).Safe i
      (fun r s => ∀ u, r = .ok u → ⟨i, .credentialsInsert record, .ok ()⟩ ∈ s.2)
      (DrizzleHumanCredentialRepository.save record) s := by
  have hstable (r : Except Thrown Unit) : (accountsDiscipline B server.rt actors).Stable i fun s =>
      ∀ u, r = .ok u → ⟨i, .credentialsInsert record, .ok ()⟩ ∈ s.2 := by
    rintro s s' hinserted ⟨j, op, a, -, -, -, h⟩ u hu
    exact subset_of_recorded h (hinserted u hu)
  refine .tryCatch
    (Q := fun r s => ∀ u, r = .ok u → ⟨i, .credentialsInsert record, .ok ()⟩ ∈ s.2) ?_
    (fun _ _ ht => .ret (hstable _) ht) fun e t ht => ?_
  · refine .call _ (Discipline.history_lasting SignedUp.mono).stable hmade (fun _ _ hmade => hmade)
      fun t a t' _ _ h => ?_
    cases a with
    | ok => exact .ret (hstable _) fun _ _ => mem_of_recorded h
    | error e => exact .throw (hstable _) nofun
  · split_ifs
    · exact .throw (hstable _) nofun
    · exact .throw (hstable _) nofun

lemma safe_signupAccount {input : SignupInput} (hsignup : SignsUp actors i input) :
    (accountsDiscipline B server.rt actors).Safe i
      (fun r s => ∀ member, r = .ok member → SignupDone server i s.2 input member)
      (SignupService.signup server.rt input) s := by
  have hthrow {e : Thrown} {t : RecordedWorld} : (accountsDiscipline B server.rt actors).Safe i
      (fun r s => ∀ member, r = .ok member → SignupDone server i s.2 input member)
      (.throw e : ServerProg Member) t := .throw (signupDone_stable _) nofun
  refine .perform_bind (fun _ => True) (.const _) trivial (fun _ _ _ => trivial)
    (fun _ found t _ _ _ => ?_) fun _ _ _ _ _ _ => hthrow
  dsimp only
  split_ifs
  · exact hthrow
  refine .perform_bind (fun _ => True) (.const _) trivial (fun _ _ _ => trivial)
    (fun t uuid t' _ _ h => ?_) fun _ _ _ _ _ _ => hthrow
  have hdrew : Drew t'.2 i uuid := mem_of_recorded h
  cases hmember : Member.create server.rt (SignupService.memberProps uuid
      (SignupService.normalizeEmail server.rt input.email) input.displayName) with
  | error e => exact hthrow
  | ok member =>
    obtain ⟨hid, -⟩ := SignupService.memberProps_ok hmember
    have hdrewLasts : (accountsDiscipline B server.rt actors).Lasting fun s => Drew s.2 i uuid :=
      performed_lasting _
    refine .perform_bind _ hdrewLasts.stable hdrew (fun _ _ _ => trivial) (fun u _ u' _ hu h => ?_)
      fun _ _ _ _ _ _ => hthrow
    refine .perform_bind _ hdrewLasts.stable (subset_of_recorded h hu) (fun _ _ _ => trivial)
      (fun v passwordHash v' _ hv h => ?_) fun _ _ _ _ _ _ => hthrow
    let record : HumanCredentialRecord :=
      { memberId := member.id, passwordHash,
        email := SignupService.normalizeEmail server.rt input.email }
    have hdrew' : Drew v'.2 i uuid := subset_of_recorded h hv
    have hhashed := mem_of_recorded h
    have hmade : SignedUp server.rt actors v'.2 i record :=
      ⟨input, uuid, hsignup, rfl, hdrew', hid, hhashed⟩
    have hinsert := ((safe_insertMade hmade).lasting hdrewLasts hdrew').lasting
      (performed_lasting _) hhashed
    refine hinsert.bind (fun _ x hx => ?_) fun _ _ _ => hthrow
    refine .ret (signupDone_stable _) ?_
    rintro _ ⟨⟩
    exact ⟨uuid, passwordHash, hx.1.2, hid, hx.2, hx.1.1 () rfl⟩

lemma loginEnd_stable {D : Discipline (recorded (exec B))} {email password : JsString}
    (r : Except Thrown Reply) : D.Stable i fun s => LoginEnd server i s.2 email password r :=
  (Discipline.history_lasting LoginEnd.mono).stable

lemma safe_loginAccount {email password : JsString} (hlogin : LogsIn actors i email password) :
    (accountsDiscipline B server.rt actors).Safe i
      (fun r s => LoginEnd server i s.2 email password r)
      (do match ← SignupService.authenticate server.rt email password with
          | none => return .error 401 "invalid-credentials"
          | some member =>
            let now ← .perform ServerOp.now
            return ⟨200, .session member (server.sessions.issue member.id
              (timeClip (ofInt (now + sessionTtlMs))))⟩) s := by
  have hbroke {op : ServerOp} {e : Thrown} {t t' : RecordedWorld}
      (h : recorded (exec B) i op t (.error e) t') : (accountsDiscipline B server.rt actors).Safe i
        (fun r s => LoginEnd server i s.2 email password r) (.throw e) t' :=
    .throw (loginEnd_stable _) (.broke (broke_of_error h))
  simp only [SignupService.authenticate, bind_assoc]
  refine .perform_bind (fun _ => True) (.const _) trivial (fun _ _ _ => trivial)
    (fun _ record? t _ _ h => ?_) fun _ _ _ _ _ h => hbroke h
  have hfound := mem_of_recorded h
  cases record? with
  | none => exact .ret (loginEnd_stable _) (.unknown hfound)
  | some record =>
    simp only [bind_assoc]
    refine .perform_bind _ (performed_lasting _).stable hfound (fun _ _ _ => trivial)
      (fun u ok u' _ hu h => ?_) fun _ _ _ _ _ h => hbroke h
    have hfound := subset_of_recorded h hu
    have hverified := mem_of_recorded h
    cases ok with
    | false => exact .ret (loginEnd_stable _) (.wrong record hfound hverified)
    | true =>
      let Accepted (h : List ServerLabel) : Prop :=
        ⟨i, .credentialsFindByEmail (SignupService.normalizeEmail server.rt email),
          .ok (some record)⟩ ∈ h ∧ ⟨i, .verifyPassword password record.passwordHash, .ok true⟩ ∈ h
      have hmono {h h' : List ServerLabel} (haccepted : Accepted h) (hle : h ⊆ h') : Accepted h' :=
        ⟨hle haccepted.1, hle haccepted.2⟩
      have hpre (s : RecordedWorld) (h : Accepted s.2) :
          accountsPre server.rt actors i (.membersFindById record.memberId) s := by
        intro email' password' hlogin'
        obtain ⟨rfl, rfl⟩ := hlogin.unique hlogin'
        exact ⟨record, h.1, h.2, rfl⟩
      refine (safe_findById hmono hpre ⟨hfound, hverified⟩).bind (fun member? v hv => ?_)
        fun e v hv => ?_
      · obtain ⟨hread, haccepted⟩ := hv
        cases hread with
        | absent absent => exact .ret (loginEnd_stable _) (.gone record haccepted.1 absent)
        | found row member read valid =>
          let Found (h : List ServerLabel) : Prop :=
            Accepted h ∧ ⟨i, .membersFindById record.memberId, .ok (some row)⟩ ∈ h
          have hmono' {h h' : List ServerLabel} (hread : Found h) (hle : h ⊆ h') : Found h' :=
            ⟨hmono hread.1 hle, hle hread.2⟩
          refine .perform_bind _ (Discipline.history_lasting hmono').stable ⟨haccepted, read⟩
            (fun _ _ _ => trivial) (fun x now x' _ hx h => ?_) fun _ _ _ _ _ h => hbroke h
          have hx' := hmono' hx (subset_of_recorded h)
          exact .ret (loginEnd_stable _)
            (.session record row member now hx'.1.1 hx'.1.2 hx'.2 valid (mem_of_recorded h))
      · cases hv.1 with
        | broke broke => exact .throw (loginEnd_stable _) (.broke broke)

lemma authenticationEnd_stable {D : Discipline (recorded (exec B))}
    {handles : Member → Except Thrown Reply → Prop} (r : Except Thrown Reply) :
    D.Stable i fun s => AuthenticationEnd server i s.2 request handles r :=
  (Discipline.history_lasting AuthenticationEnd.mono).stable

/-- What a request awaits behind authentication is all that its handler awaits. -/
lemma handler_all {good : ServerOp → Prop} {handler : Member → ServerProg Reply} {token : JsString}
    {id : JsString} {now : ℤ} {row : MemberRow} {member : Member}
    (hall : (withCurrentMember server request handler).All good)
    (htoken : bearerToken request = some token)
    (haccepted : server.sessions.verify token (some now) = some id)
    (hvalid : Db.toMember server.rt row = .ok member) : (handler member).All good := by
  simp only [withCurrentMember, authenticate, htoken, bind_assoc] at hall
  have hnow := hall.of_perform_bind now
  simp only [haccepted, DrizzleMemberRepository.findById, bind_assoc] at hnow
  have hrow := hnow.of_perform_bind (some row)
  simp only [hvalid] at hrow
  exact hrow

/-- Behind authentication a request ends as its handler does, which has nothing to do with accounts
itself. -/
lemma safe_authentication {handles : Member → Except Thrown Reply → Prop}
    {handler : Member → ServerProg Reply}
    (hlogin : ∀ email password, ¬ LogsIn actors i email password)
    (hall : (withCurrentMember server request handler).All ServerOp.OffAccounts)
    (hhandler : ∀ member, (handler member).All ServerOp.OffAccounts → ∀ s,
      (accountsDiscipline B server.rt actors).Safe i (fun r _ => handles member r)
        (handler member) s) :
    (accountsDiscipline B server.rt actors).Safe i
      (fun r s => AuthenticationEnd server i s.2 request handles r)
      (withCurrentMember server request handler) s := by
  cases htoken : bearerToken request with
  | none =>
    simp only [withCurrentMember, authenticate, htoken]
    exact .ret (authenticationEnd_stable _) (.anonymous htoken)
  | some token =>
    simp only [withCurrentMember, authenticate, htoken, bind_assoc]
    refine .perform_bind (fun _ => True) (.const _) trivial (fun _ _ _ => trivial)
      (fun _ now t _ _ h => ?_)
      fun _ _ _ _ _ h => .throw (authenticationEnd_stable _) (.broke (broke_of_error h))
    have hnow := mem_of_recorded h
    cases haccepted : server.sessions.verify token (some now) with
    | none => exact .ret (authenticationEnd_stable _) (.rejected token now htoken hnow haccepted)
    | some memberId =>
      let Read (h : List ServerLabel) : Prop := ⟨i, .now, .ok now⟩ ∈ h
      have hmono {h h' : List ServerLabel} (hread : Read h) (hle : h ⊆ h') : Read h' := hle hread
      have hpre (s : RecordedWorld) (_ : Read s.2) :
          accountsPre server.rt actors i (.membersFindById memberId) s :=
        fun email password h => absurd h (hlogin email password)
      refine (safe_findById hmono hpre hnow).bind (fun member? u hu => ?_) fun e u hu => ?_
      · obtain ⟨hfind, hnow⟩ := hu
        cases hfind with
        | absent absent =>
          exact .ret (authenticationEnd_stable _)
            (.gone token memberId now htoken hnow haccepted absent)
        | found row member read valid =>
          have hhandled := hhandler member (handler_all hall htoken haccepted valid) u
          have hhandled := (hhandled.lasting (performed_lasting _) hnow).lasting
            (performed_lasting _) read
          exact hhandled.mono fun r v hv =>
            .handled token memberId now row member r htoken hv.1.2 haccepted hv.2 valid hv.1.1
      · cases hu.1 with
        | broke broke => exact .throw (authenticationEnd_stable _) (.broke broke)

/-- Whatever does not concern accounts is safe. -/
lemma safe_offAccounts {α : Type} {p : ServerProg α} (hp : p.All ServerOp.OffAccounts)
    (hlogin : ∀ email password, ¬ LogsIn actors i email password) (s : RecordedWorld) :
    (accountsDiscipline B server.rt actors).Safe i (fun _ _ => True) p s := by
  refine .of_all (fun op hop s _ => ?_) hp (fun _ _ => trivial) s
  cases op with
  | credentialsInsert => exact absurd rfl hop.2
  | membersFindById id => exact fun email password h => absurd h (hlogin email password)
  | _ => trivial

lemma safe_postSignup (hclient : actors[i]? = some (.client request))
    (hroute : request.route = .signup) (s : RecordedWorld) :
    (accountsDiscipline B server.rt actors).Safe i
      (fun r s => ∀ input, signupInput? (Json.orEmpty request.body) = some input →
        SignupReply server i s.2 input r) (postSignup server request) s := by
  rw [postSignup]
  cases hinput : signupInput? (Json.orEmpty request.body) with
  | none => exact .ret (fun _ _ _ _ _ h => by cases h) fun _ h => by cases h
  | some input =>
    have hstable (r : Except Thrown Reply) : (accountsDiscipline B server.rt actors).Stable i
        fun s => SignupReply server i s.2 input r :=
          (Discipline.history_lasting SignupReply.mono).stable
    have hfailed {e : Thrown} {t : RecordedWorld} : (accountsDiscipline B server.rt actors).Safe i
        (fun r s => SignupReply server i s.2 input r) (.throw e) t :=
      .throw (hstable _) fun _ h => by cases h
    refine Discipline.Safe.mono (Q := fun r s => SignupReply server i s.2 input r)
      (.tryCatch (Q := fun r s => SignupReply server i s.2 input r) ?_
        (fun _ _ ht => .ret (hstable _) ht) fun e t ht => ?_) fun r t ht input' hinput' => ?_
    · refine (safe_signupAccount ⟨request, hclient, hroute, hinput⟩).bind (fun member t ht => ?_)
        fun _ _ _ => hfailed
      refine .ret (hstable _) ?_
      rintro _ ⟨⟩ -
      exact ⟨member, rfl, ht member rfl⟩
    · cases e with
      | emailAlreadyRegistered =>
        refine .ret (hstable _) ?_
        rintro _ ⟨⟩ ⟨⟩
      | _ => exact hfailed
    · cases hinput'
      exact ht

lemma safe_postLogin (hclient : actors[i]? = some (.client request))
    (hroute : request.route = .login) (s : RecordedWorld) :
    (accountsDiscipline B server.rt actors).Safe i
      (fun r s => ∀ email password,
        nonEmptyString? ((Json.orEmpty request.body).prop? "email") = some email →
        nonEmptyString? ((Json.orEmpty request.body).prop? "password") = some password →
          LoginEnd server i s.2 email password r) (postLogin server request) s := by
  rw [postLogin]
  dsimp only
  cases hemail : nonEmptyString? ((Json.orEmpty request.body).prop? "email") with
  | none => exact .ret (fun _ _ _ _ _ _ h => by cases h) fun _ _ h => by cases h
  | some email =>
    cases hpassword : nonEmptyString? ((Json.orEmpty request.body).prop? "password") with
    | none => exact .ret (fun _ _ _ _ _ _ _ h => by cases h) fun _ _ _ h => by cases h
    | some password =>
      refine (safe_loginAccount ⟨request, hclient, hroute, hemail, hpassword⟩).mono
        fun r t ht email' password' hemail' hpassword' => ?_
      cases hemail'
      cases hpassword'
      exact ht

/-- Every request keeps to the discipline, and ends as it says. -/
lemma safe_request (hclient : actors[i]? = some (.client request)) (s : RecordedWorld) :
    (accountsDiscipline B server.rt actors).Safe i
      (fun r s => AccountEnd server i s.2 request r) (handle server request) s := by
  have hnot (hroute : request.route ≠ .login) :
      ∀ email password, ¬ LogsIn actors i email password := by
    rintro email password ⟨request', hclient', hroute', -⟩
    cases hclient.symm.trans hclient'
    exact hroute hroute'
  have hboard {handler : Member → ServerProg Reply} (hroute : request.route ≠ .login)
      (hall : (withCurrentMember server request handler).All ServerOp.OffAccounts) :
      (accountsDiscipline B server.rt actors).Safe i
        (fun r s => AuthenticationEnd server i s.2 request (fun _ _ => True) r)
        (withCurrentMember server request handler) s :=
    safe_authentication (hnot hroute) hall fun _ hall s => safe_offAccounts hall (hnot hroute) s
  simp only [handle, AccountEnd]
  cases hroute : request.route with
  | postMembers =>
    refine .of_all (fun op hop s _ => ?_) (postMembers_all server request) (fun _ _ => trivial) s
    obtain ⟨member, rfl⟩ := hop
    trivial
  | getMember id =>
    exact safe_offAccounts ((getMember_all server id).mono fun _ h => h.offAccounts)
      (hnot (by simp [hroute])) s
  | signup => exact safe_postSignup hclient hroute s
  | login => exact safe_postLogin hclient hroute s
  | me =>
    refine safe_authentication (hnot (by simp [hroute])) ?_ fun member _ s => ?_
    · exact (getMe_all server request).mono fun _ h => h.offAccounts
    · exact .ret (.const _) rfl
  | publish => exact hboard (by simp [hroute]) (publish_all server request)
  | listWorkItems =>
    exact hboard (by simp [hroute])
      ((listWorkItems_all server request).mono fun _ h => h.offAccounts)
  | claimNext => exact hboard (by simp [hroute]) (claimNext_all server request)
  | start id => exact hboard (by simp [hroute]) (transition_all server request id _ _)
  | complete id => exact hboard (by simp [hroute]) (transition_all server request id _ _)

end Safe

/-! ### Every run -/

/-- A runner has nothing to do with accounts. -/
lemma runOnce_all (deps : AgentRunnerDeps) :
    (AgentRunner.runOnce deps).All ServerOp.OffAccounts := by
  have hreport (action : JsString) (item : WorkItem) (metadata : Option StringRecord) :
      (AgentRunner.report deps action item metadata).All ServerOp.OffAccounts := by
    refine .tryCatch (.perform (by simp [ServerOp.OffAccounts, ServerOp.table])) fun e => ?_
    split_ifs <;> exact .throw _
  refine .bind (.perform (by simp [ServerOp.OffAccounts, ServerOp.table])) fun claimed? => ?_
  cases claimed? with
  | none => exact .ret _
  | some claimed =>
    refine .bind (hreport _ _ _) fun _ => ?_
    refine .bind (.perform (by simp [ServerOp.OffAccounts, ServerOp.table])) fun content => ?_
    refine .bind (.ofExcept _) fun done => ?_
    refine .bind (.perform (by simp [ServerOp.OffAccounts, ServerOp.table])) fun _ => ?_
    exact .bind (hreport _ _ _) fun _ => .ret _

/-- How the request of a client ends; a runner may end in any way. -/
def AccountsEnd (server : Server) (actors : List Actor) (i : ℕ) (r : Except Thrown ActorResult)
    (s : RecordedWorld) : Prop :=
  ∀ request, actors[i]? = some (.client request) →
    ∃ r', r = ActorResult.reply <$> r' ∧ AccountEnd server i s.2 request r'

lemma disciplined_accounts (B : Backend) (server : Server) (actors : List Actor) (w : World)
    (hempty : w.db.credentials.rows = []) :
    Disciplined (accountsDiscipline B server.rt actors) (AccountsEnd server actors)
      ⟨(w, []), actors.map (Actor.program server)⟩ where
  inv := by
    refine ⟨fun record hrecord => ?_, nofun, nofun⟩
    rw [hempty] at hrecord
    cases hrecord
  safe := by
    intro i p hp
    rw [List.getElem?_map, Option.map_eq_some_iff] at hp
    obtain ⟨actor, hactor, rfl⟩ := hp
    cases actor with
    | client request =>
      refine (safe_request hactor _).map _ fun r s hr request' hrequest' => ?_
      cases hactor.symm.trans hrequest'
      exact ⟨r, rfl, hr⟩
    | runner deps =>
      have hlogin : ∀ email password, ¬ LogsIn actors i email password := by
        rintro email password ⟨request, hclient, -⟩
        cases hactor.symm.trans hclient
      refine (safe_offAccounts ((runOnce_all deps).map _) hlogin _).mono fun _ _ _ request h => ?_
      cases hactor.symm.trans h

end WorkspaceOs
