import WorkspaceOs.Effect.Trace
import WorkspaceOs.Server.SessionOrigin

/-!
# What a session is good for

Who has signed up can log in, with the password of the signup and no other, and the token of the
login is good for an hour. What other clients do in the meantime changes nothing about that.
-/

namespace WorkspaceOs

open Js Effect Relational

section Lasting

variable {B : Backend} {i : ℕ} {op : ServerOp} {w w' : World} {a : Except Thrown (ServerAns op)}
  {rt : Runtime}

/-- Credentials are never changed. -/
lemma credential_kept {record : HumanCredentialRecord} (h : exec B i op w a w')
    (hrecord : record ∈ w.db.credentials.rows) : record ∈ w'.db.credentials.rows := by
  by_cases hop : op.table = some .credentials
  · cases op with
    | credentialsInsert inserted =>
      cases a with
      | error e => rwa [exec_error h]
      | ok =>
        obtain ⟨hset, hfree⟩ := exec_credentialsInsert h
        rw [hset, Table.mem_set]
        exact .inr ⟨hrecord, (hfree record hrecord).1⟩
    | _ => cases hop
  · rwa [(exec_framed h).credentials hop]

/-- Members stay stored. -/
lemma member_kept {id : JsString} (h : exec B i op w a w')
    (hstored : (w.db.members.find? id).isSome) :
    (w'.db.members.find? id).isSome :=
  @Stored.step B i op (w, []) (w', [⟨i, op, a⟩]) a id hstored ⟨h, rfl⟩

/-- Every member that is stored can be read. -/
def MembersReadable (rt : Runtime) (w : World) : Prop :=
  ∀ row ∈ w.db.members.rows, ∃ member, Db.toMember rt row = .ok member

lemma toMember_memberRow (rt : Runtime) (member : Member) :
    ∃ member', Db.toMember rt (Db.memberRow member) = .ok member' := by
  refine @Member.create_of_visible rt _ member.type ?_ member.id_visible member.identityRef_visible
    member.displayName_visible
  show MemberType.of? (some (.str member.type.name)) = some member.type
  cases member.type <;> rfl

lemma membersReadable_kept (h : exec B i op w a w') (hreadable : MembersReadable rt w) :
    MembersReadable rt w' := by
  by_cases hop : op.table = some .members
  · cases op with
    | membersSave member =>
      cases a with
      | error e => rwa [exec_error h]
      | ok =>
        intro row hrow
        rw [(exec_membersSave h).1, Table.mem_set] at hrow
        rcases hrow with rfl | ⟨hrow, -⟩
        · exact toMember_memberRow rt member
        · exact hreadable row hrow
    | _ => cases hop
  · rwa [MembersReadable, (exec_framed h).members hop]

end Lasting

section Runs

variable {B : Backend} {server : Server} {scrypt : Auth.Scrypt} {actors : List Actor} {w : World}
  {ls₁ ls₂ : List ServerLabel} {c₁ c₂ : Config ServerOp ServerAns Thrown ActorResult World}
  {i j k : ℕ}

/-- What program `j` performed it performed in the second of two runs. -/
lemma mem_later {l : ServerLabel} (hlater : ∀ l ∈ ls₁, l.thread ≠ j) (hl : l ∈ ls₁ ++ ls₂)
    (hthread : l.thread = j) : l ∈ ls₂ := by
  rcases List.mem_append.mp hl with h | h
  · exact absurd hthread (hlater l h)
  · exact h

/-- The world in which a label of a run was performed, with what has been true from the
beginning. -/
lemma exec_of_mem {P : World → Prop} {l : ServerLabel}
    (hP : ∀ i op w a w', exec B i op w a w' → P w → P w') (run : Run (exec B) c₁ ls₂ c₂)
    (hl : l ∈ ls₂) (h : P c₁.store) :
    ∃ w₁ w₂, P w₁ ∧ exec B l.thread l.op w₁ l.ans w₂ := by
  obtain ⟨pre, post, w₁, w₂, -, before, step, -⟩ := run.trace.of_mem hl
  exact ⟨w₁, w₂, before.keeps hP h, step⟩

/-- The credential that a signup makes of a salt. -/
def credentialOf (rt : Runtime) (scrypt : Auth.Scrypt) (input : SignupInput) (member : Member)
    (salt : Bytes) : HumanCredentialRecord where
  memberId := member.id
  email := SignupService.normalizeEmail rt input.email
  passwordHash := Auth.hashPassword scrypt salt input.password

/-- The credential of a signup that was answered 201 is stored from then on. -/
lemma exists_credential (before : Run (exec B) ⟨w, actors.map (Actor.program server)⟩ ls₁ c₁)
    (hgenuine : ∀ l ∈ ls₁, Genuine scrypt l) {input : SignupInput} {member : Member}
    (hdone : SignupDone server k ls₁ input member) : ∃ salt : Bytes, salt.length = 16 ∧
      credentialOf server.rt scrypt input member salt ∈ c₁.store.db.credentials.rows := by
  obtain ⟨uuid, passwordHash, -, -, hhashed, hinserted⟩ := hdone
  obtain ⟨salt, hsalt, rfl⟩ : Auth.Hashes scrypt input.password passwordHash := hgenuine _ hhashed
  obtain ⟨pre, post, w₁, w₂, -, -, step, after⟩ := before.trace.of_mem hinserted
  have hstored : credentialOf server.rt scrypt input member salt ∈ w₂.db.credentials.rows := by
    rw [(exec_credentialsInsert step).1]
    exact Table.mem_set.mpr (.inl rfl)
  have hkept := Trace.keeps
    (P := fun w => credentialOf server.rt scrypt input member salt ∈ w.db.credentials.rows)
    (fun _ _ _ _ _ => credential_kept) after hstored
  exact ⟨salt, hsalt, hkept⟩

/-- A login finds the credential of its email. -/
lemma found_eq {record : HumanCredentialRecord} {found : Option HumanCredentialRecord}
    (hrecord : record ∈ c₁.store.db.credentials.rows) (after : Run (exec B) c₁ ls₂ c₂)
    (hfound : ⟨j, .credentialsFindByEmail record.email, .ok found⟩ ∈ ls₂) :
    found = some record := by
  have hkept : ∀ i op w a w', exec B i op w a w' → record ∈ w.db.credentials.rows →
      record ∈ w'.db.credentials.rows := fun _ _ _ _ _ => credential_kept
  obtain ⟨w₁, w₂, hrecord₁, step⟩ := exec_of_mem hkept after hfound hrecord
  rw [(exec_credentialsFindByEmail step).1]
  exact Db.findCredential_eq_some.mpr ⟨hrecord₁, rfl⟩

/-- A member that is stored is found. -/
lemma find_ne_none {id : JsString} (hstored : (c₁.store.db.members.find? id).isSome)
    (after : Run (exec B) c₁ ls₂ c₂) : ⟨j, .membersFindById id, .ok none⟩ ∉ ls₂ := by
  intro habsent
  obtain ⟨w₁, w₂, hstored₁, step⟩ := exec_of_mem (P := fun w => (w.db.members.find? id).isSome)
    (fun _ _ _ _ _ => member_kept) after habsent hstored
  rw [← (exec_membersFindById step).1] at hstored₁
  cases hstored₁

/-- A program that has no fault does not break: what it reads can be read. -/
lemma not_broke (hlater : ∀ l ∈ ls₁, l.thread ≠ j) (hworks : ∀ op e, ⟨j, op, .error e⟩ ∉ ls₂)
    (hreadable : MembersReadable server.rt c₁.store) (after : Run (exec B) c₁ ls₂ c₂) :
    ¬ Broke server j (ls₁ ++ ls₂) := by
  rintro (⟨op, e, hfault⟩ | ⟨id, row, e, hread, hinvalid⟩)
  · exact hworks op e (mem_later hlater hfault rfl)
  · have hkept : ∀ i op w a w', exec B i op w a w' → MembersReadable server.rt w →
        MembersReadable server.rt w' := fun _ _ _ _ _ => membersReadable_kept
    obtain ⟨w₁, w₂, hreadable₁, step⟩ :=
      exec_of_mem hkept after (mem_later hlater hread rfl) hreadable
    have hrow := Table.mem_of_find? (exec_membersFindById step).1.symm
    obtain ⟨member, hvalid⟩ := hreadable₁ row hrow
    rw [hinvalid] at hvalid
    cases hvalid

/-- A signup that was answered 201 has made the member of its reply. -/
lemma signup_end (hempty : w.db.credentials.rows = [])
    (run : Run (exec B) ⟨w, actors.map (Actor.program server)⟩ ls₁ c₁) {input : SignupInput}
    {reply : Reply} (hsignup : SignsUp actors k input)
    (hended : c₁.pool[k]? = some (.ret (.reply reply))) (hcode : reply.code = 201) :
    ∃ member, reply.body = .member member ∧ SignupDone server k ls₁ input member := by
  obtain ⟨request, hclient, hroute, hinput⟩ := hsignup
  have hrun := (disciplined_accounts B server actors w hempty).run run.recorded
  obtain ⟨r, hr, hend⟩ :=
    hrun.result (show _ = some (Prog.ofExcept (.ok _)) from hended) request hclient
  simp only [AccountEnd, hroute] at hend
  cases r with
  | error => cases hr
  | ok reply' =>
    cases hr
    exact hend input hinput _ rfl hcode

/-- How a login has ended. -/
lemma login_end (hempty : w.db.credentials.rows = [])
    (run : Run (exec B) ⟨w, actors.map (Actor.program server)⟩ ls₁ c₁) {email password : JsString}
    {r : Except Thrown ActorResult} (hlogin : LogsIn actors j email password)
    (hended : c₁.pool[j]? = some (.ofExcept r)) :
    ∃ r', r = ActorResult.reply <$> r' ∧ LoginEnd server j ls₁ email password r' := by
  obtain ⟨request, hclient, hroute, hemail, hpassword⟩ := hlogin
  have hrun := (disciplined_accounts B server actors w hempty).run run.recorded
  obtain ⟨r', hr, hend⟩ := hrun.result hended request hclient
  simp only [AccountEnd, hroute] at hend
  exact ⟨r', hr, hend email password hemail hpassword⟩

/-- A login that begins after a signup with its email has been answered 201 is answered with a
session of the member that the signup has made, if its password has the same key as that of the
signup, and 401 if it has not; whatever everybody else does in the meantime. -/
theorem login_after_signup (hempty : w.db.credentials.rows = [])
    (hreadable : MembersReadable server.rt w)
    (before : Run (exec B) ⟨w, actors.map (Actor.program server)⟩ ls₁ c₁)
    (after : Run (exec B) c₁ ls₂ c₂) (hgenuine : ∀ l ∈ ls₁ ++ ls₂, Genuine scrypt l)
    {input : SignupInput} {reply : Reply} (hsignup : SignsUp actors k input)
    (hsigned : c₁.pool[k]? = some (.ret (.reply reply))) (hcode : reply.code = 201)
    {email password : JsString} {r : Except Thrown ActorResult}
    (hlogin : LogsIn actors j email password)
    (hemail : SignupService.normalizeEmail server.rt email =
      SignupService.normalizeEmail server.rt input.email)
    (hlater : ∀ l ∈ ls₁, l.thread ≠ j) (hworks : ∀ op e, ⟨j, op, .error e⟩ ∉ ls₂)
    (hended : c₂.pool[j]? = some (.ofExcept r)) :
    ∃ salt member, salt.length = 16 ∧ reply.body = .member member ∧
      if scrypt.derive password salt Auth.keyLen =
        scrypt.derive input.password salt Auth.keyLen then
        ∃ member' t, member'.id = member.id ∧ ⟨j, .now, .ok t⟩ ∈ ls₂ ∧
          r = .ok (.reply ⟨200, .session member' (server.sessions.issue member.id
            (timeClip (ofInt (t + sessionTtlMs))))⟩)
      else r = .ok (.reply (.error 401 "invalid-credentials")) := by
  have run := before.append after
  obtain ⟨member, hbody, hdone⟩ := signup_end hempty before hsignup hsigned hcode
  obtain ⟨salt, hsalt, hstored⟩ :=
    exists_credential before (fun l hl => hgenuine l (List.mem_append_left _ hl)) hdone
  obtain ⟨r', rfl, hend⟩ := login_end hempty run hlogin hended
  have hcredential {found : Option HumanCredentialRecord}
      (h : ⟨j, .credentialsFindByEmail (SignupService.normalizeEmail server.rt email), .ok found⟩ ∈
        ls₁ ++ ls₂) : found = some (credentialOf server.rt scrypt input member salt) := by
    rw [hemail] at h
    exact found_eq hstored after (mem_later hlater h rfl)
  have hverified {ok : Bool}
      (h : ⟨j, .verifyPassword password (Auth.hashPassword scrypt salt input.password), .ok ok⟩ ∈
        ls₁ ++ ls₂) : (scrypt.derive password salt Auth.keyLen =
          scrypt.derive input.password salt Auth.keyLen) ↔ ok = true := by
    have hverify : Auth.verifyPassword scrypt password _ = .ok ok := hgenuine _ h
    rw [Auth.verifyPassword_hashPassword, Except.ok.injEq] at hverify
    rw [← hverify, beq_iff_eq, eq_comm]
  refine ⟨salt, member, hsalt, hbody, ?_⟩
  cases hend with
  | unknown found => cases hcredential found
  | wrong record found rejected =>
    cases hcredential found
    rw [if_neg fun h => by cases (hverified rejected).mp h]
    rfl
  | gone record found absent =>
    cases hcredential found
    have hmember := c₁.store.db.credential_member _ hstored
    exact absurd (mem_later hlater absent rfl) (find_ne_none hmember after)
  | session record row member' t found accepted read valid now =>
    cases hcredential found
    rw [if_pos ((hverified accepted).mpr rfl)]
    have hinv := ((disciplined_accounts B server actors w hempty).run run.recorded).inv
    have hid : member'.id = member.id :=
      (Db.toMember_ok valid).1.trans (hinv.members j _ row read).1
    refine ⟨member', t, hid, mem_later hlater now rfl, ?_⟩
    rw [← hid]
    rfl
  | broke broke =>
    have hreadable₁ := Trace.keeps (P := MembersReadable server.rt)
      (fun _ _ _ _ _ => membersReadable_kept) before.trace hreadable
    exact absurd broke (not_broke hlater hworks hreadable₁ after)

/-- The run of Ada's requests in two parts. -/
def adasRun (n m : ℕ) :
    Option ((List ServerLabel × Config ServerOp ServerAns Thrown ActorResult World) ×
    List ServerLabel × Config ServerOp ServerAns Thrown ActorResult World) :=
  (follow (World.attempt .faultless) (adasSchedule.take n)
    ⟨⟨Db.empty, []⟩, adasRequests.map (Actor.program sessionServer)⟩).bind fun before =>
      (follow (World.attempt .faultless) ((adasSchedule.drop n).take m) before.2).map fun after =>
        (before, after)

def reply? : ServerProg ActorResult → Option Reply
  | .ret (.reply reply) => some reply
  | _ => none

/-- What the two parts are for a program that has all its part of the run in the second, does not
fail and is answered 200; the other one has been answered in the first. -/
def answeredTwice (i j : ℕ) (good : Reply → Bool)
    (run : (List ServerLabel × Config ServerOp ServerAns Thrown ActorResult World) ×
      List ServerLabel × Config ServerOp ServerAns Thrown ActorResult World) :
    Bool :=
  (run.1.1 ++ run.2.1).all genuine? && run.1.1.all (fun l => l.thread != i) &&
    run.2.1.all (fun l => l.ans.isOk) && (run.1.2.pool[j]?.bind reply?).any good &&
    (run.2.2.pool[i]?.bind reply?).any fun reply => reply.code == 200

lemma reply_of_reply? {p : Option (ServerProg ActorResult)} {reply : Reply}
    (h : p.bind reply? = some reply) : p = some (.ofExcept (.ok (.reply reply))) := by
  obtain ⟨p, rfl, h⟩ := Option.bind_eq_some_iff.mp h
  match p, h with
  | .ret (.reply reply), rfl => rfl

lemma exists_adasRun {n m i j : ℕ} {good : Reply → Bool}
    (h : (adasRun n m).map (answeredTwice i j good) = some true) : ∃ ls₁ c₁ ls₂ c₂ first second,
      Run (exec .faultless)
        ⟨⟨Db.empty, []⟩, adasRequests.map (Actor.program sessionServer)⟩ ls₁ c₁ ∧
      Run (exec .faultless) c₁ ls₂ c₂ ∧ (∀ l ∈ ls₁ ++ ls₂, Genuine someScrypt l) ∧
      (∀ l ∈ ls₁, l.thread ≠ i) ∧ (∀ op e, ⟨i, op, .error e⟩ ∉ ls₂) ∧
      c₁.pool[j]? = some (.ret (.reply first)) ∧ good first = true ∧
      c₂.pool[i]? = some (.ofExcept (.ok (.reply second))) ∧ second.code = 200 := by
  obtain ⟨⟨⟨ls₁, c₁⟩, ls₂, c₂⟩, hrun, hchecks⟩ := Option.map_eq_some_iff.mp h
  obtain ⟨before, hbefore, hrun⟩ := Option.bind_eq_some_iff.mp hrun
  obtain ⟨after, hafter, hrun⟩ := Option.map_eq_some_iff.mp hrun
  cases hrun
  simp only [answeredTwice, Bool.and_eq_true, List.all_eq_true, bne_iff_ne] at hchecks
  obtain ⟨⟨⟨⟨hgenuine, hlater⟩, hworks⟩, hfirst⟩, hsecond⟩ := hchecks
  obtain ⟨first, hfirst, hgood⟩ := (Option.any_eq_true _ _).mp hfirst
  obtain ⟨second, hsecond, hcode⟩ := (Option.any_eq_true _ _).mp hsecond
  refine ⟨ls₁, c₁, ls₂, c₂, first, second, run_of_follow hbefore, run_of_follow hafter,
    fun l hl => genuine_of_genuine? (hgenuine l hl), hlater, fun op e he => ?_,
    reply_of_reply? hfirst, hgood, reply_of_reply? hsecond, eq_of_beq hcode⟩
  cases hworks _ he

theorem login_after_signup_ada : ∃ ls₁ c₁ ls₂ c₂,
    Run (exec .faultless) ⟨⟨Db.empty, []⟩, adasRequests.map (Actor.program sessionServer)⟩ ls₁ c₁ ∧
    Run (exec .faultless) c₁ ls₂ c₂ ∧
    ∃ member token, c₂.pool[1]? = some (.ret (.reply ⟨200, .session member token⟩)) := by
  obtain ⟨ls₁, c₁, ls₂, c₂, first, second, before, after, hgenuine, hlater, hworks, hsigned, hcode,
    hended, -⟩ := @exists_adasRun 5 4 1 0 (fun reply => reply.code == 201) (by decide +kernel)
  have hsignup : SignsUp adasRequests 0 .ada := ⟨signupRequest, rfl, rfl, rfl⟩
  have hlogin : LogsIn adasRequests 1 "ada@example.org" "p" := ⟨loginRequest, rfl, rfl, rfl, rfl⟩
  obtain ⟨salt, member, -, -, hsession⟩ :=
    login_after_signup rfl (fun _ h => by cases h) before after
    hgenuine hsignup hsigned (eq_of_beq hcode) hlogin (by decide +kernel) hlater hworks hended
  have hsame : someScrypt.derive "p" salt Auth.keyLen =
      someScrypt.derive SignupInput.ada.password salt Auth.keyLen := rfl
  rw [if_pos hsame] at hsession
  obtain ⟨member', t, -, -, hreply⟩ := hsession
  cases hreply
  exact ⟨ls₁, c₁, ls₂, c₂, before, after, _, _, hended⟩

/-- A member that has been read stays stored. -/
lemma isSome_of_read {id : JsString} {row : MemberRow} (before : Run (exec B) ⟨w, actors.map
    (Actor.program server)⟩ ls₁ c₁) (hread : ⟨j, .membersFindById id, .ok (some row)⟩ ∈ ls₁) :
    (c₁.store.db.members.find? id).isSome := by
  obtain ⟨pre, post, w₁, w₂, -, -, step, after⟩ := before.trace.of_mem hread
  refine Trace.keeps (P := fun w => (w.db.members.find? id).isSome) (fun _ _ _ _ _ => member_kept)
    after ?_
  obtain ⟨hfind, hw⟩ := exec_membersFindById step
  rw [hw, ← hfind]
  rfl

/-- A request with the token of a login that has been answered is answered with the member of that
login for an hour, and 401 afterwards; whatever everybody else does in the meantime. -/
theorem session_serves {hmac : Bytes → Bytes → Bytes} {service : Auth.SessionTokenService}
    (hserver : server.sessions = service.sessions hmac) (hempty : w.db.credentials.rows = [])
    (hreadable : MembersReadable server.rt w)
    (before : Run (exec B) ⟨w, actors.map (Actor.program server)⟩ ls₁ c₁)
    (after : Run (exec B) c₁ ls₂ c₂)
    (hclock : ∀ i (t : ℤ), ⟨i, .now, .ok t⟩ ∈ ls₁ ++ ls₂ → t.natAbs ≤ maxTime)
    {email password : JsString} (hlogin : LogsIn actors j email password) {member : Member}
    {token : JsString} (hsession : c₁.pool[j]? = some (.ret (.reply ⟨200, .session member token⟩)))
    {request : HttpRequest} (hclient : actors[i]? = some (.client request))
    (hroute : request.route = .me) (hheader : request.authorization = some ("Bearer " ++ token))
    {r : Except Thrown ActorResult} (hlater : ∀ l ∈ ls₁, l.thread ≠ i)
    (hworks : ∀ op e, ⟨i, op, .error e⟩ ∉ ls₂) (hended : c₂.pool[i]? = some (.ofExcept r)) :
    ∃ t₀ t, ⟨j, .now, .ok t₀⟩ ∈ ls₁ ∧ ⟨i, .now, .ok t⟩ ∈ ls₂ ∧
      if t < t₀ + sessionTtlMs ∧ (t₀ + sessionTtlMs).natAbs ≤ maxTime then
        ∃ member', member'.id = member.id ∧ r = .ok (.reply ⟨200, .member member'⟩)
      else r = .ok (.reply (.error 401 "unauthenticated")) := by
  have run := before.append after
  have hbefore := (disciplined_accounts B server actors w hempty).run before.recorded
  have hrun := (disciplined_accounts B server actors w hempty).run run.recorded
  obtain ⟨r₀, hr₀, hlogged⟩ :=
    login_end hempty before hlogin (show _ = some (Prog.ofExcept (.ok _)) from hsession)
  obtain ⟨r', rfl, hend⟩ := hrun.result hended request hclient
  simp only [AccountEnd, hroute] at hend
  cases hlogged with
  | unknown | wrong | gone | broke => cases hr₀
  | session record row member t₀ found accepted read valid now₀ =>
    cases hr₀
    have hmember : (c₁.store.db.members.find? member.id).isSome := by
      rw [(Db.toMember_ok valid).1, (hbefore.inv.members j _ row read).1]
      exact isSome_of_read before read
    have htoken : bearerToken request =
        some (service.issue hmac member.id (timeClip (ofInt (t₀ + sessionTtlMs)))) := by
      rw [hserver] at hheader
      apply Auth.SessionTokenService.bearerToken_of_header hheader
      · exact List.append_ne_nil_of_right_ne_nil _ (List.cons_ne_nil _ _)
      · exact fun _ => Auth.SessionTokenService.not_isSpace_of_mem_issue
    have hverify {t : ℤ} (h : ⟨i, .now, .ok t⟩ ∈ ls₁ ++ ls₂) := @verify_session hmac service
      member.id t t₀ (hclock i t h) (hclock j t₀ (List.mem_append_left _ now₀))
    cases hend with
    | anonymous anonymous => cases htoken.symm.trans anonymous
    | rejected token' t presented now rejected =>
      cases htoken.symm.trans presented
      refine ⟨t₀, t, now₀, mem_later hlater now rfl, ?_⟩
      rw [hserver, hverify now] at rejected
      split_ifs at rejected with hfresh
      rw [if_neg hfresh]
      rfl
    | gone token' id t presented now accepted absent =>
      cases htoken.symm.trans presented
      rw [hserver, hverify now] at accepted
      split_ifs at accepted
      cases accepted
      exact absurd (mem_later hlater absent rfl) (find_ne_none hmember after)
    | handled token' id t row' member' _ presented now accepted read' valid' handled =>
      cases htoken.symm.trans presented
      refine ⟨t₀, t, now₀, mem_later hlater now rfl, ?_⟩
      rw [hserver, hverify now] at accepted
      split_ifs at accepted with hfresh
      cases accepted
      rw [if_pos hfresh, handled]
      exact ⟨member', (Db.toMember_ok valid').1.trans (hrun.inv.members i _ row' read').1, rfl⟩
    | broke broke =>
      have hreadable₁ := Trace.keeps (P := MembersReadable server.rt)
        (fun _ _ _ _ _ => membersReadable_kept) before.trace hreadable
      exact absurd broke (not_broke hlater hworks hreadable₁ after)

/-- The token of the reply is the one that the last request presents. -/
def holdsToken : Reply → Bool
  | ⟨code, .session _ token⟩ => code == 200 && token == someToken
  | _ => false

lemma of_holdsToken {reply : Reply} (h : holdsToken reply = true) :
    ∃ member, reply = ⟨200, .session member someToken⟩ := by
  obtain ⟨code, body⟩ := reply
  cases body with
  | session member token =>
    simp only [holdsToken, Bool.and_eq_true, beq_iff_eq] at h
    rw [h.1, h.2]
    exact ⟨member, rfl⟩
  | _ => cases h

theorem session_serves_ada : ∃ ls₁ c₁ ls₂ c₂,
    Run (exec .faultless) ⟨⟨Db.empty, []⟩, adasRequests.map (Actor.program sessionServer)⟩ ls₁ c₁ ∧
    Run (exec .faultless) c₁ ls₂ c₂ ∧
    ∃ member, c₂.pool[2]? = some (.ret (.reply ⟨200, .member member⟩)) := by
  obtain ⟨ls₁, c₁, ls₂, c₂, first, second, before, after, hgenuine, hlater, hworks, hlogged, htoken,
    hended, hcode⟩ := @exists_adasRun 9 2 2 1 holdsToken (by decide +kernel)
  obtain ⟨member, rfl⟩ := of_holdsToken htoken
  have hlogin : LogsIn adasRequests 1 "ada@example.org" "p" := ⟨loginRequest, rfl, rfl, rfl, rfl⟩
  have hserver : sessionServer.sessions =
      Auth.SessionTokenService.someSecret.sessions Auth.SessionTokenService.someHmac := rfl
  have hreadable : MembersReadable sessionServer.rt ⟨Db.empty, []⟩ := fun _ h => by cases h
  have hclock (i : ℕ) (t : ℤ) (h : ⟨i, .now, .ok t⟩ ∈ ls₁ ++ ls₂) : t.natAbs ≤ maxTime := by
    have hnow : Genuine someScrypt ⟨i, .now, .ok t⟩ := hgenuine _ h
    exact hnow
  have hclient : adasRequests[2]? = some (.client meRequest) := rfl
  obtain ⟨t₀, t, -, -, hreply⟩ := session_serves hserver rfl hreadable before after hclock hlogin
    hlogged hclient rfl rfl hlater hworks hended
  split_ifs at hreply
  · obtain ⟨member', -, hreply⟩ := hreply
    cases hreply
    exact ⟨ls₁, c₁, ls₂, c₂, before, after, member', hended⟩
  · cases hreply
    cases hcode

end Runs

end WorkspaceOs
