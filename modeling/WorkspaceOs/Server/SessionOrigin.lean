import WorkspaceOs.Server.Accounts
import WorkspaceOs.Server.Attribution
import WorkspaceOs.Server.Identity
import WorkspaceOs.Server.Password

/-!
# Where a session comes from

Whatever the clients of the server send, and however their requests interleave: who is served as a
member presents a token that a login was given less than an hour before, and that login knew the
password with which the member signed up. The HMAC and the password hash are parameters, and what is
assumed of the HMAC is that nobody else makes one.
-/

namespace WorkspaceOs

open Js Effect Relational

/-- The answers of the functions of the process: hashes of `scrypt`, and the times of valid
dates. -/
def Genuine (scrypt : Auth.Scrypt) : ServerLabel → Prop
  | ⟨_, .hashPassword password, .ok passwordHash⟩ => Auth.Hashes scrypt password passwordHash
  | ⟨_, .verifyPassword password passwordHash, .ok ok⟩ =>
    Auth.verifyPassword scrypt password passwordHash = .ok ok
  | ⟨_, .now, .ok t⟩ => t.natAbs ≤ maxTime
  | _ => True

/-- The routes behind authentication. -/
def Route.NeedsSession (route : Route) : Prop :=
  route = .me ∨ route = .listWorkItems ∨ route.ChangesBoard

/-- The email and the password of a login. -/
def Actor.login? : Actor → Option (JsString × JsString)
  | .client request =>
    if request.route = .login then do
      let email ← nonEmptyString? ((Json.orEmpty request.body).prop? "email")
      let password ← nonEmptyString? ((Json.orEmpty request.body).prop? "password")
      return (email, password)
    else none
  | .runner _ => none

/-- The call of `issue` of a login that has read the clock. -/
def sessionCall (memberId : JsString) (now : ℤ) : Auth.IssueCall where
  memberId := memberId
  expiresAt := .ofNumber (ofInt (now + sessionTtlMs))

/-- The tokens that have been issued: a login issues one for the member that it has found, when it
has read the clock. -/
def issued (actors : List Actor) (history : List ServerLabel) : List Auth.IssueCall :=
  history.flatMap fun
    | ⟨j, .now, .ok now⟩ =>
      if (actors[j]?.bind Actor.login?).isSome then
        history.filterMap fun
          | ⟨i, .membersFindById _, .ok (some row)⟩ =>
            if i = j then some (sessionCall row.id now) else none
          | _ => none
      else []
    | _ => []

section Issued

variable {actors : List Actor} {history : List ServerLabel} {call : Auth.IssueCall} {j : ℕ}

lemma exists_logsIn_of_login? (h : (actors[j]?.bind Actor.login?).isSome) :
    ∃ email password, LogsIn actors j email password := by
  obtain ⟨⟨email, password⟩, h⟩ := Option.isSome_iff_exists.mp h
  obtain ⟨actor, hactor, h⟩ := Option.bind_eq_some_iff.mp h
  cases actor with
  | runner => cases h
  | client request =>
    simp only [Actor.login?] at h
    split_ifs at h with hroute
    obtain ⟨email, hemail, h⟩ := Option.bind_eq_some_iff.mp h
    obtain ⟨password, hpassword, h⟩ := Option.bind_eq_some_iff.mp h
    exact ⟨email, password, request, hactor, hroute, hemail, hpassword⟩

lemma of_mem_issued (h : call ∈ issued actors history) :
    ∃ j now id row email password, LogsIn actors j email password ∧
      ⟨j, .now, .ok now⟩ ∈ history ∧ ⟨j, .membersFindById id, .ok (some row)⟩ ∈ history ∧
      call = sessionCall row.id now := by
  obtain ⟨l, hl, hcall⟩ := List.mem_flatMap.mp h
  split at hcall
  · rename_i j now
    split_ifs at hcall with hlogin
    · obtain ⟨l', hl', hread⟩ := List.mem_filterMap.mp hcall
      obtain ⟨email, password, hlogs⟩ := exists_logsIn_of_login? hlogin
      split at hread
      · rename_i i id row
        split_ifs at hread with hij
        subst hij
        exact ⟨i, now, id, row, email, password, hlogs, hl, hl', (Option.some.inj hread).symm⟩
      · cases hread
    · cases hcall
  · cases hcall

end Issued

/-- Why a request is served as a member: when it has read the clock, at `t`, its token is the one
that login `j` was given at `t₀`, not more than an hour before; the login gave the email with which
the member signed up, by `k`, and a password that is hashed to the same key. -/
structure Backed (rt : Runtime) (scrypt : Auth.Scrypt) (hmac : Bytes → Bytes → Bytes)
    (service : Auth.SessionTokenService) (actors : List Actor) (request : HttpRequest) (i : ℕ)
    (memberId : JsString) (history : List ServerLabel) (j k : ℕ) (t t₀ : ℤ) : Prop where
  token : bearerToken request =
    some (service.issue hmac memberId (some (t₀ + sessionTtlMs)))
  fresh : t < t₀ + sessionTtlMs
  order : ∃ pre post, history = pre ++ ⟨i, .now, .ok t⟩ :: post ∧ ⟨j, .now, .ok t₀⟩ ∈ pre
  member : ∃ uuid, Drew history k uuid ∧ memberId = "m_" ++ uuid
  password : ∃ email password input salt, LogsIn actors j email password ∧ SignsUp actors k input ∧
    SignupService.normalizeEmail rt email = SignupService.normalizeEmail rt input.email ∧
    scrypt.derive password salt Auth.keyLen = scrypt.derive input.password salt Auth.keyLen

/-- Nobody but the service makes an HMAC: whatever a request presents when it reads the clock. -/
def NobodyForges (hmac : Bytes → Bytes → Bytes) (service : Auth.SessionTokenService)
    (actors : List Actor) (ls : List ServerLabel) : Prop :=
  ∀ pre i t post, ls = pre ++ ⟨i, .now, .ok t⟩ :: post → ∀ request token,
    actors[i]? = some (.client request) → bearerToken request = some token →
      Auth.Unforgeable hmac service (issued actors pre) token

section Backed

variable {rt : Runtime} {server : Server} {scrypt : Auth.Scrypt} {hmac : Bytes → Bytes → Bytes}
  {service : Auth.SessionTokenService} {actors : List Actor} {request : HttpRequest} {i : ℕ}
  {w : World} {memberId : JsString} {history post : List ServerLabel}

/-- The token of a login is accepted for an hour, if the hour ends before dates do. -/
lemma verify_session {id : JsString} {t t₀ : ℤ} (ht : t.natAbs ≤ maxTime)
    (ht₀ : t₀.natAbs ≤ maxTime) :
    (service.sessions hmac).verify (service.issue hmac id (timeClip (ofInt (t₀ + sessionTtlMs))))
      (some t) =
      if t < t₀ + sessionTtlMs ∧ (t₀ + sessionTtlMs).natAbs ≤ maxTime then some id else none := by
  have hmax : maxTime < 2 ^ 53 := by decide
  have hsmall : (t₀ + sessionTtlMs).natAbs < 2 ^ 53 := by
    simp only [maxTime, sessionTtlMs] at *
    omega
  have hexpired : ofInt (t₀ + sessionTtlMs) ≤ TimeValue.toNumber (some t) ↔ t₀ + sessionTtlMs ≤ t :=
    ofInt_le_ofInt_iff hsmall (ht.trans_lt hmax)
  simp only [Auth.SessionTokenService.sessions, Auth.SessionTokenService.verify_issue,
    Auth.SessionTokenService.readClaims_payloadOf, timeClip_ofInt hsmall]
  by_cases hrange : (t₀ + sessionTtlMs).natAbs ≤ maxTime
  · rw [if_pos hrange]
    dsimp only
    by_cases hfresh : t < t₀ + sessionTtlMs
    · rw [if_neg (hexpired.not.mpr (not_le.mpr hfresh)), if_pos ⟨hfresh, hrange⟩]
      rfl
    · rw [if_pos (hexpired.mpr (not_lt.mp hfresh)), if_neg fun h => hfresh h.1]
      rfl
  · rw [if_neg hrange, if_neg fun h => hrange h.2]
    rfl

/-- A password that is accepted for the hash of another one has the same key. -/
lemma exists_salt {password password' passwordHash : JsString}
    (hhashes : Auth.Hashes scrypt password' passwordHash)
    (haccepted : Auth.verifyPassword scrypt password passwordHash = .ok true) : ∃ salt,
      scrypt.derive password salt Auth.keyLen = scrypt.derive password' salt Auth.keyLen := by
  obtain ⟨salt, -, rfl⟩ := hhashes
  rw [Auth.verifyPassword_hashPassword, Except.ok.injEq, beq_iff_eq] at haccepted
  exact ⟨salt, haccepted.symm⟩

/-- An accepted token is that of a call whose hour is not over. -/
lemma fresh_of_accepted {t t₀ : ℤ} {id : JsString} (ht : t.natAbs ≤ maxTime)
    (ht₀ : t₀.natAbs ≤ maxTime)
    (h : (service.sessions hmac).verify ((sessionCall id t₀).token hmac service) (some t) =
      some memberId) :
    t < t₀ + sessionTtlMs ∧ (sessionCall id t₀).token hmac service =
      service.issue hmac id (some (t₀ + sessionTtlMs)) := by
  have hverify := (@verify_session hmac service id t t₀ ht ht₀).symm.trans h
  split_ifs at hverify with hfresh
  have hsmall : (t₀ + sessionTtlMs).natAbs < 2 ^ 53 := hfresh.2.trans_lt (by decide)
  refine ⟨hfresh.1, congrArg (service.issue hmac id) ?_⟩
  show timeClip _ = _
  rw [timeClip_ofInt hsmall, if_pos hfresh.2]

/-- A token that is accepted was issued by a login whose password had been accepted. -/
lemma backed_of_accepted (hinv : AccountsInv rt actors (w, history))
    (hgenuine : ∀ l ∈ history, Genuine scrypt l)
    (hforges : NobodyForges hmac service actors (history ++ post))
    (hserver : server.sessions = service.sessions hmac)
    (hclient : actors[i]? = some (.client request))
    (hauthenticated : ∃ token t, bearerToken request = some token ∧ ⟨i, .now, .ok t⟩ ∈ history ∧
      server.sessions.verify token (some t) = some memberId) :
    ∃ j k t t₀, Backed rt scrypt hmac service actors request i memberId history j k t t₀ := by
  obtain ⟨token, t, htoken, hnow, haccepted⟩ := hauthenticated
  rw [hserver] at haccepted
  obtain ⟨pre, rest, hsplit⟩ := List.append_of_mem hnow
  have hunforgeable :=
    hforges pre i t (rest ++ post) (by rw [hsplit]; simp) request token hclient htoken
  obtain ⟨call, hcall, rfl, rfl⟩ :=
    Auth.SessionTokenService.exists_call_of_sessions hunforgeable haccepted
  obtain ⟨j, t₀, id, row, email, password, hlogs, hnow₀, hread, rfl⟩ := of_mem_issued hcall
  have hle : pre ⊆ history := by
    rw [hsplit]
    exact List.subset_append_left _ _
  obtain ⟨hfresh, htokenEq⟩ :=
    fresh_of_accepted (hgenuine _ hnow) (hgenuine _ (hle hnow₀)) haccepted
  obtain ⟨hid, hrecognized⟩ := hinv.members j id row (hle hread)
  obtain ⟨record, hfound, hverified, hrecord⟩ := hrecognized email password hlogs
  obtain ⟨hemail, k, input, uuid, hsigns, hemail', hdrew, huuid, hhashed⟩ :=
    hinv.found j _ record hfound
  obtain ⟨salt, hsalt⟩ := exists_salt (hgenuine _ hhashed) (hgenuine _ hverified)
  refine ⟨j, k, t, t₀, ?_, hfresh, ⟨pre, rest, hsplit, hnow₀⟩, ⟨uuid, hdrew, ?_⟩, email, password,
    input, salt, hlogs, hsigns, hemail.symm.trans hemail', hsalt⟩
  · rw [htoken, htokenEq]
    rfl
  · show row.id = _
    rw [hid, ← hrecord, huuid]

/-! ### Every run -/

/-- However requests interleave: a client that is answered anything but 401 on a route behind
authentication, and a client that changes the board, presents a session of a login that has given
the password of the member, and the board is changed only in the name of that member. -/
theorem sessions_backed (B : Backend) (actors : List Actor) (w : World)
    (hserver : server.sessions = service.sessions hmac) (hempty : w.db.credentials.rows = [])
    {ls : List ServerLabel} {c : Config ServerOp ServerAns Thrown ActorResult World}
    (run : Run (exec B) ⟨w, actors.map (Actor.program server)⟩ ls c)
    (hgenuine : ∀ l ∈ ls, Genuine scrypt l) (hforges : NobodyForges hmac service actors ls) :
    (∀ (i : ℕ) request reply, actors[i]? = some (.client request) → request.route.NeedsSession →
      c.pool[i]? = some (.ret (.reply reply)) → reply.code ≠ 401 → ∃ memberId j k t t₀,
        Backed server.rt scrypt hmac service actors request i memberId ls j k t t₀) ∧
    ∀ history l rest c₁ c₂ request, ls = history ++ l :: rest →
      actors[l.thread]? = some (.client request) →
      Run (exec B) ⟨w, actors.map (Actor.program server)⟩ history c₁ → Step (exec B) c₁ l c₂ →
      ¬ SameBoard c₁.store c₂.store → ∃ memberId j k t t₀,
        Backed server.rt scrypt hmac service actors request l.thread memberId history j k t t₀ ∧
        ActsAs request memberId c₁.store c₂.store := by
  have hstart := disciplined_accounts B server actors w hempty
  constructor
  case left =>
    intro i request reply hclient hroute hpool hcode
    have hrun := hstart.run run.recorded
    obtain ⟨r, hr, hend⟩ := hrun.result (show _ = some (Prog.ofExcept (.ok _)) from hpool) request
      hclient
    cases r with
    | error => cases hr
    | ok reply' =>
    cases hr
    have hauthenticated : ∃ handles, AuthenticationEnd server i ls request handles (.ok reply) := by
      rw [AccountEnd] at hend
      rcases hroute with hroute | hroute | hroute | hroute | ⟨id, hroute | hroute⟩ <;>
        rw [hroute] at hend <;> exact ⟨_, hend⟩
    obtain ⟨handles, hend⟩ := hauthenticated
    cases hend with
    | anonymous | rejected | gone => exact absurd rfl hcode
    | handled token memberId t row member r presented now accepted =>
      have hbacked := @backed_of_accepted server.rt server scrypt hmac service actors request i _
        memberId ls [] hrun.inv hgenuine (by rwa [List.append_nil]) hserver hclient
        ⟨token, t, presented, now, accepted⟩
      exact ⟨memberId, hbacked⟩
  case right =>
    rintro history l rest c₁ c₂ request rfl hclient before step hchanged
    have hinv := (hstart.run before.recorded).inv
    have hboard := ((disciplined_actors B server actors w).run before.recorded).pre
      (step.recorded history)
    have hpre := ((disciplined_clients B server actors w).run before.recorded).pre
      (step.recorded history) request hclient
    have hbefore : ∀ l' ∈ history, Genuine scrypt l' :=
      fun l' hl' => hgenuine l' (List.mem_append_left _ hl')
    cases step with
    | perform awaits answered =>
      rcases actsAs_of_pre hboard hpre answered with hsame | ⟨-, memberId, hauthenticated, hacts⟩
      · exact absurd hsame hchanged
      · obtain ⟨j, k, t, t₀, hbacked⟩ :=
          backed_of_accepted hinv hbefore hforges hserver hclient hauthenticated.accepted
        exact ⟨memberId, j, k, t, t₀, hbacked, hacts⟩

end Backed

/-! A signup, a login, and a request with the token of the login. -/

def someScrypt : Auth.Scrypt := .constant (List.replicate Auth.keyLen 7)

def someSalt : Bytes := List.replicate 16 0

/-- The token of `Auth.someCall`, which is issued at 1783594860000. -/
def someToken : JsString :=
  "eyJzdWIiOiJtXzEiLCJleHAiOjE3ODM1OTg0NjAwMDB9.51a3vik8OikCKio4F7cHGsRqvfuafCzDasRxT2k00-Y"

def loginRequest : HttpRequest where
  route := .login
  authorization := none
  body := some (.obj [("email", .str "ada@example.org"), ("password", .str "p")])

def meRequest : HttpRequest where
  route := .me
  authorization := some ("Bearer " ++ someToken)
  body := none

def adasRequests : List Actor := [.client signupRequest, .client loginRequest, .client meRequest]

def sessionServer : Server where
  rt := .ascii
  sessions := Auth.SessionTokenService.someSecret.sessions Auth.SessionTokenService.someHmac

def adasSchedule : List (ℕ × Oracle) :=
  [(0, .plain), (0, .plain), (0, .plain),
    (0, { Oracle.plain with passwordHash := Auth.hashPassword someScrypt someSalt "p" }),
    (0, .plain), (1, .plain), (1, .plain), (1, .plain),
    (1, { Oracle.plain with clock := 1783594860000 }),
    (2, { Oracle.plain with clock := 1783598400000 }), (2, .plain)]

/-- A decision procedure for hashes that are made with the salt above. -/
def genuine? : ServerLabel → Bool
  | ⟨_, .hashPassword password, .ok passwordHash⟩ =>
    passwordHash == Auth.hashPassword someScrypt someSalt password
  | ⟨_, .verifyPassword password passwordHash, .ok ok⟩ =>
    match Auth.verifyPassword someScrypt password passwordHash with
    | .ok matched => matched == ok
    | .error _ => false
  | ⟨_, .now, .ok t⟩ => decide (t.natAbs ≤ maxTime)
  | _ => true

lemma genuine_of_genuine? {l : ServerLabel} (h : genuine? l = true) : Genuine someScrypt l := by
  simp only [genuine?] at h
  split at h
  · exact ⟨someSalt, List.length_replicate, eq_of_beq h⟩
  · rename_i password passwordHash ok
    rw [Genuine]
    split at h
    · rename_i hverify
      rw [hverify, eq_of_beq h]
    · cases h
  · rename_i t
    exact of_decide_eq_true (p := t.natAbs ≤ maxTime) h
  · rename_i hhash hverify hnow
    rw [Genuine]
    · trivial
    · exact hhash
    · exact hverify
    · exact hnow

/-- When the last request reads the clock, the token that it presents has been issued. -/
def someTokenIssued (before : List ServerLabel) : ServerLabel → Bool
  | ⟨2, .now, .ok _⟩ =>
    (issued adasRequests before).map (fun call => (call.memberId, call.expiresAt.getTime)) ==
      [(Auth.SessionTokenService.someCall.memberId,
        Auth.SessionTokenService.someCall.expiresAt.getTime)]
  | _ => true

lemma unforgeable_of_issued {before : List ServerLabel} {t : ℤ}
    (h : someTokenIssued before ⟨2, .now, .ok t⟩ = true) :
    Auth.Unforgeable Auth.SessionTokenService.someHmac Auth.SessionTokenService.someSecret
      (issued adasRequests before) someToken := by
  intro payload hpayload hsign
  rw [someToken, ← Auth.SessionTokenService.token_someCall] at hpayload hsign
  obtain ⟨call, hcall, hbytes⟩ :=
    Auth.SessionTokenService.unforgeable_someCall payload hpayload hsign
  obtain rfl := List.mem_singleton.mp hcall
  have hissued := eq_of_beq h
  obtain ⟨call', hcall', heq⟩ := List.mem_map.mp (hissued ▸ List.mem_singleton_self _)
  obtain ⟨hid, hexpiry⟩ := Prod.mk.inj heq
  refine ⟨call', hcall', ?_⟩
  rw [hbytes, ← hid, ← hexpiry]

lemma bearerToken_meRequest : bearerToken meRequest = some someToken := by decide +kernel

/-- Only the last request presents a token. -/
lemma nobodyForges_adas {ls : List ServerLabel}
    (h : ∀ n (hn : n < ls.length), someTokenIssued (ls.take n) ls[n] = true) :
    NobodyForges Auth.SessionTokenService.someHmac Auth.SessionTokenService.someSecret adasRequests
      ls := by
  rintro pre i t post rfl request token hclient htoken
  match i with
  | 0 | 1 =>
    cases hclient
    cases htoken
  | 2 =>
    cases hclient
    cases bearerToken_meRequest.symm.trans htoken
    have hissued := h pre.length (by simp)
    simp only [List.take_left, List.getElem_append_right le_rfl, Nat.sub_self,
      List.getElem_cons_zero] at hissued
    exact unforgeable_of_issued hissued
  | i + 3 => cases hclient

/-- The member that a program was answered with. -/
def repliedMember? : ServerProg ActorResult → Option JsString
  | .ret (.reply ⟨200, .member member⟩) => some member.id
  | _ => none

theorem sessions_backed_ada : ∃ ls c,
    Run (exec .faultless) ⟨⟨Db.empty, []⟩, adasRequests.map (Actor.program sessionServer)⟩ ls c ∧
    ∃ reply, c.pool[2]? = some (.ret (.reply reply)) ∧ reply.code = 200 ∧
      ∃ memberId j k t t₀, Backed .ascii someScrypt Auth.SessionTokenService.someHmac
        Auth.SessionTokenService.someSecret adasRequests meRequest 2 memberId ls j k t t₀ := by
  have hrun : (follow (World.attempt .faultless) adasSchedule
      ⟨⟨Db.empty, []⟩, adasRequests.map (Actor.program sessionServer)⟩).map (fun (ls, c) =>
        (ls.all genuine? && (List.range ls.length).all fun n =>
          ls[n]?.all (someTokenIssued (ls.take n))) &&
        (c.pool[2]?.bind repliedMember?).isSome) = some true := by
    decide +kernel
  obtain ⟨⟨ls, c⟩, hfollow, hchecks⟩ := Option.map_eq_some_iff.mp hrun
  simp only [Bool.and_eq_true, List.all_eq_true, List.mem_range] at hchecks
  obtain ⟨⟨hgenuine, hissued⟩, hreplied⟩ := hchecks
  have hforges := @nobodyForges_adas ls fun n hn => by
    simpa only [List.getElem?_eq_getElem hn, Option.all_some] using hissued n hn
  obtain ⟨memberId, hmember⟩ := Option.isSome_iff_exists.mp hreplied
  obtain ⟨p, hp, hreply⟩ := Option.bind_eq_some_iff.mp hmember
  simp only [repliedMember?] at hreply
  split at hreply
  · rename_i member
    have run := run_of_follow hfollow
    obtain ⟨hreplies, -⟩ := sessions_backed .faultless adasRequests _ rfl rfl run
      (fun l hl => genuine_of_genuine? (hgenuine l hl)) hforges
    exact ⟨ls, c, run, _, hp, rfl, hreplies 2 meRequest _ rfl (.inl rfl) hp (by simp)⟩
  · cases hreply

end WorkspaceOs
