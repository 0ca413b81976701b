import WorkspaceOs.Server.Lasting

/-!
# Who a member is

A credential refers to the human who signed up with its email, and nothing changes the type, the
identity and the roles of a member who is stored. Saving a member is an upsert of every column, so
this rests on what the requests save: a signup uses an identifier of its own, and `POST /members`
takes any identifier from its body. The runs below are those where that one is harmless.
-/

namespace WorkspaceOs

open Js Effect Relational

/-- The columns of a member that say who it is. -/
structure Identity where
  type : JsString
  identityRef : JsString
  roles : List Json

def MemberRow.identity (row : MemberRow) : Identity := ⟨row.type, row.identityRef, row.roles⟩

/-- The member is stored as this one. -/
def IsStored (id : JsString) (identity : Identity) (w : World) : Prop :=
  ∃ row, w.db.members.find? id = some row ∧ row.identity = identity

/-- The human who signs up with an email. -/
def Identity.local (email : JsString) : Identity := ⟨"human", "local|" ++ email, []⟩

/-- Every credential refers to a human member with the identity of its email. -/
def Linked (w : World) : Prop :=
  ∀ record ∈ w.db.credentials.rows, ∃ identity, IsStored record.memberId identity w ∧
    identity.type = "human" ∧ identity.identityRef = "local|" ++ record.email

/-- Program `i` handles a `POST /members`. -/
def PostsMember (requests : List HttpRequest) (i : ℕ) : Prop :=
  ∃ request, requests[i]? = some request ∧ request.route = .postMembers

/-- Program `i` has not come to saving a member. -/
def Unsaved (history : List ServerLabel) (i : ℕ) : Prop :=
  ∀ member a, ⟨i, .membersSave member, a⟩ ∉ history

/-- Program `i` handles a signup that has drawn the identifier, and is yet to save its member. -/
structure Awaits (requests : List HttpRequest) (history : List ServerLabel) (i : ℕ)
    (uuid : JsString) : Prop where
  signup : ∃ request, requests[i]? = some request ∧ request.route = .signup
  drew : Drew history i uuid
  unsaved : Unsaved history i

/-- Writing the row overwrites nobody's identity: a member who is stored under its identifier has
the identity it writes, and an identifier that is new is not one that a signup is yet to use. -/
def Harmless (requests : List HttpRequest) (row : MemberRow) (s : RecordedWorld) : Prop :=
  match s.1.db.members.find? row.id with
  | some old => old.identity = row.identity
  | none => ∀ i uuid, Awaits requests s.2 i uuid → row.id ≠ "m_" ++ uuid

/-- The semantics of the operations where every row that a `POST /members` writes is harmless. -/
def harmless (B : Backend) (requests : List HttpRequest) :
    Semantics ServerOp ServerAns Thrown RecordedWorld := fun i op s a s' =>
  recorded (sending B) i op s a s' ∧ ∀ member row, op = .membersSave member →
    PostsMember requests i → (∃ saved, a = .ok saved) → Column.member member = .ok row →
      Harmless requests row s

/-- What each request keeps to. A signup saves a member under an identifier of its own, that nobody
has yet, and a credential for a member who is stored with its identity. -/
def identityPre (requests : List HttpRequest) (i : ℕ) (op : ServerOp) (s : RecordedWorld) : Prop :=
  match op with
  | .membersSave member => PostsMember requests i ∨
      ∃ uuid, Drew s.2 i uuid ∧ Column.text member.id = .ok ("m_" ++ uuid) ∧
        s.1.db.members.find? ("m_" ++ uuid) = none
  | .credentialsInsert record => ∀ sent, Column.credential record = .ok sent →
      IsStored sent.memberId (.local sent.email) s.1
  | _ => True

/-- The invariant of the two tables. -/
structure IdentityInv (s : RecordedWorld) : Prop extends DrawnInv s where
  linked : Linked s.1

section Step

variable {B : Backend} {requests : List HttpRequest} {i j : ℕ} {op : ServerOp}
  {s s' : RecordedWorld} {a : Except Thrown (ServerAns op)} {id uuid : JsString}
  {identity : Identity}

/-- Nobody becomes somebody else. -/
lemma IsStored.step (hstored : IsStored id identity s.1) (hpre : identityPre requests i op s)
    (h : harmless B requests i op s a s') : IsStored id identity s'.1 := by
  obtain ⟨⟨hsend, -⟩, hharmless⟩ := h
  obtain ⟨old, hold, hidentity⟩ := hstored
  cases op with
  | membersSave member =>
    cases a with
    | error e =>
      rw [sending_error hsend]
      exact ⟨old, hold, hidentity⟩
    | ok =>
      obtain ⟨row, hrow, hset, -⟩ := sending_membersSave hsend
      by_cases hid : id = row.id
      · subst hid
        refine ⟨row, by rw [hset]; exact Table.find?_set_self, ?_⟩
        rcases hpre with hposts | ⟨uuid, -, hsent, habsent⟩
        · have hsame := hharmless member row rfl hposts ⟨_, rfl⟩ hrow
          rw [Harmless, hold] at hsame
          exact hsame.symm.trans hidentity
        · rw [(Column.member_eq_ok_iff.mp hrow).1] at hsent
          rw [← Except.ok.inj hsent, hold] at habsent
          cases habsent
      · exact ⟨old, by rwa [hset, Table.find?_set_of_ne hid], hidentity⟩
  | _ => exact ⟨old, by rwa [(sending_framed hsend).members (by simp [ServerOp.table])], hidentity⟩

lemma Linked.step (hlinked : Linked s.1) (hpre : identityPre requests i op s)
    (h : harmless B requests i op s a s') : Linked s'.1 := by
  have hold : ∀ record ∈ s.1.db.credentials.rows, ∃ identity,
      IsStored record.memberId identity s'.1 ∧ identity.type = "human" ∧
        identity.identityRef = "local|" ++ record.email := by
    intro record hrecord
    obtain ⟨identity, hstored, htype, href⟩ := hlinked record hrecord
    exact ⟨identity, hstored.step hpre h, htype, href⟩
  by_cases hop : op.table = some .credentials
  · cases op with
    | credentialsInsert record =>
      cases a with
      | error e => rwa [sending_error h.1.1]
      | ok =>
        obtain ⟨sent, hsent, hset⟩ := sending_credentialsInsert h.1.1
        intro record' hrecord'
        rw [hset, Table.mem_set] at hrecord'
        rcases hrecord' with rfl | ⟨hrecord', -⟩
        · exact ⟨_, IsStored.step (hpre _ hsent) hpre h, rfl, rfl⟩
        · exact hold record' hrecord'
    | _ => cases hop
  · intro record hrecord
    rw [(sending_framed h.1.1).credentials hop] at hrecord
    exact hold record hrecord

lemma IdentityInv.step (hinv : IdentityInv s) (hpre : identityPre requests i op s)
    (h : harmless B requests i op s a s') : IdentityInv s' :=
  ⟨hinv.toDrawnInv.step_sent h.1, hinv.linked.step hpre h⟩

/-- The discipline of members and credentials. -/
def identityDiscipline (B : Backend) (requests : List HttpRequest) :
    Discipline (harmless B requests) where
  inv := IdentityInv
  pre := identityPre requests
  keeps := IdentityInv.step

lemma isStored_lasting (B : Backend) (requests : List HttpRequest) (id : JsString)
    (identity : Identity) :
    (identityDiscipline B requests).Lasting fun s => IsStored id identity s.1 :=
  fun _ _ _ _ _ _ hpre h hstored => hstored.step hpre h

/-- The others do not save for program `i`. -/
lemma Unsaved.step (hunsaved : Unsaved s.2 i) (h : harmless B requests j op s a s')
    (hother : ∀ member, j = i → op ≠ .membersSave member) : Unsaved s'.2 i := by
  intro member a' hmem
  rw [h.1.2, List.mem_append, List.mem_singleton] at hmem
  rcases hmem with hmem | hmem
  · exact hunsaved member a' hmem
  · cases hmem
    exact hother member rfl rfl

lemma unsaved_stable : (identityDiscipline B requests).Stable i fun s => Unsaved s.2 i :=
  fun _ _ hunsaved ⟨_, _, _, hne, _, _, h⟩ => hunsaved.step h fun _ heq => absurd heq hne

/-- An identifier that a signup drew, and that no member has yet, is its own until it is used. -/
lemma awaits_stable (uuid : JsString) : (identityDiscipline B requests).Stable i fun s =>
    Awaits requests s.2 i uuid ∧ s.1.db.members.find? ("m_" ++ uuid) = none := by
  rintro s s' ⟨hawaits, habsent⟩ ⟨j, op, a, hne, hinv, hpre, h⟩
  refine ⟨⟨hawaits.signup, hawaits.drew.step h.1,
    hawaits.unsaved.step h fun _ heq => absurd heq hne⟩, ?_⟩
  cases op with
  | membersSave member =>
    cases a with
    | error e => rwa [sending_error h.1.1]
    | ok =>
      obtain ⟨row, hrow, hset, -⟩ := sending_membersSave h.1.1
      rw [hset, Table.find?_set_of_ne, habsent]
      intro hid
      rcases hpre with hposts | ⟨uuid', hdrew', hsent, -⟩
      · have hharmless := h.2 member row rfl hposts ⟨_, rfl⟩ hrow
        rw [Harmless, ← hid, habsent] at hharmless
        exact hharmless i uuid hawaits rfl
      · rw [(Column.member_eq_ok_iff.mp hrow).1, ← hid] at hsent
        cases List.append_cancel_left (Except.ok.inj hsent)
        exact hne (hinv.drawn_once j i _ hdrew' hawaits.drew)
  | _ =>
    rw [(sending_framed h.1.1).members (by simp [ServerOp.table])]
    exact habsent

end Step

/-! ### The requests -/

section Request

variable {B : Backend} {requests : List HttpRequest} {i : ℕ} {server : Server}
  {request : HttpRequest}

lemma identityPre_offAccounts {op : ServerOp} (hop : op.OffAccounts) (s : RecordedWorld) :
    identityPre requests i op s := by
  cases op with
  | membersSave => exact absurd rfl hop.1
  | credentialsInsert => exact absurd rfl hop.2
  | _ => trivial

/-- Any end of a request is fine. -/
lemma safe_end {α : Type} (r : Except Thrown α) (s : RecordedWorld) :
    (identityDiscipline B requests).Safe i (fun _ _ => True)
      (Prog.ofExcept r : ServerProg α) s := by
  cases r with
  | ok a => exact .ret (Discipline.Stable.const _) trivial
  | error e => exact .throw (Discipline.Stable.const _) trivial

/-- The row of a signup's member. -/
lemma signup_identity {rt : Runtime} {uuid email displayName : JsString} {member : Member}
    {row : MemberRow} (huuid : Column.IsText uuid)
    (h : Member.create rt (SignupService.memberProps uuid email displayName) = .ok member)
    (hrow : Column.member member = .ok row) :
    row.id = "m_" ++ uuid ∧ ∃ sent, Column.text email = .ok sent ∧ row.identity = .local sent := by
  obtain ⟨hid, hhuman, href, hroles, -⟩ := SignupService.memberProps_ok h
  obtain ⟨hid', htype, href', -, hroles'⟩ := Column.member_eq_ok_iff.mp hrow
  have htext : Column.IsText ("m_" ++ uuid) := .append (.of_all rfl) huuid
  have hlocal : Column.IsText "local|" := .of_all rfl
  rw [hid, Column.text_eq_ok_iff.mpr htext] at hid'
  rw [href, Column.text_append hlocal] at href'
  obtain ⟨sent, hsent, hlocal⟩ := map_eq_ok.mp href'
  rw [hroles] at hroles'
  refine ⟨(Except.ok.inj hid').symm, sent, hsent, ?_⟩
  rw [MemberRow.identity, ← htype, hhuman, ← hlocal, ← Except.ok.inj hroles']
  rfl

/-- A signup keeps to the discipline. -/
lemma safe_signup (rt : Runtime) (input : SignupInput) (s : RecordedWorld)
    (hsignup : ∃ request, requests[i]? = some request ∧ request.route = .signup)
    (hunsaved : Unsaved s.2 i) :
    (identityDiscipline B requests).Safe i (fun _ _ => True)
      (SignupService.signup rt input) s := by
  refine .perform_bind _ unsaved_stable hunsaved (fun _ _ _ => trivial)
    (fun t record t' _ ht h => ?_) fun _ e _ _ _ _ => safe_end (.error e) _
  have ht' := ht.step h (by simp)
  dsimp only
  split_ifs
  · exact safe_end (.error _) t'
  refine .perform_bind _ unsaved_stable ht' (fun _ _ _ => trivial)
    (fun u uuid u' _ hu h => ?_) fun _ e _ _ _ _ => safe_end (.error e) _
  obtain ⟨hfresh, huuid, hw⟩ := sending_randomUUID h.1.1
  have hawaits : Awaits requests u'.2 i uuid :=
    ⟨hsignup, mem_of_recorded h.1, hu.step h (by simp)⟩
  have hsent : Column.text ("m_" ++ uuid) = .ok ("m_" ++ uuid) :=
    Column.text_eq_ok_iff.mpr (.append (.of_all rfl) huuid)
  cases hmember : Member.create rt
      (SignupService.memberProps uuid (SignupService.normalizeEmail rt input.email)
        input.displayName) with
  | error e => exact safe_end (.error e) u'
  | ok member =>
    have hid := (SignupService.memberProps_ok hmember).1
    -- the identifier is the signup's own until the member is saved
    refine .perform_bind _ (awaits_stable uuid) ⟨hawaits, by rw [hw]; exact hfresh.member⟩
      (fun _ _ hv => .inr ⟨uuid, hv.1.drew, by rw [hid, hsent], hv.2⟩) (fun v _ v' _ _ h => ?_)
      fun _ e _ _ _ _ => safe_end (.error e) _
    obtain ⟨row, hrow, hset, -⟩ := sending_membersSave h.1.1
    obtain ⟨hrowId, email, hemail, hidentity⟩ := signup_identity huuid hmember hrow
    have hstored : IsStored row.id (.local email) v'.1 :=
      ⟨row, by rw [hset]; exact Table.find?_set_self, hidentity⟩
    -- and from then on the member is stored as who signed up
    have hlasting := isStored_lasting B requests row.id (.local email)
    refine .perform_bind _ hlasting.stable hstored (fun _ _ _ => trivial)
      (fun x passwordHash x' _ hx h => ?_) fun _ e _ _ _ _ => safe_end (.error e) _
    have hpre : identityPre requests i (.hashPassword input.password) x := trivial
    have hx' := hx.step hpre h
    refine Discipline.Safe.bind (Q := fun _ _ => True) ?_ (fun _ y _ => safe_end (.ok member) y)
      fun e y _ => safe_end (.error e) y
    refine .tryCatch (Q := fun _ _ => True) ?_ (fun _ y _ => safe_end (.ok ()) y) fun e y _ => ?_
    · refine .call _ hlasting.stable hx' (fun y _ hy record hrecord => ?_)
        fun _ a y _ _ _ => safe_end a y
      obtain ⟨hmemberId, hrecordEmail, -⟩ := Column.credential_eq_ok_iff.mp hrecord
      dsimp only at hmemberId hrecordEmail
      rw [hid, hsent] at hmemberId
      rw [hemail] at hrecordEmail
      rwa [← Except.ok.inj hmemberId, ← Except.ok.inj hrecordEmail, ← hrowId]
    · split_ifs
      · exact safe_end (.error _) y
      · exact safe_end (.error _) y

/-- Every request keeps to the discipline from its beginning. -/
lemma safe_handle_identity (hrequest : requests[i]? = some request) (s : RecordedWorld)
    (hunsaved : Unsaved s.2 i) :
    (identityDiscipline B requests).Safe i (fun _ _ => True) (handle server request) s := by
  by_cases hroute : request.route ≠ .postMembers ∧ request.route ≠ .signup
  · exact .of_all (fun op hop s _ => identityPre_offAccounts hop s)
      (handle_offAccounts server request hroute) (fun _ _ => trivial) s
  · simp only [handle]
    cases hr : request.route with
    | postMembers =>
      refine .of_all (fun op hop s _ => ?_) (postMembers_all server request) (fun _ _ => trivial) s
      obtain ⟨member, rfl⟩ := hop
      exact .inl ⟨request, hrequest, hr⟩
    | signup =>
      show (identityDiscipline B requests).Safe i _ (postSignup server request) s
      simp only [postSignup]
      cases signupInput? (Json.orEmpty request.body) with
      | none => exact safe_end (.ok _) s
      | some input =>
        refine .tryCatch (Q := fun _ _ => True) ?_ (fun _ t _ => safe_end (.ok _) t) fun e t _ => ?_
        · exact (safe_signup server.rt input s ⟨request, hrequest, hr⟩ hunsaved).bind
            (fun member t _ => safe_end (.ok _) t) fun e t _ => safe_end (.error e) t
        · cases e with
          | emailAlreadyRegistered => exact safe_end (.ok _) t
          | _ => exact safe_end (.error _) t
    | _ => exact absurd ⟨by simp [hr], by simp [hr]⟩ hroute

end Request

/-! ### Every run -/

/-- Where every row that a `POST /members` writes is harmless, the tables stay linked and no step
changes who a stored member is. -/
theorem identities_kept (B : Backend) (server : Server) (requests : List HttpRequest) (w : World)
    (hlinked : Linked w) {ls : List ServerLabel}
    {c : Config ServerOp ServerAns Thrown Reply RecordedWorld}
    (run : Run (harmless B requests) ⟨(w, []), requests.map (handle server)⟩ ls c) :
    Linked c.store.1 ∧ ∀ l c', Step (harmless B requests) c l c' → ∀ id identity,
      IsStored id identity c.store.1 → IsStored id identity c'.store.1 := by
  have hinitial : Disciplined (identityDiscipline B requests) (fun _ _ _ => True)
      ⟨(w, []), requests.map (handle server)⟩ := by
    refine ⟨⟨⟨nofun, nofun⟩, hlinked⟩, fun i p hp => ?_⟩
    rw [List.getElem?_map, Option.map_eq_some_iff] at hp
    obtain ⟨request, hrequest, rfl⟩ := hp
    exact safe_handle_identity hrequest _ fun _ _ => List.not_mem_nil
  have hd := hinitial.run run
  refine ⟨hd.inv.linked, fun l c' step id identity hstored => ?_⟩
  have hpre := hd.pre step
  cases step with
  | perform awaits answered => exact hstored.step hpre answered

/-! A signup, and requests to `POST /members`. -/

def signupRequest : HttpRequest where
  route := .signup
  authorization := none
  body := some (.obj [("email", .str "Ada@example.org "), ("password", .str "p"),
    ("displayName", .str "Ada")])

/-- The body names a member by its identifier, and says that it is an agent. -/
def memberRequest (id : JsString) : HttpRequest where
  route := .postMembers
  authorization := none
  body := some (.obj [("id", .str id), ("type", .str "agent"), ("identityRef", .str "cred|x"),
    ("displayName", .str "Mallory"), ("roles", .arr [.str "admin"])])

/-- The operation saves nobody who is stored. -/
def World.savesNew (w : World) : ServerOp → Bool
  | .membersSave member =>
    (Column.member member).toOption.all fun row : MemberRow => (w.db.members.find? row.id).isNone
  | _ => true

/-- The step of a single program that a possible oracle decides, where a member that is saved is
new. -/
def World.attemptNew (B : Backend) (o : Oracle) (op : ServerOp) (s : RecordedWorld) :
    Option (Except Thrown (ServerAns op) × RecordedWorld) :=
  if s.1.savesNew op then (s.1.attemptSent B o op).map fun (a, w) =>
    (a, (w, s.2 ++ [⟨0, op, a⟩])) else none

lemma harmless_of_attemptNew {B : Backend} {request : HttpRequest} {o : Oracle} {op : ServerOp}
    {s s' : RecordedWorld} {a : Except Thrown (ServerAns op)}
    (hroute : request.route = .postMembers)
    (h : World.attemptNew B o op s = some (a, s')) : harmless B [request] 0 op s a s' := by
  simp only [World.attemptNew] at h
  split_ifs at h with hnew
  obtain ⟨⟨a', w⟩, hattempt, h⟩ := Option.map_eq_some_iff.mp h
  cases h
  refine ⟨⟨sending_of_attempt hattempt, rfl⟩, ?_⟩
  rintro member row rfl - - hrow
  simp only [World.savesNew, hrow, Except.toOption, Option.all_some,
    Option.isNone_iff_eq_none] at hnew
  rw [Harmless, hnew]
  -- nobody signs up
  rintro i uuid ⟨⟨request', hrequest, hsignup⟩, -, -⟩
  cases List.mem_singleton.mp (List.mem_of_getElem? hrequest)
  cases hroute.symm.trans hsignup

theorem identities_kept_new_member : ∃ ls c,
    Run (harmless .faultless [memberRequest "m_2"])
      ⟨(⟨Db.empty, []⟩, []), [memberRequest "m_2"].map (handle someServer)⟩ ls c ∧
    c.store.1.db.members.rows.length = 1 ∧ Linked c.store.1 ∧
    ∀ l c', Step (harmless .faultless [memberRequest "m_2"]) c l c' → ∀ id identity,
      IsStored id identity c.store.1 → IsStored id identity c'.store.1 := by
  have hpost : ((handle someServer (memberRequest "m_2")).play (World.attemptNew .faultless)
      [.plain] (⟨Db.empty, []⟩, [])).map (fun (_, _, s) => s.1.db.members.rows.length) =
        some 1 := by
    decide +kernel
  obtain ⟨⟨ls, r, s⟩, hplay, hlength⟩ := Option.map_eq_some_iff.mp hpost
  have hroute : (memberRequest "m_2").route = .postMembers := rfl
  have run := Run.of_play (fun _ _ _ _ _ => harmless_of_attemptNew hroute) hplay
  have hempty : Linked ⟨Db.empty, []⟩ := by simp [Linked, Db.empty]
  exact ⟨ls, _, run, hlength,
    identities_kept .faultless someServer [memberRequest "m_2"] ⟨Db.empty, []⟩ hempty run⟩

/-- The member that the signup makes is stored with this type, and has the only credential. -/
def SignedUpAs (type : JsString) (w : World) : Prop :=
  (w.db.members.find? "m_1").map MemberRow.type = some type ∧
    w.db.credentials.rows.map HumanCredentialRecord.memberId = ["m_1"]

instance (type : JsString) (w : World) : Decidable (SignedUpAs type w) :=
  inferInstanceAs (Decidable (_ ∧ _))

/-- Who signed up is somebody else after a single request, and the credential is not. -/
theorem member_overwritten : ∃ ls ls' c c' identity,
    Run (sending .faultless)
      ⟨⟨Db.empty, []⟩, [signupRequest, memberRequest "m_1"].map (handle someServer)⟩ ls c ∧
    Run (sending .faultless) c ls' c' ∧ IsStored "m_1" identity c.store ∧
    ¬ IsStored "m_1" identity c'.store ∧ ¬ Linked c'.store := by
  have hsent : ∀ (i : ℕ) o op w a w', World.attemptSent .faultless o op w = some (a, w') →
      sending .faultless i op w a w' := fun _ _ _ _ _ _ => sending_of_attempt
  have hruns : ((follow (World.attemptSent .faultless) ([0, 0, 0, 0, 0].map (·, .plain))
      ⟨⟨Db.empty, []⟩, [signupRequest, memberRequest "m_1"].map (handle someServer)⟩).bind
        fun (_, c) => (follow (World.attemptSent .faultless) [(1, .plain)] c).map fun (_, c') =>
          decide (SignedUpAs "human" c.store ∧ SignedUpAs "agent" c'.store)) = some true := by
    decide +kernel
  obtain ⟨⟨ls, c⟩, hfollow, hrest⟩ := Option.bind_eq_some_iff.mp hruns
  obtain ⟨⟨ls', c'⟩, hfollow', hend⟩ := Option.map_eq_some_iff.mp hrest
  obtain ⟨⟨hbefore, -⟩, hafter, hcredentials⟩ := of_decide_eq_true hend
  obtain ⟨row, hrow, htype⟩ := Option.map_eq_some_iff.mp hbefore
  obtain ⟨row', hrow', htype'⟩ := Option.map_eq_some_iff.mp hafter
  refine ⟨ls, ls', c, c', row.identity, .of_follow hsent hfollow, .of_follow hsent hfollow',
    ⟨row, hrow, rfl⟩, ?_, ?_⟩
  · rintro ⟨found, hfound, hidentity⟩
    cases hrow'.symm.trans hfound
    have hsame : row'.type = row.type := congrArg Identity.type hidentity
    rw [htype, htype'] at hsame
    exact absurd hsame (by decide)
  · intro hlinked
    have hmem : ("m_1" : JsString) ∈ c'.store.db.credentials.rows.map
        HumanCredentialRecord.memberId := by
      rw [hcredentials]
      exact List.mem_singleton_self _
    obtain ⟨record, hrecord, hid⟩ := List.mem_map.mp hmem
    obtain ⟨identity, ⟨found, hfound, rfl⟩, hhuman, -⟩ := hlinked record hrecord
    rw [hid] at hfound
    cases hrow'.symm.trans hfound
    have hsame : row'.type = "human" := hhuman
    rw [htype'] at hsame
    exact absurd hsame (by decide)

end WorkspaceOs
