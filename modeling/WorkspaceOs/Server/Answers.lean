import WorkspaceOs.Server.Refusals

/-!
# What is not answered

A handler that throws is answered 500 by the framework. Requests end so for a few reasons only: one
of their operations fails by itself, or they ask for what the tables cannot hold.
-/

namespace WorkspaceOs

open Js Effect Relational

/-! ### Programs -/

/-- Everything that is stored can be read. -/
def legibleDiscipline (B : Backend) (rt : Runtime) : Discipline (recorded (sending B)) where
  inv s := Legible rt s.1
  pre _ _ _ := True
  keeps hinv _ h := hinv.step h.1

/-- An operation of program `i` failed by itself. -/
def Failed (B : Backend) (i : ℕ) (history : List ServerLabel) (e : Thrown) : Prop :=
  ∃ op message, B.mayFail op ∧ e = .foreign message ∧ ⟨i, op, .error e⟩ ∈ history

/-- A program throws what it has an excuse for. -/
def Excused (B : Backend) (i : ℕ) (excuse : List ServerLabel → Thrown → Prop) {α : Type}
    (r : Except Thrown α) (s : RecordedWorld) : Prop :=
  ∀ e, r = .error e → Failed B i s.2 e ∨ excuse s.2 e

/-- An excuse is good for any longer history. -/
def Lasts (excuse : List ServerLabel → Thrown → Prop) : Prop :=
  ∀ h h' e, excuse h e → h ⊆ h' → excuse h' e

/-- The member is stored, under an identifier that is a text. -/
structure Known (id : JsString) (s : RecordedWorld) : Prop where
  text : Column.IsText id
  stored : Stored id s

/-- The texts of the record, other than its metadata, can be stored. -/
structure Recordable (input : RecordActivityInput) : Prop where
  action : Column.IsText input.action
  resourceType : Column.IsText input.resourceType
  resourceId : Column.IsText input.resourceId

section Safe

variable {B : Backend} {i : ℕ} {server : Server} {request : HttpRequest} {s : RecordedWorld}
  {excuse : List ServerLabel → Thrown → Prop} {α : Type} {id : JsString}

lemma known_lasting {D : Discipline (recorded (sending B))} (id : JsString) :
    D.Lasting (Known id) :=
  fun _ _ _ _ _ _ _ h hknown => ⟨hknown.text, hknown.stored.step_sent h⟩

lemma Known.sent (h : Known id s) : Column.text id = .ok id := Column.text_eq_ok_iff.mpr h.text

lemma Known.assigneeStored (h : Known id s) : s.1.db.AssigneeStored (some id) := by
  rintro _ ⟨⟩
  exact h.stored

lemma Failed.mono {history history' : List ServerLabel} {e : Thrown} (h : Failed B i history e)
    (hle : history ⊆ history') : Failed B i history' e := by
  obtain ⟨op, message, hfail, he, hmem⟩ := h
  exact ⟨op, message, hfail, he, hle hmem⟩

lemma Excused.ok (a : α) : Excused B i excuse (.ok a) s := fun _ h => by cases h

lemma Excused.map {β : Type} {f : α → β} {r : Except Thrown α} (h : Excused B i excuse r s) :
    Excused B i excuse (f <$> r) s := by
  cases r with
  | ok a => exact Excused.ok _
  | error e =>
    rintro _ ⟨⟩
    exact h e rfl

lemma Excused.lasting {D : Discipline (recorded (sending B))}
    (hexcuse : Lasts excuse) (r : Except Thrown α) :
    D.Lasting (Excused B i excuse r) := by
  rintro j op s a s' - - h hexcused e he
  have hle := subset_of_recorded h
  exact (hexcused e he).imp (fun h => h.mono hle) fun h => hexcuse _ _ _ h hle

variable (hexcuse : Lasts excuse)
include hexcuse

lemma Excused.safe {r : Except Thrown α} (h : Excused B i excuse r s) :
    (legibleDiscipline B server.rt).Safe i (Excused B i excuse)
      (Prog.ofExcept r : ServerProg α) s := by
  cases r with
  | ok a => exact .ret (Excused.lasting hexcuse _).stable h
  | error e => exact .throw (Excused.lasting hexcuse _).stable h

lemma Excused.ret (a : α) :
    (legibleDiscipline B server.rt).Safe i (Excused B i excuse) (.ret a : ServerProg α) s :=
  Excused.safe hexcuse (Excused.ok a)

lemma Excused.throw {e : Thrown} (h : Failed B i s.2 e ∨ excuse s.2 e) :
    (legibleDiscipline B server.rt).Safe i (Excused B i excuse) (.throw e : ServerProg α) s := by
  refine Excused.safe (r := .error e) hexcuse ?_
  rintro _ ⟨⟩
  exact h

/-- An operation that the database does not refuse without an excuse. -/
lemma Excused.perform {op : ServerOp} {f : ServerAns op → ServerProg α} (P : RecordedWorld → Prop)
    (hP : (legibleDiscipline B server.rt).Lasting P) (hs : P s)
    (hrefused : ∀ t e t', P t → P t' → Refused B t.1 op e → ⟨i, op, .error e⟩ ∈ t'.2 →
      excuse t'.2 e)
    (hok : ∀ t a t', (legibleDiscipline B server.rt).inv t → P t → P t' →
      recorded (sending B) i op t (.ok a) t' →
      (legibleDiscipline B server.rt).Safe i (Excused B i excuse) (f a) t') :
    (legibleDiscipline B server.rt).Safe i (Excused B i excuse) (Prog.perform op >>= f) s := by
  refine .perform_bind P hP.stable hs (fun _ _ _ => trivial) (fun t a t' hinv ht h => ?_)
    fun t e t' hinv ht h => ?_
  · exact hok t a t' hinv ht (hP _ _ _ _ _ hinv trivial h ht) h
  · refine Excused.throw hexcuse ?_
    rcases error_cases hinv h.1 with ⟨hfail, message, rfl⟩ | hrefusal
    · exact .inl ⟨op, message, hfail, rfl, mem_of_recorded h⟩
    · exact .inr (hrefused t e t' ht (hP _ _ _ _ _ hinv trivial h ht) hrefusal (mem_of_recorded h))

/-- An operation that the database never refuses. -/
lemma Excused.read {op : ServerOp} {f : ServerAns op → ServerProg α} (hop : op.table = none)
    (hsent : ∀ e, ¬ op.Rejected e) (P : RecordedWorld → Prop)
    (hP : (legibleDiscipline B server.rt).Lasting P) (hs : P s)
    (hok : ∀ t a t', (legibleDiscipline B server.rt).inv t → P t → P t' →
      recorded (sending B) i op t (.ok a) t' →
      (legibleDiscipline B server.rt).Safe i (Excused B i excuse) (f a) t') :
    (legibleDiscipline B server.rt).Safe i (Excused B i excuse) (Prog.perform op >>= f) s := by
  refine Excused.perform hexcuse P hP hs (fun t e t' _ _ hrefused => ?_) hok
  cases hrefused with
  | rejected _ _ hrejected => exact absurd hrejected (hsent e)
  | _ => cases hop

/-- A member that is read can be read, and is known. -/
lemma Excused.findById {f : Option Member → ServerProg α} (P : RecordedWorld → Prop)
    (hP : (legibleDiscipline B server.rt).Lasting P) (hs : P s)
    (hid : ∀ history e, Column.text id = .error e → excuse history e)
    (hnone : ∀ t, P t → (legibleDiscipline B server.rt).Safe i (Excused B i excuse) (f none) t)
    (hsome : ∀ member t, P t → Known member.id t →
      (legibleDiscipline B server.rt).Safe i (Excused B i excuse) (f (some member)) t) :
    (legibleDiscipline B server.rt).Safe i (Excused B i excuse)
      (DrizzleMemberRepository.findById server.rt id >>= f) s := by
  simp only [DrizzleMemberRepository.findById, bind_assoc]
  refine Excused.perform hexcuse P hP hs (fun t e t' _ _ hrefused _ => ?_)
    fun t row? t' hinv _ ht' h => ?_
  · cases hrefused with
    | rejected _ _ hrejected => exact hid _ e hrejected
  · obtain ⟨sent, -, hrow, hw⟩ := sending_membersFindById h.1
    cases row? with
    | none => exact hnone t' ht'
    | some row =>
      obtain ⟨member, hmember⟩ := hinv.members row (Table.mem_of_find? hrow.symm)
      simp only [hmember]
      have hmemberId := (Db.toMember_ok hmember).1
      refine hsome member t' ht' ⟨?_, ?_⟩
      · rw [hmemberId]
        exact hinv.memberIds row (Table.mem_of_find? hrow.symm)
      · rw [Stored, hw, hmemberId, Table.key_of_find? hrow.symm, ← hrow]
        rfl

/-- A record of who is known is refused for its metadata only. -/
lemma Excused.record {input : RecordActivityInput} (hknown : Known input.actor.id s)
    (htexts : Recordable input) (P : RecordedWorld → Prop)
    (hP : (legibleDiscipline B server.rt).Lasting P) (hs : P s)
    (hmetadata : ∀ t e, P t → Column.metadata input.metadata = .error e → excuse t.2 e) :
    (legibleDiscipline B server.rt).Safe i (Excused B i excuse)
      (DrizzleActivityLog.record input) s := by
  refine .tryCatch (Q := fun r s => (∀ e, r = .error e → Failed B i s.2 e ∨
    Column.metadata input.metadata = .error e) ∧ P s) (.lasting hP ?_ hs)
    (fun a _ _ => Excused.ret hexcuse a) fun e t ht => ?_
  · have hstable (r : Except Thrown Unit) : (legibleDiscipline B server.rt).Stable i fun s =>
        ∀ e, r = .error e → Failed B i s.2 e ∨ Column.metadata input.metadata = .error e := by
      rintro s s' hfailed ⟨j, op, a, -, -, -, h⟩ e he
      exact (hfailed e he).imp_left fun hfailed => hfailed.mono (subset_of_recorded h)
    refine .call _ (known_lasting _).stable hknown (fun _ _ _ => trivial)
      fun t a t' hinv ht h => ?_
    cases a with
    | ok => exact .ret (hstable _) fun _ h => by cases h
    | error e =>
      refine .throw (hstable _) ?_
      rintro _ ⟨⟩
      rcases error_cases hinv h.1 with ⟨hfail, message, rfl⟩ | hrefused
      · exact .inl ⟨_, message, hfail, rfl, mem_of_recorded h⟩
      · cases hrefused with
        | rejected _ _ hrejected =>
          exact .inr (Column.activity_eq_error ht.text htexts.action htexts.resourceType
            htexts.resourceId hrejected)
        | actor _ sent written absent =>
          have hactor := Column.activity_eq_ok written
          rw [ht.sent] at hactor
          have hstored := ht.stored
          rw [Stored, Except.ok.inj hactor, absent] at hstored
          cases hstored
  · obtain ⟨hthrown, ht⟩ := ht
    rcases hthrown e rfl with ⟨op, message, hfail, rfl, hmem⟩ | hrefused
    · exact Excused.throw hexcuse (.inl ⟨op, message, hfail, rfl, hmem⟩)
    · have hne : e ≠ .database .foreignKeyViolation := by
        rintro rfl
        rcases Column.metadata_eq_error hrefused with ⟨_, h⟩ | h <;> cases h
      rw [if_neg hne]
      exact Excused.throw hexcuse (.inr (hmetadata _ e ht hrefused))

lemma Excused.recordThen {input : RecordActivityInput} (hknown : Known input.actor.id s)
    (htexts : Recordable input) (P : RecordedWorld → Prop)
    (hP : (legibleDiscipline B server.rt).Lasting P) (hs : P s)
    (hmetadata : ∀ t e, P t → Column.metadata input.metadata = .error e → excuse t.2 e) (a : α) :
    (legibleDiscipline B server.rt).Safe i (Excused B i excuse)
      (DrizzleActivityLog.record input >>= fun _ => .ret a : ServerProg α) s :=
  (Excused.record hexcuse hknown htexts P hP hs hmetadata).bind
    (fun _ _ _ => Excused.ret hexcuse a) fun _ _ ht => Excused.throw hexcuse (ht _ rfl)

/-- An item that was read and moved, of a member who is known, is never refused. -/
lemma Excused.saveMoved {rt : Runtime} {row : WorkItemRow} {item : WorkItem} {state : WorkItemState}
    {memberId : JsString} {f : Unit → ServerProg α} (hknown : Known memberId s)
    (hrow : Column.IsText row.id) (hitem : Db.toWorkItem rt row = .ok item)
    (P : RecordedWorld → Prop) (hP : (legibleDiscipline B server.rt).Lasting P) (hs : P s)
    (hok : ∀ t, Known memberId t → P t →
      (legibleDiscipline B server.rt).Safe i (Excused B i excuse) (f ()) t) :
    (legibleDiscipline B server.rt).Safe i (Excused B i excuse)
      (DrizzleWorkItemRepository.save
        { item with state, assigneeMemberId := some memberId } >>= f) s := by
  have hstands := Db.toWorkItem_eq_ok_iff.mp hitem
  have hfits := hstands.fits.moved state (some memberId)
  have hid : Column.text item.id = .ok item.id := by
    rw [hstands.id]
    exact Column.text_eq_ok_iff.mpr hrow
  have hlasting : (legibleDiscipline B server.rt).Lasting fun s => Known memberId s ∧ P s :=
    fun _ _ _ _ _ hinv hpre h hs =>
      ⟨known_lasting memberId _ _ _ _ _ hinv hpre h hs.1, hP _ _ _ _ _ hinv hpre h hs.2⟩
  refine Excused.perform hexcuse _ hlasting ⟨hknown, hs⟩ (fun t e _ hs _ hrefused _ => ?_)
    fun _ _ _ _ _ hs _ => hok _ hs.1 hs.2
  have hknown := hs.1
  have hassignee : Column.optional Column.text (some memberId) = .ok (some memberId) :=
    congrArg (Except.map some) hknown.sent
  cases hrefused with
  | rejected _ _ hrejected =>
    rcases hrejected with hrejected | ⟨hnul, -⟩
    · simp only [Column.workItem, bind_eq_error, attach_eq_error, hid, hassignee] at hrejected
      rcases hrejected with h | ⟨_, -, h | ⟨_, -, h⟩⟩ <;> cases h
    · rcases hnul with h | ⟨s, hs, h⟩ | ⟨s, hs, h⟩
      · exact absurd h hfits.title.1
      · exact absurd h (hfits.description s hs).1
      · exact absurd h (hfits.requiredRole s hs).1
  | priority _ _ outside =>
    obtain ⟨n, hn, hpriority⟩ := hfits.priority
    refine absurd hn (outside n ?_)
    rw [hpriority]
    exact integer?_ofInt hn.natAbs_lt
  | assignee _ sent written absent =>
    refine absurd ?_ absent
    have hsame := (Column.workItem_eq_ok_iff.mp written).2.1
    rw [hassignee] at hsame
    rw [← Except.ok.inj hsame]
    exact hknown.assigneeStored

end Safe

/-! ### Requests -/

/-- The request has the text sent to the database, for itself or in a row. -/
inductive Sends (server : Server) (request : HttpRequest) : JsString → Prop
  | path (id : JsString) (route : request.route = .getMember id ∨ request.route = .start id ∨
      request.route = .complete id) : Sends server request id
  | token (token : JsString) (now : ℤ) (id : JsString)
    (presented : bearerToken request = some token)
      (accepted : server.sessions.verify token (some now) = some id) : Sends server request id
  | member (member : Member) (text : JsString) (route : request.route = .postMembers)
      (body : memberOfBody server.rt (Json.orEmpty request.body) = .ok member)
      (column : text = member.id ∨ text = member.identityRef ∨ text = member.displayName) :
      Sends server request text
  | login (email : JsString) (route : request.route = .login)
      (body : nonEmptyString? ((Json.orEmpty request.body).prop? "email") = some email) :
      Sends server request (SignupService.normalizeEmail server.rt email)
  | signup (input : SignupInput) (text : JsString) (route : request.route = .signup)
      (body : signupInput? (Json.orEmpty request.body) = some input)
      (column : text = SignupService.normalizeEmail server.rt input.email ∨
        text = input.displayName) : Sends server request text
  | item (text : JsString) (route : request.route = .publish)
      (column : nonEmptyString? ((Json.orEmpty request.body).prop? "title") = some text ∨
        stringOrNull (Json.orEmpty request.body) "description" = some text ∨
        stringOrNull (Json.orEmpty request.body) "requiredRole" = some text) :
      Sends server request text

/-- Why a request throws when none of its operations fails by itself. -/
inductive Excuse (B : Backend) (server : Server) (request : HttpRequest) (i : ℕ)
    (history : List ServerLabel) : Thrown → Prop
  /-- A property of the body has no string form. -/
  | unprintable (route : request.route = .postMembers)
      (body : memberOfBody server.rt (Json.orEmpty request.body) = .error .typeError) :
      Excuse B server request i history .typeError
  /-- A text of the request has U+0000. -/
  | nul (text message : JsString) (sends : Sends server request text) (zero : 0 ∈ text) :
      Excuse B server request i history (.foreign message)
  /-- The roles of the member are not what JSON can hold in the database. -/
  | roles (member : Member) (e : Thrown) (route : request.route = .postMembers)
      (body : memberOfBody server.rt (Json.orEmpty request.body) = .ok member)
      (refused : Column.jsonElements member.roles = .error e) : Excuse B server request i history e
  /-- The identity of the member is somebody else's. -/
  | identity (member : Member) (route : request.route = .postMembers)
      (body : memberOfBody server.rt (Json.orEmpty request.body) = .ok member)
      (refused : ⟨i, .membersSave member, .error (.database .uniqueViolation)⟩ ∈ history) :
      Excuse B server request i history (.database .uniqueViolation)
  /-- The email had no credential, and its identity is somebody else's. -/
  | overtaken (input : SignupInput) (member : Member) (route : request.route = .signup)
      (body : signupInput? (Json.orEmpty request.body) = some input)
      (free : ⟨i, .credentialsFindByEmail (SignupService.normalizeEmail server.rt input.email),
        .ok none⟩ ∈ history)
      (named : member.identityRef = "local|" ++ SignupService.normalizeEmail server.rt input.email)
      (refused : ⟨i, .membersSave member, .error (.database .uniqueViolation)⟩ ∈ history) :
      Excuse B server request i history (.database .uniqueViolation)
  | priority (e : Thrown) (route : request.route = .publish)
      (outside : Outside (priorityOrZero (Json.orEmpty request.body)))
      (range : e = .database .numericValueOutOfRange ∨ e = .database .invalidTextRepresentation) :
      Excuse B server request i history e
  /-- A role of the member who claims is sent as something else, or not at all. -/
  | role (member : Member) (e : Thrown) (route : request.route = .claimNext)
      (odd : OddRole B member)
      (claim : (∃ message, e = .workItemClaim message) ∨ ∃ message, e = .foreign message)
      (refused : ⟨i, .workItemsClaimNext member, .error e⟩ ∈ history) :
      Excuse B server request i history e

section Requests

variable {B : Backend} {i : ℕ} {server : Server} {request : HttpRequest} {s : RecordedWorld}

lemma excuse_lasts : Lasts (Excuse B server request i) := by
  intro h h' e hexcuse hle
  cases hexcuse with
  | unprintable route body => exact .unprintable route body
  | nul text message sends zero => exact .nul text message sends zero
  | roles member e route body refused => exact .roles member e route body refused
  | identity member route body refused => exact .identity member route body (hle refused)
  | overtaken input member route body free named refused =>
    exact .overtaken input member route body (hle free) named (hle refused)
  | priority e route outside range => exact .priority e route outside range
  | role member e route odd claim refused => exact .role member e route odd claim (hle refused)

/-- A text that is sent is refused for U+0000. -/
lemma excuse_of_text {text : JsString} {e : Thrown} {history : List ServerLabel}
    (hsends : Sends server request text) (h : Column.text text = .error e) :
    Excuse B server request i history e := by
  obtain ⟨hzero, message, rfl⟩ := Column.text_eq_error h
  exact .nul text message hsends hzero

/-- How a request ends. -/
abbrev Answers (B : Backend) (server : Server) (request : HttpRequest) (i : ℕ)
    (p : ServerProg Reply) (s : RecordedWorld) : Prop :=
  (legibleDiscipline B server.rt).Safe i (Excused B i (Excuse B server request i)) p s

/-- Behind authentication, the handler has a member who is known. -/
lemma answers_current {handler : Member → ServerProg Reply}
    (h : ∀ member t, Known member.id t → Answers B server request i (handler member) t) :
    Answers B server request i (withCurrentMember server request handler) s := by
  cases htoken : bearerToken request with
  | none =>
    simp only [withCurrentMember, authenticate, htoken]
    exact Excused.ret excuse_lasts _
  | some token =>
    simp only [withCurrentMember, authenticate, htoken, bind_assoc]
    refine Excused.read excuse_lasts rfl (fun _ => id) (fun _ => True) (.const _) trivial
      fun t now t' _ _ _ _ => ?_
    cases haccepted : server.sessions.verify token (some now) with
    | none => exact Excused.ret excuse_lasts _
    | some memberId =>
      refine Excused.findById excuse_lasts (fun _ => True) (.const _) trivial (fun _ _ herror => ?_)
        (fun _ _ => Excused.ret excuse_lasts _) fun member t _ hknown => h member t hknown
      exact excuse_of_text (.token token now memberId htoken haccepted) herror

lemma memberOfBody_error {e : Thrown}
    (h : memberOfBody server.rt (Json.orEmpty request.body) = .error e) :
    e = .typeError ∨ ∃ message, e = .invalidMember message := by
  have hstring {key : JsString}
    (h : stringOf server.rt (Json.orEmpty request.body) key = .error e) :
      e = .typeError := by
    simp only [stringOf] at h
    cases hcoerce :
        Json.coerce server.rt.numberToString ((Json.orEmpty request.body).prop? key) with
    | none =>
      rw [hcoerce] at h
      exact (Except.error.inj h).symm
    | some text =>
      rw [hcoerce] at h
      cases h
  simp only [memberOfBody, bind_eq_error] at h
  rcases h with h | ⟨_, -, h | ⟨_, -, h | ⟨_, -, h⟩⟩⟩
  · exact .inl (hstring h)
  · exact .inl (hstring h)
  · exact .inl (hstring h)
  · exact Member.create_error h

lemma answers_postMembers (hroute : request.route = .postMembers) :
    Answers B server request i (postMembers server request) s := by
  rw [postMembers]
  cases hbody : memberOfBody server.rt (Json.orEmpty request.body) with
  | error e =>
    rcases memberOfBody_error hbody with rfl | ⟨message, rfl⟩
    · exact Excused.throw excuse_lasts (.inr (.unprintable hroute hbody))
    · exact Excused.ret excuse_lasts _
  | ok member =>
    refine Excused.perform excuse_lasts (fun _ => True) (.const _) trivial
      (fun t e t' _ _ hrefused hmem => ?_) fun _ _ _ _ _ _ _ => Excused.ret excuse_lasts _
    cases hrefused with
    | identity => exact .identity member hroute hbody hmem
    | rejected _ _ hrejected =>
      rcases Column.member_eq_error hrejected with ⟨text, hcolumn, hzero, message, rfl⟩ | hroles
      · exact .nul text message (.member member text hroute hbody hcolumn) hzero
      · exact .roles member e hroute hbody hroles

lemma answers_getMember {id : JsString} (hroute : request.route = .getMember id) :
    Answers B server request i (getMember server id) s :=
  Excused.findById excuse_lasts (fun _ => True) (.const _) trivial
    (fun _ _ => excuse_of_text (.path id (.inl hroute)))
    (fun _ _ => Excused.ret excuse_lasts _) fun _ _ _ _ => Excused.ret excuse_lasts _

lemma answers_getMe : Answers B server request i (getMe server request) s :=
  answers_current fun _ _ _ => Excused.ret excuse_lasts _

lemma answers_postLogin (hroute : request.route = .login) :
    Answers B server request i (postLogin server request) s := by
  rw [postLogin]
  dsimp only
  cases hemail : nonEmptyString? ((Json.orEmpty request.body).prop? "email") with
  | none => exact Excused.ret excuse_lasts _
  | some email =>
    cases nonEmptyString? ((Json.orEmpty request.body).prop? "password") with
    | none => exact Excused.ret excuse_lasts _
    | some password =>
      simp only [SignupService.authenticate, bind_assoc]
      refine Excused.perform excuse_lasts (fun _ => True) (.const _) trivial
        (fun _ e _ _ _ hrefused _ => ?_) fun t record? t' hinv _ _ h => ?_
      · cases hrefused with
        | rejected _ _ hrejected => exact excuse_of_text (.login email hroute hemail) hrejected
      cases record? with
      | none => exact Excused.ret excuse_lasts _
      | some record =>
        -- whoever has a credential is stored, under a text
        have htext : Column.IsText record.memberId := by
          obtain ⟨sent, -, hrecord, -⟩ := sending_credentialsFindByEmail h.1
          have hmem := (Db.findCredential_eq_some.mp hrecord.symm).1
          obtain ⟨row, hrow⟩ := Option.isSome_iff_exists.mp (t.1.db.credential_member record hmem)
          rw [← Table.key_of_find? hrow]
          exact hinv.memberIds row (Table.mem_of_find? hrow)
        simp only [bind_assoc]
        refine Excused.read excuse_lasts rfl (fun _ => id) (fun _ => True) (.const _) trivial
          fun _ accepted t _ _ _ _ => ?_
        cases accepted with
        | false => exact Excused.ret excuse_lasts _
        | true =>
          refine Excused.findById excuse_lasts (fun _ => True) (.const _) trivial
            (fun _ _ herror => ?_) (fun _ _ => Excused.ret excuse_lasts _) fun member t _ _ => ?_
          · rw [Column.text_eq_ok_iff.mpr htext] at herror
            cases herror
          · exact Excused.read excuse_lasts rfl (fun _ => id) (fun _ => True) (.const _) trivial
              fun _ _ _ _ _ _ _ => Excused.ret excuse_lasts _

/-- Rows that can be read are read, one by one. -/
lemma exists_mapM {rt : Runtime} {rows : List WorkItemRow}
    (h : ∀ row ∈ rows, ∃ item, Db.toWorkItem rt row = .ok item) :
    ∃ items, rows.mapM (Db.toWorkItem rt) = .ok items := by
  induction rows with
  | nil => exact ⟨[], rfl⟩
  | cons row rows ih =>
    obtain ⟨⟨item, hitem⟩, hrows⟩ := List.forall_mem_cons.mp h
    obtain ⟨items, hitems⟩ := ih hrows
    refine ⟨item :: items, ?_⟩
    rw [List.mapM_cons, hitem, hitems]
    rfl

lemma answers_listWorkItems : Answers B server request i (listWorkItems server request) s := by
  refine answers_current fun member t _ => ?_
  simp only [DrizzleWorkItemRepository.listOpen, bind_assoc]
  refine Excused.read excuse_lasts rfl (fun _ => id) (fun _ => True) (.const _) trivial
    fun t rows t' hinv _ _ h => ?_
  have hperm := sending_workItemsListOpen h.1
  obtain ⟨items, hitems⟩ : ∃ items, rows.mapM (Db.toWorkItem server.rt) = .ok items := by
    refine exists_mapM fun row hrow => ?_
    obtain ⟨-, hid, htitle⟩ := hinv.items row (List.mem_filter.mp (hperm.mem_iff.mp hrow)).1
    exact Db.toWorkItem_of_visible server.rt hid htitle
  simp only [hitems]
  exact Excused.ret excuse_lasts _

/-- A board route records what it did with an item, without metadata. -/
lemma answers_recordWork {member : Member} {action : JsString} {item : WorkItem}
    (hknown : Known member.id s) (haction : Column.IsText action) (hitem : Column.IsText item.id)
    (reply : Reply) :
    Answers B server request i (recordWork member action item >>= fun _ => .ret reply) s := by
  refine Excused.recordThen excuse_lasts hknown ⟨haction, .of_all rfl, hitem⟩ (fun _ => True)
    (.const _) trivial (fun _ e _ h => ?_) reply
  cases h

lemma answers_claimNext (hroute : request.route = .claimNext) :
    Answers B server request i (claimNext server request) s := by
  refine answers_current fun member t hknown => ?_
  refine Excused.perform excuse_lasts _ (known_lasting member.id) hknown
    (fun t e _ hknown _ hrefused hmem => ?_) fun t claimed? t' hinv _ hknown h => ?_
  · cases hrefused with
    | rejected _ _ hrejected => exact hrejected.elim
    | claimer _ _ absent => exact absurd ⟨member.id, hknown.sent, hknown.stored⟩ absent
    | role _ _ odd claim => exact .role member e hroute odd claim hmem
  · cases claimed? with
    | none => exact Excused.ret excuse_lasts _
    | some claimed =>
      obtain ⟨row, item, _, _, hfind, hitem, -, -, rfl, -⟩ := sending_workItemsClaimNext h.1
      refine answers_recordWork hknown (.of_all rfl) ?_ _
      show Column.IsText item.id
      rw [(Db.toWorkItem_ok hitem).1]
      exact (hinv.items row (Table.mem_of_find? hfind)).1

/-- A method of the lifecycle changes the state, or refuses to. -/
def SetsState (apply : WorkItem → Except Thrown WorkItem) : Prop :=
  ∀ item, (∃ message, apply item = .error (.workItemTransition message)) ∨
    ∃ state, apply item = .ok { item with state }

lemma move_setsState (sources : List WorkItemState) (action : JsString) (target : WorkItemState) :
    SetsState fun item => item.move sources action target := by
  intro item
  cases h : item.move sources action target with
  | error e =>
    obtain ⟨message, rfl⟩ := WorkItem.move_error h
    exact .inl ⟨message, h⟩
  | ok next =>
    obtain ⟨-, rfl⟩ := WorkItem.move_eq_ok_iff.mp h
    exact .inr ⟨target, h⟩

lemma answers_transition {id action : JsString} {apply : WorkItem → Except Thrown WorkItem}
    (hroute : request.route = .start id ∨ request.route = .complete id)
    (haction : Column.IsText ("work." ++ action)) (happly : SetsState apply) :
    Answers B server request i (transition server request id action apply) s := by
  refine answers_current fun member t hknown => ?_
  rw [DrizzleWorkItemRepository.findById_bind]
  refine Excused.perform excuse_lasts _ (known_lasting member.id) hknown
    (fun t e _ _ _ hrefused _ => ?_) fun t row? t' hinv _ hknown h => ?_
  · cases hrefused with
    | rejected _ _ hrejected => exact excuse_of_text (.path id (.inr hroute)) hrejected
  obtain ⟨sent, -, hrow, -⟩ := sending_workItemsFindById h.1
  cases row? with
  | none => exact Excused.ret excuse_lasts _
  | some row =>
    obtain ⟨htext, hid, htitle⟩ := hinv.items row (Table.mem_of_find? hrow.symm)
    obtain ⟨item, hitem⟩ := Db.toWorkItem_of_visible server.rt hid htitle
    simp only [hitem]
    split_ifs with hassignee
    · exact Excused.ret excuse_lasts _
    rcases happly item with ⟨message, hnext⟩ | ⟨state, hnext⟩
    · simp only [hnext]
      exact Excused.ret excuse_lasts _
    · simp only [hnext]
      have hmoved :
          { item with state } = { item with state, assigneeMemberId := some member.id } := by
        rw [← not_not.mp hassignee]
      rw [hmoved]
      refine Excused.saveMoved excuse_lasts hknown htext hitem (fun _ => True) (.const _) trivial
        fun u hknown _ => ?_
      refine answers_recordWork hknown haction ?_ _
      show Column.IsText item.id
      rwa [(Db.toWorkItem_ok hitem).1]

lemma visible_of_nonEmptyString? {v : Option Json} {text : JsString}
    (h : nonEmptyString? v = some text) : ¬ text.IsBlank := by
  simp only [nonEmptyString?] at h
  split at h
  · split_ifs at h with hblank
    cases h
    exact hblank
  · cases h

lemma isInteger_priorityOrZero (body : Json) : isInteger (priorityOrZero body) := by
  simp only [priorityOrZero]
  split
  · split_ifs with hinteger
    · exact hinteger
    · rw [isInteger, integer?_zero, Option.isSome_some]
  · rw [isInteger, integer?_zero, Option.isSome_some]

lemma answers_publish (hroute : request.route = .publish) :
    Answers B server request i (publish server request) s := by
  refine answers_current fun member t hknown => ?_
  dsimp only
  cases htitle : nonEmptyString? ((Json.orEmpty request.body).prop? "title") with
  | none => exact Excused.ret excuse_lasts _
  | some title =>
    refine Excused.read excuse_lasts rfl (fun _ => id) _ (known_lasting member.id) hknown
      fun t uuid t' _ _ hknown h => ?_
    have hid : Column.IsText ("w_" ++ uuid) := .append (.of_all rfl) (sending_randomUUID h.1).2.1
    have hcreated := WorkItem.create_of_visible server.rt
      { id := "w_" ++ uuid, title, description := stringOrNull (Json.orEmpty request.body)
          "description", priority := priorityOrZero (Json.orEmpty request.body),
        requiredRole := stringOrNull (Json.orEmpty request.body) "requiredRole" }
      (JsString.not_isBlank_append_left (by decide)) (visible_of_nonEmptyString? htitle)
      (isInteger_priorityOrZero _)
    rw [hcreated]
    refine Excused.perform excuse_lasts _ (known_lasting member.id) hknown
      (fun u e _ _ _ hrefused _ => ?_) fun _ _ _ _ _ hknown _ =>
        answers_recordWork hknown (.of_all rfl) hid _
    cases hrefused with
    | priority _ _ outside range => exact .priority e hroute outside range
    | assignee _ sent written absent =>
      have hassignee := (Column.workItem_eq_ok_iff.mp written).2.1
      refine absurd (fun _ h => ?_) absent
      rw [← Except.ok.inj hassignee] at h
      cases h
    | rejected _ _ hrejected =>
      rcases hrejected with hrejected | ⟨hnul, message, rfl⟩
      · simp only [Column.workItem, bind_eq_error, attach_eq_error,
          Column.text_eq_ok_iff.mpr hid] at hrejected
        rcases hrejected with h | ⟨_, -, h | ⟨_, -, h⟩⟩ <;> cases h
      · rcases hnul with h | ⟨text, hs, h⟩ | ⟨text, hs, h⟩
        · exact .nul title message (.item title hroute (.inl htitle)) h
        · exact .nul text message (.item text hroute (.inr (.inl hs))) h
        · exact .nul text message (.item text hroute (.inr (.inr hs))) h

/-! ### Signups -/

/-- What a signup throws when none of its operations fails by itself. -/
inductive SignupExcuse (server : Server) (input : SignupInput) (i : ℕ)
    (history : List ServerLabel) :
    Thrown → Prop
  | registered (email : JsString) :
    SignupExcuse server input i history (.emailAlreadyRegistered email)
  | nul (text message : JsString)
    (column : text = SignupService.normalizeEmail server.rt input.email ∨
        text = input.displayName) (zero : 0 ∈ text) :
      SignupExcuse server input i history (.foreign message)
  | overtaken (member : Member)
      (free : ⟨i, .credentialsFindByEmail (SignupService.normalizeEmail server.rt input.email),
        .ok none⟩ ∈ history)
      (named : member.identityRef = "local|" ++ SignupService.normalizeEmail server.rt input.email)
      (refused : ⟨i, .membersSave member, .error (.database .uniqueViolation)⟩ ∈ history) :
      SignupExcuse server input i history (.database .uniqueViolation)

lemma signupExcuse_lasts {input : SignupInput} : Lasts (SignupExcuse server input i) := by
  intro h h' e hexcuse hle
  cases hexcuse with
  | registered email => exact .registered email
  | nul text message column zero => exact .nul text message column zero
  | overtaken member free named refused => exact .overtaken member (hle free) named (hle refused)

/-- The credential of a member that is known is refused for its email only. -/
lemma excused_insert {input : SignupInput} {record : HumanCredentialRecord} {email : JsString}
    (hknown : Known record.memberId s) (hemail : Column.text record.email = .ok email) :
    (legibleDiscipline B server.rt).Safe i (Excused B i (SignupExcuse server input i))
      (DrizzleHumanCredentialRepository.save record) s := by
  have hwritten : Column.credential record = .ok { record with email } :=
    Column.credential_eq_ok_iff.mpr ⟨hknown.sent, hemail, rfl⟩
  refine .tryCatch (Q := fun r s => ∀ e, r = .error e → Failed B i s.2 e ∨
    e = .database .uniqueViolation) ?_
      (fun a _ _ => Excused.ret signupExcuse_lasts a) fun e t ht => ?_
  · have hstable (r : Except Thrown Unit) : (legibleDiscipline B server.rt).Stable i fun s =>
        ∀ e, r = .error e → Failed B i s.2 e ∨ e = .database .uniqueViolation := by
      rintro s s' hfailed ⟨j, op, a, -, -, -, h⟩ e he
      exact (hfailed e he).imp_left fun hfailed => hfailed.mono (subset_of_recorded h)
    refine .call _ (known_lasting _).stable hknown (fun _ _ _ => trivial)
      fun t a t' hinv ht h => ?_
    cases a with
    | ok => exact .ret (hstable _) fun _ h => by cases h
    | error e =>
      refine .throw (hstable _) ?_
      rintro _ ⟨⟩
      rcases error_cases hinv h.1 with ⟨hfail, message, rfl⟩ | hrefused
      · exact .inl ⟨_, message, hfail, rfl, mem_of_recorded h⟩
      · cases hrefused with
        | credential => exact .inr rfl
        | stranger _ sent written absent =>
          cases hwritten.symm.trans written
          have hstored := ht.stored
          rw [Stored, absent] at hstored
          cases hstored
        | rejected _ _ hrejected => cases hwritten.symm.trans hrejected
  · rcases ht e rfl with ⟨op, message, hfail, rfl, hmem⟩ | rfl
    · exact Excused.throw signupExcuse_lasts (.inl ⟨op, message, hfail, rfl, hmem⟩)
    · exact Excused.throw signupExcuse_lasts (.inr (.registered _))

lemma excused_signup {input : SignupInput} (hname : ¬ input.displayName.IsBlank) :
    (legibleDiscipline B server.rt).Safe i (Excused B i (SignupExcuse server input i))
      (SignupService.signup server.rt input) s := by
  refine Excused.perform signupExcuse_lasts (fun _ => True) (.const _) trivial
    (fun _ e _ _ _ hrefused _ => ?_) fun t record? t' _ _ _ h => ?_
  · cases hrefused with
    | rejected _ _ hrejected =>
      obtain ⟨hzero, message, rfl⟩ := Column.text_eq_error hrejected
      exact .nul _ message (.inl rfl) hzero
  have hfree := mem_of_recorded h
  obtain ⟨email, hemail, -⟩ := sending_credentialsFindByEmail h.1
  cases record? with
  | some record => exact Excused.throw signupExcuse_lasts (.inr (.registered _))
  | none =>
    refine Excused.read signupExcuse_lasts rfl (fun _ => id) _ (performed_lasting _) hfree
      fun t uuid t' _ _ hfree h => ?_
    have huuid := (sending_randomUUID h.1).2.1
    obtain ⟨member, hmember⟩ := @SignupService.memberProps_of_visible server.rt uuid
      (SignupService.normalizeEmail server.rt input.email) input.displayName hname
    obtain ⟨hid, -, hnamed, hroles, -⟩ := SignupService.memberProps_ok hmember
    rw [hmember]
    refine Excused.perform signupExcuse_lasts _ (performed_lasting _) hfree
      (fun u e u' _ hfree hrefused hmem => ?_) fun u _ u' _ _ _ h => ?_
    · cases hrefused with
      | identity => exact .overtaken member hfree hnamed hmem
      | rejected _ _ hrejected =>
        rcases Column.member_eq_error hrejected with
          ⟨text, hcolumn, hzero, message, rfl⟩ | hrejected
        · refine .nul text message (.inr ?_) hzero
          rcases hcolumn with rfl | rfl | rfl
          · rw [hid] at hzero
            rcases List.mem_append.mp hzero with hzero | hzero
            · exact absurd hzero (by decide)
            · exact absurd hzero huuid.1
          · rw [hnamed] at hzero
            rcases List.mem_append.mp hzero with hzero | hzero
            · exact absurd hzero (by decide)
            · exact absurd hzero (Column.not_mem_of_text hemail)
          · exact (Member.create_ok hmember).2.2.2.1
        · rw [hroles] at hrejected
          cases hrejected
    · obtain ⟨row, hrow, hset, -⟩ := sending_membersSave h.1
      have htext : Column.IsText member.id := hid ▸ .append (.of_all rfl) huuid
      have hrowId := (Column.member_eq_ok_iff.mp hrow).1
      rw [Column.text_eq_ok_iff.mpr htext] at hrowId
      have hknown : Known member.id u' := by
        refine ⟨htext, ?_⟩
        rw [Stored, hset, Except.ok.inj hrowId]
        exact Option.isSome_of_eq_some Table.find?_set_self
      refine Excused.read signupExcuse_lasts rfl (fun _ => id) _ (known_lasting member.id) hknown
        fun v passwordHash v' _ _ hknown _ => ?_
      exact (excused_insert hknown hemail).bind (fun _ _ _ => Excused.ret signupExcuse_lasts _)
        fun _ _ hx => Excused.throw signupExcuse_lasts (hx _ rfl)

lemma answers_postSignup (hroute : request.route = .signup) :
    Answers B server request i (postSignup server request) s := by
  rw [postSignup]
  cases hinput : signupInput? (Json.orEmpty request.body) with
  | none => exact Excused.ret excuse_lasts _
  | some input =>
    have hname : ¬ input.displayName.IsBlank := by
      simp only [signupInput?] at hinput
      obtain ⟨_, -, hinput⟩ := Option.bind_eq_some_iff.mp hinput
      obtain ⟨_, -, hinput⟩ := Option.bind_eq_some_iff.mp hinput
      obtain ⟨name, hname, hinput⟩ := Option.bind_eq_some_iff.mp hinput
      cases hinput
      exact visible_of_nonEmptyString? hname
    refine .tryCatch (Q := Excused B i (SignupExcuse server input i)) ?_
      (fun a _ _ => Excused.ret excuse_lasts a) fun e t ht => ?_
    · exact (excused_signup hname).bind (fun _ _ _ => Excused.ret signupExcuse_lasts _)
        fun _ _ ht => Excused.throw signupExcuse_lasts (ht _ rfl)
    · rcases ht e rfl with ⟨op, message, hfail, rfl, hmem⟩ | hexcuse
      · exact Excused.throw excuse_lasts (.inl ⟨op, message, hfail, rfl, hmem⟩)
      · cases hexcuse with
        | registered => exact Excused.ret excuse_lasts _
        | nul text message column zero =>
          exact Excused.throw excuse_lasts
            (.inr (.nul text message (.signup input text hroute hinput column) zero))
        | overtaken member free named refused =>
          exact Excused.throw excuse_lasts
            (.inr (.overtaken input member hroute hinput free named refused))

/-- Every request is answered, or has an excuse. -/
lemma answers_handle (request : HttpRequest) (s : RecordedWorld) :
    Answers B server request i (handle server request) s := by
  simp only [handle]
  cases hroute : request.route with
  | postMembers => exact answers_postMembers hroute
  | getMember id => exact answers_getMember hroute
  | signup => exact answers_postSignup hroute
  | login => exact answers_postLogin hroute
  | me => exact answers_getMe
  | publish => exact answers_publish hroute
  | listWorkItems => exact answers_listWorkItems
  | claimNext => exact answers_claimNext hroute
  | start id => exact answers_transition (.inl hroute) (.of_all rfl) (move_setsState _ _ _)
  | complete id => exact answers_transition (.inr hroute) (.of_all rfl) (move_setsState _ _ _)

/-! ### Turns -/

/-- Why a turn of a stored agent throws when none of its operations fails by itself. -/
inductive TurnExcuse (B : Backend) (deps : AgentRunnerDeps) (i : ℕ) (history : List ServerLabel) :
    Thrown → Prop
  | role (e : Thrown) (odd : OddRole B deps.agent)
      (claim : (∃ message, e = .workItemClaim message) ∨ ∃ message, e = .foreign message) :
      TurnExcuse B deps i history e
  /-- The columns do not take what is reported of the model's text. -/
  | preview (request : GatewayCompletionRequest) (content : JsString) (e : Thrown)
      (answered : ⟨i, .complete request, .ok content⟩ ∈ history)
      (refused : Column.metadata
        (some [("outputPreview", AgentRunner.preview content)]) = .error e) :
      TurnExcuse B deps i history e

lemma turnExcuse_lasts {deps : AgentRunnerDeps} : Lasts (TurnExcuse B deps i) := by
  intro h h' e hexcuse hle
  cases hexcuse with
  | role e odd claim => exact .role e odd claim
  | preview request content e answered refused =>
    exact .preview request content e (hle answered) refused

/-- A turn of an agent that is known goes to its end. -/
lemma excused_runOnce {deps : AgentRunnerDeps} (hknown : Known deps.agent.id s) :
    (legibleDiscipline B server.rt).Safe i (Excused B i (TurnExcuse B deps i))
      (AgentRunner.runOnce deps) s := by
  refine Excused.perform turnExcuse_lasts _ (known_lasting deps.agent.id) hknown
    (fun t e _ hknown _ hrefused _ => ?_) fun t claimed? t' hinv _ hknown h => ?_
  · cases hrefused with
    | rejected _ _ hrejected => exact hrejected.elim
    | claimer _ _ absent => exact absurd ⟨deps.agent.id, hknown.sent, hknown.stored⟩ absent
    | role _ _ odd claim => exact .role e odd claim
  cases claimed? with
  | none => exact Excused.ret turnExcuse_lasts _
  | some claimed =>
    obtain ⟨row, item, _, _, hfind, hitem, -, -, rfl, -⟩ := sending_workItemsClaimNext h.1
    have hrow := (hinv.items row (Table.mem_of_find? hfind)).1
    have hitemId : Column.IsText item.id := by rwa [(Db.toWorkItem_ok hitem).1]
    refine .bind (Q := fun r s => Excused B i (TurnExcuse B deps i) r s ∧ Known deps.agent.id s)
      (.lasting (known_lasting _) (Excused.record turnExcuse_lasts hknown
        ⟨.of_all rfl, .of_all rfl, hitemId⟩ (fun _ => True) (.const _) trivial
        fun _ e _ h => by cases h) hknown) (fun _ u hu => ?_)
      fun _ _ hu => Excused.throw turnExcuse_lasts (hu.1 _ rfl)
    refine Excused.read turnExcuse_lasts rfl (fun _ => id) _ (known_lasting deps.agent.id) hu.2
      fun v content v' _ _ hknown h => ?_
    have hanswered := mem_of_recorded h
    rw [start_complete rfl]
    refine @Excused.saveMoved B i server v' _ _ turnExcuse_lasts B.rt row item .done deps.agent.id _
      hknown hrow hitem _ (performed_lasting _) hanswered fun x hknown hanswered => ?_
    refine Excused.recordThen turnExcuse_lasts hknown ⟨.of_all rfl, .of_all rfl, hitemId⟩ _
      (performed_lasting _) hanswered (fun y e hanswered hrefused => ?_) _
    exact .preview _ content e hanswered hrefused

end Requests

/-! ### Every run -/

section Runs

variable {B : Backend} {server : Server} {actors : List Actor} {w : World} {ls : List ServerLabel}
  {c : Config ServerOp ServerAns Thrown ActorResult World}

/-- How the programs of a pool end, if agents are stored. -/
def AnswersEnd (B : Backend) (server : Server) (actors : List Actor) (w : World) (i : ℕ)
    (r : Except Thrown ActorResult) (s : RecordedWorld) : Prop :=
  (∀ request, actors[i]? = some (.client request) → Excused B i (Excuse B server request i) r s) ∧
  ∀ deps, actors[i]? = some (.runner deps) → (w.db.members.find? deps.agent.id).isSome →
    Excused B i (TurnExcuse B deps i) r s

lemma known_of_stored {id : JsString} {history : List ServerLabel} (hlegible : Legible server.rt w)
    (hstored : (w.db.members.find? id).isSome) : Known id (w, history) := by
  obtain ⟨row, hrow⟩ := Option.isSome_iff_exists.mp hstored
  refine ⟨?_, hstored⟩
  rw [← Table.key_of_find? hrow]
  exact hlegible.memberIds row (Table.mem_of_find? hrow)

lemma disciplined_answers (hlegible : Legible server.rt w) :
    Disciplined (legibleDiscipline B server.rt) (AnswersEnd B server actors w)
      ⟨(w, []), actors.map (Actor.program server)⟩ where
  inv := hlegible
  safe := by
    intro i p hp
    rw [List.getElem?_map, Option.map_eq_some_iff] at hp
    obtain ⟨actor, hactor, rfl⟩ := hp
    cases actor with
    | client request =>
      refine (answers_handle request _).map _ fun r s hr => ⟨fun request' hrequest' => ?_,
        fun deps hdeps => ?_⟩
      · cases hactor.symm.trans hrequest'
        exact hr.map
      · cases hactor.symm.trans hdeps
    | runner deps =>
      by_cases hstored : (w.db.members.find? deps.agent.id).isSome
      · have hknown : Known deps.agent.id (w, []) := known_of_stored hlegible hstored
        refine (@excused_runOnce B i server (w, []) deps hknown).map _ fun r s hr =>
          ⟨fun request hrequest => ?_, fun deps' hdeps' _ => ?_⟩
        · cases hactor.symm.trans hrequest
        · cases hactor.symm.trans hdeps'
          exact hr.map
      · refine .of_all (fun _ _ _ _ => trivial) ((runOnce_all deps).map _) (fun r s =>
          ⟨fun request hrequest => ?_, fun deps' hdeps' hstored' => ?_⟩) _
        · cases hactor.symm.trans hrequest
        · cases hactor.symm.trans hdeps'
          exact absurd hstored' hstored

/-- A request that is not answered, and a turn that does not come to its end, have a reason: an
operation of theirs failed by itself, or the tables cannot hold what they ask for. -/
theorem unanswered_excused (hlegible : Legible server.rt w)
    (run : Run (sending B) ⟨w, actors.map (Actor.program server)⟩ ls c) :
    (∀ (i : ℕ) request e, actors[i]? = some (.client request) → c.pool[i]? = some (.throw e) →
      Failed B i ls e ∨ Excuse B server request i ls e) ∧
    ∀ (i : ℕ) deps e, actors[i]? = some (.runner deps) →
      (w.db.members.find? deps.agent.id).isSome → c.pool[i]? = some (.throw e) →
        Failed B i ls e ∨ TurnExcuse B deps i ls e := by
  have hd := (disciplined_answers hlegible).run run.recorded
  constructor
  · intro i request e hclient hended
    have hthrow : c.pool[i]? = some (Prog.ofExcept (.error e)) := hended
    exact (hd.result hthrow).1 request hclient e rfl
  · intro i deps e hrunner hstored hended
    have hthrow : c.pool[i]? = some (Prog.ofExcept (.error e)) := hended
    exact (hd.result hthrow).2 deps hrunner hstored e rfl

/-! An item is published with a priority that its column does not hold. -/

def largePriority : HttpRequest :=
  ⟨.publish, some "Bearer m_agent",
    some (.obj [("title", .str "Notes"), ("priority", .num (ofInt 2147483648))])⟩

def thrown? : ServerProg ActorResult → Option Thrown
  | .throw e => some e
  | _ => none

lemma of_thrown? {p : ServerProg ActorResult} {e : Thrown} (h : thrown? p = some e) :
    p = .throw e := by
  cases p with
  | throw => exact congrArg Prog.throw (Option.some.inj h)
  | _ => cases h

theorem unanswered_excused_priority : ∃ ls c,
    Run (sending .faultless)
      ⟨⟨Db.board none, []⟩, [Actor.client largePriority].map (Actor.program someServer)⟩ ls c ∧
    c.pool[0]? = some (.throw (.database .numericValueOutOfRange)) ∧
    Outside (priorityOrZero (Json.orEmpty largePriority.body)) := by
  have hpublish : (follow (World.attemptSent .faultless)
      ([0, 0, 0, 0].map (·, { Oracle.plain with uuid := "2" }))
      ⟨⟨Db.board none, []⟩, [Actor.client largePriority].map (Actor.program someServer)⟩).map
        (fun (_, c) => c.pool[0]?.bind thrown?) =
          some (some (.database .numericValueOutOfRange)) := by
    decide +kernel
  obtain ⟨⟨ls, c⟩, hfollow, hthrown⟩ := Option.map_eq_some_iff.mp hpublish
  obtain ⟨p, hp, hthrown⟩ := Option.bind_eq_some_iff.mp hthrown
  rw [of_thrown? hthrown] at hp
  have hsent : ∀ (i : ℕ) o op w a w', World.attemptSent .faultless o op w = some (a, w') →
      sending .faultless i op w a w' := fun _ _ _ _ _ _ => sending_of_attempt
  have run := Run.of_follow hsent hfollow
  refine ⟨ls, c, run, hp, ?_⟩
  have hlegible : Legible someServer.rt ⟨Db.board none, []⟩ := by
    refine ⟨fun row hrow => ?_, fun row hrow => ?_, fun row hrow => ?_⟩
    · cases List.mem_singleton.mp hrow
      exact toMember_memberRow _ _
    · cases List.mem_singleton.mp hrow
      exact .of_all rfl
    · cases List.mem_singleton.mp hrow
      exact ⟨.of_all rfl, by decide, by decide⟩
  rcases (unanswered_excused hlegible run).1 0 largePriority _ rfl hp with
    ⟨_, _, hfail, -⟩ | hexcuse
  · exact absurd hfail not_false
  · cases hexcuse with
    | priority _ _ outside => exact outside
    | roles _ _ route => cases route
    | role _ _ route => cases route

end Runs

end WorkspaceOs
