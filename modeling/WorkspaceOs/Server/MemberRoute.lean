import WorkspaceOs.Adapters.Sending
import WorkspaceOs.Server.Routes

/-!
# Publishing a member

`POST /members` turns what it finds in a body into strings before the domain checks it. The checks
see a string wherever there is a string form, and the columns keep what UTF-8 leaves of it.
-/

namespace WorkspaceOs

open Js Effect Relational

/-! ### Saving a member -/

/-- The operations of the server, with a member saved column by column. -/
def World.executeColumns (B : Backend) (o : Oracle) :
    (op : ServerOp) → World → Except Thrown (ServerAns op) × World
  | .membersSave member, w => w.commit ((w.db.writeMember member).map ((), ·))
  | op, w => w.execute B o op

/-! ### What a body gives -/

/-- The member that a body is meant to give. -/
structure GivenMember where
  id : JsString
  type : MemberType
  identityRef : JsString
  displayName : JsString
  roles : List Role
  id_visible : ¬ id.IsBlank
  identityRef_visible : ¬ identityRef.IsBlank
  displayName_visible : ¬ displayName.IsBlank

namespace GivenMember

/-- The row of the member, with each of its roles once. -/
def row (given : GivenMember) : MemberRow where
  id := given.id
  type := given.type.name
  identityRef := given.identityRef
  displayName := given.displayName
  roles := (newSet given.roles).map .str

/-- All texts of the member can be stored. -/
structure IsText (given : GivenMember) : Prop where
  id : Column.IsText given.id
  identityRef : Column.IsText given.identityRef
  displayName : Column.IsText given.displayName
  roles : ∀ role ∈ given.roles, Column.IsText role

end GivenMember

/-- The body is valid, and gives the member. -/
structure Gives (body : Json) (given : GivenMember) : Prop where
  id : body.prop? "id" = some (.str given.id)
  type : body.prop? "type" = some (.str given.type.name)
  identityRef : body.prop? "identityRef" = some (.str given.identityRef)
  displayName : body.prop? "displayName" = some (.str given.displayName)
  roles : body.prop? "roles" = some (.arr (given.roles.map .str)) ∨
    body.prop? "roles" = none ∧ given.roles = []

/-- What the domain refuses: the three texts have a string form, and the type is unknown, with a
string form to quote, or one of the texts is blank. -/
def Refuses (rt : Runtime) (body : Json) : Prop :=
  ∃ id identityRef displayName, Json.coerce rt.numberToString (body.prop? "id") = some id ∧
    Json.coerce rt.numberToString (body.prop? "identityRef") = some identityRef ∧
    Json.coerce rt.numberToString (body.prop? "displayName") = some displayName ∧
    match MemberType.of? (body.prop? "type") with
    | none => (Json.coerce rt.numberToString (body.prop? "type")).isSome
    | some _ => id.IsBlank ∨ identityRef.IsBlank ∨ displayName.IsBlank

/-- A valid body is answered 201, and the member that it gives is saved; any other body is answered
400, and no member is written. -/
structure AcceptsExactly (body : Json) (w : World) (ended : Except Thrown Reply × World) :
    Prop where
  valid : ∀ given, Gives body given → (∃ reply, ended.1 = .ok reply ∧ reply.code = 201) ∧
    ended.2.db.members = w.db.members.set given.row
  invalid : (∀ given, ¬ Gives body given) →
    (∃ reply, ended.1 = .ok reply ∧ reply.code = 400) ∧ ended.2.db.members = w.db.members

variable {rt : Runtime} {body : Json} {given : GivenMember} {member : Member}

/-! ### From the body to the member -/

lemma stringOf_eq_ok_iff {key s : JsString} :
    stringOf rt body key = .ok s ↔ Json.coerce rt.numberToString (body.prop? key) = some s := by
  rw [stringOf]
  cases Json.coerce rt.numberToString (body.prop? key) <;> simp

lemma stringOf_ne_invalidMember {key message : JsString} :
    stringOf rt body key ≠ .error (.invalidMember message) := by
  rw [stringOf]
  cases Json.coerce rt.numberToString (body.prop? key) <;> simp

/-- A blank text or an unknown type, and nothing else, is refused with the error of the domain. -/
lemma create_refused_iff {props : MemberProps} :
    (∃ message, Member.create rt props = .error (.invalidMember message)) ↔
      match MemberType.of? props.type with
      | none => (Json.coerce rt.numberToString props.type).isSome
      | some _ => props.id.IsBlank ∨ props.identityRef.IsBlank ∨ props.displayName.IsBlank := by
  cases htype : MemberType.of? props.type with
  | none =>
    simp only [Member.create, htype]
    cases Json.coerce rt.numberToString props.type <;> simp
  | some type =>
    constructor
    · rintro ⟨message, h⟩
      by_contra hvisible
      simp only [not_or] at hvisible
      obtain ⟨m, hm⟩ := Member.create_of_visible rt htype hvisible.1 hvisible.2.1 hvisible.2.2
      rw [hm] at h
      cases h
    · intro hblank
      cases hcreate : Member.create rt props with
      | ok m =>
        obtain ⟨hid, -, href, hname, -⟩ := Member.create_ok hcreate
        rw [← hid, ← href, ← hname] at hblank
        exact absurd hblank (by simp [m.id_visible, m.identityRef_visible, m.displayName_visible])
      | error e =>
        simp only [Member.create, htype, bind_eq_error] at hcreate
        rcases hcreate with h | ⟨_, -, h | ⟨_, -, h | ⟨_, -, h⟩⟩⟩
        · exact ⟨_, congrArg _ (requireNonBlank_error h)⟩
        · exact ⟨_, congrArg _ (requireNonBlank_error h)⟩
        · exact ⟨_, congrArg _ (requireNonBlank_error h)⟩
        · cases h

/-- What the route takes for the roles. -/
def rolesOf (body : Json) : List Json :=
  match body.prop? "roles" with
  | some (.arr roles) => roles
  | _ => []

lemma memberOfBody_eq {id identityRef displayName : JsString}
    (hid : Json.coerce rt.numberToString (body.prop? "id") = some id)
    (href : Json.coerce rt.numberToString (body.prop? "identityRef") = some identityRef)
    (hname : Json.coerce rt.numberToString (body.prop? "displayName") = some displayName) :
    memberOfBody rt body = Member.create rt
      { id, type := body.prop? "type", identityRef, displayName, roles := rolesOf body } := by
  rw [memberOfBody, stringOf_eq_ok_iff.mpr hid, stringOf_eq_ok_iff.mpr href,
    stringOf_eq_ok_iff.mpr hname]
  rfl

lemma memberOfBody_refused_iff :
    (∃ message, memberOfBody rt body = .error (.invalidMember message)) ↔ Refuses rt body := by
  constructor
  · rintro ⟨message, h⟩
    rcases bind_eq_error.mp h with h' | ⟨id, hid, h₁⟩
    · exact absurd h' stringOf_ne_invalidMember
    rcases bind_eq_error.mp h₁ with h' | ⟨identityRef, href, h₂⟩
    · exact absurd h' stringOf_ne_invalidMember
    rcases bind_eq_error.mp h₂ with h' | ⟨displayName, hname, h₃⟩
    · exact absurd h' stringOf_ne_invalidMember
    exact ⟨id, identityRef, displayName, stringOf_eq_ok_iff.mp hid, stringOf_eq_ok_iff.mp href,
      stringOf_eq_ok_iff.mp hname, create_refused_iff.mp ⟨message, h₃⟩⟩
  · rintro ⟨id, identityRef, displayName, hid, href, hname, hrefused⟩
    rw [memberOfBody_eq hid href hname]
    exact create_refused_iff.mpr hrefused

/-- Strings without repetition. -/
lemma dedupe_map_str (roles : List Role) :
    Json.dedupe (roles.map .str) = (newSet roles).map .str := by
  suffices h : ∀ kept : List Role, (roles.map Json.str).foldl
      (fun kept v => if kept.any (Json.sameValueZero v) then kept else kept ++ [v])
        (kept.map .str) =
      (kept ++ newSet (roles.filter fun role => !kept.contains role)).map .str by
    refine (h []).trans ?_
    simp
  induction roles with
  | nil => simp [newSet]
  | cons role roles ih =>
    intro kept
    have hany : (kept.map Json.str).any (Json.sameValueZero (.str role)) = kept.contains role := by
      rw [Bool.eq_iff_iff]
      simp [Json.sameValueZero]
    rw [List.map_cons, List.foldl_cons, hany]
    cases hkept : kept.contains role with
    | true =>
      rw [if_pos rfl, ih, List.filter_cons_of_neg (by simpa using hkept)]
    | false =>
      have hstep : kept.map Json.str ++ [.str role] = (kept ++ [role]).map .str := by simp
      have hrest : (fun r => !(kept ++ [role]).contains r) =
          fun r => (!r == role) && !kept.contains r := by
        funext r
        rw [Bool.eq_iff_iff]
        simp [and_comm]
      rw [if_neg Bool.false_ne_true, hstep, ih, List.filter_cons_of_pos (by simpa using hkept),
        newSet, newSet, List.eraseDups_cons, List.filter_filter, hrest, List.append_assoc]
      rfl

/-- A valid body gives the member that it is meant to give. -/
lemma memberOfBody_of_gives (h : Gives body given) :
    ∃ member, memberOfBody rt body = .ok member ∧ Db.memberRow member = given.row := by
  have hstr (s : JsString) : Json.coerce rt.numberToString (some (.str s)) = some s := by
    simp [Json.coerce, Json.toText]
  have htype : MemberType.of? (body.prop? "type") = some given.type := by
    rw [h.type]
    cases given.type <;> rfl
  have hroles : rolesOf body = given.roles.map .str := by
    rw [rolesOf]
    rcases h.roles with hroles | ⟨hroles, hnone⟩
    · rw [hroles]
    · rw [hroles, hnone]
      rfl
  obtain ⟨member, hmember⟩ := @Member.create_of_visible rt
    { id := given.id, type := body.prop? "type", identityRef := given.identityRef,
      displayName := given.displayName, roles := rolesOf body } _ htype given.id_visible
    given.identityRef_visible given.displayName_visible
  obtain ⟨hid, htype', href, hname, hkept⟩ := Member.create_ok hmember
  refine ⟨member, ?_, ?_⟩
  · rw [← hmember, memberOfBody_eq (h.id ▸ hstr _) (h.identityRef ▸ hstr _)
      (h.displayName ▸ hstr _)]
  · have hsame : member.type = given.type := Option.some.inj (htype'.symm.trans htype)
    rw [Db.memberRow, GivenMember.row, hid, hsame, href, hname, hkept, hroles, dedupe_map_str]

/-! ### From the member to its row -/

lemma Column.areJson_map_str {roles : List Role} :
    AreJson (roles.map .str) ↔ ∀ role ∈ roles, Column.IsText role := by
  induction roles with
  | nil => simp [AreJson]
  | cons role roles ih => rw [List.map_cons, AreJson, IsJson, ih, List.forall_mem_cons]

/-- The columns keep the member as it is when they can hold its texts. -/
lemma Column.member_eq_row_iff (h : Db.memberRow member = given.row) :
    Column.member member = .ok given.row ↔ given.IsText := by
  have hid : member.id = given.id := congrArg MemberRow.id h
  have htype : member.type.name = given.type.name := congrArg MemberRow.type h
  have href : member.identityRef = given.identityRef := congrArg MemberRow.identityRef h
  have hname : member.displayName = given.displayName := congrArg MemberRow.displayName h
  have hroles : member.roles = (newSet given.roles).map .str := congrArg MemberRow.roles h
  rw [member_eq_ok_iff, hid, htype, href, hname, hroles]
  simp only [GivenMember.row, text_eq_ok_iff, jsonElements_eq_ok_iff, areJson_map_str, mem_newSet,
    true_and]
  constructor
  · rintro ⟨hid, href, hname, hroles⟩
    exact ⟨hid, href, hname, hroles⟩
  · rintro ⟨hid, href, hname, hroles⟩
    exact ⟨hid, href, hname, hroles⟩

lemma World.executeColumns_members {B : Backend} {o : Oracle} {op : ServerOp} (w : World)
    (h : op.table ≠ some .members) : (w.executeColumns B o op).2.db.members = w.db.members := by
  cases op with
  | membersSave member => exact absurd rfl h
  | _ => exact (@execute_framed B w _ o _ _ rfl).members h

/-- Only `save` writes members, and it sends their identifiers as texts. -/
lemma World.executeColumns_storesTexts {B : Backend} {o : Oracle} (op : ServerOp) (w : World)
    (h : w.StoresTexts) : (w.executeColumns B o op).2.StoresTexts := by
  cases op with
  | membersSave member =>
    rw [executeColumns]
    cases hwrite : w.db.writeMember member with
    | error e => exact h
    | ok db =>
      obtain ⟨row, hcolumns, hset, -⟩ := Db.writeMember_eq_ok hwrite
      intro r hr
      have hr : r ∈ (w.db.members.set row).rows := hset ▸ hr
      rcases Table.mem_set.mp hr with rfl | ⟨hold, -⟩
      · exact Column.isText_of_text (Column.member_eq_ok_iff.mp hcolumns).1
      · exact h r hold
  | _ =>
    intro r hr
    rw [w.executeColumns_members (by simp [ServerOp.table])] at hr
    exact h r hr

/-- Whatever the server runs from an empty database, the identifiers of the members are texts. -/
lemma World.runAll_storesTexts {B : Backend} {o : Oracle} {α : Type} (ps : List (ServerProg α))
    {w : World} (h : w.db = .empty) :
    (Prog.runAll (World.executeColumns B o) ps w).2.StoresTexts := by
  refine Prog.runAll_invariant executeColumns_storesTexts ps ?_
  intro r hr
  rw [h] at hr
  cases hr

/-! ### The route -/

section Route

variable {server : Server} {request : HttpRequest} {B : Backend} {o : Oracle} {w : World}

/-- The request alone, on a database that keeps texts in columns. -/
abbrev publishMember (server : Server) (request : HttpRequest) (B : Backend) (o : Oracle)
    (w : World) : Except Thrown Reply × World :=
  (postMembers server request).run (World.executeColumns B o) w

lemma publishMember_refused {message : JsString}
    (h : memberOfBody server.rt (Json.orEmpty request.body) = .error (.invalidMember message)) :
    publishMember server request B o w = (.ok (.error 400 "invalid-member" message), w) := by
  rw [publishMember, postMembers, h]
  rfl

lemma publishMember_thrown {e : Thrown} (hne : ∀ message, e ≠ .invalidMember message)
    (h : memberOfBody server.rt (Json.orEmpty request.body) = .error e) :
    publishMember server request B o w = (.error e, w) := by
  rw [publishMember, postMembers, h]
  cases e <;> first | rfl | exact absurd rfl (hne _)

lemma publishMember_created
    (h : memberOfBody server.rt (Json.orEmpty request.body) = .ok member) :
    publishMember server request B o w =
      match w.db.writeMember member with
      | .ok db => (.ok ⟨201, .member member⟩, { w with db })
      | .error e => (.error e, w) := by
  rw [publishMember, postMembers, h]
  simp only [DrizzleMemberRepository.save]
  rw [Prog.run_perform_bind, World.executeColumns]
  cases w.db.writeMember member <;> rfl

/-- A row of which a table of texts shows nothing but what was meant to be written is that row. -/
lemma row_of_set_eq {t : Relational.Table MemberRow.id} {row meant : MemberRow}
    (hstored : ∀ r ∈ t.rows, Column.IsText r.id) (hid : Column.text meant.id = .ok row.id)
    (h : t.set row = t.set meant) : row = meant := by
  have hmem : meant ∈ (t.set row).rows := h ▸ Table.mem_set.mpr (.inl rfl)
  rcases Table.mem_set.mp hmem with heq | ⟨hold, hne⟩
  · exact heq.symm
  · have hsame := Column.text_eq_ok_iff.mpr (hstored meant hold)
    rw [hid] at hsame
    exact absurd (Except.ok.inj hsame).symm hne

/-- A valid body is answered 201, and its member saved, if and only if its texts can be stored and
no other member has its identity. -/
lemma publishMember_valid_iff (hstored : w.StoresTexts)
    (hgives : Gives (Json.orEmpty request.body) given) :
    ((∃ reply, (publishMember server request B o w).1 = .ok reply ∧ reply.code = 201) ∧
      (publishMember server request B o w).2.db.members = w.db.members.set given.row) ↔
    given.IsText ∧
      ∀ r ∈ w.db.members.rows, r.identityRef = given.identityRef → r.id = given.id := by
  obtain ⟨member, hmember, hrow⟩ := @memberOfBody_of_gives server.rt _ _ hgives
  rw [publishMember_created hmember]
  constructor
  · cases hwrite : w.db.writeMember member with
    | error e => simp
    | ok db =>
      rintro ⟨-, hmembers⟩
      obtain ⟨row, hcolumns, hset, hunique⟩ := Db.writeMember_eq_ok hwrite
      have hid : Column.text given.row.id = .ok row.id := by
        rw [← hrow]
        exact (Column.member_eq_ok_iff.mp hcolumns).1
      obtain rfl := row_of_set_eq hstored hid (hset.symm.trans hmembers)
      exact ⟨(Column.member_eq_row_iff hrow).mp hcolumns, hunique⟩
  · rintro ⟨htext, hunique⟩
    rw [Db.writeMember_of_unique ((Column.member_eq_row_iff hrow).mpr htext) hunique]
    exact ⟨⟨_, rfl, rfl⟩, rfl⟩

/-- A body is answered 400, and no member is written, if and only if the domain refuses it. -/
lemma publishMember_invalid_iff :
    ((∃ reply, (publishMember server request B o w).1 = .ok reply ∧ reply.code = 400) ∧
      (publishMember server request B o w).2.db.members = w.db.members) ↔
    Refuses server.rt (Json.orEmpty request.body) := by
  rw [← memberOfBody_refused_iff]
  constructor
  · rintro ⟨⟨reply, hreply, hcode⟩, -⟩
    cases hbody : memberOfBody server.rt (Json.orEmpty request.body) with
    | ok member =>
      rw [publishMember_created hbody] at hreply
      cases hwrite : w.db.writeMember member with
      | error e => simp [hwrite] at hreply
      | ok db =>
        rw [hwrite] at hreply
        cases hreply
        simp at hcode
    | error e =>
      by_contra hrefused
      simp only [Except.error.injEq, not_exists] at hrefused
      rw [publishMember_thrown hrefused hbody] at hreply
      cases hreply
  · rintro ⟨message, h⟩
    rw [publishMember_refused h]
    exact ⟨⟨_, rfl, rfl⟩, rfl⟩

/-- A body gives at most one row. -/
lemma Gives.row_eq {given' : GivenMember} (h : Gives body given) (h' : Gives body given') :
    given.row = given'.row := by
  obtain ⟨member, hmember, hrow⟩ := @memberOfBody_of_gives .ascii _ _ h
  obtain ⟨member', hmember', hrow'⟩ := @memberOfBody_of_gives .ascii _ _ h'
  rw [hmember] at hmember'
  cases hmember'
  exact hrow.symm.trans hrow'

/-- `POST /members` accepts exactly the valid members on the bodies that are valid, with texts that
can be stored and an identity that no other member has, and on the invalid bodies that the domain
refuses after each field became a string. -/
theorem acceptsExactly_iff (hstored : w.StoresTexts) :
    AcceptsExactly (Json.orEmpty request.body) w (publishMember server request B o w) ↔
      (∃ given, Gives (Json.orEmpty request.body) given ∧ given.IsText ∧
        ∀ r ∈ w.db.members.rows, r.identityRef = given.identityRef → r.id = given.id) ∨
      (∀ given, ¬ Gives (Json.orEmpty request.body) given) ∧
        Refuses server.rt (Json.orEmpty request.body) := by
  constructor
  · intro h
    by_cases hvalid : ∃ given, Gives (Json.orEmpty request.body) given
    · obtain ⟨given, hgives⟩ := hvalid
      exact .inl ⟨given, hgives, (publishMember_valid_iff hstored hgives).mp (h.valid given hgives)⟩
    · rw [not_exists] at hvalid
      exact .inr ⟨hvalid, publishMember_invalid_iff.mp (h.invalid hvalid)⟩
  · rintro (⟨given, hgives, hkept⟩ | ⟨hinvalid, hrefused⟩)
    · refine ⟨fun given' hgives' => ?_, fun hinvalid => absurd hgives (hinvalid given)⟩
      rw [hgives'.row_eq hgives]
      exact (publishMember_valid_iff hstored hgives).mpr hkept
    · exact ⟨fun given hgives => absurd hgives (hinvalid given),
        fun _ => publishMember_invalid_iff.mpr hrefused⟩

end Route

/-! An agent with a role twice, and a body with nothing but a type. -/

def givenSorter : GivenMember where
  id := "m_sorter"
  type := .agent
  identityRef := "sorter"
  displayName := "Sorter"
  roles := ["triage", "triage"]
  id_visible := by decide
  identityRef_visible := by decide
  displayName_visible := by decide

def sorterRequest : HttpRequest where
  route := .postMembers
  authorization := none
  body := some (.obj [("id", .str "m_sorter"), ("type", .str "agent"),
    ("identityRef", .str "sorter"), ("displayName", .str "Sorter"),
    ("roles", .arr [.str "triage", .str "triage"])])

def typeRequest : HttpRequest where
  route := .postMembers
  authorization := none
  body := some (.obj [("type", .str "human")])

theorem acceptsExactly_sorter : AcceptsExactly (Json.orEmpty sorterRequest.body) ⟨.empty, []⟩
    (publishMember someServer sorterRequest .faultless .plain ⟨.empty, []⟩) := by
  have hstored : World.StoresTexts ⟨.empty, []⟩ := fun r hr => by cases hr
  have hgives : Gives (Json.orEmpty sorterRequest.body) givenSorter :=
    ⟨rfl, rfl, rfl, rfl, .inl rfl⟩
  refine (acceptsExactly_iff hstored).mpr (.inl ⟨givenSorter, hgives, ?_, ?_⟩)
  · refine ⟨.of_all rfl, .of_all rfl, .of_all rfl, fun role hrole => ?_⟩
    simp only [givenSorter, List.mem_cons, List.not_mem_nil, or_false, or_self] at hrole
    exact hrole ▸ .of_all rfl
  · intro r hr
    cases hr

/-- A body without an identifier, a reference and a name is answered 201, and a member with the
identifier `undefined` is saved. -/
theorem not_acceptsExactly_type :
    ¬ AcceptsExactly (Json.orEmpty typeRequest.body) ⟨.empty, []⟩
      (publishMember someServer typeRequest .faultless .plain ⟨.empty, []⟩) ∧
    (∃ reply, (publishMember someServer typeRequest .faultless .plain ⟨.empty, []⟩).1 = .ok reply ∧
      reply.code = 201) ∧
    ((publishMember someServer typeRequest .faultless .plain ⟨.empty, []⟩).2.db.members.find?
      "undefined").isSome := by
  refine ⟨fun h => ?_, ⟨_, rfl, rfl⟩, rfl⟩
  have hinvalid : ∀ given, ¬ Gives (Json.orEmpty typeRequest.body) given :=
    fun given hgives => by cases hgives.id
  obtain ⟨id, identityRef, displayName, hid, href, hname, hblank⟩ :=
    publishMember_invalid_iff.mp (h.invalid hinvalid)
  cases hid
  cases href
  cases hname
  rcases hblank with hblank | hblank | hblank <;> exact absurd hblank (by decide)

end WorkspaceOs
