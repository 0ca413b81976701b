import WorkspaceOs.Adapters.Backend
import WorkspaceOs.Adapters.ClaimNext

/-!
# What the driver sends

The operations of the server on a database that gets each parameter of a statement as the driver
sends it. A text with U+0000 is rejected, and an unpaired surrogate becomes something else, in an
identifier too. On texts that the columns keep, these are the operations of `exec`.
-/

namespace WorkspaceOs

open Js Effect Relational

namespace Column

/-- The metadata of a record, in a `jsonb` column. -/
def metadata (fields : Option StringRecord) : Except Thrown Json :=
  json (.obj ((fields.getD []).map fun entry => (entry.1, .str entry.2)))

/-- A text keeps a record whose metadata are texts, and no other. -/
lemma exists_metadata_iff {fields : Option StringRecord} : (∃ v, metadata fields = .ok v) ↔
    ∀ entry ∈ fields.getD [], IsText entry.1 ∧ IsText entry.2 := by
  have hfields (record : StringRecord) :
      (∃ v, jsonFields (record.map fun entry => (entry.1, .str entry.2)) = .ok v) ↔
        ∀ entry ∈ record, IsText entry.1 ∧ IsText entry.2 := by
    induction record with
    | nil => simp [jsonFields]
    | cons entry record ih =>
      rw [List.forall_mem_cons, ← ih, List.map_cons, jsonFields, json]
      simp only [bind_eq_ok]
      constructor
      · rintro ⟨_, _, hkey, _, hvalue, rest, hrest, -⟩
        obtain ⟨value, hvalue, -⟩ := map_eq_ok.mp hvalue
        exact ⟨⟨(jsonString_eq_ok_iff.mp hkey).2, (jsonString_eq_ok_iff.mp hvalue).2⟩, rest, hrest⟩
      · rintro ⟨⟨hkey, hvalue⟩, rest, hrest⟩
        exact ⟨_, _, jsonString_eq_ok_iff.mpr ⟨rfl, hkey⟩, _,
          congrArg _ (jsonString_eq_ok_iff.mpr ⟨rfl, hvalue⟩), rest, hrest, rfl⟩
  rw [← hfields, metadata, json]
  cases jsonFields _ <;> simp [Except.map]

/-- The row that the driver writes for a member. -/
def member (member : Member) : Except Thrown MemberRow := do
  let id ← text member.id
  let type ← text member.type.name
  let identityRef ← text member.identityRef
  let displayName ← text member.displayName
  let roles ← jsonElements member.roles
  return { id, type, identityRef, displayName, roles }

/-- What is sent of a credential. The hash is ASCII. -/
def credential (record : HumanCredentialRecord) : Except Thrown HumanCredentialRecord := do
  let memberId ← text record.memberId
  let email ← text record.email
  return { record with memberId, email }

/-- The item under the identifiers that are sent. -/
def workItem (item : WorkItem) : Except Thrown WorkItem := do
  let ⟨id, hid⟩ ← attach (text item.id)
  let assigneeMemberId ← optional text item.assigneeMemberId
  return { item with id, assigneeMemberId, id_visible := visible_of_text hid item.id_visible }

/-- What is sent of a record. Metadata that a column takes are kept as they are. -/
def activity (input : RecordActivityInput) : Except Thrown RecordActivityInput := do
  let ⟨id, hid⟩ ← attach (text input.actor.id)
  let action ← text input.action
  let resourceType ← text input.resourceType
  let resourceId ← text input.resourceId
  let _ ← metadata input.metadata
  let actor := { input.actor with id, id_visible := visible_of_text hid input.actor.id_visible }
  return { actor, action, resourceType, resourceId, metadata := input.metadata }

lemma member_eq_ok_iff {m : Member} {row : MemberRow} : Column.member m = .ok row ↔
    text m.id = .ok row.id ∧ m.type.name = row.type ∧ text m.identityRef = .ok row.identityRef ∧
      text m.displayName = .ok row.displayName ∧ jsonElements m.roles = .ok row.roles := by
  have htype : text m.type.name = .ok m.type.name :=
    text_eq_ok_iff.mpr (by cases m.type <;> exact .of_all rfl)
  simp only [Column.member, bind_eq_ok, htype]
  constructor
  · rintro ⟨id, hid, type, htype, identityRef, href, displayName, hname, roles, hroles, h⟩
    cases htype
    cases h
    exact ⟨hid, rfl, href, hname, hroles⟩
  · rintro ⟨hid, hname, href, hdisplay, hroles⟩
    exact ⟨_, hid, _, rfl, _, href, _, hdisplay, _, hroles, by rw [hname]; rfl⟩

/-- A member is refused for one of its texts, or for its roles. -/
lemma member_eq_error {m : Member} {e : Thrown} (h : Column.member m = .error e) :
    (∃ s, (s = m.id ∨ s = m.identityRef ∨ s = m.displayName) ∧ 0 ∈ s ∧
      ∃ message, e = .foreign message) ∨ jsonElements m.roles = .error e := by
  have htype : text m.type.name = .ok m.type.name :=
    text_eq_ok_iff.mpr (by cases m.type <;> exact .of_all rfl)
  simp only [Column.member, bind_eq_error, htype] at h
  rcases h with h | ⟨_, -, h | ⟨_, -, h | ⟨_, -, h | ⟨_, -, h | ⟨_, -, h⟩⟩⟩⟩⟩
  · exact .inl ⟨_, .inl rfl, text_eq_error h⟩
  · cases h
  · exact .inl ⟨_, .inr (.inl rfl), text_eq_error h⟩
  · exact .inl ⟨_, .inr (.inr rfl), text_eq_error h⟩
  · exact .inr h
  · cases h

lemma credential_eq_ok_iff {record sent : HumanCredentialRecord} :
    credential record = .ok sent ↔ text record.memberId = .ok sent.memberId ∧
      text record.email = .ok sent.email ∧ record.passwordHash = sent.passwordHash := by
  simp only [credential, bind_eq_ok]
  constructor
  · rintro ⟨memberId, hid, email, hemail, h⟩
    cases h
    exact ⟨hid, hemail, rfl⟩
  · rintro ⟨hid, hemail, hhash⟩
    exact ⟨_, hid, _, hemail, by rw [hhash]; rfl⟩

lemma workItem_eq_ok_iff {item sent : WorkItem} : workItem item = .ok sent ↔
    text item.id = .ok sent.id ∧
      optional text item.assigneeMemberId = .ok sent.assigneeMemberId ∧
      sent.title = item.title ∧ sent.description = item.description ∧
      sent.priority = item.priority ∧ sent.requiredRole = item.requiredRole ∧
      sent.state = item.state := by
  simp only [workItem, bind_eq_ok]
  constructor
  · rintro ⟨⟨id, hid⟩, -, assignee, hassignee, h⟩
    cases h
    exact ⟨hid, hassignee, rfl, rfl, rfl, rfl, rfl⟩
  · rintro ⟨hid, hassignee, htitle, hdescription, hpriority, hrole, hstate⟩
    refine ⟨_, attach_of_ok hid, _, hassignee, congrArg Except.ok ?_⟩
    cases sent
    cases item
    cases htitle
    cases hdescription
    cases hpriority
    cases hrole
    cases hstate
    rfl

/-- Metadata are refused for a text that `jsonb` does not take. -/
lemma metadata_eq_error {fields : Option StringRecord} {e : Thrown}
    (h : metadata fields = .error e) :
    (∃ message, e = .foreign message) ∨ e = .database .invalidTextRepresentation := by
  have hstring {s : JsString} (h : jsonString s = .error e) :
      (∃ message, e = .foreign message) ∨ e = .database .invalidTextRepresentation := by
    simp only [jsonString] at h
    split_ifs at h
    · exact .inl ⟨_, (Except.error.inj h).symm⟩
    · exact .inr (Except.error.inj h).symm
  have hfields (record : StringRecord)
      (h : jsonFields (record.map fun entry => (entry.1, .str entry.2)) = .error e) :
      (∃ message, e = .foreign message) ∨ e = .database .invalidTextRepresentation := by
    induction record with
    | nil => cases h
    | cons entry record ih =>
      rw [List.map_cons, jsonFields, json] at h
      simp only [bind_eq_error, map_eq_error] at h
      rcases h with h | ⟨_, -, h | ⟨_, -, h | ⟨_, -, h⟩⟩⟩
      · exact hstring h
      · exact hstring h
      · exact ih h
      · cases h
  rw [metadata, json, map_eq_error] at h
  exact hfields _ h

lemma activity_eq_ok {input sent : RecordActivityInput} (h : activity input = .ok sent) :
    text input.actor.id = .ok sent.actor.id := by
  simp only [activity, bind_eq_ok] at h
  obtain ⟨⟨id, hid⟩, -, _, -, _, -, _, -, _, -, h⟩ := h
  cases h
  exact hid

/-- A record of texts is refused for its metadata only. -/
lemma activity_eq_error {input : RecordActivityInput} {e : Thrown} (hactor : IsText input.actor.id)
    (haction : IsText input.action) (htype : IsText input.resourceType)
    (hresource : IsText input.resourceId) (h : activity input = .error e) :
    metadata input.metadata = .error e := by
  simp only [activity, bind_eq_error, attach_eq_error, text_eq_ok_iff.mpr hactor,
    text_eq_ok_iff.mpr haction, text_eq_ok_iff.mpr htype, text_eq_ok_iff.mpr hresource] at h
  rcases h with h | ⟨_, -, h | ⟨_, -, h | ⟨_, -, h | ⟨_, -, h | ⟨_, -, h⟩⟩⟩⟩⟩
  iterate 4 cases h
  · exact h
  · cases h

end Column

namespace Db

/-- Write a row whose identity no other row has. -/
def setMember (db : Db) (row : MemberRow)
    (h : ∀ r ∈ db.members.rows, r.identityRef = row.identityRef → r.id = row.id) : Db :=
  { db with
    members := db.members.set row
    identityRef_unique := by
      intro r hr r' hr' href
      rcases Table.mem_set.mp hr with rfl | ⟨hold, -⟩ <;>
        rcases Table.mem_set.mp hr' with rfl | ⟨hold', -⟩
      · rfl
      · exact (h r' hold' href.symm).symm
      · exact h r hold href
      · exact db.identityRef_unique r hold r' hold' href
    credential_member := fun r hr => Table.isSome_find?_set (db.credential_member r hr)
    assignee_member := fun r hr id hid => Table.isSome_find?_set (db.assignee_member r hr id hid)
    actor_member := fun r hr => Table.isSome_find?_set (db.actor_member r hr) }

/-- `save` of `DrizzleMemberRepository`, column by column. -/
def writeMember (db : Db) (member : Member) : Except Thrown Db := do
  let row ← Column.member member
  if h : ∀ r ∈ db.members.rows, r.identityRef = row.identityRef → r.id = row.id then
    return db.setMember row h
  else throw (.database .uniqueViolation)

variable {db db' : Db} {member : Member}

lemma writeMember_ok (h : db.writeMember member = .ok db') :
    ∃ row hunique, Column.member member = .ok row ∧ db' = db.setMember row hunique := by
  obtain ⟨row, hrow, hset⟩ := bind_eq_ok.mp h
  split_ifs at hset with hunique
  cases hset
  exact ⟨row, hunique, hrow, rfl⟩

lemma writeMember_eq_ok (h : db.writeMember member = .ok db') :
    ∃ row, Column.member member = .ok row ∧ db'.members = db.members.set row ∧
      ∀ r ∈ db.members.rows, r.identityRef = row.identityRef → r.id = row.id := by
  obtain ⟨row, hunique, hrow, rfl⟩ := writeMember_ok h
  exact ⟨row, hrow, rfl, hunique⟩

lemma writeMember_of_unique {row : MemberRow} (hrow : Column.member member = .ok row)
    (hunique : ∀ r ∈ db.members.rows, r.identityRef = row.identityRef → r.id = row.id) :
    db.writeMember member = .ok (db.setMember row hunique) :=
  bind_eq_ok.mpr ⟨row, hrow, dif_pos hunique⟩

lemma writeMember_error {e : Thrown} (h : db.writeMember member = .error e) :
    Column.member member = .error e ∨ e = .database .uniqueViolation ∧
      ∃ row, Column.member member = .ok row ∧
        ∃ r ∈ db.members.rows, r.identityRef = row.identityRef ∧ r.id ≠ row.id := by
  rcases bind_eq_error.mp h with h | ⟨row, hrow, h⟩
  · exact .inl h
  · split_ifs at h with hunique
    · cases h
    · refine .inr ⟨(Except.error.inj h).symm, row, hrow, ?_⟩
      simpa using hunique

/-! ### What is sent as it is -/

lemma writeMember_of_kept (h : Column.member member = .ok (memberRow member)) :
    db.writeMember member = db.saveMember member := by
  by_cases hother : ∃ r ∈ db.members.rows, r.identityRef = member.identityRef ∧ r.id ≠ member.id
  · have hunique : ¬ ∀ r ∈ db.members.rows, r.identityRef = (memberRow member).identityRef →
        r.id = (memberRow member).id := by
      simpa [memberRow] using hother
    rw [saveMember, dif_pos hother, writeMember, h]
    exact dif_neg hunique
  · have hunique : ∀ r ∈ db.members.rows, r.identityRef = (memberRow member).identityRef →
        r.id = (memberRow member).id := by
      simpa [memberRow] using hother
    rw [saveMember, dif_neg hother, writeMember_of_unique h hunique]
    rfl

lemma sendClaimNext_of_kept {rt : Runtime} {scan : List WorkItemRow} {now : ℤ} {roles : List Role}
    (hid : Column.IsText member.id)
    (hroles : ∀ role ∈ roles, Column.IsText role) :
    sendClaimNext rt db scan now roles member = claimNext rt db scan now roles member := by
  have htexts : Column.elements Column.text roles = .ok roles :=
    Column.elements_eq_ok_iff.mpr fun role hrole => Column.text_eq_ok_iff.mpr (hroles role hrole)
  cases hcandidate : candidate roles scan with
  | none => rw [sendClaimNext_of_none htexts hcandidate, claimNext_of_none hcandidate]
  | some row =>
    simp only [sendClaimNext, claimNext, htexts, hcandidate, bind, Except.bind]
    cases hitem : toWorkItem rt row with
    | error e => rfl
    | ok item =>
      cases hclaim : item.claimBy member with
      | error e => simp only [hclaim]
      | ok claimed =>
        obtain ⟨-, rfl⟩ := WorkItem.claimBy_eq_ok_iff.mp hclaim
        have hsent : Column.optional Column.text (some member.id) = .ok (some member.id) :=
          Column.optional_text_eq_ok_iff.mpr (by rintro _ ⟨⟩; exact hid)
        simp only [hclaim, hsent]

end Db

namespace World

/-- The identifiers of the members are texts. -/
def StoresTexts (w : World) : Prop := ∀ r ∈ w.db.members.rows, Column.IsText r.id

/-- The operation with its parameters as they are sent, where nothing but the database can make it
fail. -/
def executeSent (B : Backend) (o : Oracle) :
    (op : ServerOp) → World → Except Thrown (ServerAns op) × World
  | .membersSave member, w => w.commit ((w.db.writeMember member).map ((), ·))
  | .membersFindById id, w => ((Column.text id).map w.db.members.find?, w)
  | .credentialsInsert record, w =>
    w.commit ((Column.credential record >>= w.db.insertCredential).map ((), ·))
  | .credentialsFindByEmail email, w => ((Column.text email).map w.db.findCredential, w)
  | .workItemsSave item, w =>
    w.commit ((Column.workItem item >>= w.db.saveWorkItem o.clock o.timestamp).map ((), ·))
  | .workItemsFindById id, w => ((Column.text id).map w.db.workItems.find?, w)
  | .workItemsClaimNext member, w =>
    w.commit (Db.sendClaimNext B.rt w.db o.scan o.clock (member.roles.filterMap B.textParam) member)
  | .activitiesInsert input, w =>
    w.commit ((Column.activity input >>= w.db.insertActivity o.timestamp).map ((), ·))
  | op, w => w.execute B o op

/-- The operation as it is sent, which fails and changes nothing where the oracle has a fault. -/
def performSent (B : Backend) (o : Oracle) (op : ServerOp) (w : World) :
    Except Thrown (ServerAns op) × World :=
  match o.fault with
  | some message => if op.isLocal then executeSent B o op w else (.error (.foreign message), w)
  | none => executeSent B o op w

end World

/-- The semantics of the operations as they are sent. A random identifier is ASCII. -/
def sending (B : Backend) : Semantics ServerOp ServerAns Thrown World := fun _ op w a w' =>
  ∃ o : Oracle, o.Allowed B op w ∧ (op = .randomUUID → Column.IsText o.uuid) ∧
    w.performSent B o op = (a, w')

/-- The columns keep the parameters of the operation as they are. -/
def ServerOp.Kept (B : Backend) : ServerOp → Prop
  | .membersSave member => Column.member member = .ok (Db.memberRow member)
  | .membersFindById id | .workItemsFindById id | .credentialsFindByEmail id => Column.IsText id
  | .credentialsInsert record => Column.credential record = .ok record
  | .workItemsSave item => Column.workItem item = .ok item
  | .workItemsClaimNext member =>
    Column.IsText member.id ∧ ∀ role ∈ member.roles.filterMap B.textParam, Column.IsText role
  | .activitiesInsert input => Column.activity input = .ok input
  | _ => True

lemma World.executeSent_of_kept {B : Backend} {o : Oracle} {op : ServerOp} (w : World)
    (h : op.Kept B) : w.executeSent B o op = w.execute B o op := by
  have htext {s : JsString} (hs : Column.IsText s) : Column.text s = .ok s :=
    Column.text_eq_ok_iff.mpr hs
  cases op with
  | membersSave member => rw [executeSent, execute, Db.writeMember_of_kept h]
  | membersFindById id | workItemsFindById id | credentialsFindByEmail id =>
    rw [executeSent, execute, htext h]
    rfl
  | credentialsInsert record =>
    have hsent : Column.credential record = .ok record := h
    rw [executeSent, execute, hsent]
    rfl
  | workItemsSave item =>
    have hsent : Column.workItem item = .ok item := h
    rw [executeSent, execute, hsent]
    rfl
  | workItemsClaimNext member => rw [executeSent, execute, Db.sendClaimNext_of_kept h.1 h.2]
  | activitiesInsert input =>
    have hsent : Column.activity input = .ok input := h
    rw [executeSent, execute, hsent]
    rfl
  | _ => rfl

lemma World.performSent_of_kept {B : Backend} {o : Oracle} {op : ServerOp} (w : World)
    (h : op.Kept B) : w.performSent B o op = w.perform B o op := by
  cases hfault : o.fault with
  | none => simp only [performSent, perform, hfault, executeSent_of_kept w h]
  | some message => simp only [performSent, perform, hfault, executeSent_of_kept w h]

/-- Where the columns keep everything, nothing depends on what is sent. -/
lemma sending_iff_exec {B : Backend} {i : ℕ} {op : ServerOp} {w w' : World}
    {a : Except Thrown (ServerAns op)} (h : op.Kept B) (hop : op ≠ .randomUUID) :
    sending B i op w a w' ↔ exec B i op w a w' := by
  simp only [sending, exec, w.performSent_of_kept h, hop, false_imp_iff, true_and]

section Inversion

variable {B : Backend} {i : ℕ} {w w' : World} {o : Oracle}

/-- An answer came from the operation itself, or it is a fault and nothing changed. -/
lemma sending_cases {op : ServerOp} {a : Except Thrown (ServerAns op)}
    (h : sending B i op w a w') :
    (∃ o : Oracle, o.Allowed B op w ∧ (op = .randomUUID → Column.IsText o.uuid) ∧
      w.executeSent B o op = (a, w')) ∨
    B.mayFail op ∧ op.isLocal = false ∧ (∃ message, a = .error (.foreign message)) ∧ w' = w := by
  obtain ⟨o, hallowed, huuid, h⟩ := h
  simp only [World.performSent] at h
  cases hfault : o.fault with
  | none => exact .inl ⟨o, hallowed, huuid, by simpa only [hfault] using h⟩
  | some message =>
    simp only [hfault] at h
    split_ifs at h with hlocal
    · exact .inl ⟨o, hallowed, huuid, h⟩
    · cases h
      exact .inr ⟨hallowed.fault (by simp [hfault]), by simpa using hlocal, ⟨message, rfl⟩, rfl⟩

lemma sending_ok {op : ServerOp} {a : ServerAns op} (h : sending B i op w (.ok a) w') :
    ∃ o : Oracle, o.Allowed B op w ∧ (op = .randomUUID → Column.IsText o.uuid) ∧
      w.executeSent B o op = (.ok a, w') := by
  rcases sending_cases h with h | ⟨-, -, ⟨_, h⟩, -⟩
  · exact h
  · cases h

lemma executeSent_framed {op : ServerOp} {a : Except Thrown (ServerAns op)}
    (h : w.executeSent B o op = (a, w')) : Framed op w w' := by
  cases op with
  | membersSave member =>
    rcases commit_map_cases h with ⟨-, -, -, rfl⟩ | ⟨h, -, hdrawn⟩
    · exact .refl _ _
    · obtain ⟨row, hunique, -, hdb⟩ := Db.writeMember_ok h
      exact ⟨fun h => absurd rfl h, fun _ => by rw [hdb]; rfl, fun _ => by rw [hdb]; rfl,
        fun _ => by rw [hdb]; rfl, fun _ => hdrawn⟩
  | credentialsInsert record =>
    rcases commit_map_cases h with ⟨-, -, -, rfl⟩ | ⟨h, -, hdrawn⟩
    · exact .refl _ _
    · obtain ⟨sent, -, h⟩ := bind_eq_ok.mp h
      obtain ⟨-, hm, hw, ha, -⟩ := Db.insertCredential_ok h
      exact ⟨fun _ => hm, fun h => absurd rfl h, fun _ => hw, fun _ => ha, fun _ => hdrawn⟩
  | workItemsSave item =>
    rcases commit_map_cases h with ⟨-, -, -, rfl⟩ | ⟨h, -, hdrawn⟩
    · exact .refl _ _
    · obtain ⟨sent, -, h⟩ := bind_eq_ok.mp h
      obtain ⟨row, hrow, hdb, -⟩ := Db.saveWorkItem_ok h
      exact ⟨fun _ => by rw [hdb]; rfl, fun _ => by rw [hdb]; rfl, fun h => absurd rfl h,
        fun _ => by rw [hdb]; rfl, fun _ => hdrawn⟩
  | workItemsClaimNext member =>
    rcases commit_cases h with ⟨-, -, -, rfl⟩ | ⟨x, h, -, hdrawn⟩
    · exact .refl _ _
    · rcases Db.sendClaimNext_ok h with
        ⟨-, hdb⟩ | ⟨_, row, item, assignee, hrow, -, -, -, -, -, hdb⟩
      · exact ⟨fun _ => by rw [hdb], fun _ => by rw [hdb], fun _ => by rw [hdb],
          fun _ => by rw [hdb], fun _ => hdrawn⟩
      · exact ⟨fun _ => by rw [hdb]; rfl, fun _ => by rw [hdb]; rfl, fun h => absurd rfl h,
          fun _ => by rw [hdb]; rfl, fun _ => hdrawn⟩
  | activitiesInsert input =>
    rcases commit_map_cases h with ⟨-, -, -, rfl⟩ | ⟨h, -, hdrawn⟩
    · exact .refl _ _
    · obtain ⟨sent, -, h⟩ := bind_eq_ok.mp h
      obtain ⟨hm, hc, hw⟩ := Db.insertActivity_ok h
      exact ⟨fun _ => hm, fun _ => hc, fun _ => hw, fun h => absurd rfl h, fun _ => hdrawn⟩
  | randomUUID =>
    cases h
    exact ⟨fun _ => rfl, fun _ => rfl, fun _ => rfl, fun _ => rfl, fun h => absurd rfl h⟩
  | _ =>
    cases h
    exact .refl _ _

lemma sending_framed {op : ServerOp} {a : Except Thrown (ServerAns op)}
    (h : sending B i op w a w') : Framed op w w' := by
  rcases sending_cases h with ⟨o, -, -, h⟩ | ⟨-, -, -, rfl⟩
  · exact executeSent_framed h
  · exact .refl _ _

/-- An operation that is answered with an error changed nothing. -/
lemma sending_error {op : ServerOp} {e : Thrown} (h : sending B i op w (.error e) w') : w' = w := by
  rcases sending_cases h with ⟨o, -, -, h⟩ | ⟨-, -, -, rfl⟩
  · cases op with
    | membersSave | credentialsInsert | workItemsSave | activitiesInsert =>
      rcases commit_map_cases h with ⟨-, -, -, h⟩ | ⟨-, h, -⟩
      · exact h
      · cases h
    | workItemsClaimNext =>
      rcases commit_cases h with ⟨-, -, -, h⟩ | ⟨_, -, h, -⟩
      · exact h
      · cases h
    | membersFindById | credentialsFindByEmail | workItemsFindById =>
      exact (congrArg Prod.snd h).symm
    | _ => cases h
  · rfl

lemma sending_membersSave {member : Member} (h : sending B i (.membersSave member) w (.ok ()) w') :
    ∃ row, Column.member member = .ok row ∧ w'.db.members = w.db.members.set row ∧
      ∀ r ∈ w.db.members.rows, r.identityRef = row.identityRef → r.id = row.id := by
  obtain ⟨o, -, -, h⟩ := sending_ok h
  exact Db.writeMember_eq_ok (commit_map_ok h)

lemma sending_membersFindById {id : JsString} {row : Option MemberRow}
    (h : sending B i (.membersFindById id) w (.ok row) w') :
    ∃ sent, Column.text id = .ok sent ∧ row = w.db.members.find? sent ∧ w' = w := by
  obtain ⟨o, -, -, h⟩ := sending_ok h
  obtain ⟨sent, hsent, hrow⟩ := map_eq_ok.mp (congrArg Prod.fst h)
  exact ⟨sent, hsent, hrow.symm, (congrArg Prod.snd h).symm⟩

lemma sending_credentialsInsert {record : HumanCredentialRecord}
    (h : sending B i (.credentialsInsert record) w (.ok ()) w') :
    ∃ sent, Column.credential record = .ok sent ∧
      w'.db.credentials = w.db.credentials.set sent := by
  obtain ⟨o, -, -, h⟩ := sending_ok h
  obtain ⟨sent, hsent, h⟩ := bind_eq_ok.mp (commit_map_ok h)
  exact ⟨sent, hsent, (Db.insertCredential_ok h).1⟩

/-- A saved item overwrites its row, under the identifiers that are sent. -/
lemma sending_workItemsSave {item : WorkItem}
    (h : sending B i (.workItemsSave item) w (.ok ()) w') :
    ∃ (sent : WorkItem) (row : WorkItemRow), Column.workItem item = .ok sent ∧
      w'.db.workItems = w.db.workItems.set row ∧ row.Holds sent := by
  obtain ⟨o, -, -, h⟩ := sending_ok h
  obtain ⟨sent, hsent, h⟩ := bind_eq_ok.mp (commit_map_ok h)
  obtain ⟨row, hrow, hdb, hholds⟩ := Db.saveWorkItem_ok h
  exact ⟨sent, row, hsent, by rw [hdb]; rfl, hholds⟩

lemma sending_credentialsFindByEmail {email : JsString} {record : Option HumanCredentialRecord}
    (h : sending B i (.credentialsFindByEmail email) w (.ok record) w') :
    ∃ sent, Column.text email = .ok sent ∧ record = w.db.findCredential sent ∧ w' = w := by
  obtain ⟨o, -, -, h⟩ := sending_ok h
  obtain ⟨sent, hsent, hrecord⟩ := map_eq_ok.mp (congrArg Prod.fst h)
  exact ⟨sent, hsent, hrecord.symm, (congrArg Prod.snd h).symm⟩

lemma sending_workItemsFindById {id : JsString} {row : Option WorkItemRow}
    (h : sending B i (.workItemsFindById id) w (.ok row) w') :
    ∃ sent, Column.text id = .ok sent ∧ row = w.db.workItems.find? sent ∧ w' = w := by
  obtain ⟨o, -, -, h⟩ := sending_ok h
  obtain ⟨sent, hsent, hrow⟩ := map_eq_ok.mp (congrArg Prod.fst h)
  exact ⟨sent, hsent, hrow.symm, (congrArg Prod.snd h).symm⟩

/-- A claim that returned an item took a row that the claimer may claim. -/
lemma sending_workItemsClaimNext {member : Member} {claimed : WorkItem}
    (h : sending B i (.workItemsClaimNext member) w (.ok (some claimed)) w') :
    ∃ row item assignee now, w.db.workItems.find? row.id = some row ∧
      Db.toWorkItem B.rt row = .ok item ∧ item.canBeClaimedBy member = true ∧
      Column.text member.id = .ok assignee ∧
      claimed = { item with state := .claimed, assigneeMemberId := some member.id } ∧
      w'.db.workItems = w.db.workItems.set
        { row with state := .claimed, assigneeMemberId := some assignee, updatedAt := now } := by
  obtain ⟨o, hallowed, -, h⟩ := sending_ok h
  rcases commit_cases h with ⟨_, -, h, -⟩ | ⟨x, h, hx, -⟩
  · cases h
  · cases hx
    rcases Db.sendClaimNext_ok h with ⟨h, -⟩ |
      ⟨_, row, item, assignee, hrow, hfirst, hitem, hcan, hassignee, hclaimed, hdb⟩
    · cases h
    · have hmem := hallowed.claimScan row (Db.candidate_some hfirst).1
      exact ⟨row, item, assignee, o.clock, Table.find?_key hmem, hitem, hcan, hassignee,
        Option.some.inj hclaimed, by rw [hdb]; rfl⟩

lemma sending_workItemsClaimNext_none {member : Member}
    (h : sending B i (.workItemsClaimNext member) w (.ok none) w') : w'.db = w.db := by
  obtain ⟨o, -, -, h⟩ := sending_ok h
  rcases commit_cases h with ⟨_, -, h, -⟩ | ⟨x, h, hx, -⟩
  · cases h
  · cases hx
    rcases Db.sendClaimNext_ok h with ⟨-, hdb⟩ | ⟨_, _, _, _, _, -, -, -, -, h, -⟩
    · exact hdb
    · cases h

/-- The list has the open rows of the table. -/
lemma sending_workItemsListOpen {rows : List WorkItemRow}
    (h : sending B i .workItemsListOpen w (.ok rows) w') :
    rows.Perm (w.db.workItems.rows.filter fun r => r.state = .opened) := by
  obtain ⟨o, hallowed, -, h⟩ := sending_ok h
  cases h
  exact (List.perm_insertionSort _ _).trans ((hallowed.listScan rfl).filter _)

lemma sending_randomUUID {uuid : JsString} (h : sending B i .randomUUID w (.ok uuid) w') :
    w.Fresh uuid ∧ Column.IsText uuid ∧ w' = { w with drawn := uuid :: w.drawn } := by
  obtain ⟨o, hallowed, huuid, h⟩ := sending_ok h
  cases h
  exact ⟨hallowed.uuid rfl, huuid rfl, rfl⟩

/-- Only `save` writes members, and it sends their identifiers as texts. -/
lemma World.StoresTexts.step {op : ServerOp} {a : Except Thrown (ServerAns op)}
    (hstored : w.StoresTexts) (h : sending B i op w a w') : w'.StoresTexts := by
  intro r hr
  cases op with
  | membersSave member =>
    cases a with
    | error e =>
      rw [sending_error h] at hr
      exact hstored r hr
    | ok =>
      obtain ⟨row, hrow, hset, -⟩ := sending_membersSave h
      rw [hset] at hr
      rcases Table.mem_set.mp hr with rfl | ⟨hold, -⟩
      · exact Column.isText_of_text (Column.member_eq_ok_iff.mp hrow).1
      · exact hstored r hold
  | _ => exact hstored r (by rwa [(sending_framed h).members (by simp [ServerOp.table])] at hr)

end Inversion

/-! ### Concrete runs -/

/-- The step that an oracle decides which is possible, with an identifier that is a text. -/
def World.attemptSent (B : Backend) (o : Oracle) (op : ServerOp) (w : World) :
    Option (Except Thrown (ServerAns op) × World) :=
  if o.possible op w && o.uuid.all (fun u => u != 0 && !isSurrogate u) then
    some (w.performSent B o op)
  else none

lemma sending_of_attempt {B : Backend} {i : ℕ} {o : Oracle} {op : ServerOp} {w w' : World}
    {a : Except Thrown (ServerAns op)} (h : w.attemptSent B o op = some (a, w')) :
    sending B i op w a w' := by
  simp only [World.attemptSent] at h
  split_ifs at h with hpossible
  rw [Bool.and_eq_true] at hpossible
  exact ⟨o, Oracle.allowed_of_possible hpossible.1, fun _ => .of_all hpossible.2, Option.some.inj h⟩

end WorkspaceOs
