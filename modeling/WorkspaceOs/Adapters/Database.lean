import WorkspaceOs.Relational.Table
import WorkspaceOs.Adapters.Columns
import WorkspaceOs.Core.WorkItem
import WorkspaceOs.Core.ActivityLog

/-!
# The database

The tables that the server works on, with the constraints of their schema, and the statements that
the repositories send. A statement that breaks a constraint is rejected and changes nothing, so a
`Db` satisfies its constraints by construction.

The texts of a work item are kept as their columns keep them. Other text columns keep a string as it
is here, and `jsonb` a list of JSON values.
-/

namespace WorkspaceOs

open Js Relational

/-- A row of `members`. -/
structure MemberRow where
  id : JsString
  type : JsString
  identityRef : JsString
  displayName : JsString
  roles : List Json

/-- A row of `human_credentials`, which is also what `findByEmail` returns. -/
structure HumanCredentialRecord where
  memberId : JsString
  email : JsString
  passwordHash : JsString
deriving DecidableEq

/-- A row of `work_items`. Nothing but the server writes the table, so its `state` is one of the
names of a state; and what a text column holds is a text. -/
structure WorkItemRow where
  id : JsString
  title : JsString
  description : Option JsString
  priority : ℤ
  requiredRole : Option JsString
  state : WorkItemState
  assigneeMemberId : Option JsString
  createdAt : ℤ
  updatedAt : ℤ
  priority_int32 : IsInt32 priority
  title_text : Column.IsText title
  description_text : ∀ s, description = some s → Column.IsText s
  requiredRole_text : ∀ s, requiredRole = some s → Column.IsText s
deriving DecidableEq

/-- The row is what `save` writes for the item. -/
structure WorkItemRow.Holds (row : WorkItemRow) (item : WorkItem) : Prop where
  id : row.id = item.id
  title : Column.text item.title = .ok row.title
  description : Column.optional Column.text item.description = .ok row.description
  priority : integer? item.priority = some row.priority
  requiredRole : Column.optional Column.text item.requiredRole = .ok row.requiredRole
  state : row.state = item.state
  assigneeMemberId : row.assigneeMemberId = item.assigneeMemberId

/-- One of the texts of the item has U+0000, which no column takes. -/
def WorkItem.HasNul (item : WorkItem) : Prop :=
  0 ∈ item.title ∨ (∃ s, item.description = some s ∧ 0 ∈ s) ∨
    ∃ s, item.requiredRole = some s ∧ 0 ∈ s

/-- A row of `activities`. -/
structure ActivityRow where
  actorMemberId : JsString
  actorType : JsString
  action : JsString
  resourceType : JsString
  resourceId : JsString
  metadata : StringRecord
  occurredAt : ℤ
deriving DecidableEq

/-- The tables, with their unique indexes and foreign keys. -/
structure Db where
  members : Table MemberRow.id
  credentials : Table HumanCredentialRecord.memberId
  workItems : Table WorkItemRow.id
  activities : List ActivityRow
  identityRef_unique : ∀ r ∈ members.rows, ∀ r' ∈ members.rows,
    r.identityRef = r'.identityRef → r.id = r'.id
  email_unique : ∀ r ∈ credentials.rows, ∀ r' ∈ credentials.rows,
    r.email = r'.email → r.memberId = r'.memberId
  credential_member : ∀ r ∈ credentials.rows, (members.find? r.memberId).isSome
  assignee_member : ∀ r ∈ workItems.rows, ∀ id, r.assigneeMemberId = some id →
    (members.find? id).isSome
  actor_member : ∀ r ∈ activities, (members.find? r.actorMemberId).isSome

namespace Db

/-- Freshly migrated tables. -/
def empty : Db where
  members := ∅
  credentials := ∅
  workItems := ∅
  activities := []
  identityRef_unique := by simp
  email_unique := by simp
  credential_member := by simp
  assignee_member := by simp
  actor_member := by simp

/-! ### Members and credentials -/

def memberRow (member : Member) : MemberRow where
  id := member.id
  type := member.type.name
  identityRef := member.identityRef
  displayName := member.displayName
  roles := member.roles

/-- `toMember`, which validates what it reads. -/
def toMember (rt : Runtime) (row : MemberRow) : Except Thrown Member :=
  Member.create rt
    { id := row.id, type := some (.str row.type), identityRef := row.identityRef,
      displayName := row.displayName, roles := row.roles }

/-- `INSERT INTO members .. ON CONFLICT (id) DO UPDATE` of every column. Another row with the same
`identity_ref` makes it fail. -/
def saveMember (db : Db) (member : Member) : Except Thrown Db :=
  if h : ∃ r ∈ db.members.rows, r.identityRef = member.identityRef ∧ r.id ≠ member.id then
    .error (.database .uniqueViolation)
  else .ok
    { db with
      members := db.members.set (memberRow member)
      identityRef_unique := by
        intro r hr r' hr' href
        rcases Table.mem_set.mp hr with rfl | ⟨hold, hne⟩ <;>
          rcases Table.mem_set.mp hr' with rfl | ⟨hold', hne'⟩
        · rfl
        · exact absurd ⟨r', hold', href.symm, hne'⟩ h
        · exact absurd ⟨r, hold, href, hne⟩ h
        · exact db.identityRef_unique r hold r' hold' href
      credential_member := fun r hr => Table.isSome_find?_set (db.credential_member r hr)
      assignee_member := fun r hr id hid =>
        Table.isSome_find?_set (db.assignee_member r hr id hid)
      actor_member := fun r hr => Table.isSome_find?_set (db.actor_member r hr) }

/-- `INSERT INTO human_credentials`. The unique indexes are checked before the foreign key. -/
def insertCredential (db : Db) (record : HumanCredentialRecord) : Except Thrown Db :=
  if h : ∃ r ∈ db.credentials.rows, r.memberId = record.memberId ∨ r.email = record.email then
    .error (.database .uniqueViolation)
  else if hmember : (db.members.find? record.memberId).isSome then .ok
    { db with
      credentials := db.credentials.set record
      email_unique := by
        intro r hr r' hr' hemail
        rcases Table.mem_set.mp hr with rfl | ⟨hold, hne⟩ <;>
          rcases Table.mem_set.mp hr' with rfl | ⟨hold', hne'⟩
        · rfl
        · exact absurd ⟨r', hold', .inr hemail.symm⟩ h
        · exact absurd ⟨r, hold, .inr hemail⟩ h
        · exact db.email_unique r hold r' hold' hemail
      credential_member := by
        intro r hr
        rcases Table.mem_set.mp hr with rfl | ⟨hr, -⟩
        · exact hmember
        · exact db.credential_member r hr }
  else .error (.database .foreignKeyViolation)

/-- `SELECT .. FROM human_credentials WHERE email = ..`. -/
def findCredential (db : Db) (email : JsString) : Option HumanCredentialRecord :=
  db.credentials.rows.find? fun r => r.email = email

/-! ### Work items -/

/-- `toWorkItem`, which validates what it reads. -/
def toWorkItem (rt : Runtime) (row : WorkItemRow) : Except Thrown WorkItem :=
  WorkItem.create rt
    { id := row.id, title := row.title, priority := ofInt row.priority,
      description := row.description, requiredRole := row.requiredRole, state := some row.state,
      assigneeMemberId := row.assigneeMemberId }

/-- The member an assignee column names is stored, or the column is `NULL`. -/
def AssigneeStored (db : Db) (assignee : Option JsString) : Prop :=
  ∀ id, assignee = some id → (db.members.find? id).isSome

instance (db : Db) (assignee : Option JsString) : Decidable (db.AssigneeStored assignee) :=
  match assignee with
  | none => .isTrue (by simp [AssigneeStored])
  | some id => decidable_of_iff ((db.members.find? id).isSome = true) (by simp [AssigneeStored])

/-- Write a row whose assignee is stored. -/
def setWorkItem (db : Db) (row : WorkItemRow) (h : db.AssigneeStored row.assigneeMemberId) : Db :=
  { db with
    workItems := db.workItems.set row
    assignee_member := by
      intro r hr id hid
      rcases Table.mem_set.mp hr with rfl | ⟨hr, -⟩
      · exact h id hid
      · exact db.assignee_member r hr id hid }

/-- `INSERT INTO work_items .. ON CONFLICT (id) DO UPDATE` of every column but `created_at`, which a
new row gets from the clock of the database. -/
def saveWorkItem (db : Db) (now timestamp : ℤ) (item : WorkItem) : Except Thrown Db := do
  let ⟨title, htitle⟩ ← attach (Column.text item.title)
  let ⟨description, hdescription⟩ ← attach (Column.optional Column.text item.description)
  let ⟨priority, priority_int32⟩ ← Column.integer item.priority
  let ⟨requiredRole, hrole⟩ ← attach (Column.optional Column.text item.requiredRole)
  if hassignee : db.AssigneeStored item.assigneeMemberId then
    return db.setWorkItem
      { id := item.id, title, description, priority, requiredRole, state := item.state,
        assigneeMemberId := item.assigneeMemberId,
        createdAt := ((db.workItems.find? item.id).map WorkItemRow.createdAt).getD timestamp,
        updatedAt := now, priority_int32, title_text := Column.isText_of_text htitle,
        description_text := Column.isText_of_optional_text hdescription,
        requiredRole_text := Column.isText_of_optional_text hrole } hassignee
  else throw (.database .foreignKeyViolation)

/-- `ORDER BY priority DESC, created_at ASC`. -/
def Before (r r' : WorkItemRow) : Prop :=
  r'.priority < r.priority ∨ r.priority = r'.priority ∧ r.createdAt ≤ r'.createdAt

instance : DecidableRel Before := fun r r' =>
  inferInstanceAs (Decidable (r'.priority < r.priority ∨ _))

instance : IsTrans WorkItemRow Before where
  trans a b c hab hbc := by
    simp only [Before] at *
    omega

instance : Std.Total Before where
  total a b := by
    simp only [Before]
    omega

/-- `SELECT .. WHERE state = 'open' ORDER BY ..`, over the rows in the order the scan finds them. -/
def listOpen (scan : List WorkItemRow) : List WorkItemRow :=
  (scan.filter fun r => r.state = .opened).insertionSort Before

/-- `state = 'open'` and `eligibleRole`: `texts` is what the driver makes of the member's roles. -/
def eligible (texts : List JsString) (row : WorkItemRow) : Bool :=
  row.state = .opened &&
    if texts.length > 0 then row.requiredRole.isNone || row.requiredRole.any texts.contains
    else row.requiredRole.isNone

/-- The row that `claimNext` locks, of those that no other transaction has locked. -/
def candidate (texts : List JsString) (scan : List WorkItemRow) : Option WorkItemRow :=
  firstBy Before (scan.filter (eligible texts))

/-- The transaction of `claimNext`. `scan` are the unlocked rows in the order they are found. A
throw inside rolls back. -/
def claimNext (rt : Runtime) (db : Db) (scan : List WorkItemRow) (now : ℤ) (texts : List JsString)
    (member : Member) : Except Thrown (Option WorkItem × Db) :=
  match candidate texts scan with
  | none => .ok (none, db)
  | some row => do
    let claimed ← (← toWorkItem rt row).claimBy member
    if h : db.AssigneeStored claimed.assigneeMemberId then
      return (some claimed, db.setWorkItem
        { row with state := claimed.state, assigneeMemberId := claimed.assigneeMemberId,
                   updatedAt := now } h)
    else throw (.database .foreignKeyViolation)

/-! ### Activities -/

/-- `INSERT INTO activities`. -/
def insertActivity (db : Db) (timestamp : ℤ) (input : RecordActivityInput) : Except Thrown Db :=
  if h : (db.members.find? input.actor.id).isSome then .ok
    { db with
      activities := db.activities ++
        [{ actorMemberId := input.actor.id, actorType := input.actor.type.name,
           action := input.action, resourceType := input.resourceType,
           resourceId := input.resourceId, metadata := input.metadata.getD [],
           occurredAt := timestamp }]
      actor_member := by
        intro r hr
        rcases List.mem_append.mp hr with hr | hr
        · exact db.actor_member r hr
        · rw [List.mem_singleton.mp hr]
          exact h }
  else .error (.database .foreignKeyViolation)

/-- `SELECT .. WHERE resource_type = .. AND resource_id = .. ORDER BY occurred_at`. Records of the
same time are ordered by random identifiers, which a row does not keep. -/
def listByResource (db : Db) (resourceType resourceId : JsString) : List ActivityRow :=
  (db.activities.filter fun r => r.resourceType = resourceType ∧ r.resourceId = resourceId)
    |>.insertionSort fun r r' => r.occurredAt ≤ r'.occurredAt

/-! ### What a statement that succeeds did -/

variable {db db' : Db} {rt : Runtime}

lemma saveMember_ok {member : Member} (h : db.saveMember member = .ok db') :
    db'.members = db.members.set (memberRow member) ∧ db'.credentials = db.credentials ∧
      db'.workItems = db.workItems ∧ db'.activities = db.activities ∧
      ∀ r ∈ db.members.rows, r.identityRef = member.identityRef → r.id = member.id := by
  simp only [saveMember] at h
  split_ifs at h with hother
  cases h
  refine ⟨rfl, rfl, rfl, rfl, fun r hr href => ?_⟩
  by_contra hne
  exact hother ⟨r, hr, href, hne⟩

/-- Who is not a member has no credential. -/
lemma memberId_ne_of_absent {id : JsString} (h : db.members.find? id = none)
    {r : HumanCredentialRecord} (hr : r ∈ db.credentials.rows) : r.memberId ≠ id := by
  rintro rfl
  have hstored := db.credential_member r hr
  rw [h] at hstored
  cases hstored

/-- A member that is saved under a new identifier is the first one with its identity. -/
lemma saveMember_new {member : Member} (habsent : db.members.find? member.id = none)
    (h : db.saveMember member = .ok db') :
    (∀ r ∈ db.members.rows, r.identityRef ≠ member.identityRef) ∧
      (db'.members.find? member.id).isSome ∧
      ∀ r ∈ db'.credentials.rows, r.memberId ≠ member.id := by
  obtain ⟨hmembers, hcredentials, -, -, hsame⟩ := saveMember_ok h
  refine ⟨fun r hr href => ?_, ?_, ?_⟩
  · have hfound := Table.find?_key hr
    rw [hsame r hr href, habsent] at hfound
    cases hfound
  · rw [hmembers]
    exact Option.isSome_of_eq_some Table.find?_set_self
  · rw [hcredentials]
    exact fun r hr => memberId_ne_of_absent habsent hr

lemma saveMember_error {member : Member} {e : Thrown} (h : db.saveMember member = .error e) :
    e = .database .uniqueViolation ∧
      ∃ r ∈ db.members.rows, r.identityRef = member.identityRef ∧ r.id ≠ member.id := by
  simp only [saveMember] at h
  split_ifs at h with hother
  exact ⟨(Except.error.inj h).symm, hother⟩

lemma insertCredential_ok {record : HumanCredentialRecord}
    (h : db.insertCredential record = .ok db') :
    db'.credentials = db.credentials.set record ∧ db'.members = db.members ∧
      db'.workItems = db.workItems ∧ db'.activities = db.activities ∧
      ∀ r ∈ db.credentials.rows, r.memberId ≠ record.memberId ∧ r.email ≠ record.email := by
  simp only [insertCredential] at h
  split_ifs at h with hother
  cases h
  refine ⟨rfl, rfl, rfl, rfl, fun r hr => ?_⟩
  exact not_or.mp fun h => hother ⟨r, hr, h⟩

lemma insertCredential_error {record : HumanCredentialRecord} {e : Thrown}
    (h : db.insertCredential record = .error e) :
    e = .database .uniqueViolation ∧
        (∃ r ∈ db.credentials.rows, r.memberId = record.memberId ∨ r.email = record.email) ∨
      e = .database .foreignKeyViolation ∧ db.members.find? record.memberId = none := by
  simp only [insertCredential] at h
  split_ifs at h with hother hmember
  · exact .inl ⟨(Except.error.inj h).symm, hother⟩
  · exact .inr ⟨(Except.error.inj h).symm, by simpa using hmember⟩

/-- A credential that nothing conflicts with, for a member that is stored. -/
lemma insertCredential_of_free {record : HumanCredentialRecord}
    (hstored : (db.members.find? record.memberId).isSome)
    (hunused : ∀ r ∈ db.credentials.rows, r.memberId ≠ record.memberId ∧ r.email ≠ record.email) :
    ∃ db', db.insertCredential record = .ok db' := by
  cases h : db.insertCredential record with
  | ok db' => exact ⟨db', rfl⟩
  | error e =>
    rcases insertCredential_error h with ⟨-, r, hr, hid | hemail⟩ | ⟨-, habsent⟩
    · exact absurd hid (hunused r hr).1
    · exact absurd hemail (hunused r hr).2
    · rw [habsent] at hstored
      cases hstored

lemma findCredential_eq_none {email : JsString} :
    db.findCredential email = none ↔ ∀ r ∈ db.credentials.rows, r.email ≠ email := by
  simp [findCredential, List.find?_eq_none]

/-- An email has one credential. -/
lemma findCredential_eq_some {email : JsString} {record : HumanCredentialRecord} :
    db.findCredential email = some record ↔
      record ∈ db.credentials.rows ∧ record.email = email := by
  constructor
  · intro h
    exact ⟨List.mem_of_find?_eq_some h, by simpa using List.find?_some h⟩
  · rintro ⟨hrecord, hemail⟩
    cases hfound : db.findCredential email with
    | none => exact absurd hemail (findCredential_eq_none.mp hfound record hrecord)
    | some found =>
      have hmem := List.mem_of_find?_eq_some hfound
      have hsame : found.email = email := by simpa using List.find?_some hfound
      have hid := db.email_unique found hmem record hrecord (hsame.trans hemail.symm)
      rw [List.inj_on_of_nodup_map db.credentials.keyed hmem hrecord hid]

lemma insertActivity_ok {timestamp : ℤ} {input : RecordActivityInput}
    (h : db.insertActivity timestamp input = .ok db') :
    db'.members = db.members ∧ db'.credentials = db.credentials ∧
      db'.workItems = db.workItems := by
  simp only [insertActivity] at h
  split_ifs at h
  cases h
  exact ⟨rfl, rfl, rfl⟩

lemma insertActivity_error {timestamp : ℤ} {input : RecordActivityInput} {e : Thrown}
    (h : db.insertActivity timestamp input = .error e) :
    e = .database .foreignKeyViolation ∧ db.members.find? input.actor.id = none := by
  simp only [insertActivity] at h
  split_ifs at h with hactor
  exact ⟨(Except.error.inj h).symm, by simpa using hactor⟩

/-- A saved item overwrites every column of its row but the time of its creation. -/
lemma saveWorkItem_ok {now timestamp : ℤ} {item : WorkItem}
    (h : db.saveWorkItem now timestamp item = .ok db') :
    ∃ (row : WorkItemRow) (hrow : db.AssigneeStored row.assigneeMemberId),
      db' = db.setWorkItem row hrow ∧ row.Holds item := by
  simp only [saveWorkItem, bind_eq_ok] at h
  obtain ⟨⟨title, htitle⟩, -, ⟨description, hdescription⟩, -, priority, hpriority, ⟨role, hrole⟩, -,
    h⟩ := h
  split_ifs at h with hassignee
  cases h
  exact ⟨_, hassignee, rfl, rfl, htitle, hdescription, Column.integer_eq_ok hpriority,
    hrole, rfl, rfl⟩

/-- What an item is rejected for. -/
lemma saveWorkItem_error {now timestamp : ℤ} {item : WorkItem} {e : Thrown}
    (h : db.saveWorkItem now timestamp item = .error e) :
    item.HasNul ∧ (∃ message, e = .foreign message) ∨
    (∀ n, integer? item.priority = some n → ¬ IsInt32 n) ∧
      (e = .database .numericValueOutOfRange ∨ e = .database .invalidTextRepresentation) ∨
    ¬ db.AssigneeStored item.assigneeMemberId ∧ e = .database .foreignKeyViolation := by
  simp only [saveWorkItem, bind_eq_error, attach_eq_error] at h
  rcases h with h | ⟨_, -, h | ⟨_, -, h | ⟨_, -, h | ⟨_, -, h⟩⟩⟩⟩
  · exact .inl ⟨.inl (Column.text_eq_error h).1, (Column.text_eq_error h).2⟩
  · obtain ⟨s, hs, hzero, hforeign⟩ := Column.optional_text_eq_error h
    exact .inl ⟨.inr (.inl ⟨s, hs, hzero⟩), hforeign⟩
  · exact .inr (.inl (Column.integer_eq_error h))
  · obtain ⟨s, hs, hzero, hforeign⟩ := Column.optional_text_eq_error h
    exact .inl ⟨.inr (.inr ⟨s, hs, hzero⟩), hforeign⟩
  · split_ifs at h with hassignee
    · cases h
    · exact .inr (.inr ⟨hassignee, (Except.error.inj h).symm⟩)

/-- What is read keeps what was stored. -/
lemma toWorkItem_ok {row : WorkItemRow} {item : WorkItem} (h : toWorkItem rt row = .ok item) :
    item.id = row.id ∧ item.title = row.title ∧ item.priority = ofInt row.priority ∧
      item.description = row.description ∧ item.requiredRole = row.requiredRole ∧
      item.state = row.state ∧ item.assigneeMemberId = row.assigneeMemberId :=
  WorkItem.create_ok h

/-- The item is what the row is read as. -/
structure StandsFor (item : WorkItem) (row : WorkItemRow) : Prop where
  id : item.id = row.id
  title : item.title = row.title
  priority : item.priority = ofInt row.priority
  description : item.description = row.description
  requiredRole : item.requiredRole = row.requiredRole
  state : item.state = row.state
  assigneeMemberId : item.assigneeMemberId = row.assigneeMemberId

lemma toWorkItem_eq_ok_iff {row : WorkItemRow} {item : WorkItem} :
    toWorkItem rt row = .ok item ↔ StandsFor item row := by
  rw [toWorkItem, WorkItem.create_eq_ok_iff]
  constructor
  · rintro ⟨hid, htitle, hpriority, hdescription, hrole, hstate, hassignee⟩
    exact ⟨hid, htitle, hpriority, hdescription, hrole, hstate, hassignee⟩
  · rintro ⟨hid, htitle, hpriority, hdescription, hrole, hstate, hassignee⟩
    exact ⟨hid, htitle, hpriority, hdescription, hrole, hstate, hassignee⟩

/-- A row stands for one item. -/
lemma StandsFor.unique {row : WorkItemRow} {item item' : WorkItem} (h : StandsFor item row)
    (h' : StandsFor item' row) : item = item' := by
  have hread : toWorkItem .ascii row = .ok item := toWorkItem_eq_ok_iff.mpr h
  rw [toWorkItem_eq_ok_iff.mpr h'] at hread
  exact (Except.ok.inj hread).symm

/-- The columns keep the item as it is. -/
structure Fits (item : WorkItem) : Prop where
  title : Column.IsText item.title
  description : ∀ s, item.description = some s → Column.IsText s
  priority : Column.IsInteger item.priority
  requiredRole : ∀ s, item.requiredRole = some s → Column.IsText s

/-- What was read fits. -/
lemma StandsFor.fits {row : WorkItemRow} {item : WorkItem} (h : StandsFor item row) :
    Fits item where
  title := h.title ▸ row.title_text
  description := h.description ▸ row.description_text
  priority := ⟨row.priority, row.priority_int32, h.priority⟩
  requiredRole := h.requiredRole ▸ row.requiredRole_text

lemma Fits.moved {item : WorkItem} (h : Fits item) (state : WorkItemState)
    (assigneeMemberId : Option JsString) : Fits { item with state, assigneeMemberId } :=
  ⟨h.title, h.description, h.priority, h.requiredRole⟩

lemma Fits.columns {item : WorkItem} (h : Fits item) : Column.text item.title = .ok item.title ∧
    Column.optional Column.text item.description = .ok item.description ∧
    Column.optional Column.text item.requiredRole = .ok item.requiredRole :=
  ⟨Column.text_eq_ok_iff.mpr h.title, Column.optional_text_eq_ok_iff.mpr h.description,
    Column.optional_text_eq_ok_iff.mpr h.requiredRole⟩

/-- A saved item that fits is read back as it is. -/
lemma standsFor_of_holds {row : WorkItemRow} {item : WorkItem} (h : row.Holds item)
    (hfits : Fits item) : StandsFor item row := by
  obtain ⟨htitle, hdescription, hrole⟩ := hfits.columns
  obtain ⟨n, hn, hpriority⟩ := hfits.priority
  have hstored := h.priority
  rw [hpriority, integer?_ofInt hn.natAbs_lt] at hstored
  exact
    { id := h.id.symm
      title := Except.ok.inj (htitle.symm.trans h.title)
      priority := by rw [hpriority, Option.some.inj hstored]
      description := Except.ok.inj (hdescription.symm.trans h.description)
      requiredRole := Except.ok.inj (hrole.symm.trans h.requiredRole)
      state := h.state.symm
      assigneeMemberId := h.assigneeMemberId.symm }

/-- Such an item can be saved, if its assignee is stored. -/
lemma exists_saveWorkItem {now timestamp : ℤ} {item : WorkItem} (hfits : Fits item)
    (hassignee : db.AssigneeStored item.assigneeMemberId) :
    ∃ db', db.saveWorkItem now timestamp item = .ok db' := by
  obtain ⟨htitle, hdescription, hrole⟩ := hfits.columns
  obtain ⟨n, hn, hpriority⟩ := hfits.priority
  have hinteger : Column.integer item.priority = .ok ⟨n, hn⟩ := by
    rw [hpriority, Column.integer_ofInt hn]
  simp only [saveWorkItem, bind_eq_ok]
  exact ⟨_, ⟨_, attach_of_ok htitle, _, attach_of_ok hdescription, _, hinteger, _,
    attach_of_ok hrole, dif_pos hassignee⟩⟩

/-- A row whose identifier and title are visible can be read. -/
lemma toWorkItem_of_visible (rt : Runtime) {row : WorkItemRow} (hid : ¬ row.id.IsBlank)
    (htitle : ¬ row.title.IsBlank) : ∃ item, toWorkItem rt row = .ok item :=
  ⟨_, WorkItem.create_of_visible rt
    { id := row.id, title := row.title, priority := ofInt row.priority,
      description := row.description, requiredRole := row.requiredRole, state := some row.state,
      assigneeMemberId := row.assigneeMemberId }
    hid htitle row.priority_int32.isInteger_ofInt⟩

lemma toMember_ok {row : MemberRow} {member : Member} (h : toMember rt row = .ok member) :
    member.id = row.id ∧ member.identityRef = row.identityRef ∧
      member.roles = Json.dedupe row.roles := by
  obtain ⟨hid, -, href, -, hroles⟩ := Member.create_ok h
  exact ⟨hid, href, hroles⟩

lemma eligible_iff {texts : List JsString} {row : WorkItemRow} : eligible texts row = true ↔
    row.state = .opened ∧ ∀ role, row.requiredRole = some role → role ∈ texts := by
  simp only [eligible]
  cases row.requiredRole with
  | none => simp
  | some role =>
    cases texts <;> simp

section Claim

variable {scan : List WorkItemRow} {now : ℤ} {texts : List JsString} {member : Member}
  {row : WorkItemRow} {item : WorkItem}

lemma claimNext_of_none (hcandidate : candidate texts scan = none) :
    claimNext rt db scan now texts member = .ok (none, db) := by
  simp only [claimNext, hcandidate]

lemma claimNext_of_stored (hcandidate : candidate texts scan = some row)
    (hitem : toWorkItem rt row = .ok item) (hcan : item.canBeClaimedBy member = true)
    (hstored : db.AssigneeStored (some member.id)) :
    claimNext rt db scan now texts member = .ok
      (some { item with state := .claimed, assigneeMemberId := some member.id },
        db.setWorkItem { row with state := .claimed, assigneeMemberId := some member.id,
                                  updatedAt := now } hstored) := by
  have hclaim := WorkItem.claimBy_eq_ok_iff.mpr ⟨hcan, rfl⟩
  simp [claimNext, hcandidate, hitem, hclaim, hstored, bind, Except.bind, pure, Except.pure]

end Claim

/-- A claim takes an open row of the scan, the first that the statement finds eligible, for a member
who does not lack its role; or it finds none and changes nothing. -/
lemma claimNext_ok {scan : List WorkItemRow} {now : ℤ} {texts : List JsString} {member : Member}
    {result : Option WorkItem} (h : claimNext rt db scan now texts member = .ok (result, db')) :
    (candidate texts scan = none ∧ result = none ∧ db' = db) ∨
    ∃ row item hrow, candidate texts scan = some row ∧ toWorkItem rt row = .ok item ∧
      item.canBeClaimedBy member = true ∧
      result = some { item with state := .claimed, assigneeMemberId := some member.id } ∧
      db' = db.setWorkItem { row with state := .claimed, assigneeMemberId := some member.id,
                                      updatedAt := now } hrow := by
  simp only [claimNext] at h
  cases hcandidate : candidate texts scan with
  | none =>
    rw [hcandidate] at h
    cases h
    exact .inl ⟨rfl, rfl, rfl⟩
  | some row =>
    rw [hcandidate] at h
    simp only [bind_eq_ok] at h
    obtain ⟨item, hitem, claimed, hclaim, h⟩ := h
    obtain ⟨hcan, rfl⟩ := WorkItem.claimBy_eq_ok_iff.mp hclaim
    split_ifs at h with hrow
    cases h
    exact .inr ⟨row, item, hrow, rfl, hitem, hcan, rfl, rfl⟩

/-- A claim fails with an error of reading, of claiming or of the foreign key. -/
lemma claimNext_ne_transition {scan : List WorkItemRow} {now : ℤ} {texts : List JsString}
    {member : Member} {message : JsString} :
    claimNext rt db scan now texts member ≠ .error (.workItemTransition message) := by
  intro h
  simp only [claimNext] at h
  split at h
  · cases h
  · rename_i row _
    cases hitem : toWorkItem rt row with
    | error e =>
      rw [hitem] at h
      cases h
      exact WorkItem.create_ne_transition hitem
    | ok item =>
      rw [hitem] at h
      cases hclaim : item.claimBy member with
      | error e =>
        simp only [bind, Except.bind, hclaim, Except.error.injEq] at h
        simp only [WorkItem.claimBy] at hclaim
        split_ifs at hclaim <;> cases hclaim <;> cases h
      | ok claimed =>
        simp only [bind, Except.bind, hclaim] at h
        split_ifs at h
        · cases h
        · cases h

lemma candidate_some {texts : List JsString} {scan : List WorkItemRow} {row : WorkItemRow}
    (h : candidate texts scan = some row) :
    row ∈ scan ∧ eligible texts row = true ∧
      ∀ r ∈ scan, eligible texts r = true → Before row r := by
  obtain ⟨hmem, hfirst⟩ := firstBy_some h
  obtain ⟨hscan, heligible⟩ := List.mem_filter.mp hmem
  exact ⟨hscan, heligible, fun r hr he => hfirst r (List.mem_filter.mpr ⟨hr, he⟩)⟩

lemma candidate_eq_none {texts : List JsString} {scan : List WorkItemRow} :
    candidate texts scan = none ↔ ∀ r ∈ scan, eligible texts r = false := by
  rw [candidate, firstBy_eq_none, List.filter_eq_nil_iff]
  simp only [Bool.not_eq_true]

end Db

end WorkspaceOs
