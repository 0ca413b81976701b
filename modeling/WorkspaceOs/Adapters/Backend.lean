import WorkspaceOs.Effect.Interleaving
import WorkspaceOs.Adapters.Database
import WorkspaceOs.Core.ModelProvider

/-!
# What the server awaits

The operations of the server, each one atomic: a statement of a repository (a claim is one
transaction), the clock, random identifiers, password hashing and the model gateway. `perform` is
the operation on the world with everything that comes from outside given by an oracle; `exec` allows
every oracle that the outside may be.
-/

namespace WorkspaceOs

open Js Effect Relational

inductive ServerOp where
  | membersSave (member : Member)
  | membersFindById (id : JsString)
  | credentialsInsert (record : HumanCredentialRecord)
  | credentialsFindByEmail (email : JsString)
  | workItemsSave (item : WorkItem)
  | workItemsFindById (id : JsString)
  | workItemsListOpen
  | workItemsClaimNext (member : Member)
  | activitiesInsert (input : RecordActivityInput)
  | randomUUID
  | now
  | hashPassword (password : JsString)
  | verifyPassword (password passwordHash : JsString)
  | complete (request : GatewayCompletionRequest)

/-- What an operation is answered with; the id and the time of an inserted record go unread. -/
abbrev ServerAns : ServerOp → Type
  | .membersSave _ | .credentialsInsert _ | .workItemsSave _ | .activitiesInsert _ => Unit
  | .membersFindById _ => Option MemberRow
  | .credentialsFindByEmail _ => Option HumanCredentialRecord
  | .workItemsFindById _ => Option WorkItemRow
  | .workItemsListOpen => List WorkItemRow
  | .workItemsClaimNext _ => Option WorkItem
  | .randomUUID | .hashPassword _ | .complete _ => JsString
  | .now => ℤ
  | .verifyPassword _ _ => Bool

abbrev ServerProg := Prog ServerOp ServerAns Thrown

abbrev ServerLabel := Label ServerOp ServerAns Thrown

/-- The database, and the random identifiers that were drawn so far. -/
structure World where
  db : Db
  drawn : List JsString

/-- What the server runs on: the library functions of the language, the text that the driver sends
for a role (`none` for `NULL`; a text is sent as it is), and which operations may fail for reasons
of their own. -/
structure Backend where
  rt : Runtime
  textParam : Json → Option JsString
  textParam_str : ∀ s, Column.IsText s → textParam (.str s) = some s
  mayFail : ServerOp → Prop

/-- What a single operation gets from outside: the clocks of the process and of the database, a
random identifier, the rows a scan finds, the results of hashing and of the model, and a fault. -/
structure Oracle where
  clock : ℤ
  timestamp : ℤ
  uuid : JsString
  scan : List WorkItemRow
  passwordHash : JsString
  passwordMatches : Bool
  completion : JsString
  fault : Option JsString

/-- A backend without faults of its own, for concrete runs. -/
def Backend.faultless : Backend where
  rt := .ascii
  textParam
    | .str s => some s
    | _ => none
  textParam_str _ _ := rfl
  mayFail _ := False

/-- A backend where everything may fail, for concrete runs. -/
def Backend.faulty : Backend := { Backend.faultless with mayFail := fun _ => True }

/-- Nothing special from outside, for concrete runs. -/
def Oracle.plain : Oracle where
  clock := 0
  timestamp := 0
  uuid := "1"
  scan := []
  passwordHash := "scrypt"
  passwordMatches := true
  completion := "Done."
  fault := none

/-- The operation does not leave the process, and cannot fail. -/
def ServerOp.isLocal : ServerOp → Bool
  | .randomUUID | .now => true
  | _ => false

namespace World

/-- Commit what a statement made of the database. -/
def commit {α : Type} (w : World) : Except Thrown (α × Db) → Except Thrown α × World
  | .ok (a, db) => (.ok a, { w with db })
  | .error e => (.error e, w)

/-- The operation where nothing but the database can make it fail. -/
def execute (B : Backend) (o : Oracle) :
    (op : ServerOp) → World → Except Thrown (ServerAns op) × World
  | .membersSave member, w => w.commit ((w.db.saveMember member).map ((), ·))
  | .membersFindById id, w => (.ok (w.db.members.find? id), w)
  | .credentialsInsert record, w => w.commit ((w.db.insertCredential record).map ((), ·))
  | .credentialsFindByEmail email, w => (.ok (w.db.findCredential email), w)
  | .workItemsSave item, w => w.commit ((w.db.saveWorkItem o.clock o.timestamp item).map ((), ·))
  | .workItemsFindById id, w => (.ok (w.db.workItems.find? id), w)
  | .workItemsListOpen, w => (.ok (Db.listOpen o.scan), w)
  | .workItemsClaimNext member, w =>
    w.commit (Db.claimNext B.rt w.db o.scan o.clock (member.roles.filterMap B.textParam) member)
  | .activitiesInsert input, w => w.commit ((w.db.insertActivity o.timestamp input).map ((), ·))
  | .randomUUID, w => (.ok o.uuid, { w with drawn := o.uuid :: w.drawn })
  | .now, w => (.ok o.clock, w)
  | .hashPassword _, w => (.ok o.passwordHash, w)
  | .verifyPassword _ _, w => (.ok o.passwordMatches, w)
  | .complete _, w => (.ok o.completion, w)

/-- The operation, which fails and changes nothing where the oracle has a fault. -/
def perform (B : Backend) (o : Oracle) (op : ServerOp) (w : World) :
    Except Thrown (ServerAns op) × World :=
  match o.fault with
  | some message => if op.isLocal then execute B o op w else (.error (.foreign message), w)
  | none => execute B o op w

/-- A random identifier names nothing that exists. -/
structure Fresh (uuid : JsString) (w : World) : Prop where
  drawn : uuid ∉ w.drawn
  member : w.db.members.find? ("m_" ++ uuid) = none
  workItem : w.db.workItems.find? ("w_" ++ uuid) = none

end World

/-- What the outside may be: a fault only where the backend has them, a fresh identifier, and a scan
that finds all rows, or for a claim those that no other transaction has locked. -/
structure Oracle.Allowed (B : Backend) (o : Oracle) (op : ServerOp) (w : World) : Prop where
  fault : o.fault ≠ none → B.mayFail op
  uuid : op = .randomUUID → World.Fresh o.uuid w
  claimScan : ∀ r ∈ o.scan, r ∈ w.db.workItems.rows
  listScan : op = .workItemsListOpen → o.scan.Perm w.db.workItems.rows

/-- The semantics of the operations, whoever performs them. -/
def exec (B : Backend) : Semantics ServerOp ServerAns Thrown World :=
  fun _ op w a w' => ∃ o : Oracle, o.Allowed B op w ∧ w.perform B o op = (a, w')

/-- The oracle is possible without a fault; a decision procedure for concrete runs. -/
def Oracle.possible (o : Oracle) (op : ServerOp) (w : World) : Bool :=
  o.fault.isNone && o.scan.all (w.db.workItems.rows.contains ·) &&
    match op with
    | .randomUUID => !w.drawn.contains o.uuid && (w.db.members.find? ("m_" ++ o.uuid)).isNone &&
        (w.db.workItems.find? ("w_" ++ o.uuid)).isNone
    | .workItemsListOpen => o.scan == w.db.workItems.rows
    | _ => true

/-- The step that a possible oracle decides. -/
def World.attempt (B : Backend) (o : Oracle) (op : ServerOp) (w : World) :
    Option (Except Thrown (ServerAns op) × World) :=
  if o.possible op w then some (w.perform B o op) else none

lemma Oracle.allowed_of_possible {B : Backend} {o : Oracle} {op : ServerOp} {w : World}
    (h : o.possible op w = true) : o.Allowed B op w := by
  simp only [Oracle.possible] at h
  simp only [Bool.and_eq_true, List.all_eq_true, List.contains_iff_mem,
    Option.isNone_iff_eq_none] at h
  obtain ⟨⟨hfault, hscan⟩, hop⟩ := h
  refine ⟨fun hne => absurd hfault hne, ?_, hscan, ?_⟩
  · rintro rfl
    simp only [Bool.and_eq_true, Bool.not_eq_true', List.contains_eq_mem, decide_eq_false_iff_not,
      Option.isNone_iff_eq_none] at hop
    exact ⟨hop.1.1, hop.1.2, hop.2⟩
  · rintro rfl
    simp only [beq_iff_eq] at hop
    rw [hop]

lemma exec_of_attempt {B : Backend} {i : ℕ} {o : Oracle} {op : ServerOp} {w w' : World}
    {a : Except Thrown (ServerAns op)} (h : w.attempt B o op = some (a, w')) :
    exec B i op w a w' := by
  simp only [World.attempt] at h
  split_ifs at h with hpossible
  exact ⟨o, Oracle.allowed_of_possible hpossible, Option.some.inj h⟩

/-- Following a schedule of possible oracles is a run. -/
lemma run_of_follow {B : Backend} {α : Type} {schedule : List (ℕ × Oracle)}
    {c c' : Config ServerOp ServerAns Thrown α World} {ls : List ServerLabel}
    (h : follow (World.attempt B) schedule c = some (ls, c')) : Run (exec B) c ls c' := by
  have hexec : ∀ i o op w a w', World.attempt B o op w = some (a, w') → exec B i op w a w' :=
    fun _ _ _ _ _ _ => exec_of_attempt
  exact Run.of_follow hexec h

/-- The step that an oracle decides where it is possible but for a fault, and anything may fail. -/
def World.attemptFaulty (o : Oracle) (op : ServerOp) (w : World) :
    Option (Except Thrown (ServerAns op) × World) :=
  if ({ o with fault := none }).possible op w then some (w.perform .faulty o op) else none

lemma exec_of_attemptFaulty {i : ℕ} {o : Oracle} {op : ServerOp} {w w' : World}
    {a : Except Thrown (ServerAns op)} (h : w.attemptFaulty o op = some (a, w')) :
    exec .faulty i op w a w' := by
  simp only [World.attemptFaulty] at h
  split_ifs at h with hpossible
  have hallowed := Oracle.allowed_of_possible (B := .faulty) hpossible
  exact ⟨o, ⟨fun _ => trivial, hallowed.uuid, hallowed.claimScan, hallowed.listScan⟩,
    Option.some.inj h⟩

/-! ### What an operation can have done -/

inductive TableName where
  | members
  | credentials
  | workItems
  | activities
deriving DecidableEq

/-- The table that an operation may write. -/
def ServerOp.table : ServerOp → Option TableName
  | .membersSave _ => some .members
  | .credentialsInsert _ => some .credentials
  | .workItemsSave _ | .workItemsClaimNext _ => some .workItems
  | .activitiesInsert _ => some .activities
  | _ => none

/-- Everything but the table that the operation writes is unchanged, and so are the drawn
identifiers unless it draws one. -/
structure Framed (op : ServerOp) (w w' : World) : Prop where
  members : op.table ≠ some .members → w'.db.members = w.db.members
  credentials : op.table ≠ some .credentials → w'.db.credentials = w.db.credentials
  workItems : op.table ≠ some .workItems → w'.db.workItems = w.db.workItems
  activities : op.table ≠ some .activities → w'.db.activities = w.db.activities
  drawn : op ≠ .randomUUID → w'.drawn = w.drawn

lemma Framed.refl (op : ServerOp) (w : World) : Framed op w w :=
  ⟨fun _ => rfl, fun _ => rfl, fun _ => rfl, fun _ => rfl, fun _ => rfl⟩

section Inversion

variable {B : Backend} {i : ℕ} {w w' : World} {o : Oracle}

lemma commit_cases {α : Type} {r : Except Thrown (α × Db)} {a : Except Thrown α}
    (h : w.commit r = (a, w')) :
    (∃ e, r = .error e ∧ a = .error e ∧ w' = w) ∨
    ∃ x, r = .ok (x, w'.db) ∧ a = .ok x ∧ w'.drawn = w.drawn := by
  cases r with
  | error e => cases h; exact .inl ⟨e, rfl, rfl, rfl⟩
  | ok p => cases h; exact .inr ⟨p.1, rfl, rfl, rfl⟩

/-- A statement without an answer either failed and changed nothing, or gave the next database. -/
lemma commit_map_cases {r : Except Thrown Db} {a : Except Thrown Unit}
    (h : w.commit (r.map ((), ·)) = (a, w')) :
    (∃ e, r = .error e ∧ a = .error e ∧ w' = w) ∨
    r = .ok w'.db ∧ a = .ok () ∧ w'.drawn = w.drawn := by
  cases r with
  | error e => cases h; exact .inl ⟨e, rfl, rfl, rfl⟩
  | ok db => cases h; exact .inr ⟨rfl, rfl, rfl⟩

lemma commit_map_ok {r : Except Thrown Db} (h : w.commit (r.map ((), ·)) = (.ok (), w')) :
    r = .ok w'.db := by
  rcases commit_map_cases h with ⟨_, -, h, -⟩ | ⟨h, -, -⟩
  · cases h
  · exact h

lemma commit_map_error {r : Except Thrown Db} {e : Thrown}
    (h : w.commit (r.map ((), ·)) = (.error e, w')) : r = .error e := by
  rcases commit_map_cases h with ⟨_, h, he, -⟩ | ⟨-, h, -⟩
  · cases he
    exact h
  · cases h

/-- An answer came from the operation itself, or it is a fault and nothing changed. -/
lemma exec_cases {op : ServerOp} {a : Except Thrown (ServerAns op)} (h : exec B i op w a w') :
    (∃ o : Oracle, o.Allowed B op w ∧ w.execute B o op = (a, w')) ∨
    B.mayFail op ∧ op.isLocal = false ∧ (∃ message, a = .error (.foreign message)) ∧ w' = w := by
  obtain ⟨o, hallowed, h⟩ := h
  simp only [World.perform] at h
  cases hfault : o.fault with
  | none => exact .inl ⟨o, hallowed, by simpa only [hfault] using h⟩
  | some message =>
    simp only [hfault] at h
    split_ifs at h with hlocal
    · exact .inl ⟨o, hallowed, h⟩
    · cases h
      exact .inr ⟨hallowed.fault (by simp [hfault]), by simpa using hlocal, ⟨message, rfl⟩, rfl⟩

lemma exec_ok {op : ServerOp} {a : ServerAns op} (h : exec B i op w (.ok a) w') :
    ∃ o : Oracle, o.Allowed B op w ∧ w.execute B o op = (.ok a, w') := by
  rcases exec_cases h with h | ⟨-, -, ⟨_, h⟩, -⟩
  · exact h
  · cases h

lemma execute_framed {op : ServerOp} {a : Except Thrown (ServerAns op)}
    (h : w.execute B o op = (a, w')) : Framed op w w' := by
  cases op with
  | membersSave member =>
    rcases commit_map_cases h with ⟨-, -, -, rfl⟩ | ⟨h, -, hdrawn⟩
    · exact .refl _ _
    · obtain ⟨-, hc, hw, ha, -⟩ := Db.saveMember_ok h
      exact ⟨fun h => absurd rfl h, fun _ => hc, fun _ => hw, fun _ => ha, fun _ => hdrawn⟩
  | credentialsInsert record =>
    rcases commit_map_cases h with ⟨-, -, -, rfl⟩ | ⟨h, -, hdrawn⟩
    · exact .refl _ _
    · obtain ⟨-, hm, hw, ha, -⟩ := Db.insertCredential_ok h
      exact ⟨fun _ => hm, fun h => absurd rfl h, fun _ => hw, fun _ => ha, fun _ => hdrawn⟩
  | workItemsSave item =>
    rcases commit_map_cases h with ⟨-, -, -, rfl⟩ | ⟨h, -, hdrawn⟩
    · exact .refl _ _
    · obtain ⟨row, hrow, hdb, -⟩ := Db.saveWorkItem_ok h
      exact ⟨fun _ => by rw [hdb]; rfl, fun _ => by rw [hdb]; rfl, fun h => absurd rfl h,
        fun _ => by rw [hdb]; rfl, fun _ => hdrawn⟩
  | workItemsClaimNext member =>
    rcases commit_cases h with ⟨-, -, -, rfl⟩ | ⟨x, h, -, hdrawn⟩
    · exact .refl _ _
    · rcases Db.claimNext_ok h with ⟨-, -, hdb⟩ | ⟨row, item, hrow, -, -, -, -, hdb⟩
      · exact ⟨fun _ => by rw [hdb], fun _ => by rw [hdb], fun _ => by rw [hdb],
          fun _ => by rw [hdb], fun _ => hdrawn⟩
      · exact ⟨fun _ => by rw [hdb]; rfl, fun _ => by rw [hdb]; rfl, fun h => absurd rfl h,
          fun _ => by rw [hdb]; rfl, fun _ => hdrawn⟩
  | activitiesInsert input =>
    rcases commit_map_cases h with ⟨-, -, -, rfl⟩ | ⟨h, -, hdrawn⟩
    · exact .refl _ _
    · obtain ⟨hm, hc, hw⟩ := Db.insertActivity_ok h
      exact ⟨fun _ => hm, fun _ => hc, fun _ => hw, fun h => absurd rfl h, fun _ => hdrawn⟩
  | randomUUID =>
    cases h
    exact ⟨fun _ => rfl, fun _ => rfl, fun _ => rfl, fun _ => rfl, fun h => absurd rfl h⟩
  | _ =>
    cases h
    exact .refl _ _

lemma exec_framed {op : ServerOp} {a : Except Thrown (ServerAns op)} (h : exec B i op w a w') :
    Framed op w w' := by
  rcases exec_cases h with ⟨o, -, h⟩ | ⟨-, -, -, rfl⟩
  · exact execute_framed h
  · exact .refl _ _

/-- An operation that is answered with an error changed nothing. -/
lemma exec_error {op : ServerOp} {e : Thrown} (h : exec B i op w (.error e) w') : w' = w := by
  rcases exec_cases h with ⟨o, -, h⟩ | ⟨-, -, -, rfl⟩
  · cases op with
    | membersSave | credentialsInsert | workItemsSave | activitiesInsert =>
      rcases commit_map_cases h with ⟨-, -, -, h⟩ | ⟨-, h, -⟩
      · exact h
      · cases h
    | workItemsClaimNext =>
      rcases commit_cases h with ⟨-, -, -, h⟩ | ⟨_, -, h, -⟩
      · exact h
      · cases h
    | _ => cases h
  · rfl

/-- No operation fails with the error of a lifecycle method. -/
lemma exec_ne_transition {op : ServerOp} {e : Thrown} (h : exec B i op w (.error e) w')
    (message : JsString) : e ≠ .workItemTransition message := by
  rintro rfl
  rcases exec_cases h with ⟨o, -, h⟩ | ⟨-, -, ⟨_, h⟩, -⟩
  · cases op with
    | membersSave member => cases (Db.saveMember_error (commit_map_error h)).1
    | credentialsInsert record =>
      rcases Db.insertCredential_error (commit_map_error h) with ⟨he, -⟩ | ⟨he, -⟩ <;> cases he
    | workItemsSave item =>
      rcases Db.saveWorkItem_error (commit_map_error h) with ⟨-, _, he⟩ | ⟨-, he | he⟩ | ⟨-, he⟩ <;>
        cases he
    | activitiesInsert input => cases (Db.insertActivity_error (commit_map_error h)).1
    | workItemsClaimNext member =>
      rcases commit_cases h with ⟨e, h, he, -⟩ | ⟨_, -, h, -⟩
      · cases he
        exact Db.claimNext_ne_transition h
      · cases h
    | _ => cases h
  · cases h

lemma exec_membersSave {member : Member} (h : exec B i (.membersSave member) w (.ok ()) w') :
    w'.db.members = w.db.members.set (Db.memberRow member) ∧
      ∀ r ∈ w.db.members.rows, r.identityRef = member.identityRef → r.id = member.id := by
  obtain ⟨o, -, h⟩ := exec_ok h
  obtain ⟨hm, -, -, -, href⟩ := Db.saveMember_ok (commit_map_ok h)
  exact ⟨hm, href⟩

lemma exec_membersFindById {id : JsString} {row : Option MemberRow}
    (h : exec B i (.membersFindById id) w (.ok row) w') :
    row = w.db.members.find? id ∧ w' = w := by
  obtain ⟨o, -, h⟩ := exec_ok h
  cases h
  exact ⟨rfl, rfl⟩

lemma exec_credentialsInsert {record : HumanCredentialRecord}
    (h : exec B i (.credentialsInsert record) w (.ok ()) w') :
    w'.db.credentials = w.db.credentials.set record ∧
      ∀ r ∈ w.db.credentials.rows, r.memberId ≠ record.memberId ∧ r.email ≠ record.email := by
  obtain ⟨o, -, h⟩ := exec_ok h
  obtain ⟨hc, -, -, -, hfree⟩ := Db.insertCredential_ok (commit_map_ok h)
  exact ⟨hc, hfree⟩

lemma exec_credentialsFindByEmail {email : JsString} {record : Option HumanCredentialRecord}
    (h : exec B i (.credentialsFindByEmail email) w (.ok record) w') :
    record = w.db.findCredential email ∧ w' = w := by
  obtain ⟨o, -, h⟩ := exec_ok h
  cases h
  exact ⟨rfl, rfl⟩

lemma exec_workItemsFindById {id : JsString} {row : Option WorkItemRow}
    (h : exec B i (.workItemsFindById id) w (.ok row) w') :
    row = w.db.workItems.find? id ∧ w' = w := by
  obtain ⟨o, -, h⟩ := exec_ok h
  cases h
  exact ⟨rfl, rfl⟩

/-- A saved item overwrites its row. -/
lemma exec_workItemsSave_row {item : WorkItem}
    (h : exec B i (.workItemsSave item) w (.ok ()) w') :
    ∃ row : WorkItemRow, w'.db.workItems = w.db.workItems.set row ∧ row.Holds item := by
  obtain ⟨o, -, h⟩ := exec_ok h
  obtain ⟨row, hrow, hdb, hholds⟩ := Db.saveWorkItem_ok (commit_map_ok h)
  exact ⟨row, by rw [hdb]; rfl, hholds⟩

lemma exec_workItemsSave {item : WorkItem} (h : exec B i (.workItemsSave item) w (.ok ()) w') :
    ∃ row, w'.db.workItems = w.db.workItems.set row ∧ row.id = item.id ∧ row.state = item.state ∧
      row.assigneeMemberId = item.assigneeMemberId := by
  obtain ⟨row, hset, hholds⟩ := exec_workItemsSave_row h
  exact ⟨row, hset, hholds.id, hholds.state, hholds.assigneeMemberId⟩

/-- A claim that returned an item took an open row that the claimer may claim, and is assigned to
the claimer, who is stored. -/
lemma exec_workItemsClaimNext_row {member : Member} {claimed : WorkItem}
    (h : exec B i (.workItemsClaimNext member) w (.ok (some claimed)) w') :
    ∃ row item now, w.db.workItems.find? row.id = some row ∧
      Db.toWorkItem B.rt row = .ok item ∧ item.canBeClaimedBy member = true ∧
      claimed = { item with state := .claimed, assigneeMemberId := some member.id } ∧
      w'.db.workItems = w.db.workItems.set
        { row with state := .claimed, assigneeMemberId := some member.id, updatedAt := now } ∧
      (w'.db.members.find? member.id).isSome := by
  obtain ⟨o, hallowed, h⟩ := exec_ok h
  rcases commit_cases h with ⟨_, -, h, -⟩ | ⟨x, h, hx, -⟩
  · cases h
  · cases hx
    rcases Db.claimNext_ok h with ⟨-, h, -⟩ | ⟨row, item, hrow, hfirst, hitem, hcan, hclaimed, hdb⟩
    · cases h
    · have hmem := hallowed.claimScan row (Db.candidate_some hfirst).1
      exact ⟨row, item, o.clock, Table.find?_key hmem, hitem, hcan, Option.some.inj hclaimed,
        by rw [hdb]; rfl, by rw [hdb]; exact hrow _ rfl⟩

lemma exec_workItemsClaimNext {member : Member} {claimed : WorkItem}
    (h : exec B i (.workItemsClaimNext member) w (.ok (some claimed)) w') :
    ∃ row row' item, w.db.workItems.find? row.id = some row ∧
      Db.toWorkItem B.rt row = .ok item ∧ item.canBeClaimedBy member = true ∧
      claimed = { item with state := .claimed, assigneeMemberId := some member.id } ∧
      w'.db.workItems = w.db.workItems.set row' ∧ row'.id = row.id ∧ row'.state = .claimed ∧
      row'.assigneeMemberId = some member.id := by
  obtain ⟨row, item, now, hrow, hitem, hcan, hclaimed, hset, -⟩ := exec_workItemsClaimNext_row h
  exact ⟨row, _, item, hrow, hitem, hcan, hclaimed, hset, rfl, rfl, rfl⟩

lemma exec_workItemsClaimNext_none {member : Member}
    (h : exec B i (.workItemsClaimNext member) w (.ok none) w') : w'.db = w.db := by
  obtain ⟨o, -, h⟩ := exec_ok h
  rcases commit_cases h with ⟨_, -, h, -⟩ | ⟨x, h, hx, -⟩
  · cases h
  · cases hx
    rcases Db.claimNext_ok h with ⟨-, -, hdb⟩ | ⟨_, _, _, -, -, -, h, -⟩
    · exact hdb
    · cases h

/-- The list is in order, with the open rows of the table. -/
lemma exec_workItemsListOpen {rows : List WorkItemRow}
    (h : exec B i .workItemsListOpen w (.ok rows) w') :
    rows.Pairwise Db.Before ∧ rows.Perm (w.db.workItems.rows.filter fun r => r.state = .opened) ∧
      w' = w := by
  obtain ⟨o, hallowed, h⟩ := exec_ok h
  cases h
  refine ⟨List.pairwise_insertionSort _ _, ?_, rfl⟩
  exact (List.perm_insertionSort _ _).trans ((hallowed.listScan rfl).filter _)

lemma exec_randomUUID {uuid : JsString} (h : exec B i .randomUUID w (.ok uuid) w') :
    w.Fresh uuid ∧ w' = { w with drawn := uuid :: w.drawn } := by
  obtain ⟨o, hallowed, h⟩ := exec_ok h
  cases h
  exact ⟨hallowed.uuid rfl, rfl⟩

/-- An operation that writes nothing fails for reasons of its own only. -/
lemma exec_error_of_table {op : ServerOp} {e : Thrown} (hop : op.table = none)
    (h : exec B i op w (.error e) w') : op.isLocal = false ∧ ∃ message, e = .foreign message := by
  rcases exec_cases h with ⟨o, -, h⟩ | ⟨-, hlocal, ⟨message, h⟩, -⟩
  · cases op <;> cases hop <;> cases h
  · exact ⟨hlocal, message, Except.error.inj h⟩

lemma exec_membersSave_error {member : Member} {e : Thrown}
    (h : exec B i (.membersSave member) w (.error e) w') : (∃ message, e = .foreign message) ∨
      e = .database .uniqueViolation ∧
        ∃ r ∈ w.db.members.rows, r.identityRef = member.identityRef ∧ r.id ≠ member.id := by
  rcases exec_cases h with ⟨o, -, h⟩ | ⟨-, -, ⟨message, h⟩, -⟩
  · exact .inr (Db.saveMember_error (commit_map_error h))
  · exact .inl ⟨message, Except.error.inj h⟩

lemma exec_credentialsInsert_error {record : HumanCredentialRecord} {e : Thrown}
    (h : exec B i (.credentialsInsert record) w (.error e) w') :
    (∃ message, e = .foreign message) ∨
      e = .database .uniqueViolation ∧ (∃ r ∈ w.db.credentials.rows,
        r.memberId = record.memberId ∨ r.email = record.email) ∨
      e = .database .foreignKeyViolation ∧ w.db.members.find? record.memberId = none := by
  rcases exec_cases h with ⟨o, -, h⟩ | ⟨-, -, ⟨message, h⟩, -⟩
  · exact .inr (Db.insertCredential_error (commit_map_error h))
  · exact .inl ⟨message, Except.error.inj h⟩

lemma exec_activitiesInsert {input : RecordActivityInput}
    (h : exec B i (.activitiesInsert input) w (.ok ()) w') :
    ∃ record, w'.db.activities = w.db.activities ++ [record] ∧
      record.actorMemberId = input.actor.id ∧ record.action = input.action ∧
      record.resourceType = input.resourceType ∧ record.resourceId = input.resourceId := by
  obtain ⟨o, -, h⟩ := exec_ok h
  have hinsert := commit_map_ok h
  simp only [Db.insertActivity] at hinsert
  split_ifs at hinsert
  have hdb := Except.ok.inj hinsert
  exact ⟨_, by rw [← hdb], rfl, rfl, rfl, rfl⟩

/-- An operation that writes no table leaves all of them as they are. -/
lemma exec_db_of_table {op : ServerOp} {a : Except Thrown (ServerAns op)} (hop : op.table = none)
    (h : exec B i op w a w') : w'.db = w.db := by
  rcases exec_cases h with ⟨o, -, h⟩ | ⟨-, -, -, rfl⟩
  · cases op <;> cases hop <;> cases h <;> rfl
  · rfl

/-- An operation that writes nothing fails only where the backend makes it. -/
lemma mayFail_of_table {op : ServerOp} {e : Thrown} (hop : op.table = none)
    (h : exec B i op w (.error e) w') : B.mayFail op := by
  rcases exec_cases h with ⟨o, -, h⟩ | ⟨hfail, -, -, -⟩
  · cases op <;> cases hop <;> cases h
  · exact hfail

/-- An item that the columns keep can be saved. -/
lemma exec_workItemsSave_error {item : WorkItem} {e : Thrown} (hfits : Db.Fits item)
    (hassignee : w.db.AssigneeStored item.assigneeMemberId)
    (h : exec B i (.workItemsSave item) w (.error e) w') : B.mayFail (.workItemsSave item) := by
  rcases exec_cases h with ⟨o, -, h⟩ | ⟨hfail, -, -, -⟩
  · obtain ⟨db', hsave⟩ := Db.exists_saveWorkItem hfits hassignee
    rw [commit_map_error h] at hsave
    cases hsave
  · exact hfail

/-- A record is rejected for its actor, or for no reason of the database. -/
lemma exec_activitiesInsert_error {input : RecordActivityInput} {e : Thrown}
    (h : exec B i (.activitiesInsert input) w (.error e) w') :
    B.mayFail (.activitiesInsert input) ∨ w.db.members.find? input.actor.id = none := by
  rcases exec_cases h with ⟨o, -, h⟩ | ⟨hfail, -, -, -⟩
  · exact .inr (Db.insertActivity_error (commit_map_error h)).2
  · exact .inl hfail

end Inversion

end WorkspaceOs
