import WorkspaceOs.Server.Sessions

/-!
# What the database refuses

A statement fails by itself, or there is something in it that the tables cannot hold: a text with
U+0000, a number that is too large, a second row under a unique index, the identifier of nobody.
What is stored stays legible all the while.
-/

namespace WorkspaceOs

open Js Effect Relational

/-- Everything that is stored can be read, under identifiers that are texts. -/
structure Legible (rt : Runtime) (w : World) : Prop where
  members : MembersReadable rt w
  memberIds : w.StoresTexts
  items : ∀ row ∈ w.db.workItems.rows,
    Column.IsText row.id ∧ ¬ row.id.IsBlank ∧ ¬ row.title.IsBlank

/-- A role of the member that the statement of a claim gets as something else, or not at all. -/
def OddRole (B : Backend) (member : Member) : Prop :=
  ∃ role ∈ member.roles, ∃ sent, B.textParam role = some sent ∧
    ∀ s, Column.text sent = .ok s → role ≠ .str s

/-- The priority does not fit its column. -/
def Outside (priority : Float) : Prop := ∀ n, integer? priority = some n → ¬ IsInt32 n

/-- The columns take the parameters of the operation with this error. -/
def ServerOp.Rejected (e : Thrown) : ServerOp → Prop
  | .membersSave member => Column.member member = .error e
  | .membersFindById id | .workItemsFindById id | .credentialsFindByEmail id =>
    Column.text id = .error e
  | .credentialsInsert record => Column.credential record = .error e
  | .workItemsSave item =>
    Column.workItem item = .error e ∨ item.HasNul ∧ ∃ message, e = .foreign message
  | .activitiesInsert input => Column.activity input = .error e
  | _ => False

/-- Why the database refuses an operation. -/
inductive Refused (B : Backend) (w : World) : ServerOp → Thrown → Prop
  | rejected (op : ServerOp) (e : Thrown) (parameters : op.Rejected e) : Refused B w op e
  | identity (member : Member) (row stored : MemberRow) (sent : Column.member member = .ok row)
      (held : stored ∈ w.db.members.rows) (same : stored.identityRef = row.identityRef)
      (other : stored.id ≠ row.id) : Refused B w (.membersSave member) (.database .uniqueViolation)
  | credential (record : HumanCredentialRecord) :
      Refused B w (.credentialsInsert record) (.database .uniqueViolation)
  | stranger (record sent : HumanCredentialRecord) (written : Column.credential record = .ok sent)
      (absent : w.db.members.find? sent.memberId = none) :
      Refused B w (.credentialsInsert record) (.database .foreignKeyViolation)
  | priority (item : WorkItem) (e : Thrown) (outside : Outside item.priority)
      (range : e = .database .numericValueOutOfRange ∨ e = .database .invalidTextRepresentation) :
      Refused B w (.workItemsSave item) e
  | assignee (item sent : WorkItem) (written : Column.workItem item = .ok sent)
      (absent : ¬ w.db.AssigneeStored sent.assigneeMemberId) :
      Refused B w (.workItemsSave item) (.database .foreignKeyViolation)
  | actor (input sent : RecordActivityInput) (written : Column.activity input = .ok sent)
      (absent : w.db.members.find? sent.actor.id = none) :
      Refused B w (.activitiesInsert input) (.database .foreignKeyViolation)
  | claimer (member : Member) (e : Thrown) (absent : ¬ w.db.StoresMember member) :
      Refused B w (.workItemsClaimNext member) e
  | role (member : Member) (e : Thrown) (odd : OddRole B member)
      (claim : (∃ message, e = .workItemClaim message) ∨ ∃ message, e = .foreign message) :
      Refused B w (.workItemsClaimNext member) e

section Refused

variable {B : Backend} {i : ℕ} {op : ServerOp} {w w' : World} {e : Thrown} {rt : Runtime}

lemma refused_of_claim {o : Oracle} {member : Member} (hlegible : Legible rt w)
    (hscan : ∀ row ∈ o.scan, row ∈ w.db.workItems.rows)
    (h : Db.sendClaimNext B.rt w.db o.scan o.clock (member.roles.filterMap B.textParam) member =
      .error e) : Refused B w (.workItemsClaimNext member) e := by
  rcases bind_eq_error.mp h with htexts | ⟨texts, htexts, -⟩
  · obtain ⟨sent, hsent, hrejected⟩ := Column.elements_eq_error htexts
    obtain ⟨role, hrole, hparam⟩ := List.mem_filterMap.mp hsent
    refine .role member e ⟨role, hrole, sent, hparam, fun s hs => ?_⟩
      (.inr (Column.text_eq_error hrejected).2)
    rw [hrejected] at hs
    cases hs
  cases hcandidate : Db.candidate texts o.scan with
  | none =>
    rw [Db.sendClaimNext_of_none htexts hcandidate] at h
    cases h
  | some row =>
    obtain ⟨hrow, heligible, -⟩ := Db.candidate_some hcandidate
    obtain ⟨hstate, hrole⟩ := Db.eligible_iff.mp heligible
    obtain ⟨-, hid, htitle⟩ := hlegible.items row (hscan row hrow)
    obtain ⟨item, hitem⟩ := Db.toWorkItem_of_visible B.rt hid htitle
    obtain ⟨-, -, -, -, hitem_role, hitem_state, -⟩ := Db.toWorkItem_ok hitem
    cases hlacks : item.lacksRole member with
    | false =>
      have hcan := WorkItem.canBeClaimedBy_iff.mpr ⟨hitem_state.trans hstate, hlacks⟩
      refine .claimer member e fun ⟨id, hsent, hstored⟩ => ?_
      have hassignee : w.db.AssigneeStored (some id) := by
        rintro _ ⟨⟩
        exact hstored
      rw [Db.sendClaimNext_of_member htexts hcandidate hitem hcan hsent hassignee] at h
      cases h
    | true =>
      -- the statement finds the role among the texts, and the domain not among the roles
      obtain ⟨message, hclaim⟩ : ∃ message, item.claimBy member = .error (.workItemClaim message) :=
        ⟨_, (if_neg (not_not.mpr (hitem_state.trans hstate))).trans (if_pos hlacks)⟩
      have he : e = .workItemClaim message := by
        rw [Db.sendClaimNext_of_not_claimed htexts hcandidate hitem hclaim] at h
        exact (Except.error.inj h).symm
      refine .role member e ?_ (.inl ⟨message, he⟩)
      by_contra hodd
      rw [← Bool.not_eq_false] at hlacks
      refine hlacks (WorkItem.not_lacksRole_iff.mpr fun role hrequired _ => ?_)
      obtain ⟨sent, hsent, htext⟩ :=
        (Column.mem_of_elements htexts).mp (hrole role (hitem_role ▸ hrequired))
      obtain ⟨json, hjson, hparam⟩ := List.mem_filterMap.mp hsent
      rw [Member.hasRole_iff]
      by_contra habsent
      refine hodd ⟨json, hjson, sent, hparam, ?_⟩
      rintro s hs rfl
      rw [htext] at hs
      exact absurd (Except.ok.inj hs ▸ hjson) habsent

/-- An operation fails by itself, or the database refuses it. -/
lemma error_cases (hlegible : Legible rt w) (h : sending B i op w (.error e) w') :
    (B.mayFail op ∧ ∃ message, e = .foreign message) ∨ Refused B w op e := by
  rcases sending_cases h with ⟨o, hallowed, -, h⟩ | ⟨hfail, -, ⟨message, h⟩, -⟩
  · refine .inr ?_
    cases op with
    | membersSave member =>
      rcases Db.writeMember_error (commit_map_error h) with hrejected |
        ⟨rfl, row, hrow, stored, hstored, hsame, hother⟩
      · exact .rejected _ e hrejected
      · exact .identity member row stored hrow hstored hsame hother
    | membersFindById id | credentialsFindByEmail id | workItemsFindById id =>
      exact .rejected _ e (map_eq_error.mp (congrArg Prod.fst h))
    | credentialsInsert record =>
      rcases bind_eq_error.mp (commit_map_error h) with hrejected | ⟨sent, hsent, hinsert⟩
      · exact .rejected _ e hrejected
      · rcases Db.insertCredential_error hinsert with ⟨rfl, -⟩ | ⟨rfl, habsent⟩
        · exact .credential record
        · exact .stranger record sent hsent habsent
    | workItemsSave item =>
      rcases bind_eq_error.mp (commit_map_error h) with hrejected | ⟨sent, hsent, hsave⟩
      · exact .rejected _ e (.inl hrejected)
      · obtain ⟨-, -, htitle, hdescription, hpriority, hrole, -⟩ :=
          Column.workItem_eq_ok_iff.mp hsent
        rcases Db.saveWorkItem_error hsave with
          ⟨hnul, hforeign⟩ | ⟨houtside, hrange⟩ | ⟨habsent, rfl⟩
        · refine .rejected _ e (.inr ⟨?_, hforeign⟩)
          rwa [WorkItem.HasNul, htitle, hdescription, hrole] at hnul
        · exact .priority item e (hpriority ▸ houtside) hrange
        · exact .assignee item sent hsent habsent
    | workItemsClaimNext member =>
      rcases commit_cases h with ⟨e', hclaim, he, -⟩ | ⟨_, -, h, -⟩
      · cases he
        exact refused_of_claim hlegible hallowed.claimScan hclaim
      · cases h
    | activitiesInsert input =>
      rcases bind_eq_error.mp (commit_map_error h) with hrejected | ⟨sent, hsent, hinsert⟩
      · exact .rejected _ e hrejected
      · obtain ⟨rfl, habsent⟩ := Db.insertActivity_error hinsert
        exact .actor input sent hsent habsent
    | _ => cases h
  · exact .inl ⟨hfail, message, Except.error.inj h⟩

/-- What is written for a member can be read. -/
lemma toMember_of_column {member : Member} {row : MemberRow} (h : Column.member member = .ok row) :
    ∃ member', Db.toMember rt row = .ok member' := by
  obtain ⟨hid, htype, href, hname, -⟩ := Column.member_eq_ok_iff.mp h
  refine @Member.create_of_visible rt _ member.type ?_
    (Column.visible_of_text hid member.id_visible)
    (Column.visible_of_text href member.identityRef_visible)
    (Column.visible_of_text hname member.displayName_visible)
  show MemberType.of? (some (.str row.type)) = some member.type
  rw [← htype]
  cases member.type <;> rfl

lemma Legible.step {a : Except Thrown (ServerAns op)} (hlegible : Legible rt w)
    (h : sending B i op w a w') : Legible rt w' where
  memberIds := hlegible.memberIds.step h
  members := by
    by_cases hop : op.table = some .members
    · cases op with
      | membersSave member =>
        cases a with
        | error e => exact sending_error h ▸ hlegible.members
        | ok =>
          obtain ⟨written, hwritten, hset, -⟩ := sending_membersSave h
          intro row hrow
          rw [hset, Table.mem_set] at hrow
          rcases hrow with rfl | ⟨hrow, -⟩
          · exact toMember_of_column hwritten
          · exact hlegible.members row hrow
      | _ => cases hop
    · rw [MembersReadable, (sending_framed h).members hop]
      exact hlegible.members
  items := by
    have hset {row : WorkItemRow}
        (hrow : Column.IsText row.id ∧ ¬ row.id.IsBlank ∧ ¬ row.title.IsBlank)
        (hset : w'.db.workItems = w.db.workItems.set row) : ∀ row ∈ w'.db.workItems.rows,
          Column.IsText row.id ∧ ¬ row.id.IsBlank ∧ ¬ row.title.IsBlank := by
      intro row' hrow'
      rw [hset, Table.mem_set] at hrow'
      rcases hrow' with rfl | ⟨hrow', -⟩
      · exact hrow
      · exact hlegible.items row' hrow'
    by_cases hop : op.table = some .workItems
    · cases op with
      | workItemsSave item =>
        cases a with
        | error e => exact sending_error h ▸ hlegible.items
        | ok =>
          obtain ⟨sent, row, hsent, hrow, hholds⟩ := sending_workItemsSave h
          refine hset ⟨?_, ?_, ?_⟩ hrow
          · rw [hholds.id]
            exact Column.isText_of_text (Column.workItem_eq_ok_iff.mp hsent).1
          · exact hholds.id ▸ sent.id_visible
          · exact Column.visible_of_text hholds.title sent.title_visible
      | workItemsClaimNext member =>
        cases a with
        | error e => exact sending_error h ▸ hlegible.items
        | ok claimed? =>
          cases claimed? with
          | none =>
            rw [sending_workItemsClaimNext_none h]
            exact hlegible.items
          | some claimed =>
            obtain ⟨row, _, _, _, hfind, -, -, -, -, hrow⟩ := sending_workItemsClaimNext h
            refine hset ?_ hrow
            exact hlegible.items row (Table.mem_of_find? hfind)
      | _ => cases hop
    · rw [(sending_framed h).workItems hop]
      exact hlegible.items

end Refused

end WorkspaceOs
