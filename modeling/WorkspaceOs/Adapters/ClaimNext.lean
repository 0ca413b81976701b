import WorkspaceOs.Adapters.Database

/-!
# The claim against the domain rule

Eligibility is written twice: as the filter of `claimNext` on a nullable column, and as the
truthiness tests of `WorkItem.canBeClaimedBy`. The two part on the empty role, and on roles that are
no texts, of which the filter gets something else.
-/

namespace WorkspaceOs

open Js Relational

namespace Db

variable {rt : Runtime} {db db' : Db} {row : WorkItemRow} {item : WorkItem} {member : Member}
  {roles : List Role} {texts : List JsString} {scan : List WorkItemRow} {now : ℤ}

/-- The transaction of `claimNext`, with what it sends: the roles of the member as parameters of the
query, and its identifier as the assignee. -/
def sendClaimNext (rt : Runtime) (db : Db) (scan : List WorkItemRow) (now : ℤ) (roles : List Role)
    (member : Member) : Except Thrown (Option WorkItem × Db) := do
  let texts ← Column.elements Column.text roles
  match candidate texts scan with
  | none => return (none, db)
  | some row =>
    let claimed ← (← toWorkItem rt row).claimBy member
    let assignee ← Column.optional Column.text claimed.assigneeMemberId
    if h : db.AssigneeStored assignee then
      return (some claimed, db.setWorkItem
        { row with state := claimed.state, assigneeMemberId := assignee, updatedAt := now } h)
    else throw (.database .foreignKeyViolation)

/-- What was saved can be read. -/
lemma toWorkItem_of_holds (rt : Runtime) (h : row.Holds item) :
    ∃ item', toWorkItem rt row = .ok item' := by
  refine toWorkItem_of_visible rt ?_ (Column.visible_of_text h.title item.title_visible)
  rw [h.id]
  exact item.id_visible

/-- The item of the row can be claimed by the member. -/
def Claimable (rt : Runtime) (row : WorkItemRow) (member : Member) : Prop :=
  ∃ item, toWorkItem rt row = .ok item ∧ item.canBeClaimedBy member = true

lemma claimable_iff (h : row.Holds item) : Claimable rt row member ↔
    row.state = .opened ∧
      ∀ role, row.requiredRole = some role → role ≠ [] → member.hasRole role = true := by
  obtain ⟨item', hitem⟩ := toWorkItem_of_holds rt h
  obtain ⟨-, -, -, -, hrole, hstate, -⟩ := toWorkItem_ok hitem
  simp only [Claimable, hitem, Except.ok.injEq, exists_eq_left', WorkItem.canBeClaimedBy_iff,
    WorkItem.not_lacksRole_iff, hrole, hstate]

/-- An open row whose role is the empty string, which the member does not hold: claimable for the
domain, and invisible to the statement. -/
def Overlooked (roles : List Role) (row : WorkItemRow) : Prop :=
  row.state = .opened ∧ row.requiredRole = some [] ∧ [] ∉ roles

/-- An open row whose role is none of the member's, but what the driver sends of one of them. -/
def Misread (roles : List Role) (texts : List JsString) (row : WorkItemRow) : Prop :=
  row.state = .opened ∧ ∃ role, row.requiredRole = some role ∧ role ∈ texts ∧ role ∉ roles

/-- The order of the query. Rows that are level come as the scan finds them. -/
def Precedes (scan : List WorkItemRow) (row row' : WorkItemRow) : Prop :=
  Before row row' ∧ (Before row' row → [row, row'].Sublist scan)

/-- The filter of the statement and the rule of the domain differ in the overlooked rows and in
those that are misread. -/
lemma claimable_iff_eligible (hrow : row.Holds item) (hroles : member.roles = roles.map .str)
    (htexts : Column.elements Column.text roles = .ok texts) : Claimable rt row member ↔
      eligible texts row = true ∧ ¬ Misread roles texts row ∨ Overlooked roles row := by
  have hhas : ∀ role, member.hasRole role = true ↔ role ∈ roles := by
    intro role
    simp [Member.hasRole_iff, hroles]
  rw [claimable_iff hrow, eligible_iff, Overlooked, Misread]
  cases hrole : row.requiredRole with
  | none => simp
  | some role =>
    have hmem := @Column.mem_of_elements _ _ _ _ _ role htexts
    by_cases hempty : role = []
    · subst hempty
      simp only [Column.text_eq_nil_iff, exists_eq_right] at hmem
      by_cases hheld : [] ∈ roles <;> simp [hmem, hheld]
    · -- a role that a column holds is sent as it is
      have hsent : role ∈ roles → role ∈ texts := fun hheld =>
        hmem.mpr ⟨role, hheld, Column.text_eq_ok_iff.mpr (row.requiredRole_text role hrole)⟩
      by_cases hheld : role ∈ roles
      · simp [hempty, hhas, hheld, hsent hheld]
      · by_cases htext : role ∈ texts <;> simp [hempty, hhas, hheld, htext]

/-- `claimNext` does what the domain says: it returns null when nothing is claimable; otherwise it
claims a row that comes first among the claimable ones, and writes nothing but its state, assignee
and time. -/
def AgreesWithDomain (rt : Runtime) (db : Db) (member : Member) (now : ℤ) :
    Except Thrown (Option WorkItem × Db) → Prop
  | .error _ => False
  | .ok (none, db') => (∀ row ∈ db.workItems.rows, ¬ Claimable rt row member) ∧ db' = db
  | .ok (some claimed, db') => ∃ row ∈ db.workItems.rows, ∃ item assignee hrow,
      toWorkItem rt row = .ok item ∧ item.claimBy member = .ok claimed ∧
      (∀ r ∈ db.workItems.rows, Claimable rt r member → Before row r) ∧
      Column.text member.id = .ok assignee ∧
      db' = db.setWorkItem { row with state := .claimed, assigneeMemberId := some assignee,
                                      updatedAt := now } hrow

/-- The member is stored under what is sent of its identifier. -/
def StoresMember (db : Db) (member : Member) : Prop :=
  ∃ id, Column.text member.id = .ok id ∧ (db.members.find? id).isSome

/-! ### What the transaction does -/

lemma sendClaimNext_of_error {e : Thrown} (htexts : Column.elements Column.text roles = .error e) :
    sendClaimNext rt db scan now roles member = .error e := by
  rw [sendClaimNext, htexts]
  rfl

lemma sendClaimNext_of_none (htexts : Column.elements Column.text roles = .ok texts)
    (hcandidate : candidate texts scan = none) :
    sendClaimNext rt db scan now roles member = .ok (none, db) := by
  refine bind_eq_ok.mpr ⟨texts, htexts, ?_⟩
  simp only [hcandidate]
  rfl

/-- What `claimNext_ok` is about, with the member under the identifier that is sent. -/
lemma sendClaimNext_ok {result : Option WorkItem}
    (h : sendClaimNext rt db scan now roles member = .ok (result, db')) :
    (result = none ∧ db' = db) ∨
    ∃ texts row item assignee hrow, candidate texts scan = some row ∧
      toWorkItem rt row = .ok item ∧ item.canBeClaimedBy member = true ∧
      Column.text member.id = .ok assignee ∧
      result = some { item with state := .claimed, assigneeMemberId := some member.id } ∧
      db' = db.setWorkItem { row with state := .claimed, assigneeMemberId := some assignee,
                                      updatedAt := now } hrow := by
  obtain ⟨texts, -, h⟩ := bind_eq_ok.mp h
  cases hcandidate : candidate texts scan with
  | none =>
    simp only [hcandidate] at h
    cases h
    exact .inl ⟨rfl, rfl⟩
  | some row =>
    simp only [hcandidate] at h
    obtain ⟨item, hitem, h⟩ := bind_eq_ok.mp h
    obtain ⟨claimed, hclaim, h⟩ := bind_eq_ok.mp h
    obtain ⟨hcan, rfl⟩ := WorkItem.claimBy_eq_ok_iff.mp hclaim
    obtain ⟨assignee?, hsent, h⟩ := bind_eq_ok.mp h
    obtain ⟨assignee, hassignee, rfl⟩ := map_eq_ok.mp hsent
    split_ifs at h with hrow
    cases h
    exact .inr ⟨texts, row, item, assignee, hrow, hcandidate, hitem, hcan, hassignee, rfl, rfl⟩

section Candidate

variable (htexts : Column.elements Column.text roles = .ok texts)
  (hcandidate : candidate texts scan = some row) (hitem : toWorkItem rt row = .ok item)
include htexts hcandidate hitem

/-- An item that cannot be claimed makes the transaction throw. -/
lemma sendClaimNext_of_not_claimed {e : Thrown} (hclaim : item.claimBy member = .error e) :
    sendClaimNext rt db scan now roles member = .error e := by
  refine bind_eq_error.mpr (.inr ⟨texts, htexts, ?_⟩)
  simp only [hcandidate]
  exact bind_eq_error.mpr (.inr ⟨item, hitem, bind_eq_error.mpr (.inl hclaim)⟩)

lemma sendClaimNext_of_not_claimable (hcan : ¬ item.canBeClaimedBy member = true) :
    ∃ e, sendClaimNext rt db scan now roles member = .error e := by
  cases hclaim : item.claimBy member with
  | ok claimed => exact absurd (WorkItem.claimBy_eq_ok_iff.mp hclaim).1 hcan
  | error e => exact ⟨e, sendClaimNext_of_not_claimed htexts hcandidate hitem hclaim⟩

lemma sendClaimNext_of_member {assignee : JsString} (hcan : item.canBeClaimedBy member = true)
    (hassignee : Column.text member.id = .ok assignee)
    (hstored : db.AssigneeStored (some assignee)) :
    sendClaimNext rt db scan now roles member = .ok
      (some { item with state := .claimed, assigneeMemberId := some member.id },
        db.setWorkItem { row with state := .claimed, assigneeMemberId := some assignee,
                                  updatedAt := now } hstored) := by
  have hclaim := WorkItem.claimBy_eq_ok_iff.mpr ⟨hcan, rfl⟩
  have hsent : Column.optional Column.text (some member.id) = .ok (some assignee) := by
    rw [Column.optional, hassignee]
    rfl
  refine bind_eq_ok.mpr ⟨texts, htexts, ?_⟩
  simp only [hcandidate]
  exact bind_eq_ok.mpr ⟨item, hitem, bind_eq_ok.mpr ⟨_, hclaim, bind_eq_ok.mpr ⟨_, hsent,
    dif_pos hstored⟩⟩⟩

/-- Who is not a member cannot be assigned anything. -/
lemma sendClaimNext_of_not_member (hcan : item.canBeClaimedBy member = true)
    (hmember : ¬ db.StoresMember member) :
    ∃ e, sendClaimNext rt db scan now roles member = .error e := by
  have hclaim := WorkItem.claimBy_eq_ok_iff.mpr ⟨hcan, rfl⟩
  cases hassignee : Column.text member.id with
  | error e =>
    have hsent : Column.optional Column.text (some member.id) = .error e := by
      rw [Column.optional, hassignee]
      rfl
    refine ⟨e, bind_eq_error.mpr (.inr ⟨texts, htexts, ?_⟩)⟩
    simp only [hcandidate]
    exact bind_eq_error.mpr (.inr ⟨item, hitem, bind_eq_error.mpr (.inr ⟨_, hclaim,
      bind_eq_error.mpr (.inl hsent)⟩)⟩)
  | ok assignee =>
    have hsent : Column.optional Column.text (some member.id) = .ok (some assignee) := by
      rw [Column.optional, hassignee]
      rfl
    have hstored : ¬ db.AssigneeStored (some assignee) := by
      intro hstored
      exact hmember ⟨assignee, hassignee, hstored assignee rfl⟩
    refine ⟨.database .foreignKeyViolation, bind_eq_error.mpr (.inr ⟨texts, htexts, ?_⟩)⟩
    simp only [hcandidate]
    exact bind_eq_error.mpr (.inr ⟨item, hitem, bind_eq_error.mpr (.inr ⟨_, hclaim,
      bind_eq_error.mpr (.inr ⟨_, hsent, dif_neg hstored⟩)⟩)⟩)

end Candidate

/-! ### Where the two agree -/

section Agreement

variable (hclaimable : ∀ r ∈ db.workItems.rows, (Claimable rt r member ↔
  eligible texts r = true ∧ ¬ Misread roles texts r ∨ Overlooked roles r))
include hclaimable

/-- Null is the right answer unless a row is overlooked. -/
lemma agrees_null_iff (hnone : ∀ r ∈ db.workItems.rows, eligible texts r = false) :
    AgreesWithDomain rt db member now (.ok (none, db)) ↔
      ∀ o ∈ db.workItems.rows, ¬ Overlooked roles o := by
  simp only [AgreesWithDomain, and_true]
  constructor
  · intro h o ho hover
    exact h o ho ((hclaimable o ho).mpr (.inr hover))
  · intro h r hr hclaim
    rcases (hclaimable r hr).mp hclaim with ⟨helig, -⟩ | hover
    · rw [hnone r hr] at helig
      cases helig
    · exact h r hr hover

/-- The first eligible row is the right one unless an overlooked row comes before it. -/
lemma agrees_claimed_iff {claimed : WorkItem} {assignee : JsString}
    (hrow : row ∈ db.workItems.rows) (helig : eligible texts row = true)
    (hfirst : ∀ r ∈ db.workItems.rows, eligible texts r = true → Before row r)
    (hitem : toWorkItem rt row = .ok item) (hclaim : item.claimBy member = .ok claimed)
    (hassignee : Column.text member.id = .ok assignee)
    (hstored : db.AssigneeStored (some assignee)) :
    AgreesWithDomain rt db member now
        (.ok (some claimed, db.setWorkItem { row with state := .claimed,
                                                      assigneeMemberId := some assignee,
                                                      updatedAt := now } hstored)) ↔
      ∀ o ∈ db.workItems.rows, Overlooked roles o →
        ∃ e ∈ db.workItems.rows, eligible texts e = true ∧ Before e o := by
  constructor
  · rintro ⟨row', hrow', item', _, -, hitem', hclaim', hbefore, -⟩
    -- the item it returns is that of the row it locked
    have hid : row'.id = row.id := by
      obtain ⟨-, heq⟩ := WorkItem.claimBy_eq_ok_iff.mp hclaim
      obtain ⟨-, heq'⟩ := WorkItem.claimBy_eq_ok_iff.mp hclaim'
      have hsame := congrArg WorkItem.id (heq'.symm.trans heq)
      dsimp only at hsame
      rw [← (toWorkItem_ok hitem').1, hsame, (toWorkItem_ok hitem).1]
    obtain rfl := List.inj_on_of_nodup_map db.workItems.keyed hrow' hrow hid
    intro o ho hover
    exact ⟨row', hrow', helig, hbefore o ho ((hclaimable o ho).mpr (.inr hover))⟩
  · intro h
    refine ⟨row, hrow, item, assignee, hstored, hitem, hclaim, fun r hr hclaim => ?_,
      hassignee, rfl⟩
    rcases (hclaimable r hr).mp hclaim with ⟨he, -⟩ | hover
    · exact hfirst r hr he
    · obtain ⟨e, hemem, he, hbefore⟩ := h r hr hover
      exact IsTrans.trans _ _ _ (hfirst e hemem he) hbefore

end Agreement

/-! ### What is misread -/

lemma Misread.eligible (h : Misread roles texts row) : eligible texts row = true := by
  obtain ⟨hopened, role, hrole, htext, -⟩ := h
  refine eligible_iff.mpr ⟨hopened, fun role' hrole' => ?_⟩
  rwa [← Option.some.inj (hrole.symm.trans hrole')]

/-- A row that the statement finds is misread if its item cannot be claimed, and only then. -/
lemma misread_iff_not_claimable (htexts : Column.elements Column.text roles = .ok texts)
    (hclaimable : Claimable rt row member ↔
      eligible texts row = true ∧ ¬ Misread roles texts row ∨ Overlooked roles row)
    (helig : eligible texts row = true) :
    Misread roles texts row ↔ ¬ Claimable rt row member := by
  constructor
  · intro hmis hclaim
    rcases hclaimable.mp hclaim with ⟨-, hright⟩ | ⟨-, hempty, hheld⟩
    · exact hright hmis
    · -- the empty role is sent of itself only
      obtain ⟨-, role, hrole, htext, -⟩ := hmis
      cases hrole.symm.trans hempty
      obtain ⟨s, hs, hsent⟩ := (Column.mem_of_elements htexts).mp htext
      exact hheld (Column.text_eq_nil_iff.mp hsent ▸ hs)
  · intro hnot
    by_contra hright
    exact hnot (hclaimable.mpr (.inl ⟨helig, hright⟩))

/-- The row that is locked precedes every other eligible row, and none of them precedes it. -/
lemma candidate_precedes (hnodup : scan.Nodup) (hcandidate : candidate texts scan = some row)
    {r : WorkItemRow} (hr : r ∈ scan) (helig : eligible texts r = true) (hne : r ≠ row) :
    Precedes scan row r ∧ ¬ Precedes scan r row := by
  obtain ⟨hmem, heligible, hfirst⟩ := candidate_some hcandidate
  have hfilter {a b : WorkItemRow} (ha : eligible texts a = true) (hb : eligible texts b = true)
      (h : [a, b].Sublist scan) : [a, b].Sublist (scan.filter (eligible texts)) := by
    have hpair := h.filter (eligible texts)
    rwa [List.filter_eq_self.mpr (by simp [ha, hb])] at hpair
  have hlater (hbefore : Before r row) : ¬ [r, row].Sublist scan := fun h =>
    not_sublist_of_firstBy (hnodup.filter _) hcandidate hbefore hne (hfilter helig heligible h)
  refine ⟨⟨hfirst r hr helig, fun hbefore => ?_⟩, fun ⟨hbefore, hfound⟩ => ?_⟩
  · exact (pair_sublist_or hmem hr hne.symm).resolve_right (hlater hbefore)
  · exact hlater hbefore (hfound (hfirst r hr helig))

/-- Those that are misread come after one that is not exactly when the row that is locked is not. -/
lemma misread_preceded_iff (hscan : scan.Perm db.workItems.rows)
    (hcandidate : candidate texts scan = some row) :
    (∀ m ∈ db.workItems.rows, Misread roles texts m →
      ∃ e ∈ db.workItems.rows, eligible texts e = true ∧ ¬ Misread roles texts e ∧
        Precedes scan e m) ↔ ¬ Misread roles texts row := by
  have hnodup : scan.Nodup := hscan.nodup_iff.mpr db.workItems.keyed.of_map
  obtain ⟨hmem, helig, -⟩ := candidate_some hcandidate
  have hrow := hscan.mem_iff.mp hmem
  constructor
  · intro h hmis
    obtain ⟨e, he, helig', hright, hprecedes⟩ := h row hrow hmis
    have hne : e ≠ row := by
      rintro rfl
      exact hright hmis
    exact (candidate_precedes hnodup hcandidate (hscan.mem_iff.mpr he) helig' hne).2 hprecedes
  · intro hright m hm hmis
    have hne : m ≠ row := by
      rintro rfl
      exact hright hmis
    exact ⟨row, hrow, helig, hright,
      (candidate_precedes hnodup hcandidate (hscan.mem_iff.mpr hm) hmis.eligible hne).1⟩

/-- With no row locked, `claimNext` agrees with the domain exactly when the roles can be sent, every
overlooked row has an eligible row before it, every row that is misread is preceded by an eligible
one that is not, and the member is stored if there is anything to assign. -/
theorem claimNext_agrees_iff (rt : Runtime) (db : Db) (scan : List WorkItemRow) (now : ℤ)
    (roles : List Role) (member : Member)
    (hrows : ∀ row ∈ db.workItems.rows, ∃ item, row.Holds item)
    (hscan : scan.Perm db.workItems.rows) (hroles : member.roles = roles.map .str) :
    AgreesWithDomain rt db member now (sendClaimNext rt db scan now roles member) ↔
      ∃ texts, Column.elements Column.text roles = .ok texts ∧
        (∀ o ∈ db.workItems.rows, Overlooked roles o →
          ∃ e ∈ db.workItems.rows, eligible texts e = true ∧ Before e o) ∧
        (∀ m ∈ db.workItems.rows, Misread roles texts m →
          ∃ e ∈ db.workItems.rows, eligible texts e = true ∧ ¬ Misread roles texts e ∧
            Precedes scan e m) ∧
        ((∃ e ∈ db.workItems.rows, eligible texts e = true) → db.StoresMember member) := by
  cases htexts : Column.elements Column.text roles with
  | error e =>
    rw [sendClaimNext_of_error htexts]
    exact iff_of_false id (by rintro ⟨_, h, -⟩; cases h)
  | ok texts =>
    simp only [Except.ok.injEq, exists_eq_left']
    have hclaimable : ∀ r ∈ db.workItems.rows, (Claimable rt r member ↔
        eligible texts r = true ∧ ¬ Misread roles texts r ∨ Overlooked roles r) := by
      intro r hr
      obtain ⟨item, hitem⟩ := hrows r hr
      exact claimable_iff_eligible hitem hroles htexts
    cases hcandidate : candidate texts scan with
    | none =>
      have hnone : ∀ r ∈ db.workItems.rows, eligible texts r = false := fun r hr =>
        candidate_eq_none.mp hcandidate r (hscan.mem_iff.mpr hr)
      have hnot {r : WorkItemRow} (hr : r ∈ db.workItems.rows) : ¬ eligible texts r = true := by
        rw [hnone r hr]
        exact Bool.false_ne_true
      rw [sendClaimNext_of_none htexts hcandidate, agrees_null_iff hclaimable hnone]
      constructor
      · intro h
        exact ⟨fun o ho hover => absurd hover (h o ho),
          fun m hm hmis => absurd hmis.eligible (hnot hm),
          fun ⟨e, he, helig⟩ => absurd helig (hnot he)⟩
      · rintro ⟨h, -⟩ o ho hover
        obtain ⟨e, he, helig, -⟩ := h o ho hover
        exact hnot he helig
    | some row =>
      obtain ⟨hmem, helig, hfirst⟩ := candidate_some hcandidate
      have hrow := hscan.mem_iff.mp hmem
      have hfirst : ∀ r ∈ db.workItems.rows, eligible texts r = true → Before row r := fun r hr =>
        hfirst r (hscan.mem_iff.mpr hr)
      have hmisread := misread_iff_not_claimable htexts (hclaimable row hrow) helig
      obtain ⟨item', hholds⟩ := hrows row hrow
      obtain ⟨item, hitem⟩ := toWorkItem_of_holds rt hholds
      rw [misread_preceded_iff hscan hcandidate, hmisread, not_not]
      by_cases hcan : item.canBeClaimedBy member = true
      · have hclaim := WorkItem.claimBy_eq_ok_iff.mpr ⟨hcan, rfl⟩
        by_cases hmember : db.StoresMember member
        · obtain ⟨assignee, hassignee, hstored⟩ := hmember
          have hstored : db.AssigneeStored (some assignee) := by
            rintro _ ⟨⟩
            exact hstored
          rw [sendClaimNext_of_member htexts hcandidate hitem hcan hassignee hstored,
            agrees_claimed_iff hclaimable hrow helig hfirst hitem hclaim hassignee hstored]
          exact ⟨fun h => ⟨h, ⟨item, hitem, hcan⟩,
            fun _ => ⟨assignee, hassignee, hstored assignee rfl⟩⟩, fun h => h.1⟩
        · obtain ⟨e, he⟩ := @sendClaimNext_of_not_member rt db row item member roles texts scan now
            htexts hcandidate hitem hcan hmember
          rw [he]
          exact iff_of_false id fun h => hmember (h.2.2 ⟨row, hrow, helig⟩)
      · obtain ⟨e, he⟩ := @sendClaimNext_of_not_claimable rt db row item member roles texts scan now
          htexts hcandidate hitem hcan
        rw [he]
        refine iff_of_false id ?_
        rintro ⟨-, ⟨item'', hitem'', hcan''⟩, -⟩
        cases hitem.symm.trans hitem''
        exact hcan hcan''

/-! A board with one open item, published by the stored agent. -/

/-- What `POST /work-items` makes of a title and a required role. -/
def published (requiredRole : Option Role) : WorkItem where
  id := "w_1"
  title := "Draft the memo"
  priority := 0
  description := none
  requiredRole := requiredRole
  state := .opened
  assigneeMemberId := none
  id_visible := by decide
  title_visible := by decide
  priority_integer := by decide +kernel

/-- A role that a column can hold. -/
abbrev TextRole := { role : Role // Column.IsText role }

def publishedRow (requiredRole : Option TextRole) : WorkItemRow where
  id := "w_1"
  title := "Draft the memo"
  description := none
  priority := 0
  requiredRole := requiredRole.map Subtype.val
  state := .opened
  assigneeMemberId := none
  createdAt := 0
  updatedAt := 0
  priority_int32 := by decide
  title_text := .of_all rfl
  description_text := by simp
  requiredRole_text := by
    intro s hs
    obtain ⟨role, -, rfl⟩ := Option.map_eq_some_iff.mp hs
    exact role.2

lemma publishedRow_holds (requiredRole : Option TextRole) :
    (publishedRow requiredRole).Holds (published (requiredRole.map Subtype.val)) where
  id := rfl
  title := Column.text_eq_ok_iff.mpr (publishedRow requiredRole).title_text
  description := rfl
  priority := integer?_zero
  requiredRole := Column.optional_text_eq_ok_iff.mpr (publishedRow requiredRole).requiredRole_text
  state := rfl
  assigneeMemberId := rfl

def board (requiredRole : Option TextRole) : Db where
  members := ⟨[memberRow (.bot [])], by simp⟩
  credentials := ∅
  workItems := ⟨[publishedRow requiredRole], by simp⟩
  activities := []
  identityRef_unique := by simp
  email_unique := empty.email_unique
  credential_member := by simp
  assignee_member := by simp [publishedRow]
  actor_member := by simp

theorem claimNext_agrees_iff_unrestricted :
    AgreesWithDomain .ascii (board none) (.bot []) 1
      (sendClaimNext .ascii (board none) (board none).workItems.rows 1 [] (.bot [])) ↔
      ∃ texts, Column.elements Column.text [] = .ok texts ∧
        (∀ o ∈ (board none).workItems.rows, Overlooked [] o →
          ∃ e ∈ (board none).workItems.rows, eligible texts e = true ∧ Before e o) ∧
        (∀ m ∈ (board none).workItems.rows, Misread [] texts m →
          ∃ e ∈ (board none).workItems.rows, eligible texts e = true ∧ ¬ Misread [] texts e ∧
            Precedes (board none).workItems.rows e m) ∧
        ((∃ e ∈ (board none).workItems.rows, eligible texts e = true) →
          (board none).StoresMember (.bot [])) :=
  claimNext_agrees_iff .ascii (board none) (board none).workItems.rows 1 [] (.bot [])
    (fun _ hrow => ⟨published none, List.mem_singleton.mp hrow ▸ publishedRow_holds none⟩)
    (.refl _) rfl

/-- The agent can claim the item with the empty role, and `claimNext` returns null. -/
theorem emptyRole_stranded :
    ¬ AgreesWithDomain .ascii (board (some ⟨[], .of_all rfl⟩)) (.bot []) 1
      (sendClaimNext .ascii (board (some ⟨[], .of_all rfl⟩))
        (board (some ⟨[], .of_all rfl⟩)).workItems.rows 1 [] (.bot [])) := by
  rintro ⟨hnone, -⟩
  refine hnone _ List.mem_cons_self ((claimable_iff (publishedRow_holds _)).mpr ⟨rfl, ?_⟩)
  intro role hrole hne
  exact absurd (Option.some.inj hrole).symm hne

end Db

end WorkspaceOs
