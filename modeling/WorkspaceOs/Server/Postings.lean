import Mathlib.Logic.Function.Basic
import WorkspaceOs.Effect.Refinement
import WorkspaceOs.Server.BoardInvariant

/-!
# What the board is for

Items are posted on a board. A posting says what the item is, and never changes; it is open until a
member takes it who has the role for it, and is theirs from then on. What they do with it afterwards
does not show on the board.
-/

namespace WorkspaceOs

open Js Effect Relational

/-- An item as the board shows it. -/
structure Posting where
  title : JsString
  description : Option JsString
  priority : ℤ
  requiredRole : Option JsString
  opened : Bool
  assignee : Option JsString

namespace Posting

def ofRow (row : WorkItemRow) : Posting where
  title := row.title
  description := row.description
  priority := row.priority
  requiredRole := row.requiredRole
  opened := row.state = .opened
  assignee := row.assigneeMemberId

/-- The posting when a member has taken it. -/
def taken (posting : Posting) (member : Member) : Posting :=
  { posting with opened := false, assignee := some member.id }

/-- The member may take the posting. -/
def FreeFor (posting : Posting) (member : Member) : Prop :=
  posting.opened = true ∧
    ∀ role, posting.requiredRole = some role → role ≠ [] → member.hasRole role = true

/-- The posting is one of the item. -/
structure Shows (posting : Posting) (item : WorkItem) : Prop where
  title : item.title = posting.title
  description : item.description = posting.description
  priority : integer? item.priority = some posting.priority
  requiredRole : item.requiredRole = posting.requiredRole
  opened : posting.opened = decide (item.state = .opened)
  assignee : item.assigneeMemberId = posting.assignee

/-- The posting is what is kept of the item: its texts as their columns hold them, and everything
else as it is. -/
structure Keeps (posting : Posting) (item : WorkItem) : Prop where
  title : Column.text item.title = .ok posting.title
  description : Column.optional Column.text item.description = .ok posting.description
  priority : integer? item.priority = some posting.priority
  requiredRole : Column.optional Column.text item.requiredRole = .ok posting.requiredRole
  opened : posting.opened = decide (item.state = .opened)
  assignee : item.assigneeMemberId = posting.assignee

variable {posting posting' : Posting} {item : WorkItem} {row : WorkItemRow} {rt : Runtime}
  {member : Member}

/-- An item has one posting. -/
lemma Shows.unique (h : posting.Shows item) (h' : posting'.Shows item) : posting = posting' := by
  obtain ⟨title, description, priority, requiredRole, opened, assignee⟩ := posting
  obtain ⟨title', description', priority', requiredRole', opened', assignee'⟩ := posting'
  cases h.title.symm.trans h'.title
  cases h.description.symm.trans h'.description
  cases Option.some.inj (h.priority.symm.trans h'.priority)
  cases h.requiredRole.symm.trans h'.requiredRole
  cases h.opened.trans h'.opened.symm
  cases h.assignee.symm.trans h'.assignee
  rfl

/-- What is kept of an item is one posting. -/
lemma Keeps.unique (h : posting.Keeps item) (h' : posting'.Keeps item) : posting = posting' := by
  obtain ⟨title, description, priority, requiredRole, opened, assignee⟩ := posting
  obtain ⟨title', description', priority', requiredRole', opened', assignee'⟩ := posting'
  cases h.title.symm.trans h'.title
  cases h.description.symm.trans h'.description
  cases Option.some.inj (h.priority.symm.trans h'.priority)
  cases h.requiredRole.symm.trans h'.requiredRole
  cases h.opened.trans h'.opened.symm
  cases h.assignee.symm.trans h'.assignee
  rfl

lemma keeps_of_holds (h : row.Holds item) : (ofRow row).Keeps item where
  title := h.title
  description := h.description
  priority := h.priority
  requiredRole := h.requiredRole
  opened := by rw [← h.state]; rfl
  assignee := h.assigneeMemberId.symm

/-- What is read of a row has its posting. -/
lemma shows_of_toWorkItem (h : Db.toWorkItem rt row = .ok item) : (ofRow row).Shows item := by
  obtain ⟨-, htitle, hpriority, hdescription, hrole, hstate, hassignee⟩ := Db.toWorkItem_ok h
  refine ⟨htitle, hdescription, ?_, hrole, ?_, hassignee⟩
  · rw [hpriority, integer?_ofInt row.priority_int32.natAbs_lt]
    rfl
  · rw [hstate]
    rfl

/-- What a row shows is what it keeps. -/
lemma Shows.keeps (h : (ofRow row).Shows item) : (ofRow row).Keeps item where
  title := by
    rw [h.title]
    exact Column.text_eq_ok_iff.mpr row.title_text
  description := by
    rw [h.description]
    exact Column.optional_text_eq_ok_iff.mpr row.description_text
  priority := h.priority
  requiredRole := by
    rw [h.requiredRole]
    exact Column.optional_text_eq_ok_iff.mpr row.requiredRole_text
  opened := h.opened
  assignee := h.assignee

/-- An open item that fits is read back as it was posted. -/
lemma Keeps.standsFor (h : (ofRow row).Keeps item) (hfits : Db.Fits item) (hid : item.id = row.id)
    (hopened : row.state = .opened) : Db.StandsFor item row := by
  have hstate : item.state = .opened :=
    of_decide_eq_true (h.opened.symm.trans (decide_eq_true hopened))
  exact Db.standsFor_of_holds ⟨hid.symm, h.title, h.description, h.priority, h.requiredRole,
    hopened.trans hstate.symm, h.assignee.symm⟩ hfits

/-- The states of a taken item have the same posting. -/
lemma Shows.move {state : WorkItemState} (h : posting.Shows item) (hitem : item.state ≠ .opened)
    (hstate : state ≠ .opened) : posting.Shows { item with state } := by
  refine ⟨h.title, h.description, h.priority, h.requiredRole, ?_, h.assignee⟩
  rw [h.opened, decide_eq_false hitem, decide_eq_false hstate]

lemma Shows.claimed (h : posting.Shows item) : (posting.taken member).Shows
    { item with state := .claimed, assigneeMemberId := some member.id } :=
  ⟨h.title, h.description, h.priority, h.requiredRole, rfl, rfl⟩

end Posting

/-- The postings by the identifiers of their items. -/
abbrev Board := JsString → Option Posting

/-- The board of a world. -/
def World.board (w : World) : Board := fun id => (w.db.workItems.find? id).map Posting.ofRow

namespace Board

/-- What the operations of the server do to a board, and are answered. A save posts a new item,
which is open and nobody's, or keeps what is posted already; the list has the open postings. -/
def call : Semantics ServerOp ServerAns Thrown Board
  | _, .workItemsSave item, board, .ok _, board' =>
    (∃ posting : Posting, posting.Keeps item ∧ posting.opened = true ∧ posting.assignee = none ∧
      board item.id = none ∧ board' = Function.update board item.id (some posting)) ∨
    ∃ posting : Posting, posting.Keeps item ∧ posting.opened = false ∧
      board item.id = some posting ∧ board' = board
  | _, .workItemsClaimNext member, board, .ok (some item), board' =>
    ∃ posting : Posting, board item.id = some posting ∧ posting.FreeFor member ∧
      (posting.taken member).Shows item ∧
      board' = Function.update board item.id (some (posting.taken member))
  | _, .workItemsFindById id, board, .ok row?, board' =>
    row?.map Posting.ofRow = board id ∧ board' = board
  | _, .workItemsListOpen, board, .ok rows, board' => rows.Pairwise Db.Before ∧
      (rows.map WorkItemRow.id).Nodup ∧ (∀ id posting, (∃ row ∈ rows, row.id = id ∧
        Posting.ofRow row = posting) ↔ board id = some posting ∧ posting.opened = true) ∧
      board' = board
  | _, _, board, _, board' => board' = board

/-- What a save keeps to. -/
inductive SavePosts (board : Board) (item : WorkItem) : Prop
  | publication (absent : board item.id = none) (opened : item.state = .opened)
      (unassigned : item.assigneeMemberId = none)
  | progress (posting : Posting) (posted : board item.id = some posting)
      (shows : posting.Shows item) (taken : posting.opened = false)

end Board

section Exec

variable {B : Backend} {i : ℕ} {op : ServerOp} {w w' : World} {a : Except Thrown (ServerAns op)}

lemma board_congr (h : w'.db.workItems = w.db.workItems) : w'.board = w.board := by
  funext id
  rw [World.board, h, World.board]

lemma board_set {row : WorkItemRow} (h : w'.db.workItems = w.db.workItems.set row) :
    w'.board = Function.update w.board row.id (some (.ofRow row)) := by
  funext id
  rw [World.board, h, Table.find?_set, Function.update_apply]
  split_ifs <;> rfl

lemma board_of_find? {id : JsString} {row : WorkItemRow}
    (h : w.db.workItems.find? id = some row) : w.board id = some (.ofRow row) := by
  rw [World.board, h]
  rfl

lemma call_of_save {item : WorkItem} (hsave : w.board.SavePosts item)
    (h : exec B i (.workItemsSave item) w (.ok ()) w') :
    Board.call i (.workItemsSave item) w.board (.ok ()) w'.board := by
  obtain ⟨row, hset, hholds⟩ := exec_workItemsSave_row h
  have hkeeps := Posting.keeps_of_holds hholds
  have hboard := board_set hset
  rw [hholds.id] at hboard
  cases hsave with
  | publication absent opened unassigned =>
    refine .inl ⟨.ofRow row, hkeeps, ?_, hkeeps.assignee.symm.trans unassigned, absent, hboard⟩
    rw [hkeeps.opened, decide_eq_true opened]
  | progress posting posted shows taken =>
    obtain ⟨old, -, rfl⟩ := Option.map_eq_some_iff.mp posted
    have hsame := shows.keeps.unique hkeeps
    refine .inr ⟨_, hkeeps, hsame ▸ taken, hsame ▸ posted, ?_⟩
    rw [hboard, Function.update_eq_self_iff, posted, hsame]

lemma call_of_claim {member : Member} {claimed : WorkItem}
    (h : exec B i (.workItemsClaimNext member) w (.ok (some claimed)) w') :
    Board.call i (.workItemsClaimNext member) w.board (.ok (some claimed)) w'.board := by
  obtain ⟨row, item, now, hfind, hitem, hcan, rfl, hset, -⟩ := exec_workItemsClaimNext_row h
  have hshows := Posting.shows_of_toWorkItem hitem
  obtain ⟨hopened, hrole⟩ := WorkItem.canBeClaimedBy_iff.mp hcan
  have hid : item.id = row.id := (Db.toWorkItem_ok hitem).1
  refine ⟨.ofRow row, ?_, ⟨?_, ?_⟩, hshows.claimed, ?_⟩
  · exact board_of_find? (hid ▸ hfind)
  · rw [hshows.opened, decide_eq_true hopened]
  · rw [← hshows.requiredRole]
    exact WorkItem.not_lacksRole_iff.mp hrole
  · rw [board_set hset]
    exact congrArg (fun id => Function.update w.board id _) hid.symm

lemma call_of_list {rows : List WorkItemRow} (h : exec B i .workItemsListOpen w (.ok rows) w') :
    Board.call i .workItemsListOpen w.board (.ok rows) w'.board := by
  obtain ⟨hsorted, hperm, rfl⟩ := exec_workItemsListOpen h
  refine ⟨hsorted, ?_, fun id posting => ?_, rfl⟩
  · rw [(hperm.map _).nodup_iff]
    exact w'.db.workItems.keyed.sublist (List.filter_sublist.map _)
  · simp only [hperm.mem_iff, List.mem_filter, decide_eq_true_eq]
    constructor
    · rintro ⟨row, ⟨hrow, hopened⟩, rfl, rfl⟩
      exact ⟨board_of_find? (Table.find?_key hrow), decide_eq_true hopened⟩
    · rintro ⟨hposted, hopened⟩
      obtain ⟨row, hfind, rfl⟩ := Option.map_eq_some_iff.mp hposted
      exact ⟨row, ⟨Table.mem_of_find? hfind, of_decide_eq_true hopened⟩,
        Table.key_of_find? hfind, rfl⟩

/-- Where saves keep to the board, every operation does to it what it is for. -/
lemma call_of_exec (hsave : ∀ item, op = .workItemsSave item → w.board.SavePosts item)
    (h : exec B i op w a w') : Board.call i op w.board a w'.board := by
  cases a with
  | error e =>
    rw [exec_error h]
    cases op <;> rfl
  | ok a =>
    cases op with
    | workItemsSave item => exact call_of_save (hsave item rfl) h
    | workItemsClaimNext member =>
      cases a with
      | none => exact board_congr (by rw [exec_workItemsClaimNext_none h])
      | some claimed => exact call_of_claim h
    | workItemsFindById id =>
      obtain ⟨rfl, rfl⟩ := exec_workItemsFindById h
      exact ⟨rfl, rfl⟩
    | workItemsListOpen => exact call_of_list h
    | _ => exact board_congr ((exec_framed h).workItems (by simp [ServerOp.table]))

end Exec

/-! ### What a run tells of the board -/

/-- The item that a label posts. -/
def posted? : ServerLabel → Option WorkItem
  | ⟨_, .workItemsSave item, .ok _⟩ => if item.state = .opened then some item else none
  | _ => none

/-- The items that a run has posted, in order. -/
def posted (history : List ServerLabel) : List WorkItem := history.filterMap posted?

lemma op_of_posted? {i : ℕ} {op : ServerOp} {a : Except Thrown (ServerAns op)} {item : WorkItem}
    (h : posted? ⟨i, op, a⟩ = some item) : op = .workItemsSave item := by
  cases op with
  | workItemsSave saved =>
    cases a with
    | error => cases h
    | ok =>
      simp only [posted?] at h
      split_ifs at h
      rw [Option.some.inj h]
  | _ => cases a <;> cases h

/-- The item was claimed. -/
def IsClaimed (history : List ServerLabel) (id : JsString) : Prop :=
  ∃ claim ∈ claims history, claim.2.id = id

namespace Board

variable {i : ℕ} {op : ServerOp} {a : Except Thrown (ServerAns op)} {board₀ board board' : Board}
  {history : List ServerLabel} {id : JsString} {posting : Posting}

/-- How an operation changes a board. -/
inductive Changes (board : Board) (l : ServerLabel) : Board → Prop
  | posts (item : WorkItem) (posting : Posting) (label : posted? l = some item)
      (unclaimed : claim? l = none) (keeps : posting.Keeps item) (opened : posting.opened = true)
      (absent : board item.id = none) :
      Changes board l (Function.update board item.id (some posting))
  | claims (claim : Member × WorkItem) (posting : Posting) (unposted : posted? l = none)
      (label : claim? l = some claim) (found : board claim.2.id = some posting)
      (opened : posting.opened = true) :
      Changes board l (Function.update board claim.2.id (some (posting.taken claim.1)))
  | nothing (unposted : posted? l = none) (unclaimed : claim? l = none) : Changes board l board

lemma changes_of_call (h : Board.call i op board a board') : Changes board ⟨i, op, a⟩ board' := by
  cases a with
  | error e =>
    cases op <;> cases h <;> exact .nothing rfl rfl
  | ok a =>
    cases op with
    | workItemsSave item =>
      rcases h with ⟨posting, keeps, opened, -, absent, rfl⟩ | ⟨posting, keeps, taken, -, rfl⟩
      · refine .posts item posting (if_pos ?_) rfl keeps opened absent
        rwa [keeps.opened, decide_eq_true_eq] at opened
      · refine .nothing (if_neg ?_) rfl
        rwa [keeps.opened, decide_eq_false_iff_not] at taken
    | workItemsClaimNext member =>
      cases a with
      | none =>
        cases h
        exact .nothing rfl rfl
      | some item =>
        obtain ⟨posting, found, hfree, -, rfl⟩ := h
        exact .claims (member, item) posting rfl rfl found hfree.1
    | workItemsFindById id =>
      obtain ⟨-, rfl⟩ := h
      exact .nothing rfl rfl
    | workItemsListOpen =>
      obtain ⟨-, -, -, rfl⟩ := h
      exact .nothing rfl rfl
    | _ =>
      cases h
      exact .nothing rfl rfl

/-- What is taken stays as it is. -/
lemma Changes.kept {l : ServerLabel} (h : Changes board l board')
    (hposted : board id = some posting)
    (htaken : posting.opened = false) : board' id = some posting := by
  cases h with
  | posts item _ _ _ _ _ absent =>
    rw [Function.update_of_ne, hposted]
    rintro rfl
    rw [absent] at hposted
    cases hposted
  | claims claim _ _ _ found opened =>
    rw [Function.update_of_ne, hposted]
    rintro rfl
    rw [found] at hposted
    cases hposted
    rw [opened] at htaken
    cases htaken
  | nothing => exact hposted

/-- The board is what a run from another board tells of it. -/
structure Told (board₀ : Board) (history : List ServerLabel) (board : Board) : Prop where
  opened : ∀ id posting, board id = some posting → posting.opened = true →
    (board₀ id = some posting ∨ ∃ item ∈ posted history, item.id = id ∧ posting.Keeps item) ∧
      ¬ IsClaimed history id
  old : ∀ id posting, board₀ id = some posting →
    ∃ posting', board id = some posting' ∧ (posting' = posting ∨ IsClaimed history id)
  posted : ∀ item ∈ posted history,
    ∃ posting, board item.id = some posting ∧ (posting.Keeps item ∨ IsClaimed history item.id)
  claimed : ∀ id, IsClaimed history id → ∃ posting, board id = some posting ∧ posting.opened = false

lemma posted_concat (l : ServerLabel) :
    WorkspaceOs.posted (history ++ [l]) = WorkspaceOs.posted history ++ (posted? l).toList :=
  filterMap_concat ..

lemma isClaimed_concat {l : ServerLabel} : IsClaimed (history ++ [l]) id ↔
    IsClaimed history id ∨ ∃ claim, claim? l = some claim ∧ claim.2.id = id := by
  have hclaims : WorkspaceOs.claims (history ++ [l]) =
      WorkspaceOs.claims history ++ (claim? l).toList := filterMap_concat ..
  simp only [IsClaimed, hclaims, List.mem_append, Option.mem_toList, or_and_right, exists_or]

lemma Told.posts {l : ServerLabel} {item : WorkItem} (htold : Told board₀ history board)
    (hlabel : posted? l = some item) (hunclaimed : claim? l = none) (hkeeps : posting.Keeps item)
    (habsent : board item.id = none) :
    Told board₀ (history ++ [l]) (Function.update board item.id (some posting)) := by
  have hposted : WorkspaceOs.posted (history ++ [l]) = WorkspaceOs.posted history ++ [item] := by
    rw [posted_concat, hlabel, Option.toList_some]
  have hclaimed {id : JsString} : IsClaimed (history ++ [l]) id ↔ IsClaimed history id := by
    simp [isClaimed_concat, hunclaimed]
  -- what is on the board already is another item
  have hother {id : JsString} {posting' : Posting} (h : board id = some posting') :
      Function.update board item.id (some posting) id = some posting' := by
    rw [Function.update_of_ne, h]
    rintro rfl
    rw [habsent] at h
    cases h
  constructor
  case opened =>
    intro id posting' hposting' hopened
    rw [hposted, hclaimed]
    rw [Function.update_apply] at hposting'
    split_ifs at hposting' with hid
    · cases hposting'
      refine ⟨.inr
        ⟨item, List.mem_append_right _ (List.mem_singleton_self _), hid.symm, hkeeps⟩, ?_⟩
      intro hclaim
      obtain ⟨_, hfound, -⟩ := htold.claimed id hclaim
      rw [hid, habsent] at hfound
      cases hfound
    · obtain ⟨hsource, hfree⟩ := htold.opened id posting' hposting' hopened
      refine ⟨hsource.imp_right ?_, hfree⟩
      rintro ⟨item', hitem', hsame⟩
      exact ⟨item', List.mem_append_left _ hitem', hsame⟩
  case old =>
    intro id posting' hposting'
    obtain ⟨posting'', hfound, hsame⟩ := htold.old id posting' hposting'
    exact ⟨posting'', hother hfound, hsame.imp_right hclaimed.mpr⟩
  case posted =>
    intro item' hitem'
    rw [hposted, List.mem_append, List.mem_singleton] at hitem'
    rcases hitem' with hitem' | rfl
    · obtain ⟨posting'', hfound, hsame⟩ := htold.posted item' hitem'
      exact ⟨posting'', hother hfound, hsame.imp_right hclaimed.mpr⟩
    · exact ⟨posting, Function.update_self .., .inl hkeeps⟩
  case claimed =>
    intro id hclaim
    obtain ⟨posting'', hfound, htaken⟩ := htold.claimed id (hclaimed.mp hclaim)
    exact ⟨posting'', hother hfound, htaken⟩

lemma Told.claims {l : ServerLabel} {claim : Member × WorkItem} (htold : Told board₀ history board)
    (hunposted : posted? l = none) (hlabel : claim? l = some claim) : Told board₀ (history ++ [l])
      (Function.update board claim.2.id (some (posting.taken claim.1))) := by
  have hposted : WorkspaceOs.posted (history ++ [l]) = WorkspaceOs.posted history := by
    rw [posted_concat, hunposted, Option.toList_none, List.append_nil]
  have hclaimed {id : JsString} : IsClaimed (history ++ [l]) id ↔
      IsClaimed history id ∨ claim.2.id = id := by
    simp [isClaimed_concat, hlabel]
  -- an item that was on the board is on it still, or is the one that is claimed
  have hkept {id : JsString} {P : Posting → Prop}
      (h : ∃ posting', board id = some posting' ∧ (P posting' ∨ IsClaimed history id)) :
      ∃ posting', Function.update board claim.2.id (some (posting.taken claim.1)) id =
        some posting' ∧ (P posting' ∨ IsClaimed (history ++ [l]) id) := by
    obtain ⟨posting', hposting', hsame⟩ := h
    by_cases hid : id = claim.2.id
    · subst hid
      exact ⟨_, Function.update_self .., .inr (hclaimed.mpr (.inr rfl))⟩
    · rw [Function.update_of_ne hid]
      exact ⟨posting', hposting', hsame.imp_right fun h => hclaimed.mpr (.inl h)⟩
  constructor
  case opened =>
    intro id posting' hposting' hopened
    rw [hposted, hclaimed]
    rw [Function.update_apply] at hposting'
    split_ifs at hposting' with hid
    · cases hposting'
      cases hopened
    · obtain ⟨hsource, hfree⟩ := htold.opened id posting' hposting' hopened
      exact ⟨hsource, not_or.mpr ⟨hfree, Ne.symm hid⟩⟩
  case old => exact fun id posting' hposting' => hkept (htold.old id posting' hposting')
  case posted =>
    intro item hitem
    rw [hposted] at hitem
    exact hkept (htold.posted item hitem)
  case claimed =>
    intro id hclaim
    rw [Function.update_apply]
    split_ifs with hid
    · exact ⟨_, rfl, rfl⟩
    · exact htold.claimed id ((hclaimed.mp hclaim).resolve_right (Ne.symm hid))

lemma Told.step {l : ServerLabel} (htold : Told board₀ history board) (h : Changes board l board') :
    Told board₀ (history ++ [l]) board' := by
  cases h with
  | posts item posting label unclaimed keeps _ absent =>
    exact htold.posts label unclaimed keeps absent
  | claims claim posting unposted label => exact htold.claims unposted label
  | nothing unposted unclaimed =>
    have hposted : WorkspaceOs.posted (history ++ [l]) = WorkspaceOs.posted history := by
      rw [posted_concat, unposted, Option.toList_none, List.append_nil]
    have hclaimed : IsClaimed (history ++ [l]) = IsClaimed history := by
      funext id
      simp [isClaimed_concat, unclaimed]
    exact ⟨by rw [hposted, hclaimed]; exact htold.opened, by rw [hclaimed]; exact htold.old,
      by rw [hposted, hclaimed]; exact htold.posted, by rw [hclaimed]; exact htold.claimed⟩

lemma told_of_trace (trace : Trace Board.call board₀ history board) :
    Told board₀ history board := by
  refine trace.invariant_of_any (P := fun history board => Told board₀ history board) ?_
    fun history board i op a board' htold step => htold.step (changes_of_call step)
  refine ⟨fun id posting hposted _ => ⟨.inl hposted, ?_⟩, fun id posting h =>
    ⟨posting, h, .inl rfl⟩,
    fun item h => ?_, ?_⟩
  · rintro ⟨claim, hclaim, -⟩
    cases hclaim
  · cases h
  · rintro id ⟨claim, hclaim, -⟩
    cases hclaim

/-- An item is open exactly when it was so from the beginning, or was posted, and nobody claimed
it. -/
lemma Told.opened_iff (htold : Told board₀ history board) (hopened : posting.opened = true) :
    board id = some posting ↔
      (board₀ id = some posting ∨ ∃ item ∈ WorkspaceOs.posted history, item.id = id ∧
        posting.Keeps item) ∧ ¬ IsClaimed history id := by
  constructor
  · exact fun hposted => htold.opened id posting hposted hopened
  · rintro ⟨hold | ⟨item, hitem, rfl, hkeeps⟩, hunclaimed⟩
    · obtain ⟨posting', hposted, hsame⟩ := htold.old id posting hold
      rw [hposted, hsame.resolve_right hunclaimed]
    · obtain ⟨posting', hposted, hsame⟩ := htold.posted item hitem
      rw [hposted, (hsame.resolve_right hunclaimed).unique hkeeps]

end Board

end WorkspaceOs
