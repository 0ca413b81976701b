import WorkspaceOs.Server.ExactlyOnce
import WorkspaceOs.Server.Postings

/-!
# The server keeps the board

However the requests of clients and the turns of agents interleave, and whatever fails, they work on
the board as it is meant: what was posted is shown as it was posted, to everybody, until somebody
takes it.
-/

namespace WorkspaceOs

open Js Effect Relational

/-- What the programs keep to: a save shows what is on the board, or posts an item of their own. -/
def postingPre (i : ℕ) (op : ServerOp) (s : RecordedWorld) : Prop :=
  match op with
  | .workItemsSave item => s.1.board.SavePosts item ∧
      (s.1.board item.id = none → ∃ uuid, Drew s.2 i uuid ∧ item.id = "w_" ++ uuid)
  | _ => True

/-- The discipline of postings. -/
def postingDiscipline (B : Backend) : Discipline (recorded (exec B)) where
  inv := DrawnInv
  pre := postingPre
  keeps hinv _ h := hinv.step h

section Safe

variable {B : Backend} {i : ℕ} {server : Server} {request : HttpRequest} {s : RecordedWorld}

/-- A step that is admitted does to the board what it is for. -/
lemma call_of_postingPre {op : ServerOp} {a : Except Thrown (ServerAns op)} {s' : RecordedWorld}
    (hpre : postingPre i op s) (h : recorded (exec B) i op s a s') :
    Board.call i op s.1.board a s'.1.board := by
  refine call_of_exec ?_ h.1
  rintro item rfl
  exact hpre.1

lemma taken_lasting (id : JsString) (posting : Posting) : (postingDiscipline B).Lasting
    fun s => s.1.board id = some posting ∧ posting.opened = false := by
  rintro j op s a s' - hpre h ⟨hposted, htaken⟩
  exact ⟨(Board.changes_of_call (call_of_postingPre hpre h)).kept hposted htaken, htaken⟩

/-- An identifier that program `i` drew, and under which nothing is posted, is its own. -/
lemma unposted_stable (uuid : JsString) : (postingDiscipline B).Stable i fun s =>
    Drew s.2 i uuid ∧ s.1.board ("w_" ++ uuid) = none := by
  rintro s s' ⟨hdrew, habsent⟩ ⟨j, op, a, hne, hinv, hpre, h⟩
  refine ⟨hdrew.step h, ?_⟩
  have hchanges := Board.changes_of_call (call_of_postingPre hpre h)
  generalize s'.1.board = board at hchanges ⊢
  cases hchanges with
  | posts item posting label _ _ _ absent =>
    rw [Function.update_of_ne, habsent]
    rintro hid
    obtain rfl : op = .workItemsSave item := op_of_posted? label
    obtain ⟨uuid', hdrew', hid'⟩ := hpre.2 absent
    rw [← hid] at hid'
    cases List.append_cancel_left hid'
    exact hne (hinv.drawn_once j i _ hdrew' hdrew)
  | claims claim _ _ _ found =>
    rw [Function.update_of_ne, habsent]
    rintro hid
    rw [← hid, habsent] at found
    cases found
  | nothing => exact habsent

lemma postingPre_of_table {op : ServerOp} (hop : op.table ≠ some .workItems) (s : RecordedWorld) :
    postingPre i op s := by
  cases op with
  | workItemsSave => exact absurd rfl hop
  | _ => trivial

/-- Whatever stays off the items is safe. -/
lemma safe_offItems {α : Type} {p : ServerProg α}
    (hp : p.All fun op => op.table ≠ some .workItems) :
    (postingDiscipline B).Safe i AnyEnd p s :=
  .of_all (fun _ hop s _ => postingPre_of_table hop s) hp (fun _ _ => trivial) s

lemma record_offItems (input : RecordActivityInput) :
    (DrizzleActivityLog.record input).All fun op => op.table ≠ some .workItems := by
  refine .tryCatch (.perform (by simp [ServerOp.table])) fun e => ?_
  split_ifs <;> exact .throw _

lemma safe_throws {α : Type} (e : Thrown) :
    (postingDiscipline B).Safe i AnyEnd (.throw e : ServerProg α) s := safe_offItems (.throw e)

lemma safe_records {member : Member} {action : JsString} {item : WorkItem} (reply : Reply) :
    (postingDiscipline B).Safe i AnyEnd
      (do recordWork member action item
          return reply) s :=
  safe_offItems (.bind (record_offItems _) fun _ => .ret _)

/-- A handler that is safe for every member is safe behind authentication. -/
lemma safe_members {Q : Except Thrown Reply → RecordedWorld → Prop}
    {handler : Member → ServerProg Reply}
    (h : ∀ member s, (postingDiscipline B).Safe i Q (handler member) s)
    (hreply : ∀ s, (postingDiscipline B).Safe i Q (.ret (.error 401 "unauthenticated")) s)
    (hthrow : ∀ e s, (postingDiscipline B).Safe i Q (.throw e) s) :
    (postingDiscipline B).Safe i Q (withCurrentMember server request handler) s :=
  safe_withCurrentMember (Discipline.Stable.const True)
    (fun _ hop s _ _ => postingPre_of_table hop.readOnly.offBoard.1 s)
      (fun _ _ _ _ _ _ _ _ => trivial)
    (fun member s _ _ => h member s) (fun s _ => hreply s) (fun e s _ => hthrow e s) trivial

/-- A method of the lifecycle changes the state of an item that is taken, and nothing else. -/
def MovesTaken (apply : WorkItem → Except Thrown WorkItem) : Prop :=
  ∀ item next, apply item = .ok next → item.state ≠ .opened ∧
    ∃ state, state ≠ .opened ∧ next = { item with state }

lemma start_movesTaken : MovesTaken WorkItem.start := by
  intro item next h
  obtain ⟨hstate, rfl⟩ := WorkItem.start_eq_ok_iff.mp h
  exact ⟨by simp [hstate], .inProgress, by simp, rfl⟩

lemma complete_movesTaken : MovesTaken WorkItem.complete := by
  intro item next h
  obtain ⟨hstate, rfl⟩ := WorkItem.complete_eq_ok_iff.mp h
  exact ⟨by simp [hstate], .done, by simp, rfl⟩

/-- An item that shows a taken posting may be saved. -/
lemma postingPre_of_taken {item : WorkItem} {posting : Posting} (hshows : posting.Shows item)
    (h : s.1.board item.id = some posting ∧ posting.opened = false) :
    postingPre i (.workItemsSave item) s := by
  refine ⟨.progress posting h.1 hshows h.2, fun habsent => ?_⟩
  rw [h.1] at habsent
  cases habsent

variable {id action : JsString} {apply : WorkItem → Except Thrown WorkItem}

/-- The item that was read is taken, and shown so until it is written. -/
lemma safe_movesTaken (happly : MovesTaken apply) : (postingDiscipline B).Safe i AnyEnd
    (transition server request id action apply) s := by
  refine safe_members (fun member s => ?_) (fun _ => safe_offItems (.ret _)) fun e _ =>
    safe_throws e
  rw [DrizzleWorkItemRepository.findById_bind]
  refine .perform_bind (fun _ => True) (.const _) trivial (fun _ _ _ => trivial)
    (fun t row? t' _ _ h => ?_) fun _ e _ _ _ _ => safe_throws e
  obtain ⟨hrow, ht⟩ := exec_workItemsFindById h.1
  cases row? with
  | none => exact safe_offItems (.ret _)
  | some row =>
    dsimp only
    cases hitem : Db.toWorkItem server.rt row with
    | error e => exact safe_throws e
    | ok item =>
      dsimp only
      split_ifs
      · exact safe_offItems (.ret _)
      cases hnext : apply item with
      | error e =>
        cases e with
        | workItemTransition message => exact safe_offItems (.ret _)
        | _ => exact safe_throws _
      | ok next =>
        obtain ⟨hstate, state, hmoved, rfl⟩ := happly item next hnext
        have hshows := Posting.shows_of_toWorkItem hitem
        have hid : item.id = id :=
          (Db.toWorkItem_ok hitem).1.trans (Table.key_of_find? hrow.symm)
        have htaken : t'.1.board item.id = some (.ofRow row) ∧
            (Posting.ofRow row).opened = false := by
          constructor
          · exact board_of_find? (by rw [hid, ht]; exact hrow.symm)
          · rw [hshows.opened, decide_eq_false hstate]
        exact .perform_bind _ (taken_lasting _ _).stable htaken
          (fun u _ hu => postingPre_of_taken (hshows.move hstate hmoved) hu)
          (fun _ _ _ _ _ _ => safe_records _) fun _ e _ _ _ _ => safe_throws e

lemma safe_posts : (postingDiscipline B).Safe i AnyEnd (publish server request) s := by
  refine safe_members (fun member s => ?_) (fun _ => safe_offItems (.ret _)) fun e _ =>
    safe_throws e
  dsimp only
  cases nonEmptyString? ((Json.orEmpty request.body).prop? "title") with
  | none => exact safe_offItems (.ret _)
  | some title =>
    refine .perform_bind (fun _ => True) (.const _) trivial (fun _ _ _ => trivial)
      (fun t uuid t' _ _ h => ?_) fun _ e _ _ _ _ => safe_throws e
    obtain ⟨hfresh, ht⟩ := exec_randomUUID h.1
    cases hitem : WorkItem.create server.rt
      { id := "w_" ++ uuid, title, description := stringOrNull (Json.orEmpty request.body)
          "description", priority := priorityOrZero (Json.orEmpty request.body),
        requiredRole := stringOrNull (Json.orEmpty request.body) "requiredRole" } with
    | error e => exact safe_throws e
    | ok item =>
      obtain ⟨hid, -, -, -, -, hstate, hassignee⟩ := WorkItem.create_ok hitem
      have hown : Drew t'.2 i uuid ∧ t'.1.board ("w_" ++ uuid) = none := by
        refine ⟨mem_of_recorded h, ?_⟩
        rw [World.board, ht, hfresh.workItem]
        rfl
      refine .perform_bind _ (unposted_stable uuid) hown (fun u _ hu => ⟨?_, fun _ => ?_⟩)
        (fun _ _ _ _ _ _ => safe_records _) fun _ e _ _ _ _ => safe_throws e
      · exact .publication (hid ▸ hu.2) hstate hassignee
      · exact ⟨uuid, hu.1, hid⟩

lemma safe_takes : (postingDiscipline B).Safe i AnyEnd (claimNext server request) s := by
  refine safe_members (fun member s => ?_) (fun _ => safe_offItems (.ret _)) fun e _ =>
    safe_throws e
  refine .perform_bind (fun _ => True) (.const _) trivial (fun _ _ _ => trivial)
    (fun t claimed? t' _ _ _ => ?_) fun _ e _ _ _ _ => safe_throws e
  cases claimed? with
  | none => exact safe_offItems (.ret _)
  | some claimed => exact safe_records _

/-- What a list is answered with is what its operation has read. -/
def ListTold (server : Server) (i : ℕ) (history : List ServerLabel)
    (r : Except Thrown Reply) : Prop :=
  ∀ items, r = .ok ⟨200, .workItems items⟩ → ∃ rows, ⟨i, .workItemsListOpen, .ok rows⟩ ∈ history ∧
    rows.mapM (Db.toWorkItem server.rt) = .ok items

lemma ListTold.mono {history history' : List ServerLabel} {r : Except Thrown Reply}
    (h : ListTold server i history r) (hle : history ⊆ history') :
    ListTold server i history' r := by
  intro items hr
  obtain ⟨rows, hlisted, hread⟩ := h items hr
  exact ⟨rows, hle hlisted, hread⟩

lemma listTold_stable (r : Except Thrown Reply) :
    (postingDiscipline B).Stable i fun s => ListTold server i s.2 r :=
  (Discipline.history_lasting ListTold.mono).stable

lemma safe_lists : (postingDiscipline B).Safe i (fun r s => ListTold server i s.2 r)
    (listWorkItems server request) s := by
  have hthrow (e : Thrown) (s : RecordedWorld) : (postingDiscipline B).Safe i
      (fun r s => ListTold server i s.2 r) (.throw e : ServerProg Reply) s :=
    .throw (listTold_stable _) fun _ h => by cases h
  refine safe_members (fun member s => ?_) (fun s => .ret (listTold_stable _) ?_) hthrow
  · simp only [DrizzleWorkItemRepository.listOpen, bind_assoc]
    refine .perform_bind (fun _ => True) (.const _) trivial (fun _ _ _ => trivial)
      (fun t rows t' _ _ h => ?_) fun _ e _ _ _ _ => hthrow e _
    cases hread : rows.mapM (Db.toWorkItem server.rt) with
    | error e => exact hthrow e _
    | ok items =>
      refine .ret (listTold_stable _) ?_
      rintro _ ⟨⟩
      exact ⟨rows, mem_of_recorded h, hread⟩
  · rintro _ ⟨⟩

/-- Every request keeps to the board. -/
lemma safe_request_postings (request : HttpRequest) (s : RecordedWorld) :
    (postingDiscipline B).Safe i
      (fun r s => request.route = .listWorkItems → ListTold server i s.2 r)
      (handle server request) s := by
  have hany {p : ServerProg Reply} (hroute : request.route ≠ .listWorkItems)
      (h : (postingDiscipline B).Safe i AnyEnd p s) : (postingDiscipline B).Safe i
        (fun r s => request.route = .listWorkItems → ListTold server i s.2 r) p s :=
    h.mono fun _ _ _ h => absurd h hroute
  by_cases hroute : request.route ≠ .publish ∧ request.route ≠ .claimNext ∧
      ∀ id, request.route ≠ .start id ∧ request.route ≠ .complete id
  · by_cases hlist : request.route = .listWorkItems
    · simp only [handle, hlist]
      exact safe_lists.mono fun _ _ h _ => h
    · exact hany hlist (safe_offItems ((handle_offBoard server request hroute).mono fun _ h => h.1))
  · simp only [not_and_or, not_not, not_forall] at hroute
    rcases hroute with hr | hr | ⟨id, hr⟩
    · exact hany (by simp [hr]) (by simpa only [handle, hr] using safe_posts)
    · exact hany (by simp [hr]) (by simpa only [handle, hr] using safe_takes)
    · rcases hr with hr | hr
      · exact hany (by simp [hr])
          (by simpa only [handle, hr] using safe_movesTaken start_movesTaken)
      · exact hany (by simp [hr])
          (by simpa only [handle, hr] using safe_movesTaken complete_movesTaken)

/-- A turn of a runner keeps to the board: the item that it saves is the one that it has taken. -/
lemma safe_turn (deps : AgentRunnerDeps) (s : RecordedWorld) :
    (postingDiscipline B).Safe i AnyEnd (AgentRunner.runOnce deps) s := by
  refine .perform_bind (fun _ => True) (.const _) trivial (fun _ _ _ => trivial)
    (fun t claimed? t' _ _ h => ?_) fun _ e _ _ _ _ => safe_throws e
  cases claimed? with
  | none => exact safe_offItems (.ret _)
  | some claimed =>
    obtain ⟨posting, -, -, hshows, hboard⟩ := call_of_claim h.1
    obtain ⟨-, hstate, -⟩ := claim_spec h.1
    have htaken : t'.1.board claimed.id = some (posting.taken deps.agent) ∧
        (posting.taken deps.agent).opened = false := by
      rw [hboard, Function.update_self]
      exact ⟨rfl, rfl⟩
    -- from here to the save the runner relies on nothing but that the item stays taken
    refine ((safe_offItems (record_offItems _)).lasting (taken_lasting _ _) htaken).bind
      (fun _ u hu => ?_) fun e _ _ => safe_throws e
    refine .perform_bind _ (taken_lasting _ _).stable hu.2 (fun _ _ _ => trivial)
      (fun v content v' hinv hv h => ?_) fun _ e _ _ _ _ => safe_throws e
    rw [start_complete hstate]
    have htaken := taken_lasting (B := B) _ _ _ (.complete _) _ _ _ hinv trivial h hv
    refine .perform_bind _ (taken_lasting _ _).stable htaken (fun x _ hx => ?_)
      (fun _ _ _ _ _ _ => ?_) fun _ e _ _ _ _ => safe_throws e
    · exact postingPre_of_taken (hshows.move (by simp [hstate]) (by simp)) hx
    · exact safe_offItems (.bind (record_offItems _) fun _ => .ret _)

end Safe

/-! ### Lists -/

section Lists

variable {server : Server} {w : World} {board : Board} {history : List ServerLabel} {i : ℕ}
  {rows : List WorkItemRow} {items : List WorkItem}

/-- The items are those that are open where a history has led to, with what is kept of what was
posted, in the order of their priorities. -/
structure ListsAsTold (w : World) (history : List ServerLabel) (items : List WorkItem) : Prop where
  opened : ∀ item ∈ items, item.state = .opened
  distinct : (items.map WorkItem.id).Nodup
  ordered : items.Pairwise fun item item' => ∀ priority priority',
    integer? item.priority = some priority → integer? item'.priority = some priority' →
      priority' ≤ priority
  listed : ∀ (id : JsString) (posting : Posting), posting.opened = true →
    ((∃ item ∈ items, item.id = id ∧ posting.Shows item) ↔
      (w.board id = some posting ∨ ∃ item ∈ posted history, item.id = id ∧ posting.Keeps item) ∧
        ¬ IsClaimed history id)
  /-- Where its texts are texts, nothing is lost of what was posted. -/
  unaltered : ∀ item ∈ items, ∀ item' ∈ posted history, item'.id = item.id → Db.Fits item' →
    item = item'

/-- A row and the item it is read as. -/
def ReadAs (server : Server) (row : WorkItemRow) (item : WorkItem) : Prop :=
  Db.toWorkItem server.rt row = .ok item

lemma forall₂_of_mapM (h : rows.mapM (Db.toWorkItem server.rt) = .ok items) :
    List.Forall₂ (ReadAs server) rows items := by
  induction rows generalizing items with
  | nil =>
    cases h
    exact .nil
  | cons row rows ih =>
    rw [List.mapM_cons] at h
    cases hread : Db.toWorkItem server.rt row with
    | error e =>
      rw [hread] at h
      cases h
    | ok item =>
      rw [hread] at h
      cases hrest : rows.mapM (Db.toWorkItem server.rt) with
      | error e =>
        rw [hrest] at h
        cases h
      | ok rest =>
        rw [hrest] at h
        cases h
        exact .cons hread (ih hrest)

lemma ReadAs.id {row : WorkItemRow} {item : WorkItem} (h : ReadAs server row item) :
    item.id = row.id := (Db.toWorkItem_ok h).1

lemma ReadAs.priority {row : WorkItemRow} {item : WorkItem} {priority : ℤ}
    (h : ReadAs server row item) (hpriority : integer? item.priority = some priority) :
    row.priority = priority := by
  rw [(Posting.shows_of_toWorkItem h).priority] at hpriority
  exact Option.some.inj hpriority

lemma ids_of_forall₂ (h : List.Forall₂ (ReadAs server) rows items) :
    items.map WorkItem.id = rows.map WorkItemRow.id := by
  induction h with
  | nil => rfl
  | cons hread _ ih => rw [List.map_cons, List.map_cons, ih, hread.id]

lemma exists_of_forall₂ {α β : Type} {R : α → β → Prop} {as : List α} {bs : List β} {b : β}
    (h : List.Forall₂ R as bs) (hb : b ∈ bs) : ∃ a ∈ as, R a b := by
  induction h with
  | nil => cases hb
  | cons hab _ ih =>
    rcases List.mem_cons.mp hb with rfl | hb
    · exact ⟨_, List.mem_cons_self, hab⟩
    · obtain ⟨a, ha, hab⟩ := ih hb
      exact ⟨a, List.mem_cons_of_mem _ ha, hab⟩

lemma ordered_of_forall₂ (h : List.Forall₂ (ReadAs server) rows items)
    (hsorted : rows.Pairwise Db.Before) : items.Pairwise fun item item' => ∀ priority priority',
      integer? item.priority = some priority → integer? item'.priority = some priority' →
        priority' ≤ priority := by
  induction h with
  | nil => exact .nil
  | cons hread hrest ih =>
    obtain ⟨hfirst, hsorted⟩ := List.pairwise_cons.mp hsorted
    refine .cons (fun item' hitem' priority priority' hp hp' => ?_) (ih hsorted)
    obtain ⟨row', hrow', hread'⟩ := exists_of_forall₂ hrest hitem'
    rw [← hread.priority hp, ← hread'.priority hp']
    rcases hfirst row' hrow' with hbefore | ⟨hsame, -⟩
    · exact hbefore.le
    · exact hsame.ge

lemma lists_as_told (trace : Trace Board.call w.board history board)
    (hlist : Board.call i .workItemsListOpen board (.ok rows) board)
    (hread : rows.mapM (Db.toWorkItem server.rt) = .ok items) : ListsAsTold w history items := by
  obtain ⟨hsorted, hdistinct, hopen, -⟩ := hlist
  have hread := forall₂_of_mapM hread
  have htold := Board.told_of_trace trace
  constructor
  case opened =>
    intro item hitem
    obtain ⟨row, hrow, hitem⟩ := exists_of_forall₂ hread hitem
    obtain ⟨-, hopened⟩ := (hopen row.id _).mp ⟨row, hrow, rfl, rfl⟩
    rwa [(Posting.shows_of_toWorkItem hitem).opened, decide_eq_true_eq] at hopened
  case distinct =>
    rw [ids_of_forall₂ hread]
    exact hdistinct
  case ordered => exact ordered_of_forall₂ hread hsorted
  case listed =>
    intro id posting hopened
    rw [← htold.opened_iff hopened]
    constructor
    · rintro ⟨item, hitem, rfl, hshows⟩
      obtain ⟨row, hrow, hitem⟩ := exists_of_forall₂ hread hitem
      obtain rfl := hshows.unique (Posting.shows_of_toWorkItem hitem)
      exact ((hopen _ _).mp ⟨row, hrow, hitem.id.symm, rfl⟩).1
    · intro hposted
      obtain ⟨row, hrow, rfl, rfl⟩ := (hopen id posting).mpr ⟨hposted, hopened⟩
      obtain ⟨item, hitem, hread⟩ := exists_of_forall₂ hread.flip hrow
      exact ⟨item, hitem, ReadAs.id hread, Posting.shows_of_toWorkItem hread⟩
  case unaltered =>
    intro item hitem item' hitem' hid hfits
    obtain ⟨row, hrow, hread⟩ := exists_of_forall₂ hread hitem
    obtain ⟨hposted, hopened⟩ := (hopen row.id _).mp ⟨row, hrow, rfl, rfl⟩
    have hid' : item'.id = row.id := hid.trans hread.id
    obtain ⟨posting, hposted', hkeeps⟩ := htold.posted item' hitem'
    rw [hid', hposted] at hposted'
    cases hposted'
    rcases hkeeps with hkeeps | hclaimed
    · exact (Db.toWorkItem_eq_ok_iff.mp hread).unique
        (hkeeps.standsFor hfits hid' (of_decide_eq_true hopened))
    · obtain ⟨posting, htaken, hclosed⟩ := htold.claimed _ hclaimed
      rw [hid', hposted] at htaken
      cases htaken
      rw [hopened] at hclosed
      cases hclosed

end Lists

/-! ### Every interleaving -/

section Runs

variable {B : Backend} {server : Server} {actors : List Actor} {w : World} {ls : List ServerLabel}
  {c : Config ServerOp ServerAns Thrown ActorResult World} {i : ℕ}

/-- How the programs of a pool end. -/
def PostingsEnd (server : Server) (actors : List Actor) (i : ℕ) (r : Except Thrown ActorResult)
    (s : RecordedWorld) : Prop :=
  ∀ request, actors[i]? = some (.client request) → request.route = .listWorkItems →
    ∃ r', r = ActorResult.reply <$> r' ∧ ListTold server i s.2 r'

lemma disciplined_postings (B : Backend) (server : Server) (actors : List Actor) (w : World) :
    Disciplined (postingDiscipline B) (PostingsEnd server actors)
      ⟨(w, []), actors.map (Actor.program server)⟩ where
  inv := by
    constructor
    · intro i uuid h
      cases h
    · intro i j uuid h
      cases h
  safe := by
    intro i p hp
    rw [List.getElem?_map, Option.map_eq_some_iff] at hp
    obtain ⟨actor, hactor, rfl⟩ := hp
    cases actor with
    | client request =>
      refine (safe_request_postings request _).map _ fun r s hr request' hrequest' hroute => ?_
      cases hactor.symm.trans hrequest'
      exact ⟨r, rfl, hr hroute⟩
    | runner deps =>
      refine (safe_turn deps _).map _ fun _ _ _ request hrequest => ?_
      cases hactor.symm.trans hrequest

/-! An item is posted, a runner takes the other one, and the list has the item that was posted. -/

def byBot (route : Route) (body : Option Json) : HttpRequest := ⟨route, some "Bearer m_agent", body⟩

def postingActors : List Actor :=
  [.client (byBot .publish (some (.obj [("title", .str "Notes")]))),
    .runner { agent := .bot [], persona := .analyst },
    .client (byBot .listWorkItems none)]

/-- The item that is posted is the second one. -/
def Oracle.second : Oracle := { Oracle.plain with uuid := "2" }

def postingSchedule : List (ℕ × Oracle) :=
  [0, 0, 0, 0, 0].map (·, .second) ++
    (1, { Oracle.plain with scan := (Db.board none).workItems.rows }) ::
      [1, 1, 1, 1, 2, 2].map (·, .plain)

def listedItems? : ServerProg ActorResult → Option (List WorkItem)
  | .ret (.reply ⟨code, .workItems items⟩) => if code == 200 then some items else none
  | _ => none

lemma of_listedItems? {p : ServerProg ActorResult} {items : List WorkItem}
    (h : listedItems? p = some items) : p = .ret (.reply ⟨200, .workItems items⟩) := by
  unfold listedItems? at h
  split at h
  · split_ifs at h with hcode
    cases h
    rw [eq_of_beq hcode]
  · cases h

/-- The items that the run posts, and those that it lists at last. -/
def listedAtLast : Option (List JsString × Option (List JsString)) :=
  (follow (World.attempt .faultless) postingSchedule
    ⟨⟨Db.board none, []⟩, postingActors.map (Actor.program someServer)⟩).bind fun before =>
      (follow (World.attempt .faultless)
        [(2, { Oracle.plain with scan := before.2.store.db.workItems.rows })] before.2).map
          fun after => ((posted (before.1 ++ after.1)).map WorkItem.id,
            (after.2.pool[2]?.bind listedItems?).map fun items => items.map WorkItem.id)

lemma exists_postingRun : ∃ ls c items,
    Run (exec .faultless) ⟨⟨Db.board none, []⟩, postingActors.map (Actor.program someServer)⟩ ls c ∧
    (posted ls).map WorkItem.id = [("w_2" : JsString)] ∧
    c.pool[2]? = some (.ret (.reply ⟨200, .workItems items⟩)) ∧
    items.map WorkItem.id = [("w_2" : JsString)] := by
  have hlisted : listedAtLast = some ([("w_2" : JsString)], some [("w_2" : JsString)]) := by
    decide +kernel
  simp only [listedAtLast] at hlisted
  obtain ⟨⟨ls, c⟩, hbefore, hlisted⟩ := Option.bind_eq_some_iff.mp hlisted
  obtain ⟨⟨ls', c'⟩, hafter, hlisted⟩ := Option.map_eq_some_iff.mp hlisted
  obtain ⟨hposted, hlisted⟩ := Prod.mk.inj hlisted
  obtain ⟨items, hitems, hids⟩ := Option.map_eq_some_iff.mp hlisted
  obtain ⟨p, hp, hitems⟩ := Option.bind_eq_some_iff.mp hitems
  have run := (run_of_follow hbefore).append (run_of_follow hafter)
  refine ⟨ls ++ ls', c', items, run, hposted, ?_, hids⟩
  exact hp.trans (congrArg some (of_listedItems? hitems))

/-- However requests and turns interleave, and whatever fails, what they do to the table of items
and are answered about it is a run of the board of postings. A posting has what the columns keep of
the texts of an item: an unpaired surrogate of a title is shown as U+FFFD. -/
theorem board_refined (run : Run (exec B) ⟨w, actors.map (Actor.program server)⟩ ls c) :
    Trace Board.call w.board ls c.store.board :=
  (disciplined_postings B server actors w).refines (fun s => s.1.board)
    (fun _ hpre h => call_of_postingPre hpre h) run.recorded

theorem board_refined_posting : ∃ ls board, (posted ls).map WorkItem.id = [("w_2" : JsString)] ∧
    Trace Board.call (World.board ⟨Db.board none, []⟩) ls board := by
  obtain ⟨ls, c, _, run, hposted, -, -⟩ := exists_postingRun
  exact ⟨ls, c.store.board, hposted, board_refined run⟩

/-- A list shows whatever was posted before it and nobody had claimed, as it was posted. -/
theorem list_as_told (run : Run (exec B) ⟨w, actors.map (Actor.program server)⟩ ls c)
    {request : HttpRequest} (hclient : actors[i]? = some (.client request))
    (hroute : request.route = .listWorkItems) {items : List WorkItem}
    (hended : c.pool[i]? = some (.ret (.reply ⟨200, .workItems items⟩))) :
    ∃ before rows after, ls = before ++ ⟨i, .workItemsListOpen, .ok rows⟩ :: after ∧
      ListsAsTold w before items := by
  have hd := disciplined_postings B server actors w
  have hreply : c.pool[i]? = some (Prog.ofExcept (.ok (.reply ⟨200, .workItems items⟩))) := hended
  obtain ⟨r, hr, htold⟩ := (hd.run run.recorded).result hreply request hclient hroute
  cases r with
  | error e => cases hr
  | ok reply =>
    cases hr
    obtain ⟨rows, hlisted, hread⟩ := htold items rfl
    have trace : Trace Board.call w.board ls c.store.board :=
      hd.refines (fun s => s.1.board) (fun _ hpre h => call_of_postingPre hpre h) run.recorded
    obtain ⟨before, after, board, board', rfl, earlier, list, -⟩ := trace.of_mem hlisted
    obtain rfl : board' = board := list.2.2.2
    exact ⟨before, rows, after, rfl, lists_as_told earlier list hread⟩

theorem list_as_told_posting : ∃ before items,
    items.map WorkItem.id = [("w_2" : JsString)] ∧
    ListsAsTold ⟨Db.board none, []⟩ before items := by
  obtain ⟨ls, c, items, run, -, hended, hids⟩ := exists_postingRun
  obtain ⟨before, _, _, -, hlists⟩ :=
    @list_as_told .faultless someServer postingActors _ ls c 2 run _ rfl rfl items hended
  exact ⟨before, items, hids, hlists⟩

end Runs

end WorkspaceOs
