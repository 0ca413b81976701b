import WorkspaceOs.Adapters.QueueCompletion

/-!
# First in, first out

Where the statements do not overlap and the clock goes on, a claim takes the message that has waited
longest. The messages of a queue are then delivered for the first time in the order in which they
were enqueued, and none that waits is passed by a later one.
-/

namespace WorkspaceOs

open Js Effect Relational

namespace PostgresQueue

variable {T : Type}

/-- Statements that do not overlap: the clock goes on from one message to the next, and a claim
finds no row locked. -/
def Alone (o : QueueOracle T) (t : QueueTable T) : QueueOp T → Prop
  | .enqueue _ _ => ∀ row ∈ t.rows, row.createdAt < o.now
  | .claim _ => o.scan.Perm t.rows
  | .complete _ | .fail _ _ => True

/-- The semantics of the queues, one statement after the other. -/
def execAlone (U : UuidType) : Semantics (QueueOp T) (QueueAns T) Thrown (QueueTable T) :=
  fun _ op t a t' => ∃ o, Allowed U o t op ∧ Alone o t op ∧ perform U o op t = (a, t')

/-- The messages of a queue, in the order in which they were enqueued. -/
def line (queueName : JsString) (ls : List (QueueLabel T)) : List JsString :=
  ((enqueued ls).filter fun message => message.2.1 = queueName).map Prod.fst

/-- The message of the queue that a call delivers for the first time. -/
def firstDelivered? (queueName : JsString) : QueueLabel T → Option JsString
  | ⟨_, .claim queueName', .ok (some message)⟩ =>
    if queueName' = queueName ∧ message.attempts = 1 then some message.id else none
  | _ => none

/-- The messages of a queue in the order in which they were first delivered. -/
def firstDelivered (queueName : JsString) (ls : List (QueueLabel T)) : List JsString :=
  ls.filterMap (firstDelivered? queueName)

/-- The message is with a worker, or done. -/
def Away (U : UuidType) (h : List (QueueLabel T)) (id : JsString) : Prop :=
  holders id h ≠ [] ∨ Done U h id

/-- A claim passes no message that waits. -/
def PassesNone (U : UuidType) (h : List (QueueLabel T)) : QueueLabel T → Prop
  | ⟨_, .claim queueName, .ok (some message)⟩ =>
    ∃ earlier later, line queueName h = earlier ++ message.id :: later ∧
      ∀ id ∈ earlier, Away U h id
  | ⟨_, .claim queueName, .ok none⟩ => ∀ id ∈ line queueName h, Away U h id
  | _ => True

/-- What a statement that is alone did in order. -/
def Orderly (t : QueueTable T) : (op : QueueOp T) → Except Thrown (QueueAns T op) →
    QueueTable T → Prop
  | .enqueue _ _, .ok id, t' =>
    ∀ row, t'.find? id = some row → ∀ r ∈ t.rows, r.createdAt < row.createdAt
  | .claim queueName, .ok (some message), _ => ∀ row, t.find? message.id = some row →
    ∀ r ∈ t.rows, waiting queueName r = true → row.createdAt ≤ r.createdAt
  | .claim queueName, .ok none, _ => ∀ r ∈ t.rows, waiting queueName r = false
  | _, _, _ => True

variable {U : UuidType} {ls : List (QueueLabel T)} {t t' : QueueTable T} {i : ℕ} {op : QueueOp T}
  {a : Except Thrown (QueueAns T op)} {row row' : QueueRow T} {id queueName : JsString}
  {firsts : List JsString}

lemma exec_of_alone (h : execAlone U i op t a t') : exec U i op t a t' := by
  obtain ⟨o, hallowed, -, h⟩ := h
  exact ⟨o, hallowed, h⟩

lemma orderly_of_exec (h : execAlone U i op t a t') : Orderly t op a t' := by
  obtain ⟨o, hallowed, halone, h⟩ := h
  cases a with
  | error e => cases op <;> trivial
  | ok answer =>
    have hfault : o.fault = none := by
      cases hfault : o.fault with
      | none => rfl
      | some message =>
        simp only [perform, hfault] at h
        cases h
    cases op with
    | enqueue queueName payload =>
      simp only [perform, hfault, execute] at h
      cases h
      intro row hrow
      have hself : (t.set (newRow o.uuid queueName payload o.now)).find? o.uuid =
          some (newRow o.uuid queueName payload o.now) := Table.find?_set_self
      cases hself.symm.trans hrow
      exact halone
    | claim queueName =>
      have holdest := claimsOldest halone hfault h
      cases answer with
      | none =>
        intro r hr
        rw [Bool.eq_false_iff]
        intro hwaiting
        obtain ⟨hqueue, hpending⟩ := waiting_iff.mp hwaiting
        exact holdest.none rfl r hr hqueue hpending
      | some message =>
        intro row hrow r hr hwaiting
        obtain ⟨first, hfirst, -, -, hle⟩ := holdest.some message rfl
        cases hfirst.symm.trans hrow
        obtain ⟨hqueue, hpending⟩ := waiting_iff.mp hwaiting
        exact hle r hr hqueue hpending
    | complete | fail => trivial

/-! ### The line -/

/-- Those of the line that were delivered are in front of those that were not. -/
def Served (queueName : JsString) (firsts : List JsString) (t : QueueTable T) : Prop :=
  ∃ front back, (t.rows.filter fun row => row.queueName = queueName) = front ++ back ∧
    (∀ row ∈ front, 0 < row.attempts) ∧ (∀ row ∈ back, row.attempts = 0 ∧ row.status = .pending) ∧
    firsts = front.map QueueRow.id

/-- What the table is as long as the statements are alone. -/
structure Lined (U : UuidType) (ls : List (QueueLabel T)) (t : QueueTable T) : Prop
    extends Tracked U ls t where
  ordered : (t.rows.map QueueRow.createdAt).Pairwise (· < ·)
  done : ∀ row ∈ t.rows, row.status = .completed → Done U ls row.id
  served : ∀ queueName, Served queueName (firstDelivered queueName ls) t

lemma line_eq (h : Recorded U ls t) :
    line queueName ls = (t.rows.filter fun row => row.queueName = queueName).map QueueRow.id := by
  rw [line, ← h.stored, List.filter_map, List.map_map]
  rfl

/-- The only row that a write changes is the one that it finds. -/
lemma eq_of_find? (hfind : t.find? id = some row) (hmem : row' ∈ t.rows) (hid : row'.id = id) :
    row' = row :=
  Option.some.inj ((Table.find?_eq_some_iff.mpr ⟨hmem, hid⟩).symm.trans hfind)

/-- A row that is written keeps its place in the line. -/
lemma served_set {front back : List (QueueRow T)} (hfind : t.find? row'.id = some row)
    (hqueue : row.queueName = row'.queueName)
    (hfilter : (t.rows.filter fun row => row.queueName = queueName) = front ++ back)
    (hfront : ∀ r ∈ front, r ≠ row → 0 < r.attempts) (hwritten : row ∈ front → 0 < row'.attempts)
    (hback : ∀ r ∈ back, r ≠ row ∧ r.attempts = 0 ∧ r.status = .pending) :
    Served queueName (front.map QueueRow.id) (t.set row') := by
  have hmem {r : QueueRow T} (hr : r ∈ front ++ back) : r ∈ t.rows := by
    rw [← hfilter] at hr
    exact List.mem_of_mem_filter hr
  have hset := @Table.filter_rows_set _ _ QueueRow.id _ t row' row
    (fun r => r.queueName = queueName) hfind (by simp only [hqueue])
  rw [hfilter, List.map_append] at hset
  refine ⟨_, _, hset, ?_, ?_, ?_⟩
  · rw [List.forall_mem_map]
    intro r hr
    split_ifs with hid
    · have hrow := eq_of_find? hfind (hmem (List.mem_append_left _ hr)) hid
      exact hwritten (hrow ▸ hr)
    · exact hfront r hr fun hrow => hid (hrow ▸ Table.key_of_find? hfind)
  · rw [List.forall_mem_map]
    intro r hr
    obtain ⟨hne, hwaits⟩ := hback r hr
    split_ifs with hid
    · exact absurd (eq_of_find? hfind (hmem (List.mem_append_right _ hr)) hid) hne
    · exact hwaits
  · rw [List.map_map]
    refine List.map_congr_left fun r _ => ?_
    simp only [Function.comp_apply]
    split_ifs with hid
    · exact hid
    · rfl

lemma mem_line {r : QueueRow T} {rows : List (QueueRow T)}
    (hfilter : (t.rows.filter fun row => row.queueName = queueName) = rows) (hr : r ∈ rows) :
    r ∈ t.rows ∧ r.queueName = queueName := by
  rw [← hfilter] at hr
  simpa using hr

/-- A message that was delivered keeps its place when it is written. -/
lemma Served.written (h : Served queueName firsts t) (hfind : t.find? row'.id = some row)
    (hqueue : row.queueName = row'.queueName) (hattempts : row.attempts ≤ row'.attempts)
    (hdelivered : row.queueName = queueName → 0 < row.attempts) :
    Served queueName firsts (t.set row') := by
  obtain ⟨front, back, hfilter, hfront, hback, rfl⟩ := h
  refine served_set hfind hqueue hfilter (fun r hr _ => hfront r hr) ?_ ?_
  · exact fun hrow => Nat.lt_of_lt_of_le (hfront row hrow) hattempts
  · rintro r hr
    refine ⟨?_, hback r hr⟩
    rintro rfl
    have hr_queue := (mem_line hfilter (List.mem_append_right front hr)).2
    exact absurd (hback r hr).1 (hdelivered hr_queue).ne'

/-- A new message goes to the back. -/
lemma Served.enqueued (h : Served queueName firsts t) (hfresh : t.find? row'.id = none)
    (hnew : row'.attempts = 0 ∧ row'.status = .pending) : Served queueName firsts (t.set row') := by
  obtain ⟨front, back, hfilter, hfront, hback, rfl⟩ := h
  rw [Served, Table.rows_set_of_find?_eq_none hfresh, List.filter_append, hfilter]
  by_cases hqueue : row'.queueName = queueName
  · refine ⟨front, back ++ [row'], by simp [hqueue], hfront, ?_, rfl⟩
    intro r hr
    rcases List.mem_append.mp hr with hr | hr
    · exact hback r hr
    · rw [List.mem_singleton.mp hr]
      exact hnew
  · exact ⟨front, back, by simp [hqueue], hfront, hback, rfl⟩

/-- A row of the line before another one is older. -/
lemma older_of_line {front back : List (QueueRow T)} {r : QueueRow T}
    (hordered : (t.rows.map QueueRow.createdAt).Pairwise (· < ·))
    (hfilter : (t.rows.filter fun row => row.queueName = queueName) = front ++ row :: back)
    (hr : r ∈ front) : r.createdAt < row.createdAt := by
  have hpairwise := (List.pairwise_map.mp hordered).sublist
    (List.filter_sublist (p := fun row => row.queueName = queueName))
  rw [hfilter] at hpairwise
  exact (List.pairwise_append.mp hpairwise).2.2 r hr row List.mem_cons_self

/-- A message that is delivered for the first time is the next in the line. -/
lemma Served.delivered {now : ℤ} (h : Served queueName firsts t)
    (hordered : (t.rows.map QueueRow.createdAt).Pairwise (· < ·))
    (hfind : t.find? row.id = some row) (hwaiting : waiting queueName row = true)
    (hfirst : ∀ r ∈ t.rows, waiting queueName r = true → row.createdAt ≤ r.createdAt)
    (hnever : row.attempts = 0) :
    Served queueName (firsts ++ [row.id]) (t.set (claimedRow row now)) := by
  obtain ⟨front, back, hfilter, hfront, hback, rfl⟩ := h
  have hrow : row ∈ front ++ back := by
    rw [← hfilter]
    simpa using ⟨Table.mem_of_find? hfind, (waiting_iff.mp hwaiting).1⟩
  have hrow : row ∈ back := (List.mem_append.mp hrow).resolve_left fun hrow =>
    absurd hnever (hfront row hrow).ne'
  obtain ⟨before, after, rfl⟩ := List.append_of_mem hrow
  rw [← List.append_assoc] at hfilter
  have hbefore : before = [] := by
    rw [List.eq_nil_iff_forall_not_mem]
    intro r hr
    have holder := older_of_line hordered hfilter (List.mem_append_right front hr)
    obtain ⟨hrows, hqueue⟩ := mem_line hfilter
      (List.mem_append_left _ (List.mem_append_right front hr))
    have hpending := (hback r (List.mem_append_left _ hr)).2
    exact absurd holder (not_lt.mpr (hfirst r hrows (waiting_iff.mpr ⟨hqueue, hpending⟩)))
  subst hbefore
  rw [List.append_nil] at hfilter
  have hnodup : (front ++ row :: after).Nodup := hfilter ▸ (List.Nodup.of_map _ t.keyed).filter _
  rw [List.append_cons] at hfilter
  have hserved :=
    @served_set T t row (claimedRow row now) queueName (front ++ [row]) after hfind rfl
    hfilter ?_ (fun _ => Nat.succ_pos _) ?_
  · rwa [List.map_append] at hserved
  · intro r hr hne
    rcases List.mem_append.mp hr with hr | hr
    · exact hfront r hr
    · exact absurd (List.mem_singleton.mp hr) hne
  · intro r hr
    refine ⟨?_, hback r (List.mem_cons_of_mem row hr)⟩
    rintro rfl
    exact (List.nodup_cons.mp (List.nodup_append.mp hnodup).2.1).1 hr

/-! ### Runs of the queues -/

lemma firstDelivered_concat (ls : List (QueueLabel T)) (l : QueueLabel T) :
    firstDelivered queueName (ls ++ [l]) =
      firstDelivered queueName ls ++ (firstDelivered? queueName l).toList := filterMap_concat ..

lemma firstDelivered_concat_of_none {l : QueueLabel T} (h : firstDelivered? queueName l = none) :
    firstDelivered queueName (ls ++ [l]) = firstDelivered queueName ls := by
  rw [firstDelivered_concat, h, Option.toList_none, List.append_nil]

/-- What is done stays so. -/
lemma Done.mono {l : QueueLabel T} (h : Done U ls id) : Done U (ls ++ [l]) id :=
  done_concat.mpr (.inl h)

lemma Recorded.known (h : Recorded U ls t) (hfind : t.find? id = some row) : Known ls id := by
  rw [Known, ← h.stored, List.map_map]
  obtain ⟨hmem, rfl⟩ := Table.find?_eq_some_iff.mp hfind
  exact List.mem_map_of_mem hmem

/-- Only a message that was delivered is anything but pending. -/
lemma Lined.attempts_pos (h : Lined U ls t) (hfind : t.find? id = some row)
    (hstatus : row.status ≠ .pending) : 0 < row.attempts := by
  obtain ⟨front, back, hfilter, hfront, hback, -⟩ := h.served row.queueName
  have hrow : row ∈ front ++ back := by
    rw [← hfilter]
    simpa using Table.mem_of_find? hfind
  rcases List.mem_append.mp hrow with hrow | hrow
  · exact hfront row hrow
  · exact absurd (hback row hrow).2 hstatus

/-- A message that is reported on was delivered. -/
lemma Lined.reported (h : Lined U ls t) {s : JsString} (hi : i ∈ holders s ls)
    (parsed : U.parse s = some id) (hfind : t.find? id = some row) : 0 < row.attempts := by
  obtain ⟨hstatus, -⟩ := erase_of_placed (h.placed s) hi
  obtain ⟨rfl, -, -⟩ := h.toTracked.report hi parsed
  rw [hfind, Option.map_some, Option.some_inj] at hstatus
  exact h.attempts_pos hfind (by simp [hstatus])

lemma Lined.ordered_step (h : Lined U ls t) (did : Did U t op a t') (horderly : Orderly t op a t') :
    (t'.rows.map QueueRow.createdAt).Pairwise (· < ·) := by
  cases did with
  | @enqueued queueName payload id now canonical fresh =>
    have hlater := horderly (newRow id queueName payload now) Table.find?_set_self
    rw [Table.rows_set_of_find?_eq_none fresh, List.map_append]
    refine List.pairwise_append.mpr ⟨h.ordered, List.pairwise_singleton _ _, ?_⟩
    rw [List.forall_mem_map]
    intro r hr c hc
    rw [List.mem_singleton.mp hc]
    exact hlater r hr
  | @delivered queueName row now found =>
    rw [@Table.map_rows_set _ _ _ _ t (claimedRow row now) row _ QueueRow.createdAt found rfl]
    exact h.ordered
  | @completed s id row now parsed found =>
    obtain rfl := Table.key_of_find? found
    rw [@Table.map_rows_set _ _ _ _ t (completedRow row now) row _ QueueRow.createdAt found rfl]
    exact h.ordered
  | @failed s error id row parsed found =>
    obtain rfl := Table.key_of_find? found
    rw [@Table.map_rows_set _ _ _ _ t (failedRow row error) row _ QueueRow.createdAt found rfl]
    exact h.ordered
  | nothing | completedNone | failedNone | rejected => exact h.ordered

lemma Lined.done_step (h : Lined U ls t) (did : Did U t op a t') :
    ∀ row ∈ t'.rows, row.status = .completed → Done U (ls ++ [⟨i, op, a⟩]) row.id := by
  intro row hrow hstatus
  cases did with
  | enqueued | delivered | failed =>
    rcases Table.mem_set.mp hrow with rfl | ⟨hrow, -⟩
    · cases hstatus
    · exact (h.done row hrow hstatus).mono
  | @completed s id old now parsed found =>
    rcases Table.mem_set.mp hrow with rfl | ⟨hrow, -⟩
    · obtain rfl := Table.key_of_find? found
      exact done_concat.mpr (.inr ⟨parsed, h.toRecorded.known found⟩)
    · exact (h.done row hrow hstatus).mono
  | nothing | completedNone | failedNone | rejected => exact (h.done row hrow hstatus).mono

lemma Lined.served_step (h : Lined U ls t) (hown : ReportsOwn ls ⟨i, op, a⟩)
    (did : Did U t op a t') (horderly : Orderly t op a t') (queueName : JsString) :
    Served queueName (firstDelivered queueName (ls ++ [⟨i, op, a⟩])) t' := by
  have hserved := h.served queueName
  cases did with
  | @enqueued queueName' payload id now canonical fresh =>
    rw [firstDelivered_concat_of_none rfl]
    exact hserved.enqueued fresh ⟨rfl, rfl⟩
  | @delivered queueName' row now found waiting inRange =>
    rw [firstDelivered_concat, firstDelivered?]
    split_ifs with hfirst
    · obtain ⟨rfl, hattempts⟩ := hfirst
      exact hserved.delivered h.ordered found waiting (horderly row found)
        (Nat.succ.inj hattempts)
    · rw [Option.toList_none, List.append_nil]
      have hrow : t.find? (claimedRow row now).id = some row := found
      refine hserved.written hrow rfl (Nat.le_succ _) fun hqueue => ?_
      rw [not_and] at hfirst
      have hnot := hfirst ((waiting_iff.mp waiting).1.symm.trans hqueue)
      exact Nat.pos_of_ne_zero fun hzero => hnot (congrArg Nat.succ hzero)
  | @completed s id row now parsed found =>
    have hpos := h.reported hown parsed found
    obtain rfl := Table.key_of_find? found
    have hrow : t.find? (completedRow row now).id = some row := found
    rw [firstDelivered_concat_of_none rfl]
    exact hserved.written hrow rfl le_rfl fun _ => hpos
  | @failed s error id row parsed found =>
    have hpos := h.reported hown parsed found
    obtain rfl := Table.key_of_find? found
    have hrow : t.find? (failedRow row error).id = some row := found
    rw [firstDelivered_concat_of_none rfl]
    exact hserved.written hrow rfl le_rfl fun _ => hpos
  | nothing | completedNone | failedNone =>
    rw [firstDelivered_concat_of_none rfl]
    exact hserved
  | rejected =>
    rw [firstDelivered_concat_of_none (by cases op <;> rfl)]
    exact hserved

lemma Lined.step (h : Lined U ls t) (hown : ReportsOwn ls ⟨i, op, a⟩)
    (hexec : execAlone U i op t a t') : Lined U (ls ++ [⟨i, op, a⟩]) t' := by
  have did := did_of_exec (exec_of_alone hexec)
  have horderly := orderly_of_exec hexec
  exact ⟨h.toTracked.step hown did, h.ordered_step did horderly, h.done_step did,
    h.served_step hown did horderly⟩

/-- A message of the table that does not wait is with a worker, or done. -/
lemma Lined.away (h : Lined U ls t) (hmem : row ∈ t.rows) (hstatus : row.status ≠ .pending) :
    Away U ls row.id := by
  have hplaced := h.placed row.id
  rw [Table.find?_key hmem, Option.map_some] at hplaced
  cases hrow : row.status with
  | pending => exact absurd hrow hstatus
  | completed => exact .inr (h.done row hmem hrow)
  | claimed =>
    rw [hrow] at hplaced
    obtain ⟨j, hj⟩ := hplaced
    exact .inl (by simp [hj])

lemma Lined.passesNone (h : Lined U ls t) (hexec : execAlone U i op t a t') :
    PassesNone U ls ⟨i, op, a⟩ := by
  have did := did_of_exec (exec_of_alone hexec)
  have horderly := orderly_of_exec hexec
  cases did with
  | @delivered queueName row now found waiting inRange =>
    obtain ⟨hqueue, -⟩ := waiting_iff.mp waiting
    have hrow : row ∈ t.rows.filter fun row => row.queueName = queueName := by
      simpa using ⟨Table.mem_of_find? found, hqueue⟩
    obtain ⟨before, after, hfilter⟩ := List.append_of_mem hrow
    refine ⟨before.map QueueRow.id, after.map QueueRow.id, ?_, ?_⟩
    · rw [line_eq h.toRecorded, hfilter, List.map_append, List.map_cons]
    · rw [List.forall_mem_map]
      intro r hr
      have holder := older_of_line h.ordered hfilter hr
      obtain ⟨hrows, hr_queue⟩ := mem_line hfilter (List.mem_append_left _ hr)
      refine h.away hrows fun hpending => ?_
      have hle := horderly row found r hrows (waiting_iff.mpr ⟨hr_queue, hpending⟩)
      exact absurd holder (not_lt.mpr hle)
  | @nothing queueName =>
    show ∀ id ∈ line queueName ls, Away U ls id
    rw [line_eq h.toRecorded, List.forall_mem_map]
    intro r hr
    obtain ⟨hrows, hr_queue⟩ := mem_line rfl hr
    refine h.away hrows fun hpending => ?_
    have hnone := horderly r hrows
    rw [waiting_iff.mpr ⟨hr_queue, hpending⟩] at hnone
    cases hnone
  | rejected => cases op <;> trivial
  | enqueued | completed | completedNone | failed | failedNone => trivial

lemma Lined.empty : Lined U [] (∅ : QueueTable T) where
  toTracked := Tracked.empty
  ordered := List.Pairwise.nil
  done := fun _ h => absurd h List.not_mem_nil
  served _ := ⟨[], [], rfl, fun _ h => absurd h List.not_mem_nil,
    fun _ h => absurd h List.not_mem_nil, rfl⟩

/-- The messages of every queue are first delivered in the order in which they were enqueued, and no
claim passes a message that waits, or finds nothing while one does. -/
theorem delivered_in_order (U : UuidType) {ls : List (QueueLabel T)} {t : QueueTable T}
    (trace : Trace (execAlone U) ∅ ls t) (hown : Always ReportsOwn ls) :
    (∀ queueName, firstDelivered queueName ls <+: line queueName ls) ∧
    Always (PassesNone U) ls := by
  have hlined : Lined U ls t ∧ Always (PassesNone U) ls := by
    apply trace.invariant (P := fun ls t => Lined U ls t ∧ Always (PassesNone U) ls)
      ⟨Lined.empty, .nil⟩ ?_ hown
    rintro ls t₁ i op a t₂ ⟨hlined, halways⟩ hreports step
    exact ⟨hlined.step hreports step, Always.concat_iff.mpr ⟨halways, hlined.passesNone step⟩⟩
  refine ⟨fun queueName => ?_, hlined.2⟩
  obtain ⟨front, back, hfilter, -, -, hfirsts⟩ := hlined.1.served queueName
  rw [hfirsts, line_eq hlined.1.toRecorded, hfilter, List.map_append]
  exact List.prefix_append _ _

/-! Two messages: the first one is failed, and delivered again before the second one. -/

/-- The statement at a time that no message of the table is from. -/
def attemptAlone (U : UuidType) (o : ℤ × JsString) (op : QueueOp T) (t : QueueTable T) :
    Option (Except Thrown (QueueAns T op) × QueueTable T) :=
  if (t.rows.all fun row => row.createdAt < o.1) then attempt U o op t else none

lemma execAlone_of_attempt {o : ℤ × JsString} (h : attemptAlone U o op t = some (a, t')) :
    execAlone U i op t a t' := by
  simp only [attemptAlone, attempt] at h
  split_ifs at h with hlater hallowed
  refine ⟨⟨o.1, o.2, t.rows, none⟩, ?_, ?_, Option.some.inj h⟩
  · cases op with
    | enqueue => exact ⟨hallowed.1, Option.isNone_iff_eq_none.mp hallowed.2⟩
    | claim => exact fun _ hrow => hrow
    | complete | fail => trivial
  · cases op with
    | enqueue => exact fun row hrow => of_decide_eq_true (List.all_eq_true.mp hlater row hrow)
    | claim => exact .refl _
    | complete | fail => trivial

def lineScript : List (ℕ × (ℤ × JsString) × QueueOp ℕ) :=
  [called 0 0 (.enqueue "memos" 7) '1', called 0 1 (.enqueue "memos" 8) '2',
    called 1 2 (.claim "memos") '3', called 1 3 (.fail (uuidOf '1') "boom") '3',
    called 2 4 (.claim "memos") '3', called 1 5 (.claim "memos") '3',
    called 2 6 (.complete (uuidOf '1')) '3', called 2 7 (.claim "memos") '3']

def lineHistory : List (QueueLabel ℕ) :=
  [⟨0, .enqueue "memos" 7, .ok (uuidOf '1')⟩, ⟨0, .enqueue "memos" 8, .ok (uuidOf '2')⟩,
    ⟨1, .claim "memos", .ok (some ⟨uuidOf '1', 7, 1⟩)⟩,
    ⟨1, .fail (uuidOf '1') "boom", .ok ()⟩, ⟨2, .claim "memos", .ok (some ⟨uuidOf '1', 7, 2⟩)⟩,
    ⟨1, .claim "memos", .ok (some ⟨uuidOf '2', 8, 1⟩)⟩,
    ⟨2, .complete (uuidOf '1'), .ok ()⟩, ⟨2, .claim "memos", .ok none⟩]

theorem delivered_in_order_retry : ∃ t, Trace (execAlone canonicalOnly) ∅ lineHistory t ∧
    (∀ queueName, firstDelivered queueName lineHistory <+: line queueName lineHistory) ∧
    Always (PassesNone canonicalOnly) lineHistory := by
  have hscript : ∃ t, carryOut (attemptAlone canonicalOnly) lineScript ∅ = some (lineHistory, t) :=
    ⟨_, rfl⟩
  obtain ⟨t, hscript⟩ := hscript
  have trace : Trace (execAlone canonicalOnly) ∅ lineHistory t :=
    Trace.of_carryOut (fun _ _ _ _ _ _ => execAlone_of_attempt) hscript
  exact ⟨t, trace, delivered_in_order canonicalOnly trace (always_iff_take.mpr (by decide))⟩

end PostgresQueue

end WorkspaceOs
