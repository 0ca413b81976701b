import WorkspaceOs.Adapters.PostgresQueue

/-!
# Delivery

What the history of the calls says about the table: which messages there are, how often each was
delivered, and, where workers report on nothing but what they have received, who has it.
-/

namespace WorkspaceOs

open Js Effect Relational

namespace PostgresQueue

variable {T : Type}

/-! ### What a history tells -/

/-- The message that a call enqueued: its id, its queue and its payload. -/
def enqueued? : QueueLabel T → Option (JsString × JsString × T)
  | ⟨_, .enqueue queueName payload, .ok id⟩ => some (id, queueName, payload)
  | _ => none

/-- The messages that were enqueued, in order. -/
def enqueued (ls : List (QueueLabel T)) : List (JsString × JsString × T) :=
  ls.filterMap enqueued?

/-- The call received the message. -/
def delivers (id : JsString) : QueueLabel T → Bool
  | ⟨_, .claim _, .ok (some message)⟩ => message.id = id
  | _ => false

/-- How often a claim returned the message. -/
def deliveries (id : JsString) (ls : List (QueueLabel T)) : ℕ := ls.countP (delivers id)

lemma enqueued_concat (ls : List (QueueLabel T)) (l : QueueLabel T) :
    enqueued (ls ++ [l]) = enqueued ls ++ (enqueued? l).toList := filterMap_concat ..

lemma deliveries_concat (id : JsString) (ls : List (QueueLabel T)) (l : QueueLabel T) :
    deliveries id (ls ++ [l]) = deliveries id ls + if delivers id l then 1 else 0 := by
  rw [deliveries, List.countP_append, List.countP_singleton, deliveries]

/-- The table holds what was enqueued, and counts what was delivered. -/
structure Recorded (U : UuidType) (ls : List (QueueLabel T)) (t : QueueTable T) : Prop where
  stored : t.rows.map (fun row => (row.id, row.queueName, row.payload)) = enqueued ls
  canonical : ∀ id row, t.find? id = some row → U.parse id = some id
  attempts : ∀ id, deliveries id ls = (t.find? id).elim 0 QueueRow.attempts

variable {U : UuidType} {ls : List (QueueLabel T)} {t t' : QueueTable T} {i : ℕ} {op : QueueOp T}
  {a : Except Thrown (QueueAns T op)} {row : QueueRow T} {id : JsString}

/-- A call that changes nothing, and that no history counts. -/
lemma Recorded.unchanged (h : Recorded U ls t) {l : QueueLabel T} (henqueued : enqueued? l = none)
    (hdelivers : ∀ id, delivers id l = false) : Recorded U (ls ++ [l]) t := by
  refine ⟨?_, h.canonical, fun id => ?_⟩
  · rw [enqueued_concat, henqueued, h.stored, Option.toList_none, List.append_nil]
  · rw [deliveries_concat, hdelivers, h.attempts id]
    rfl

/-- A row is overwritten by one for the same message. -/
lemma Recorded.overwritten (h : Recorded U ls t) {l : QueueLabel T} (row' : QueueRow T)
    (hfind : t.find? row'.id = some row)
    (hsame : (row.id, row.queueName, row.payload) = (row'.id, row'.queueName, row'.payload))
    (henqueued : enqueued? l = none)
    (hattempts : ∀ id, (if delivers id l then 1 else 0) =
      if id = row'.id then row'.attempts - row.attempts else 0)
    (hle : row.attempts ≤ row'.attempts) : Recorded U (ls ++ [l]) (t.set row') := by
  constructor
  case stored =>
    rw [enqueued_concat, henqueued, Option.toList_none, List.append_nil, ← h.stored]
    exact Table.map_rows_set hfind hsame
  case canonical =>
    intro id r hid
    by_cases hsame : id = row'.id
    · exact hsame ▸ h.canonical _ _ hfind
    · rw [Table.find?_set_of_ne hsame] at hid
      exact h.canonical id r hid
  case attempts =>
    intro id
    rw [deliveries_concat, h.attempts id, hattempts]
    split_ifs with hsame
    · rw [hsame, hfind, Table.find?_set_self]
      exact Nat.add_sub_cancel' hle
    · rw [Table.find?_set_of_ne hsame]
      rfl

/-- Every call keeps the records. -/
lemma Recorded.step (h : Recorded U ls t) (did : Did U t op a t') :
    Recorded U (ls ++ [⟨i, op, a⟩]) t' := by
  cases did with
  | @enqueued queueName payload id now canonical fresh =>
    constructor
    case stored =>
      rw [Table.rows_set_of_find?_eq_none fresh, List.map_append, h.stored, enqueued_concat]
      rfl
    case canonical =>
      intro id' r hid
      by_cases hsame : id' = id
      · exact hsame ▸ canonical
      · rw [Table.find?_set_of_ne hsame] at hid
        exact h.canonical id' r hid
    case attempts =>
      intro id'
      rw [deliveries_concat, h.attempts id']
      by_cases hsame : id' = id
      · subst hsame
        rw [fresh]
        show 0 = ((t.set _).find? (newRow id' queueName payload now).id).elim 0 _
        rw [Table.find?_set_self]
        rfl
      · rw [Table.find?_set_of_ne hsame]
        rfl
  | @delivered queueName row now found waiting inRange =>
    refine h.overwritten (claimedRow row now) found rfl rfl (fun id => ?_) (Nat.le_succ _)
    simp [delivers, claimedRow, eq_comm]
  | @completed s id row now parsed found =>
    obtain rfl := Table.key_of_find? found
    refine h.overwritten (completedRow row now) found rfl rfl (fun id => ?_) le_rfl
    simp [delivers, completedRow]
  | @failed s error id row parsed found =>
    obtain rfl := Table.key_of_find? found
    refine h.overwritten (failedRow row error) found rfl rfl (fun id => ?_) le_rfl
    simp [delivers, failedRow]
  | nothing => exact h.unchanged rfl fun _ => rfl
  | completedNone => exact h.unchanged rfl fun _ => rfl
  | failedNone => exact h.unchanged rfl fun _ => rfl
  | rejected => cases op <;> exact h.unchanged rfl fun _ => rfl

lemma Recorded.empty : Recorded U [] (∅ : QueueTable T) :=
  ⟨rfl, by simp [Table.find?], fun _ => rfl⟩

/-- The records are right after every trace. -/
lemma recorded_of_trace (trace : Trace (exec U) ∅ ls t) : Recorded U ls t :=
  trace.invariant_of_any Recorded.empty fun _ _ _ _ _ _ h step => h.step (did_of_exec step)

/-! ### Who has a message -/

/-- Who has the message after one more call: a claim receives it, and a report gives it back. -/
def hold (id : JsString) (workers : List ℕ) : QueueLabel T → List ℕ
  | ⟨i, .claim _, .ok (some message)⟩ => if message.id = id then i :: workers else workers
  | ⟨i, .complete id', .ok _⟩ => if id' = id then workers.erase i else workers
  | ⟨i, .fail id' _, .ok _⟩ => if id' = id then workers.erase i else workers
  | _ => workers

/-- The workers that have received the message and not reported on it since, once for each claim. -/
def holders (id : JsString) (ls : List (QueueLabel T)) : List ℕ := ls.foldl (hold id) []

/-- A worker reports only on a message that it has, so once for each time that it received one. -/
def ReportsOwn (h : List (QueueLabel T)) : QueueLabel T → Prop
  | ⟨i, .complete id, _⟩ => i ∈ holders id h
  | ⟨i, .fail id _, _⟩ => i ∈ holders id h
  | _ => True

instance (h : List (QueueLabel T)) : (l : QueueLabel T) → Decidable (ReportsOwn h l)
  | ⟨i, .complete id, _⟩ => inferInstanceAs (Decidable (i ∈ holders id h))
  | ⟨i, .fail id _, _⟩ => inferInstanceAs (Decidable (i ∈ holders id h))
  | ⟨_, .enqueue _ _, _⟩ | ⟨_, .claim _, _⟩ => inferInstanceAs (Decidable True)

/-- A claimed message is with one worker, any other one with nobody. -/
def Placed : Option QueueStatus → List ℕ → Prop
  | some .claimed, workers => ∃ i, workers = [i]
  | _, workers => workers = []

/-- A call to `complete` was answered for the message. -/
def Completed (id : JsString) (ls : List (QueueLabel T)) : Prop :=
  ∃ i, ⟨i, .complete id, .ok ()⟩ ∈ ls

/-- What a claim received: a message of its queue that nobody had, counted once more. -/
def ReceivesOwn (h : List (QueueLabel T)) (l : QueueLabel T) : Prop :=
  ∀ i queueName message, l = ⟨i, .claim queueName, .ok (some message)⟩ →
    (message.id, queueName, message.payload) ∈ enqueued h ∧ holders message.id h = [] ∧
      message.attempts = deliveries message.id h + 1

lemma holders_concat (id : JsString) (ls : List (QueueLabel T)) (l : QueueLabel T) :
    holders id (ls ++ [l]) = hold id (holders id ls) l := by
  rw [holders, List.foldl_append]
  rfl

lemma hold_error (id : JsString) (workers : List ℕ) (op : QueueOp T) (e : Thrown) :
    hold id workers ⟨i, op, .error e⟩ = workers := by
  cases op <;> rfl

lemma completed_concat {l : QueueLabel T} :
    Completed id (ls ++ [l]) ↔ Completed id ls ∨ ∃ i, l = ⟨i, .complete id, .ok ()⟩ := by
  simp only [Completed, List.mem_append, List.mem_singleton, exists_or, eq_comm]

/-- A report on a message with nobody but `i` leaves it with nobody. -/
lemma erase_of_placed {workers : List ℕ} {status : Option QueueStatus} (h : Placed status workers)
    (hi : i ∈ workers) : status = some .claimed ∧ workers.erase i = [] := by
  cases status with
  | none => exact absurd hi (h ▸ List.not_mem_nil)
  | some status =>
    cases status with
    | claimed =>
      obtain ⟨j, rfl⟩ := h
      cases List.mem_singleton.mp hi
      exact ⟨rfl, by simp⟩
    | _ => exact absurd hi (h ▸ List.not_mem_nil)

/-- Where the messages are. -/
structure Tracked (U : UuidType) (ls : List (QueueLabel T)) (t : QueueTable T) : Prop
    extends Recorded U ls t where
  placed : ∀ id, Placed ((t.find? id).map QueueRow.status) (holders id ls)
  completed : ∀ id, (t.find? id).map QueueRow.status = some .completed ↔ Completed id ls

/-- Who reports on a message has it, and names it the way the table does. -/
lemma Tracked.report (h : Tracked U ls t) {s : JsString} (hi : i ∈ holders s ls)
    (parsed : U.parse s = some id) :
    id = s ∧ (∃ row, t.find? id = some row) ∧ (holders id ls).erase i = [] := by
  obtain ⟨hstatus, herase⟩ := erase_of_placed (h.placed s) hi
  obtain ⟨row, hfind, -⟩ := Option.map_eq_some_iff.mp hstatus
  cases parsed.symm.trans (h.canonical s row hfind)
  exact ⟨rfl, ⟨row, hfind⟩, herase⟩

/-- A reported message is with nobody, whether it goes back or not. -/
lemma Tracked.reported (h : Tracked U ls t) {s : JsString} {l : QueueLabel T}
    (hi : i ∈ holders s ls) (parsed : U.parse s = some id) (row' : QueueRow T)
    (hid : row'.id = id) (hstatus : row'.status ≠ .claimed)
    (hhold : ∀ id' workers, hold id' workers l = if s = id' then workers.erase i else workers)
    (id' : JsString) :
    Placed (((t.set row').find? id').map QueueRow.status) (holders id' (ls ++ [l])) := by
  obtain ⟨rfl, -, herase⟩ := h.report hi parsed
  rw [holders_concat, hhold]
  split_ifs with hsame
  · rw [← hsame, ← hid, Table.find?_set_self, hid, herase]
    cases hrow : row'.status with
    | claimed => exact absurd hrow hstatus
    | _ => simp [hrow, Placed]
  · rw [Table.find?_set_of_ne (hid ▸ Ne.symm hsame)]
    exact h.placed id'

/-- A call after which a message has another status completes it, or does not. -/
lemma Tracked.completed_overwritten (h : Tracked U ls t) {l : QueueLabel T} (row' : QueueRow T)
    (hbefore : (t.find? row'.id).map QueueRow.status ≠ some .completed)
    (hl : ∀ id, (∃ i, l = ⟨i, .complete id, .ok ()⟩) ↔ id = row'.id ∧ row'.status = .completed) :
    (((t.set row').find? id).map QueueRow.status = some .completed ↔ Completed id (ls ++ [l])) := by
  rw [completed_concat, hl, ← h.completed id, Table.find?_set]
  split_ifs with hsame
  · subst hsame
    simp [hbefore]
  · simp [hsame]

/-- A call that leaves the table as it is completes nothing. -/
lemma Tracked.completed_unchanged (h : Tracked U ls t) {l : QueueLabel T}
    (hl : ∀ i, l ≠ ⟨i, .complete id, .ok ()⟩) :
    (t.find? id).map QueueRow.status = some .completed ↔ Completed id (ls ++ [l]) := by
  rw [completed_concat, ← h.completed id]
  simp [hl]

lemma Tracked.completed_step (h : Tracked U ls t) (hown : ReportsOwn ls ⟨i, op, a⟩)
    (did : Did U t op a t') : ∀ id, (t'.find? id).map QueueRow.status = some .completed ↔
      Completed id (ls ++ [⟨i, op, a⟩]) := by
  intro id'
  cases did with
  | @enqueued queueName payload id now canonical fresh =>
    apply h.completed_overwritten (newRow id queueName payload now)
    · rw [show (newRow id queueName payload now).id = id from rfl, fresh]
      simp
    · simp [newRow]
  | @delivered queueName row now found waiting inRange =>
    apply h.completed_overwritten (claimedRow row now)
    · rw [show (claimedRow row now).id = row.id from rfl, found, Option.map_some,
        (waiting_iff.mp waiting).2]
      simp
    · simp [claimedRow]
  | @completed s id row now parsed found =>
    obtain rfl := Table.key_of_find? found
    obtain ⟨hstatus, -⟩ := erase_of_placed (h.placed s) hown
    obtain ⟨rfl, -⟩ := h.report hown parsed
    apply h.completed_overwritten (completedRow row now)
    · rw [show (completedRow row now).id = row.id from rfl, hstatus]
      simp
    · simp [completedRow, eq_comm]
  | @failed s error id row parsed found =>
    obtain rfl := Table.key_of_find? found
    obtain ⟨hstatus, -⟩ := erase_of_placed (h.placed s) hown
    obtain ⟨rfl, -⟩ := h.report hown parsed
    apply h.completed_overwritten (failedRow row error)
    · rw [show (failedRow row error).id = row.id from rfl, hstatus]
      simp
    · simp [failedRow]
  | @completedNone s id parsed absent =>
    obtain ⟨-, ⟨row, hfind⟩, -⟩ := h.report hown parsed
    rw [absent] at hfind
    cases hfind
  | nothing | failedNone | rejected =>
    refine h.completed_unchanged fun j hl => ?_
    cases hl

/-- Every call keeps track of the messages, where workers report on nothing but their own. -/
lemma Tracked.step (h : Tracked U ls t) (hown : ReportsOwn ls ⟨i, op, a⟩) (did : Did U t op a t') :
    Tracked U (ls ++ [⟨i, op, a⟩]) t' := by
  refine ⟨h.toRecorded.step did, ?_, h.completed_step hown did⟩
  cases did with
  | @enqueued queueName payload id now canonical fresh =>
    intro id'
    rw [holders_concat, Table.find?_set]
    have hplaced := h.placed id'
    split_ifs with hsame
    · have hid : id' = id := hsame
      rw [hid, fresh] at hplaced
      rw [hid]
      exact hplaced
    · exact hplaced
  | @delivered queueName row now found waiting inRange =>
    intro id'
    rw [holders_concat, Table.find?_set]
    have hplaced := h.placed id'
    by_cases hsame : id' = row.id
    · subst hsame
      rw [found, Option.map_some, (waiting_iff.mp waiting).2] at hplaced
      have hnobody : holders row.id ls = [] := hplaced
      rw [if_pos (show row.id = (claimedRow row now).id from rfl), hnobody]
      exact ⟨i, if_pos rfl⟩
    · simp only [hold]
      rwa [if_neg (Ne.symm hsame), if_neg (show id' ≠ (claimedRow row now).id from hsame)]
  | @completed s id row now parsed found =>
    have hid := Table.key_of_find? found
    exact h.reported hown parsed (completedRow row now) hid (fun h => by cases h) fun _ _ => rfl
  | @failed s error id row parsed found =>
    have hid := Table.key_of_find? found
    exact h.reported hown parsed (failedRow row error) hid (fun h => by cases h) fun _ _ => rfl
  | nothing =>
    intro id'
    rw [holders_concat]
    exact h.placed id'
  | @completedNone s id parsed absent =>
    obtain ⟨-, ⟨row, hfind⟩, -⟩ := h.report hown parsed
    rw [absent] at hfind
    cases hfind
  | @failedNone s error id parsed absent =>
    obtain ⟨-, ⟨row, hfind⟩, -⟩ := h.report hown parsed
    rw [absent] at hfind
    cases hfind
  | rejected =>
    intro id'
    rw [holders_concat, hold_error]
    exact h.placed id'

/-- What a call receives was with nobody. -/
lemma Tracked.receives (h : Tracked U ls t) (did : Did U t op a t') :
    ReceivesOwn ls ⟨i, op, a⟩ := by
  rintro j queueName message hl
  cases did with
  | @delivered queueName' row now found waiting inRange =>
    cases hl
    obtain ⟨rfl, hpending⟩ := waiting_iff.mp waiting
    have hplaced := h.placed row.id
    have hattempts := h.attempts row.id
    rw [found] at hplaced hattempts
    rw [Option.map_some, hpending] at hplaced
    refine ⟨?_, hplaced, congrArg (· + 1) hattempts.symm⟩
    rw [← h.stored]
    exact List.mem_map_of_mem (Table.mem_of_find? found)
  | _ => cases hl

/-- A claim that runs while no row is locked takes the oldest pending message of its queue. -/
structure ClaimsOldest (U : UuidType) (t : QueueTable T) (o : QueueOracle T) (queueName : JsString)
    (a : Except Thrown (Option (QueueMessage T))) : Prop where
  some : ∀ message, a = .ok (some message) → ∃ row, t.find? message.id = some row ∧
    row.queueName = queueName ∧ row.status = .pending ∧
    ∀ r ∈ t.rows, r.queueName = queueName → r.status = .pending → row.createdAt ≤ r.createdAt
  none : a = .ok none → ∀ r ∈ t.rows, r.queueName = queueName → r.status ≠ .pending
  /-- It fails only at a message that was delivered as often as the column can count. -/
  error : ∀ e, a = .error e → ∃ row ∈ t.rows, row.queueName = queueName ∧
    row.status = .pending ∧ maxAttempts ≤ row.attempts

lemma claimsOldest {o : QueueOracle T} (hunlocked : o.scan.Perm t.rows) (hfault : o.fault = none)
    {queueName : JsString} {a : Except Thrown (Option (QueueMessage T))}
    (h : perform U o (.claim queueName) t = (a, t')) : ClaimsOldest U t o queueName a := by
  simp only [perform, hfault, execute, claimNext] at h
  cases holdest : oldest queueName o.scan with
  | none =>
    rw [holdest] at h
    cases h
    refine ⟨fun _ h => (by cases h), fun _ r hr hqueue hpending => ?_, fun _ h => (by cases h)⟩
    have hnone := oldest_eq_none.mp holdest r (hunlocked.mem_iff.mpr hr)
    rw [waiting_iff.mpr ⟨hqueue, hpending⟩] at hnone
    cases hnone
  | some row =>
    obtain ⟨hscan, hwaiting, hfirst⟩ := oldest_some holdest
    obtain ⟨hqueue, hpending⟩ := waiting_iff.mp hwaiting
    have hmem := hunlocked.mem_iff.mp hscan
    rw [holdest] at h
    dsimp only at h
    split_ifs at h with hrange
    · cases h
      refine ⟨fun message hmessage => ?_, fun h => (by cases h), fun _ h => (by cases h)⟩
      cases hmessage
      refine ⟨row, Table.find?_key hmem, hqueue, hpending, fun r hr hqueue' hpending' => ?_⟩
      exact hfirst r (hunlocked.mem_iff.mpr hr) (waiting_iff.mpr ⟨hqueue', hpending'⟩)
    · cases h
      refine ⟨fun _ h => (by cases h), fun h => (by cases h), fun _ _ => ?_⟩
      exact ⟨row, hmem, hqueue, hpending, not_lt.mp hrange⟩

lemma Tracked.empty : Tracked U [] (∅ : QueueTable T) :=
  ⟨Recorded.empty, fun _ => rfl, by simp [Completed, Table.find?]⟩

/-- A message is pending as long as nobody has it and it was not completed. -/
lemma Tracked.pending_iff (h : Tracked U ls t) :
    (t.find? id).map QueueRow.status = some .pending ↔
      id ∈ (enqueued ls).map Prod.fst ∧ holders id ls = [] ∧ ¬ Completed id ls := by
  have hplaced := h.placed id
  rw [← h.completed id, ← h.stored, List.map_map]
  cases hfind : t.find? id with
  | none =>
    have habsent := Table.find?_eq_none_iff.mp hfind
    simpa using fun row hrow hid => absurd hid (habsent row hrow)
  | some row =>
    have hmem : ∃ row ∈ t.rows, row.id = id :=
      ⟨row, Table.mem_of_find? hfind, Table.key_of_find? hfind⟩
    rw [hfind, Option.map_some] at hplaced
    cases hstatus : row.status with
    | pending =>
      rw [hstatus] at hplaced
      have hnobody : holders id ls = [] := hplaced
      simpa [hstatus, hnobody] using hmem
    | claimed =>
      rw [hstatus] at hplaced
      obtain ⟨i, hi⟩ := hplaced
      simp [hstatus, hi]
    | completed => simp [hstatus]

/-- What holds of the queues after a run of their workers. -/
structure Sound (U : UuidType) (ls : List (QueueLabel T)) (t : QueueTable T) : Prop
    extends Tracked U ls t where
  pending : ∀ id, (t.find? id).map QueueRow.status = some .pending ↔
    id ∈ (enqueued ls).map Prod.fst ∧ holders id ls = [] ∧ ¬ Completed id ls
  received : Always ReceivesOwn ls
  next : ∀ o : QueueOracle T, o.scan.Perm t.rows → o.fault = none → ∀ queueName a t',
    perform U o (.claim queueName) t = (a, t') → ClaimsOldest U t o queueName a

/-- Where workers report on nothing but what they have received, and once, every message that was
enqueued stays in the table, and is pending, completed, or with exactly one worker. -/
theorem queues_sound (U : UuidType) {ls : List (QueueLabel T)} {t : QueueTable T}
    (trace : Trace (exec U) ∅ ls t) (hown : Always ReportsOwn ls) : Sound U ls t := by
  have hsound : Tracked U ls t ∧ Always ReceivesOwn ls := by
    apply trace.invariant (P := fun ls t => Tracked U ls t ∧ Always ReceivesOwn ls)
      ⟨Tracked.empty, .nil⟩ ?_ hown
    rintro ls t₁ i op a t₂ ⟨htracked, hreceived⟩ hreports step
    have did := did_of_exec step
    exact ⟨htracked.step hreports did, Always.concat_iff.mpr ⟨hreceived, htracked.receives did⟩⟩
  exact ⟨hsound.1, fun _ => hsound.1.pending_iff, hsound.2, fun o hunlocked hfault _ _ _ =>
    claimsOldest hunlocked hfault⟩

/-! Two workers on two queues: the first one fails its message, and the second one receives it. -/

def uuidOf (digit : Char) : JsString :=
  JsString.ofString "00000000-0000-0000-0000-00000000000" ++ utf16 digit

/-- The call at a time, with the `uuid` that it would enqueue a message under. -/
def called (i : ℕ) (now : ℤ) (op : QueueOp ℕ) (digit : Char) : ℕ × (ℤ × JsString) × QueueOp ℕ :=
  (i, (now, uuidOf digit), op)

def retryScript : List (ℕ × (ℤ × JsString) × QueueOp ℕ) :=
  [called 0 0 (.enqueue "memos" 7) '1', called 0 1 (.enqueue "mails" 8) '2',
    called 1 2 (.claim "memos") '3', called 2 3 (.claim "memos") '3',
    called 2 4 (.claim "mails") '3', called 1 5 (.fail (uuidOf '1') "boom") '3',
    called 2 6 (.complete (uuidOf '2')) '3', called 2 7 (.claim "memos") '3']

def retryHistory : List (QueueLabel ℕ) :=
  [⟨0, .enqueue "memos" 7, .ok (uuidOf '1')⟩, ⟨0, .enqueue "mails" 8, .ok (uuidOf '2')⟩,
    ⟨1, .claim "memos", .ok (some ⟨uuidOf '1', 7, 1⟩)⟩, ⟨2, .claim "memos", .ok none⟩,
    ⟨2, .claim "mails", .ok (some ⟨uuidOf '2', 8, 1⟩)⟩,
    ⟨1, .fail (uuidOf '1') "boom", .ok ()⟩, ⟨2, .complete (uuidOf '2'), .ok ()⟩,
    ⟨2, .claim "memos", .ok (some ⟨uuidOf '1', 7, 2⟩)⟩]

lemma retryHistory_trace : ∃ t, Trace (exec canonicalOnly) ∅ retryHistory t := by
  have hscript : ∃ t, carryOut (attempt canonicalOnly) retryScript ∅ = some (retryHistory, t) :=
    ⟨_, rfl⟩
  obtain ⟨t, hscript⟩ := hscript
  exact ⟨t, Trace.of_carryOut (fun _ _ _ _ _ _ => exec_of_attempt) hscript⟩

theorem queues_sound_retry : ∃ t, Trace (exec canonicalOnly) ∅ retryHistory t ∧
    Sound canonicalOnly retryHistory t := by
  obtain ⟨t, trace⟩ := retryHistory_trace
  exact ⟨t, trace, queues_sound canonicalOnly trace (always_iff_take.mpr (by decide))⟩

end PostgresQueue

end WorkspaceOs
