import WorkspaceOs.Effect.Trace
import WorkspaceOs.Adapters.Database

/-!
# The queue

One table serves every named queue. Each method of a queue is a single statement: a claim takes the
oldest pending message that no other transaction has locked, `complete` and `fail` write the row of
an id whatever state it is in.
-/

namespace WorkspaceOs

open Js Effect Relational

/-- The values of the `status` column. -/
inductive QueueStatus where
  | pending
  | claimed
  | completed
deriving DecidableEq

/-- A row of `queue_messages`. The payload is JSON, which its column keeps. -/
structure QueueRow (T : Type) where
  id : JsString
  queueName : JsString
  payload : T
  status : QueueStatus
  attempts : ℕ
  lastError : Option JsString
  createdAt : ℤ
  claimedAt : Option ℤ
  completedAt : Option ℤ

abbrev QueueTable (T : Type) := Table (QueueRow.id : QueueRow T → JsString)

structure QueueMessage (T : Type) where
  id : JsString
  payload : T
  attempts : ℕ

/-- How the database reads a text as a `uuid`: it gives the one way it writes that `uuid` itself, or
rejects the text. -/
structure UuidType where
  parse : JsString → Option JsString
  parse_idem : ∀ {s id}, parse s = some id → parse id = some id

inductive QueueOp (T : Type) where
  | enqueue (queueName : JsString) (payload : T)
  | claim (queueName : JsString)
  | complete (id : JsString)
  | fail (id error : JsString)

abbrev QueueAns (T : Type) : QueueOp T → Type
  | .enqueue _ _ => JsString
  | .claim _ => Option (QueueMessage T)
  | .complete _ | .fail _ _ => Unit

abbrev QueueLabel (T : Type) := Label (QueueOp T) (QueueAns T) Thrown

/-- `new PostgresQueue(pool, queueName)`. -/
structure PostgresQueue where
  queueName : JsString

namespace PostgresQueue

variable {T : Type}

abbrev QueueProg (T : Type) := Prog (QueueOp T) (QueueAns T) Thrown

def enqueue (queue : PostgresQueue) (payload : T) : QueueProg T JsString :=
  .perform (QueueOp.enqueue queue.queueName payload)

def claim (queue : PostgresQueue) : QueueProg T (Option (QueueMessage T)) :=
  .perform (QueueOp.claim queue.queueName)

def complete (_ : PostgresQueue) (id : JsString) : QueueProg T Unit :=
  .perform (QueueOp.complete id)

def fail (_ : PostgresQueue) (id error : JsString) : QueueProg T Unit :=
  .perform (QueueOp.fail id error)

/-! ### The statements -/

/-- `INSERT INTO queue_messages (queue_name, payload)`, with the defaults of the other columns. -/
def newRow (id queueName : JsString) (payload : T) (now : ℤ) : QueueRow T where
  id
  queueName
  payload
  status := .pending
  attempts := 0
  lastError := none
  createdAt := now
  claimedAt := none
  completedAt := none

/-- `ORDER BY created_at`. -/
def Older (r r' : QueueRow T) : Prop := r.createdAt ≤ r'.createdAt

instance : DecidableRel (Older (T := T)) := fun r r' =>
  inferInstanceAs (Decidable (r.createdAt ≤ r'.createdAt))

instance : IsTrans (QueueRow T) Older := ⟨fun _ _ _ => le_trans⟩

instance : Std.Total (Older (T := T)) := ⟨fun _ _ => le_total ..⟩

/-- `queue_name = $1 AND status = 'pending'`. -/
def waiting (queueName : JsString) (row : QueueRow T) : Bool :=
  row.queueName = queueName ∧ row.status = .pending

/-- The row that a claim locks, of those that a scan finds unlocked. -/
def oldest (queueName : JsString) (scan : List (QueueRow T)) : Option (QueueRow T) :=
  firstBy Older (scan.filter (waiting queueName))

/-- `SET status = 'claimed', claimed_at = now(), attempts = attempts + 1`. -/
def claimedRow (row : QueueRow T) (now : ℤ) : QueueRow T :=
  { row with status := .claimed, claimedAt := some now, attempts := row.attempts + 1 }

/-- `SET status = 'completed', completed_at = now()`. -/
def completedRow (row : QueueRow T) (now : ℤ) : QueueRow T :=
  { row with status := .completed, completedAt := some now }

/-- `SET status = 'pending', last_error = $2, claimed_at = null`. -/
def failedRow (row : QueueRow T) (error : JsString) : QueueRow T :=
  { row with status := .pending, lastError := some error, claimedAt := none }

/-- The largest value of the `attempts` column. -/
def maxAttempts : ℕ := 2147483647

/-- The statement of `claim`, which fails where `attempts` leaves the range of its column. -/
def claimNext (t : QueueTable T) (scan : List (QueueRow T)) (now : ℤ) (queueName : JsString) :
    Except Thrown (Option (QueueMessage T)) × QueueTable T :=
  match oldest queueName scan with
  | none => (.ok none, t)
  | some row =>
    if row.attempts < maxAttempts then
      (.ok (some ⟨row.id, row.payload, row.attempts + 1⟩), t.set (claimedRow row now))
    else (.error (.database .numericValueOutOfRange), t)

/-- `UPDATE queue_messages SET .. WHERE id = $1`. -/
def update (U : UuidType) (t : QueueTable T) (id : JsString) (f : QueueRow T → QueueRow T) :
    Except Thrown Unit × QueueTable T :=
  match U.parse id with
  | none => (.error (.database .invalidTextRepresentation), t)
  | some id =>
    match t.find? id with
    | none => (.ok (), t)
    | some row => (.ok (), t.set (f row))

/-- What a statement gets from outside: the clock, a random `uuid`, the rows a scan finds, and a
fault. -/
structure QueueOracle (T : Type) where
  now : ℤ
  uuid : JsString
  scan : List (QueueRow T)
  fault : Option JsString

/-- One statement on the table. -/
def execute (U : UuidType) (o : QueueOracle T) :
    (op : QueueOp T) → QueueTable T → Except Thrown (QueueAns T op) × QueueTable T
  | .enqueue queueName payload, t => (.ok o.uuid, t.set (newRow o.uuid queueName payload o.now))
  | .claim queueName, t => claimNext t o.scan o.now queueName
  | .complete id, t => update U t id fun row => completedRow row o.now
  | .fail id error, t => update U t id fun row => failedRow row error

/-- The statement, or a fault that changes nothing. -/
def perform (U : UuidType) (o : QueueOracle T) (op : QueueOp T) (t : QueueTable T) :
    Except Thrown (QueueAns T op) × QueueTable T :=
  match o.fault with
  | some message => (.error (.foreign message), t)
  | none => execute U o op t

/-- What the outside may be: a random `uuid` is the text of one, and new; a claim finds rows of the
table, all but those that other transactions have locked. -/
def Allowed (U : UuidType) (o : QueueOracle T) (t : QueueTable T) : QueueOp T → Prop
  | .enqueue _ _ => U.parse o.uuid = some o.uuid ∧ t.find? o.uuid = none
  | .claim _ => ∀ row ∈ o.scan, row ∈ t.rows
  | .complete _ | .fail _ _ => True

/-- The semantics of the queues, whoever calls them. -/
def exec (U : UuidType) : Semantics (QueueOp T) (QueueAns T) Thrown (QueueTable T) :=
  fun _ op t a t' => ∃ o, Allowed U o t op ∧ perform U o op t = (a, t')

/-- The text of a `uuid` as the database writes it: hexadecimal digits in groups of 8, 4, 4, 4 and
12. -/
def isCanonical (s : JsString) : Bool :=
  s.length = 36 && s.zipIdx.all fun (c, n) =>
    if n = 8 || n = 13 || n = 18 || n = 23 then c = 0x2D
    else (0x30 ≤ c && c ≤ 0x39) || (0x61 ≤ c && c ≤ 0x66)

/-- A database that reads no other text as a `uuid`, for concrete runs. -/
def canonicalOnly : UuidType where
  parse s := if isCanonical s then some s else none
  parse_idem := by
    intro s id h
    split_ifs at h with hs
    cases h
    exact if_pos hs

/-- The statement at a time, with a random `uuid`, where nothing is locked and nothing fails. -/
def attempt (U : UuidType) (o : ℤ × JsString) (op : QueueOp T) (t : QueueTable T) :
    Option (Except Thrown (QueueAns T op) × QueueTable T) :=
  if U.parse o.2 = some o.2 ∧ (t.find? o.2).isNone then
    some (perform U ⟨o.1, o.2, t.rows, none⟩ op t)
  else none

lemma exec_of_attempt {U : UuidType} {i : ℕ} {o : ℤ × JsString} {op : QueueOp T}
    {t t' : QueueTable T} {a : Except Thrown (QueueAns T op)}
    (h : attempt U o op t = some (a, t')) :
    exec U i op t a t' := by
  simp only [attempt] at h
  split_ifs at h with hallowed
  refine ⟨_, ?_, Option.some.inj h⟩
  cases op with
  | enqueue => exact ⟨hallowed.1, Option.isNone_iff_eq_none.mp hallowed.2⟩
  | claim => exact fun _ hrow => hrow
  | complete | fail => trivial

/-! ### What a statement did -/

/-- The ways a statement can go. -/
inductive Did (U : UuidType) (t : QueueTable T) :
    (op : QueueOp T) → Except Thrown (QueueAns T op) → QueueTable T → Prop where
  | enqueued {queueName payload id now} (canonical : U.parse id = some id)
      (fresh : t.find? id = none) :
      Did U t (.enqueue queueName payload) (.ok id) (t.set (newRow id queueName payload now))
  | delivered {queueName row now} (found : t.find? row.id = some row)
      (waiting : waiting queueName row = true) (inRange : row.attempts < maxAttempts) :
      Did U t (.claim queueName) (.ok (some ⟨row.id, row.payload, row.attempts + 1⟩))
        (t.set (claimedRow row now))
  | nothing {queueName} : Did U t (.claim queueName) (.ok none) t
  | completed {s id row now} (parsed : U.parse s = some id) (found : t.find? id = some row) :
      Did U t (.complete s) (.ok ()) (t.set (completedRow row now))
  | completedNone {s id} (parsed : U.parse s = some id) (absent : t.find? id = none) :
      Did U t (.complete s) (.ok ()) t
  | failed {s error id row} (parsed : U.parse s = some id) (found : t.find? id = some row) :
      Did U t (.fail s error) (.ok ()) (t.set (failedRow row error))
  | failedNone {s error id} (parsed : U.parse s = some id) (absent : t.find? id = none) :
      Did U t (.fail s error) (.ok ()) t
  | rejected {op e} : Did U t op (.error e) t

variable {U : UuidType} {t t' : QueueTable T} {i : ℕ} {op : QueueOp T}
  {a : Except Thrown (QueueAns T op)} {queueName : JsString} {scan : List (QueueRow T)}
  {row : QueueRow T}

lemma waiting_iff : waiting queueName row = true ↔
    row.queueName = queueName ∧ row.status = .pending := by
  simp [waiting]

/-- A claim locks a pending row of its queue that no pending row of the scan is older than. -/
lemma oldest_some (h : oldest queueName scan = some row) :
    row ∈ scan ∧ waiting queueName row = true ∧
      ∀ r ∈ scan, waiting queueName r = true → Older row r := by
  obtain ⟨hmem, hfirst⟩ := firstBy_some h
  obtain ⟨hscan, hwaiting⟩ := List.mem_filter.mp hmem
  exact ⟨hscan, hwaiting, fun r hr hw => hfirst r (List.mem_filter.mpr ⟨hr, hw⟩)⟩

lemma oldest_eq_none : oldest queueName scan = none ↔
    ∀ r ∈ scan, waiting queueName r = false := by
  rw [oldest, firstBy_eq_none, List.filter_eq_nil_iff]
  simp only [Bool.not_eq_true]

/-- An update by id was rejected, or found no row, or wrote the row. -/
lemma update_cases {s : JsString} {f : QueueRow T → QueueRow T} {a : Except Thrown Unit}
    (h : update U t s f = (a, t')) :
    (∃ e, a = .error e ∧ t' = t) ∨
    ∃ id, U.parse s = some id ∧ a = .ok () ∧ ((t.find? id = none ∧ t' = t) ∨
      ∃ row, t.find? id = some row ∧ t' = t.set (f row)) := by
  simp only [update] at h
  cases hparse : U.parse s with
  | none =>
    rw [hparse] at h
    cases h
    exact .inl ⟨_, rfl, rfl⟩
  | some id =>
    rw [hparse] at h
    dsimp only at h
    cases hfind : t.find? id with
    | none =>
      rw [hfind] at h
      cases h
      exact .inr ⟨id, rfl, rfl, .inl ⟨hfind, rfl⟩⟩
    | some row =>
      rw [hfind] at h
      cases h
      exact .inr ⟨id, rfl, rfl, .inr ⟨row, hfind, rfl⟩⟩

/-- Each statement went one of these ways. -/
lemma did_of_exec (h : exec U i op t a t') : Did U t op a t' := by
  obtain ⟨o, hallowed, h⟩ := h
  simp only [perform] at h
  split at h
  · cases h
    exact .rejected
  cases op with
  | enqueue queueName payload =>
    cases h
    exact .enqueued hallowed.1 hallowed.2
  | claim queueName =>
    simp only [execute, claimNext] at h
    split at h
    · cases h
      exact .nothing
    · rename_i row holdest
      obtain ⟨hscan, hwaiting, -⟩ := oldest_some holdest
      split_ifs at h with hrange
      · cases h
        exact .delivered (Table.find?_key (hallowed row hscan)) hwaiting hrange
      · cases h
        exact .rejected
  | complete s =>
    rcases update_cases h with ⟨e, rfl, rfl⟩ | ⟨id, hparse, rfl, ⟨hfind, rfl⟩ | ⟨row, hfind, rfl⟩⟩
    · exact .rejected
    · exact .completedNone hparse hfind
    · exact .completed hparse hfind
  | fail s error =>
    rcases update_cases h with ⟨e, rfl, rfl⟩ | ⟨id, hparse, rfl, ⟨hfind, rfl⟩ | ⟨row, hfind, rfl⟩⟩
    · exact .rejected
    · exact .failedNone hparse hfind
    · exact .failed hparse hfind

end PostgresQueue

end WorkspaceOs
