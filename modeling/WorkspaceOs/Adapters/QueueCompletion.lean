import WorkspaceOs.Adapters.QueueDelivery

/-!
# Completion

A completed message stays where it is unless a report of failure puts it back: `fail` looks at the
id of a message and not at its status.
-/

namespace WorkspaceOs

open Js Effect Relational

namespace PostgresQueue

variable {T : Type}

/-- The id that a call to `complete` was answered for. -/
def completed? (U : UuidType) : QueueLabel T → Option JsString
  | ⟨_, .complete s, .ok _⟩ => U.parse s
  | _ => none

/-- The message was in the table already. -/
def Known (h : List (QueueLabel T)) (id : JsString) : Prop := id ∈ (enqueued h).map Prod.fst

instance (h : List (QueueLabel T)) (id : JsString) : Decidable (Known h id) :=
  inferInstanceAs (Decidable (id ∈ (enqueued h).map Prod.fst))

/-- `complete` has taken effect on the message. -/
def Done (U : UuidType) (h : List (QueueLabel T)) (id : JsString) : Prop :=
  ∃ pre l post, h = pre ++ l :: post ∧ completed? U l = some id ∧ Known pre id

/-- A report of failure on a message that is done, and that another claim could still count. -/
def Revives (U : UuidType) (h : List (QueueLabel T)) : QueueLabel T → Prop
  | ⟨_, .fail s _, .ok _⟩ => ∃ id, U.parse s = some id ∧ Done U h id ∧ deliveries id h < maxAttempts
  | _ => False

/-- No claim of the run returned a message that was done, and none that comes next in any state of
the run does. -/
structure NeverRedelivered (U : UuidType) (ls : List (QueueLabel T)) : Prop where
  never : Always (fun h l => ∀ id, Done U h id → delivers id l = false) ls
  next : ∀ h, h <+: ls → ∀ t, Trace (exec U) ∅ h t → ∀ i queueName message t',
    exec U i (.claim queueName) t (.ok (some message)) t' → ¬ Done U h message.id

variable {U : UuidType} {ls : List (QueueLabel T)} {t t' : QueueTable T} {i : ℕ} {op : QueueOp T}
  {a : Except Thrown (QueueAns T op)} {row : QueueRow T} {id : JsString}

lemma done_concat {l : QueueLabel T} :
    Done U (ls ++ [l]) id ↔ Done U ls id ∨ completed? U l = some id ∧ Known ls id := by
  constructor
  · rintro ⟨pre, l', post, heq, hcompleted, hknown⟩
    rcases concat_eq_append_cons_iff.mp heq with ⟨post', -, heq⟩ | ⟨-, rfl, rfl⟩
    · exact .inl ⟨pre, l', post', heq, hcompleted, hknown⟩
    · exact .inr ⟨hcompleted, hknown⟩
  · rintro (⟨pre, l', post, rfl, hcompleted, hknown⟩ | ⟨hcompleted, hknown⟩)
    · exact ⟨pre, l', post ++ [l], by simp, hcompleted, hknown⟩
    · exact ⟨ls, l, [], rfl, hcompleted, hknown⟩

/-- A call that failed revives nothing. -/
lemma not_revives_error {e : Thrown} : ¬ Revives U ls ⟨i, op, .error e⟩ := by
  cases op <;> exact id

/-- A call other than a `complete` gets nothing done. -/
lemma Done.of_concat {l : QueueLabel T} (h : Done U (ls ++ [l]) id)
    (hl : completed? U l = none) : Done U ls id := by
  rcases done_concat.mp h with h | ⟨hcompleted, -⟩
  · exact h
  · rw [hl] at hcompleted
    cases hcompleted

lemma Done.known (h : Done U ls id) : Known ls id := by
  obtain ⟨pre, l, post, rfl, -, hknown⟩ := h
  simp only [Known, enqueued, List.filterMap_append, List.map_append] at hknown ⊢
  exact List.mem_append_left _ hknown

lemma claim_of_delivers {l : QueueLabel T} (h : delivers id l = true) :
    ∃ i queueName message, l = ⟨i, .claim queueName, .ok (some message)⟩ ∧ message.id = id := by
  obtain ⟨i, op, a⟩ := l
  cases op with
  | claim queueName =>
    rcases a with e | _ | message
    · cases h
    · cases h
    · exact ⟨i, queueName, message, rfl, by simpa [delivers] using h⟩
  | _ => cases h

lemma Recorded.known_iff (h : Recorded U ls t) : Known ls id ↔ ∃ row, t.find? id = some row := by
  rw [Known, ← h.stored, List.map_map]
  constructor
  · intro hid
    obtain ⟨row, hrow, rfl⟩ := List.mem_map.mp hid
    exact ⟨row, Table.find?_key hrow⟩
  · rintro ⟨row, hrow⟩
    exact List.mem_map.mpr ⟨row, Table.mem_of_find? hrow, Table.key_of_find? hrow⟩

lemma Recorded.deliveries_eq (h : Recorded U ls t) (hrow : t.find? id = some row) :
    deliveries id ls = row.attempts := by
  rw [h.attempts id, hrow]
  rfl

/-- No claim delivers this row again. -/
def Final (row : QueueRow T) : Prop := row.status = .completed ∨ maxAttempts ≤ row.attempts

/-- What is done is final. -/
structure Settled (U : UuidType) (ls : List (QueueLabel T)) (t : QueueTable T) : Prop
    extends Recorded U ls t where
  final : ∀ id row, Done U ls id → t.find? id = some row → Final row

/-- A claim passes over what is final. -/
lemma not_final_of_waiting {queueName : JsString} (hwaiting : waiting queueName row = true)
    (inRange : row.attempts < maxAttempts) : ¬ Final row := by
  rintro (hcompleted | hmax)
  · rw [(waiting_iff.mp hwaiting).2] at hcompleted
    cases hcompleted
  · exact absurd hmax (not_le.mpr inRange)

/-- A call that overwrites one row leaves the others final, and has to leave that one so. -/
lemma Settled.overwritten (h : Settled U ls t) {l : QueueLabel T} {row' : QueueRow T}
    (hrecorded : Recorded U (ls ++ [l]) (t.set row'))
    (hdone : ∀ id, id ≠ row'.id → Done U (ls ++ [l]) id → Done U ls id)
    (hfinal : Done U (ls ++ [l]) row'.id → Final row') : Settled U (ls ++ [l]) (t.set row') := by
  refine ⟨hrecorded, fun id r hid hr => ?_⟩
  by_cases hsame : id = row'.id
  · rw [hsame, Table.find?_set_self] at hr
    cases hr
    exact hfinal (hsame ▸ hid)
  · rw [Table.find?_set_of_ne hsame] at hr
    exact h.final id r (hdone id hsame hid) hr

/-- A call that changes nothing, and gets done nothing that is there. -/
lemma Settled.unchanged (h : Settled U ls t) {l : QueueLabel T}
    (hrecorded : Recorded U (ls ++ [l]) t)
    (hdone : ∀ id, completed? U l = some id → ¬ Known ls id) : Settled U (ls ++ [l]) t := by
  refine ⟨hrecorded, fun id r hid hr => ?_⟩
  rcases done_concat.mp hid with hid | ⟨hcompleted, hknown⟩
  · exact h.final id r hid hr
  · exact absurd hknown (hdone id hcompleted)

/-- Every call keeps what is done final, if it does not revive it. -/
lemma Settled.step (h : Settled U ls t) (hnot : ¬ Revives U ls ⟨i, op, a⟩) (did : Did U t op a t') :
    Settled U (ls ++ [⟨i, op, a⟩]) t' := by
  have hrecorded : Recorded U (ls ++ [⟨i, op, a⟩]) t' := h.toRecorded.step did
  cases did with
  | @enqueued queueName payload id now canonical fresh =>
    refine h.overwritten hrecorded (fun _ _ hid => hid.of_concat rfl) fun hid => ?_
    obtain ⟨row, hrow⟩ := h.toRecorded.known_iff.mp (hid.of_concat rfl).known
    cases fresh.symm.trans hrow
  | @delivered queueName row now found waiting inRange =>
    refine h.overwritten hrecorded (fun _ _ hid => hid.of_concat rfl) fun hid => ?_
    have hfinal : Final row := h.final row.id row (hid.of_concat rfl) found
    exact absurd hfinal (not_final_of_waiting waiting inRange)
  | @completed s id row now parsed found =>
    refine h.overwritten hrecorded (fun id' hne hid => ?_) fun _ => .inl rfl
    rcases done_concat.mp hid with hid | ⟨hcompleted, -⟩
    · exact hid
    · cases parsed.symm.trans hcompleted
      exact absurd (Table.key_of_find? found).symm hne
  | @failed s error id row parsed found =>
    refine h.overwritten hrecorded (fun _ _ hid => hid.of_concat rfl) fun hid => ?_
    obtain rfl : row.id = id := Table.key_of_find? found
    have hmax : ¬ deliveries row.id ls < maxAttempts :=
      fun hlt => hnot ⟨row.id, parsed, hid.of_concat rfl, hlt⟩
    rw [h.toRecorded.deliveries_eq found] at hmax
    exact .inr (not_lt.mp hmax)
  | @completedNone s id parsed absent =>
    refine h.unchanged hrecorded fun id' hcompleted hknown => ?_
    cases parsed.symm.trans hcompleted
    obtain ⟨row, hrow⟩ := h.toRecorded.known_iff.mp hknown
    rw [absent] at hrow
    cases hrow
  | nothing => exact h.unchanged hrecorded fun _ hcompleted => by cases hcompleted
  | failedNone => exact h.unchanged hrecorded fun _ hcompleted => by cases hcompleted
  | rejected =>
    refine h.unchanged hrecorded fun _ hcompleted => ?_
    cases op <;> cases hcompleted

lemma settled_of_trace (trace : Trace (exec U) ∅ ls t)
    (hnot : Always (fun h l => ¬ Revives U h l) ls) : Settled U ls t := by
  have hinitial : Settled U [] (∅ : QueueTable T) := by
    refine ⟨Recorded.empty, ?_⟩
    rintro id row - hrow
    cases hrow
  exact trace.invariant hinitial
    (fun _ _ _ _ _ _ hsettled hnot step => hsettled.step hnot (did_of_exec step)) hnot

/-- While nothing done is revived, no claim returns it. -/
lemma not_done_of_claim (trace : Trace (exec U) ∅ ls t)
    (hnot : Always (fun h l => ¬ Revives U h l) ls) {queueName : JsString}
    {message : QueueMessage T}
    (step : exec U i (.claim queueName) t (.ok (some message)) t') : ¬ Done U ls message.id := by
  intro hdone
  have did := did_of_exec step
  cases did with
  | @delivered _ row now found waiting inRange =>
    have hfinal : Final row := (settled_of_trace trace hnot).final _ _ hdone found
    exact not_final_of_waiting waiting inRange hfinal

/-- A revived message is what some claim of its queue returns next. -/
lemma claim_of_revives {l : QueueLabel T} (trace : Trace (exec U) ∅ (ls ++ [l]) t)
    (hrevives : Revives U ls l) : ∃ queueName message t',
      exec U 0 (.claim queueName) t (.ok (some message)) t' ∧ Done U (ls ++ [l]) message.id := by
  obtain ⟨t₁, before, step⟩ := trace.of_concat
  have hrecorded := recorded_of_trace before
  obtain ⟨i, op, a⟩ := l
  have did : Did U t₁ op a t := did_of_exec step
  cases did with
  | @failed s error id row parsed found =>
    obtain ⟨id', parsed', hdone, hlt⟩ := hrevives
    cases parsed.symm.trans parsed'
    rw [hrecorded.deliveries_eq found] at hlt
    have hscan : oldest row.queueName [failedRow row error] = some (failedRow row error) := by
      simp [oldest, waiting, failedRow, firstBy]
    refine ⟨row.queueName, ⟨row.id, row.payload, row.attempts + 1⟩,
      (t₁.set (failedRow row error)).set (claimedRow (failedRow row error) 0),
      ⟨⟨0, [], [failedRow row error], none⟩, ?_, ?_⟩, ?_⟩
    · exact fun r hr => List.mem_singleton.mp hr ▸ Table.mem_set.mpr (.inl rfl)
    · simp only [perform, execute, claimNext, hscan]
      exact if_pos hlt
    · exact done_concat.mpr (.inl (Table.key_of_find? found ▸ hdone))
  | @failedNone s error id parsed absent =>
    obtain ⟨id', parsed', hdone, -⟩ := hrevives
    cases parsed.symm.trans parsed'
    obtain ⟨row, hrow⟩ := hrecorded.known_iff.mp hdone.known
    rw [absent] at hrow
    cases hrow
  | rejected => exact absurd hrevives not_revives_error
  | _ => exact hrevives.elim

/-- A run delivers nothing again that is done exactly when it revives nothing that is done. -/
theorem neverRedelivered_iff (U : UuidType) {ls : List (QueueLabel T)} {t : QueueTable T}
    (trace : Trace (exec U) ∅ ls t) :
    NeverRedelivered U ls ↔ Always (fun h l => ¬ Revives U h l) ls := by
  constructor
  · intro hnever pre l post heq hrevives
    have hsplit : ls = (pre ++ [l]) ++ post := by simp [heq]
    obtain ⟨t₁, before, -⟩ := Trace.of_append (hsplit ▸ trace)
    obtain ⟨queueName, message, t', step, hdone⟩ := claim_of_revives before hrevives
    exact hnever.next (pre ++ [l]) ⟨post, hsplit.symm⟩ t₁ before 0 queueName message t' step hdone
  · intro hnot
    constructor
    case never =>
      intro pre l post heq id hdone
      have hsplit : ls = (pre ++ [l]) ++ post := by simp [heq]
      obtain ⟨t₂, upto, -⟩ := Trace.of_append (hsplit ▸ trace)
      obtain ⟨t₁, before, step⟩ := upto.of_concat
      rw [← Bool.not_eq_true]
      intro hdelivers
      obtain ⟨i, queueName, message, rfl, rfl⟩ := claim_of_delivers hdelivers
      exact not_done_of_claim before (heq ▸ hnot).of_append step hdone
    case next =>
      rintro h ⟨post, rfl⟩ t₁ before i queueName message t' step
      exact not_done_of_claim before hnot.of_append step

/-! A worker reports a failure after its message was completed. -/

theorem neverRedelivered_iff_retry : ∃ t, Trace (exec canonicalOnly) ∅ retryHistory t ∧
    (NeverRedelivered canonicalOnly retryHistory ↔
      Always (fun h l => ¬ Revives canonicalOnly h l) retryHistory) := by
  obtain ⟨t, trace⟩ := retryHistory_trace
  exact ⟨t, trace, neverRedelivered_iff canonicalOnly trace⟩

def lateScript : List (ℕ × (ℤ × JsString) × QueueOp ℕ) :=
  [called 0 0 (.enqueue "memos" 7) '1', called 1 1 (.claim "memos") '2',
    called 1 2 (.complete (uuidOf '1')) '2', called 1 3 (.fail (uuidOf '1') "timeout") '2',
    called 2 4 (.claim "memos") '2']

def lateHistory : List (QueueLabel ℕ) :=
  [⟨0, .enqueue "memos" 7, .ok (uuidOf '1')⟩,
    ⟨1, .claim "memos", .ok (some ⟨uuidOf '1', 7, 1⟩)⟩, ⟨1, .complete (uuidOf '1'), .ok ()⟩,
    ⟨1, .fail (uuidOf '1') "timeout", .ok ()⟩,
    ⟨2, .claim "memos", .ok (some ⟨uuidOf '1', 7, 2⟩)⟩]

/-- A worker completes its message and reports a failure after that, and another one receives the
message. -/
theorem late_failure_redelivers : ∃ t, Trace (exec canonicalOnly) ∅ lateHistory t ∧
    ¬ NeverRedelivered canonicalOnly lateHistory := by
  have hscript : ∃ t, carryOut (attempt canonicalOnly) lateScript ∅ = some (lateHistory, t) :=
    ⟨_, rfl⟩
  obtain ⟨t, hscript⟩ := hscript
  refine ⟨t, Trace.of_carryOut (fun _ _ _ _ _ _ => exec_of_attempt) hscript, fun hnever => ?_⟩
  have hdone : Done canonicalOnly (lateHistory.take 4) (uuidOf '1') :=
    ⟨lateHistory.take 2, ⟨1, .complete (uuidOf '1'), .ok ()⟩, (lateHistory.drop 3).take 1, rfl,
      by decide, by decide⟩
  have hlast := always_iff_take.mp hnever.never 4 (by decide) (uuidOf '1') hdone
  exact absurd hlast (by decide)

end PostgresQueue

end WorkspaceOs
