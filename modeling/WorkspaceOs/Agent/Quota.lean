import WorkspaceOs.Effect.History
import WorkspaceOs.Agent.Metering
import Mathlib.Algebra.Order.Archimedean.Basic
import Mathlib.Algebra.Order.BigOperators.Group.List
import Mathlib.Tactic.Linarith
import Mathlib.Tactic.NormNum

/-!
# The token quota

A call is checked against what its member has used when it is sent, and metered when it is answered.
Calls that are sent while another one of the member is under way are checked against the same usage.
-/

namespace WorkspaceOs

open Js Effect

namespace ModelGateway

variable {Impl : Type}

/-- The tokens of each answer that the calls of a member have got. -/
def tokens (m : JsString) (ls : List (GatewayEvent Impl)) : List ℕ :=
  (answered m ls).map fun answer => answer.promptTokens + answer.completionTokens

/-- Once a single call is left out, what the member has used is below the quota. -/
def BelowQuota (quota : ℚ) (m : JsString) (ls : List (GatewayEvent Impl)) (c : GatewayLoop Impl) :
    Prop :=
  ∃ i, ((usageFor c.store m).totalTokens : ℚ) - ((tokens m ls).getD i 0 : ℕ) < quota

/-- Call `i`, of the member, was sent to a provider and has not been answered yet. -/
def Pending (m : JsString) (ls : List (GatewayEvent Impl)) (i : ℕ) : Prop :=
  ∃ request call, (EventLoop.started ls)[i]? = some (request, some call) ∧ request.memberId = m ∧
    EventLoop.answersTo i ls = []

/-- A call of the member is sent only when no other one is pending. -/
def SentAlone (m : JsString) (h : List (GatewayEvent Impl)) (l : GatewayEvent Impl) : Prop :=
  ∀ request call, l = .call request (some call) → request.memberId = m → ∀ i, ¬ Pending m h i

variable {config : ModelGatewayConfig Impl} {ls : List (GatewayEvent Impl)}
  {c c' : GatewayLoop Impl} {l : GatewayEvent Impl} {m : JsString} {quota : ℚ} {i j : ℕ}
  {request : GatewayCompletionRequest} {call : ProviderCall Impl}
  {next : Option (ProviderCall Impl)} {a : Except Thrown ModelCompletionResult}

lemma totalTokens_eq_sum (run : EventLoop.Run (complete config) initial ls c) (m : JsString) :
    (usageFor c.store m).totalTokens = (tokens m ls).sum := by
  rw [usageFor_eq_tally run m, tokens]
  induction answered m ls with
  | nil => rfl
  | cons answer answers ih =>
    simp only [tally, List.map_cons, List.sum_cons] at ih ⊢
    omega

lemma tokens_concat : tokens m (ls ++ [l]) =
    tokens m ls ++ ((answer? m l).map fun answer =>
      answer.promptTokens + answer.completionTokens).toList := by
  rw [tokens, answered_concat, List.map_append]
  cases answer? m l <;> rfl

/-! ### Pending calls -/

lemma pending_call_iff (h : Tracked ls c) : Pending m (ls ++ [.call request next]) i ↔
    Pending m ls i ∨ i = c.calls.length ∧ next.isSome ∧ request.memberId = m := by
  simp only [Pending, EventLoop.started_call, EventLoop.answersTo_call]
  rw [h.length]
  constructor
  · rintro ⟨r, p, hstarted, hm, hanswers⟩
    rw [List.getElem?_append] at hstarted
    split_ifs at hstarted with hi
    · exact .inl ⟨r, p, hstarted, hm, hanswers⟩
    · have hlast := (List.getElem?_eq_some_iff.mp hstarted).1
      cases List.mem_singleton.mp (List.mem_of_getElem? hstarted)
      rw [List.length_singleton] at hlast
      exact .inr ⟨by omega, rfl, hm⟩
  · rintro (⟨r, p, hstarted, hm, hanswers⟩ | ⟨rfl, hnext, hm⟩)
    · have hi := (List.getElem?_eq_some_iff.mp hstarted).1
      exact ⟨r, p, by rwa [List.getElem?_append_left hi], hm, hanswers⟩
    · obtain ⟨p, rfl⟩ := Option.isSome_iff_exists.mp hnext
      exact ⟨request, p, by simp, hm, h.answersTo_eq_nil (Nat.le_refl _)⟩

lemma pending_answer_iff : Pending m (ls ++ [.answer j request call a next]) i ↔
    Pending m ls i ∧ i ≠ j := by
  simp only [Pending, EventLoop.started_answer]
  by_cases hij : j = i
  · subst hij
    simp
  · simp only [EventLoop.answersTo_of_ne hij]
    exact (and_iff_left (Ne.symm hij)).symm

/-- A call that awaits its provider is pending. -/
lemma Tracked.pending (h : Tracked ls c)
    (awaiting : c.calls[i]? = some (request, inFlight request call)) :
    Pending request.memberId ls i := by
  obtain ⟨next, hstarted, hprogress⟩ := h.progress_of awaiting
  obtain ⟨rfl, hanswers, -⟩ := hprogress.inFlight_of_await
  exact ⟨request, call, hstarted, rfl, hanswers⟩

/-- A pending call awaits its provider. -/
lemma Tracked.awaiting (h : Tracked ls c) (hpending : Pending m ls i) : ∃ request call,
    request.memberId = m ∧ c.calls[i]? = some (request, inFlight request call) := by
  obtain ⟨request, call, hstarted, hm, hanswers⟩ := hpending
  have hi := (List.getElem?_eq_some_iff.mp hstarted).1
  rw [← h.length] at hi
  have hrequest : (c.calls.map Prod.fst)[i]? = some request := by
    rw [h.requests, List.getElem?_map, hstarted]
    rfl
  rw [List.getElem?_map, Option.map_eq_some_iff] at hrequest
  obtain ⟨⟨r, task⟩, hcall, rfl⟩ := hrequest
  have hprogress := h.progress i r _ task hstarted hcall
  rw [hanswers] at hprogress
  cases hprogress with
  | awaiting => exact ⟨r, call, hm, hcall⟩

/-! ### One call at a time -/

/-- A call that passes the checks is one of a member below the quota. -/
lemma usage_lt_of_accept (hquota : config.quotaTokensPerMember = some quota) {usage : UsageMap}
    (h : accept config usage request = .ok call) :
    ((usageFor usage request.memberId).totalTokens : ℚ) < quota := by
  simp only [accept] at h
  split at h
  · cases h
  split at h
  · cases h
  split_ifs at h with hegress hreached
  rw [hquota, Option.any_some, decide_eq_true_eq] at hreached
  exact not_le.mp hreached

/-- At most one call of the member is pending, and only below the quota. -/
structure WithinQuota (quota : ℚ) (m : JsString) (ls : List (GatewayEvent Impl)) : Prop where
  one : ∀ i j, Pending m ls i → Pending m ls j → i = j
  room : ∀ i, Pending m ls i → ((tokens m ls).sum : ℚ) < quota
  below : ∃ i, ((tokens m ls).sum : ℚ) - ((tokens m ls).getD i 0 : ℕ) < quota

/-- Below the quota no call has to be left out. -/
lemma below_of_sum_lt (h : ((tokens m ls).sum : ℚ) < quota) :
    ∃ i, ((tokens m ls).sum : ℚ) - ((tokens m ls).getD i 0 : ℕ) < quota :=
  ⟨(tokens m ls).length, by simpa using h⟩

/-- A call that starts meters nothing. -/
lemma tokens_call : tokens m (ls ++ [.call request next]) = tokens m ls := by
  simp [tokens_concat, answer?]

lemma WithinQuota.called (hwithin : WithinQuota quota m ls) (htracked : Tracked ls c)
    (halone : SentAlone m ls (.call request next))
    (hroom : next.isSome → request.memberId = m → ((tokens m ls).sum : ℚ) < quota) :
    WithinQuota quota m (ls ++ [.call request next]) := by
  have hfirst : next.isSome → request.memberId = m → ∀ i, ¬ Pending m ls i := by
    intro hnext hm
    obtain ⟨p, rfl⟩ := Option.isSome_iff_exists.mp hnext
    exact halone request p rfl hm
  constructor
  case one =>
    intro i j hi hj
    rcases (pending_call_iff htracked).mp hi with hi | ⟨rfl, hnext, hm⟩ <;>
      rcases (pending_call_iff htracked).mp hj with hj | ⟨rfl, hnext', hm'⟩
    · exact hwithin.one i j hi hj
    · exact absurd hi (hfirst hnext' hm' i)
    · exact absurd hj (hfirst hnext hm j)
    · rfl
  case room =>
    intro i hi
    rw [tokens_call]
    rcases (pending_call_iff htracked).mp hi with hi | ⟨-, hnext, hm⟩
    · exact hwithin.room i hi
    · exact hroom hnext hm
  case below =>
    rw [tokens_call]
    exact hwithin.below

/-- The answer to a pending call of the member leaves none pending, and can be left out. -/
lemma WithinQuota.answered (hwithin : WithinQuota quota m ls)
    (hpending : Pending request.memberId ls j) :
    WithinQuota quota m (ls ++ [.answer j request call a none]) := by
  by_cases hm : request.memberId = m
  · subst hm
    have hnone : ∀ i, ¬ Pending request.memberId (ls ++ [.answer j request call a none]) i := by
      intro i hi
      obtain ⟨hold, hne⟩ := pending_answer_iff.mp hi
      exact hne (hwithin.one i j hold hpending)
    have hroom := hwithin.room j hpending
    refine ⟨fun i _ hi => absurd hi (hnone i), fun i hi => absurd hi (hnone i), ?_⟩
    cases a with
    | error e =>
      apply below_of_sum_lt
      simpa [tokens_concat, answer?] using hroom
    | ok result =>
      refine ⟨(tokens request.memberId ls).length, ?_⟩
      simpa [tokens_concat, answer?] using hroom
  · have htokens : tokens m (ls ++ [.answer j request call a none]) = tokens m ls := by
      rw [tokens_concat]
      cases a <;> simp [answer?, hm]
    refine ⟨fun i i' hi hi' => ?_, fun i hi => ?_, htokens ▸ hwithin.below⟩
    · exact hwithin.one i i' (pending_answer_iff.mp hi).1 (pending_answer_iff.mp hi').1
    · rw [htokens]
      exact hwithin.room i (pending_answer_iff.mp hi).1

/-- Calls that are sent one at a time stay within the quota. -/
lemma withinQuota (hquota : config.quotaTokensPerMember = some quota) (hpositive : 0 < quota)
    (run : EventLoop.Run (complete config) initial ls c) (halone : Always (SentAlone m) ls) :
    WithinQuota quota m ls := by
  induction run with
  | refl => exact ⟨by simp [Pending, EventLoop.started], by simp [Pending, EventLoop.started], 0,
      by simpa [tokens, ModelGateway.answered] using hpositive⟩
  | snoc run step ih =>
    have htracked := tracked_of_run run
    obtain ⟨hbefore, hlast⟩ := Always.concat_iff.mp halone
    have hwithin := ih hbefore
    cases htracked.stepped step with
    | sent accepted =>
      apply hwithin.called htracked hlast
      rintro - rfl
      rw [← totalTokens_eq_sum run]
      exact usage_lt_of_accept hquota accepted
    | refused rejected => exact hwithin.called htracked hlast (by simp)
    | answered awaiting => exact hwithin.answered (htracked.pending awaiting)
    | failed awaiting => exact hwithin.answered (htracked.pending awaiting)

/-! ### Two calls at a time -/

/-- An answer of `n` tokens. -/
def answerOf (n : ℕ) : ModelCompletionResult := ⟨[], ⟨n, 0⟩⟩

lemma step_answerOf (config : ModelGatewayConfig Impl)
    (awaiting : c.calls[i]? = some (request, inFlight request call)) (n : ℕ) :
    EventLoop.Step (complete config) c (.answer i request call (.ok (answerOf n)) none)
      ⟨metered c.store request.memberId (answerOf n).usage,
        c.calls.set i (request, .ret (answerOf n))⟩ :=
  .answer awaiting rfl

/-- Two calls that are pending can both still be answered with any number of tokens. -/
lemma run_answers (htracked : Tracked ls c) (hi : Pending m ls i) (hj : Pending m ls j)
    (hij : i ≠ j) (n : ℕ) : ∃ answers c', (∀ l ∈ answers, l.isAnswer = true) ∧
      EventLoop.Run (complete config) c answers c' ∧
      tokens m (ls ++ answers) = tokens m ls ++ [n, n] := by
  obtain ⟨r, p, hm, hr⟩ := htracked.awaiting hi
  obtain ⟨r', p', hm', hr'⟩ := htracked.awaiting hj
  have first := step_answerOf config hr n
  have hstill : (c.calls.set i (r, .ret (answerOf n)))[j]? = some (r', inFlight r' p') := by
    rwa [List.getElem?_set_ne hij]
  have second := step_answerOf config
    (c := ⟨metered c.store r.memberId (answerOf n).usage, c.calls.set i (r, .ret (answerOf n))⟩)
    hstill n
  refine ⟨[.answer i r p (.ok (answerOf n)) none, .answer j r' p' (.ok (answerOf n)) none], _, ?_,
    (EventLoop.Run.single first).append (.single second), ?_⟩
  · simp [EventLoop.Event.isAnswer]
  · rw [List.append_cons ls, tokens_concat, tokens_concat]
    simp [answer?, hm, hm', answerOf]

/-- Two answers that reach the quota each leave the member at the quota without either one. -/
lemma not_below_of_two (hsum : (usageFor c.store m).totalTokens = (tokens m ls).sum)
    (before : List ℕ) {n : ℕ} (htokens : tokens m ls = before ++ [n, n]) (hn : quota ≤ n) :
    ¬ BelowQuota quota m ls c := by
  rintro ⟨i, hi⟩
  have hle : (before ++ [n, n]).getD i 0 + n ≤ (before ++ [n, n]).sum := by
    simp only [List.sum_append, List.sum_cons, List.sum_nil, Nat.add_zero]
    rw [List.getD_eq_getElem?_getD, List.getElem?_append]
    split_ifs with hlt
    · have hmem := List.le_sum_of_mem (List.getElem_mem hlt)
      rw [List.getElem?_eq_getElem hlt, Option.getD_some]
      omega
    · generalize i - before.length = k
      match k with
      | 0 | 1 => simp
      | k + 2 => simp; omega
  rw [hsum, htokens] at hi
  have hle' : (((before ++ [n, n]).getD i 0 : ℕ) : ℚ) + n ≤ (before ++ [n, n]).sum := by
    exact_mod_cast hle
  linarith

/-- In every state of a run, and however the providers answer the calls that are pending there, the
member is below its quota without a single call. -/
def QuotaHeld (config : ModelGatewayConfig Impl) (quota : ℚ) (m : JsString)
    (ls : List (GatewayEvent Impl)) : Prop :=
  ∀ h c answers c', h <+: ls → EventLoop.Run (complete config) initial h c →
    (∀ l ∈ answers, l.isAnswer = true) → EventLoop.Run (complete config) c answers c' →
    BelowQuota quota m (h ++ answers) c'

/-- The quota holds up to one call exactly when the member's calls are sent one at a time. -/
theorem quotaHeld_iff (config : ModelGatewayConfig Impl) {quota : ℚ}
    (hquota : config.quotaTokensPerMember = some quota) (hpositive : 0 < quota) (m : JsString)
    {ls : List (GatewayEvent Impl)} {c : GatewayLoop Impl}
    (run : EventLoop.Run (complete config) initial ls c) :
    QuotaHeld config quota m ls ↔ Always (SentAlone m) ls := by
  constructor
  · intro hheld pre l post heq request call hl hm i hpending
    subst hl heq
    obtain ⟨c₂, before, -⟩ := (List.append_cons pre _ post ▸ run).of_append
    obtain ⟨c₁, start, -⟩ := before.of_concat
    have htracked := tracked_of_run before
    -- the call that was pending and the one that was just sent
    have hold : Pending m (pre ++ [.call request (some call)]) i :=
      (pending_call_iff (tracked_of_run start)).mpr (.inl hpending)
    have hnew : Pending m (pre ++ [.call request (some call)]) c₁.calls.length :=
      (pending_call_iff (tracked_of_run start)).mpr (.inr ⟨rfl, rfl, hm⟩)
    have hne : i ≠ c₁.calls.length := by
      obtain ⟨r, p, -, hcall⟩ := (tracked_of_run start).awaiting hpending
      exact (List.getElem?_eq_some_iff.mp hcall).1.ne
    obtain ⟨n, hn⟩ := exists_nat_ge quota
    obtain ⟨answers, c', hanswers, after, htokens⟩ := run_answers htracked hold hnew hne n
    have hbelow := hheld _ c₂ answers c' ⟨post, by simp⟩ before hanswers after
    exact not_below_of_two (totalTokens_eq_sum (before.append after) m) _ htokens hn hbelow
  · rintro halone h c answers c' ⟨post, rfl⟩ before hanswers after
    have halone' : Always (SentAlone m) (h ++ answers) := by
      apply halone.of_append.append
      rintro l hl pre request call rfl
      exact absurd (hanswers _ hl) (by simp [EventLoop.Event.isAnswer])
    have run' := before.append after
    obtain ⟨i, hi⟩ := (withinQuota hquota hpositive run' halone').below
    exact ⟨i, by rwa [totalTokens_eq_sum run' m]⟩

/-- The gateway of the concrete runs, with a quota of a single token. -/
def tinyQuota : ModelGatewayConfig Unit := { triageConfig with quotaTokensPerMember := some 1 }

/-- One call goes through, and the next one is refused. -/
theorem quotaHeld_iff_sequential : ∃ ls c,
    EventLoop.Run (complete tinyQuota) initial ls c ∧ tokens "m_1" ls = [4] ∧
      (EventLoop.started ls).map (fun (_, sent) => sent.isSome) = [true, false] ∧
      (QuotaHeld tinyQuota 1 "m_1" ls ↔ Always (SentAlone "m_1") ls) := by
  have hfollow : (EventLoop.follow (complete tinyQuota)
      [.call (triageRequest "m_1"), answerWith 0 3 1, .call (triageRequest "m_1")] initial).map
      (fun (ls, _) => (tokens "m_1" ls, (EventLoop.started ls).map fun (_, sent) => sent.isSome)) =
        some ([4], [true, false]) := by
    decide +kernel
  obtain ⟨⟨ls, c⟩, hrun, hend⟩ := Option.map_eq_some_iff.mp hfollow
  obtain ⟨htokens, hsent⟩ := Prod.mk.inj hend
  have run := EventLoop.Run.of_follow hrun
  exact ⟨ls, c, run, htokens, hsent, quotaHeld_iff tinyQuota rfl (by norm_num) "m_1" run⟩

/-- Two calls are sent before either is answered. Both are metered, and the member has reached the
quota with each of them alone. -/
theorem concurrent_calls_exceed : ∃ ls c,
    EventLoop.Run (complete tinyQuota) initial ls c ∧ (usageFor c.store "m_1").totalTokens = 8 ∧
      ¬ BelowQuota 1 "m_1" ls c := by
  have hfollow : (EventLoop.follow (complete tinyQuota)
      [.call (triageRequest "m_1"), .call (triageRequest "m_1"), answerWith 0 3 1,
        answerWith 1 3 1] initial).map
      (fun (ls, c) => ((usageFor c.store "m_1").totalTokens, tokens "m_1" ls)) =
        some (8, [4, 4]) := by
    decide +kernel
  obtain ⟨⟨ls, c⟩, hrun, hend⟩ := Option.map_eq_some_iff.mp hfollow
  obtain ⟨htotal, htokens⟩ := Prod.mk.inj hend
  refine ⟨ls, c, EventLoop.Run.of_follow hrun, htotal, ?_⟩
  have hsum : (usageFor c.store "m_1").totalTokens = (tokens "m_1" ls).sum := by
    rw [htotal, htokens]
    rfl
  exact not_below_of_two hsum [] htokens (by norm_num)

end ModelGateway

end WorkspaceOs
