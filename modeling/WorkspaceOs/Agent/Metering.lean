import WorkspaceOs.Agent.ModelGateway
import Mathlib.Algebra.GroupWithZero.Nat

/-!
# Every answer is metered once

Metering reads and writes the usage of a member within one part of a call, so no answer is lost,
however the calls of the members interleave.
-/

namespace WorkspaceOs

open Js Effect

namespace ModelGateway

variable {Impl : Type}

/-- What an event meters for a member. -/
def answer? (m : JsString) : GatewayEvent Impl → Option ModelUsage
  | .answer _ request _ (.ok result) _ => if request.memberId = m then some result.usage else none
  | _ => none

/-- The answers that the calls of a member have got. -/
def answered (m : JsString) (ls : List (GatewayEvent Impl)) : List ModelUsage :=
  ls.filterMap (answer? m)

/-- The sum of some answers. -/
def tally (answers : List ModelUsage) : MemberUsage where
  promptTokens := (answers.map ModelUsage.promptTokens).sum
  completionTokens := (answers.map ModelUsage.completionTokens).sum
  totalTokens := (answers.map ModelUsage.promptTokens).sum +
    (answers.map ModelUsage.completionTokens).sum

variable {config : ModelGatewayConfig Impl} {ls : List (GatewayEvent Impl)}
  {c c' : GatewayLoop Impl} {l : GatewayEvent Impl} {m : JsString}

lemma answered_concat : answered m (ls ++ [l]) = answered m ls ++ (answer? m l).toList := by
  rw [answered, List.filterMap_append]
  cases hl : answer? m l <;> simp [answered, hl]

lemma tally_concat (answers : List ModelUsage) (answer : ModelUsage) :
    tally (answers ++ [answer]) =
      ⟨(tally answers).promptTokens + answer.promptTokens,
        (tally answers).completionTokens + answer.completionTokens,
        (tally answers).promptTokens + answer.promptTokens +
          ((tally answers).completionTokens + answer.completionTokens)⟩ := by
  simp [tally]

/-- A step meters for a member what the event says. -/
lemma usageFor_of_stepped (h : Stepped config c l c') (m : JsString)
    (hbefore : usageFor c.store m = tally (answered m ls)) :
    usageFor c'.store m = tally (answered m (ls ++ [l])) := by
  rw [answered_concat]
  cases h with
  | @answered i r p result awaiting =>
    by_cases hm : r.memberId = m
    · subst hm
      have hl : answer? r.memberId (.answer i r p (.ok result) none : GatewayEvent Impl) =
          some result.usage := if_pos rfl
      rw [hl, Option.toList_some, tally_concat, ← hbefore]
      exact usageFor_metered
    · have hl : answer? m (.answer i r p (.ok result) none : GatewayEvent Impl) = none := if_neg hm
      rw [hl, Option.toList_none, List.append_nil, ← hbefore]
      exact usageFor_metered_of_ne (Ne.symm hm)
  | _ => simpa [answer?] using hbefore

/-- The usage of a member is the sum of its answers. -/
lemma usageFor_eq_tally (run : EventLoop.Run (complete config) initial ls c) (m : JsString) :
    usageFor c.store m = tally (answered m ls) :=
  run_invariant (P := fun ls c => usageFor c.store m = tally (answered m ls)) rfl
    (fun _ _ _ _ _ hbefore step => usageFor_of_stepped step m hbefore) run

/-- What holds in every state that a gateway can get to. -/
structure ExactMetering (config : ModelGatewayConfig Impl) (ls : List (GatewayEvent Impl))
    (c : GatewayLoop Impl) : Prop where
  /-- Every member has used what its calls were answered. -/
  usage : ∀ m, usageFor c.store m = tally (answered m ls)
  /-- A call was refused and never sent, or it was sent and awaits its provider, or it was answered
  once, or its provider failed once. -/
  calls : Tracked ls c
  /-- A call is sent to a provider exactly when it passes the checks, and is not metered by that. -/
  sent : ∀ request next c', EventLoop.Step (complete config) c (.call request next) c' →
    next = (accept config c.store request).toOption ∧ c'.store = c.store
  /-- No call changes the usage of another member. -/
  others : ∀ l c', EventLoop.Step (complete config) c l c' → ∀ m, l.request.memberId ≠ m →
    usageFor c'.store m = usageFor c.store m

/-- Metering is exact after every run. -/
theorem metering_exact (config : ModelGatewayConfig Impl) {ls : List (GatewayEvent Impl)}
    {c : GatewayLoop Impl} (run : EventLoop.Run (complete config) initial ls c) :
    ExactMetering config ls c := by
  have htracked := tracked_of_run run
  refine ⟨usageFor_eq_tally run, htracked, ?_, ?_⟩
  · intro request next c' step
    cases htracked.stepped step with
    | sent accepted => exact ⟨by rw [accepted]; rfl, rfl⟩
    | refused rejected => exact ⟨by rw [rejected]; rfl, rfl⟩
  · intro l c' step m hm
    cases htracked.stepped step with
    | answered awaiting => exact usageFor_metered_of_ne (Ne.symm hm)
    | _ => rfl

/-- Two members call in turns, one call is for a task without a route, the answers come in another
order, and one provider fails. -/
theorem metering_exact_interleaved : ∃ ls c,
    EventLoop.Run (complete triageConfig) initial ls c ∧
      usageFor c.store "m_1" = ⟨3, 4, 7⟩ ∧ usageFor c.store "m_2" = ⟨5, 6, 11⟩ ∧
      ExactMetering triageConfig ls c := by
  have hfollow : (EventLoop.follow (complete triageConfig)
      [.call (triageRequest "m_1"), .call (triageRequest "m_2"),
        .call { triageRequest "m_1" with task := "unknown" }, .call (triageRequest "m_1"),
        answerWith 3 1 1, answerWith 1 5 6, .answer 0 fun _ => .error (.foreign "timeout"),
        .call (triageRequest "m_1"), answerWith 4 2 3] initial).map
      (fun (_, c) => (usageFor c.store "m_1", usageFor c.store "m_2")) =
        some (⟨3, 4, 7⟩, ⟨5, 6, 11⟩) := by
    decide +kernel
  obtain ⟨⟨ls, c⟩, hrun, husage⟩ := Option.map_eq_some_iff.mp hfollow
  obtain ⟨hfirst, hsecond⟩ := Prod.mk.inj husage
  have run := EventLoop.Run.of_follow hrun
  exact ⟨ls, c, run, hfirst, hsecond, metering_exact triageConfig run⟩

end ModelGateway

end WorkspaceOs
