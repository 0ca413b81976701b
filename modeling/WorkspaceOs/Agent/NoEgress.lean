import WorkspaceOs.Agent.ModelGateway
import Mathlib.Algebra.Order.Ring.Rat
import Mathlib.Data.Nat.Cast.Order.Ring

/-!
# No egress

Under no egress the gateway refuses the providers that are registered as external. What a provider
object says of itself plays no part in it.
-/

namespace WorkspaceOs

open Js Effect

namespace ModelGateway

variable {Impl : Type}

/-- No provider whose own marker says that it is external is called. -/
def NoExternalCall (ls : List (GatewayEvent Impl)) : Prop :=
  ∀ l ∈ ls, ∀ call, l.next = some call → call.provider.external ≠ some true

/-- Requests for the task go to this provider. -/
def Reaches (config : ModelGatewayConfig Impl) (task : JsString)
    (registered : RegisteredProvider Impl) : Prop :=
  ∃ route, (config.routing.get task).found? = some route ∧
    (config.providers.get ((route.map ModelRoute.providerName).getD "undefined")).found? =
      some (some registered)

/-- Nothing passes the quota, which a member has reached before it has used anything. -/
def Exhausted (config : ModelGatewayConfig Impl) : Prop :=
  ∃ quota, config.quotaTokensPerMember = some quota ∧ quota ≤ 0

/-- A provider that calls itself external, and that requests go to, is registered as external. -/
def MarkersAgree (config : ModelGatewayConfig Impl) : Prop :=
  ∀ task registered, Reaches config task registered → registered.provider.external = some true →
    registered.external = true ∨ Exhausted config

variable {config : ModelGatewayConfig Impl} {usage : UsageMap} {call : ProviderCall Impl}
  {request : GatewayCompletionRequest} {registered : RegisteredProvider Impl}

/-- What passes the checks goes to a provider that is not registered as external, under no
egress. -/
lemma accept_ok (h : accept config usage request = .ok call) :
    (∃ registered, Reaches config request.task registered ∧ call.provider = registered.provider ∧
      ¬ (config.noEgress = true ∧ registered.external = true)) ∧ ¬ Exhausted config := by
  simp only [accept] at h
  split at h
  · cases h
  rename_i route hroute
  split at h
  · cases h
  rename_i registered hregistered
  split_ifs at h with hegress hreached
  split at h
  · cases h
  cases h
  refine ⟨⟨_, ⟨route, hroute, hregistered⟩, rfl, by simpa using hegress⟩, ?_⟩
  rintro ⟨quota, hquota, hle⟩
  apply hreached
  rw [hquota, Option.any_some, decide_eq_true_eq]
  exact hle.trans (Nat.cast_nonneg _)

/-- A first request for a task passes where the provider is not registered as external. -/
lemma accept_first (request : GatewayCompletionRequest)
    (hreaches : Reaches config request.task registered)
    (hexternal : registered.external = false) (hquota : ¬ Exhausted config) :
    ∃ call, accept config (fun _ => none) request = .ok call ∧
      call.provider = registered.provider := by
  obtain ⟨route, hroute, hregistered⟩ := hreaches
  have hreached : ¬ (config.quotaTokensPerMember.any fun (quota : ℚ) =>
      quota ≤ (usageFor (fun _ => none) request.memberId).totalTokens) = true := by
    intro hany
    rw [Option.any_eq_true] at hany
    obtain ⟨quota, hsome, hle⟩ := hany
    exact hquota ⟨quota, hsome, by simpa [usageFor] using hle⟩
  refine ⟨{ provider := registered.provider,
            request := { model := route.map ModelRoute.model, messages := request.messages,
                         maxTokens := request.maxTokens, temperature := request.temperature } },
    ?_, rfl⟩
  simp only [accept, hroute, hregistered, Option.any_some, hexternal, Bool.and_false,
    Bool.false_eq_true, if_false]
  rw [if_neg hreached]

/-- Under no egress no provider that calls itself external is called, in any run, exactly when these
providers are registered as what they call themselves. -/
theorem noEgress_iff (config : ModelGatewayConfig Impl) (hnoEgress : config.noEgress = true) :
    (∀ ls c, EventLoop.Run (complete config) initial ls c → NoExternalCall ls) ↔
      MarkersAgree config := by
  constructor
  · intro hnone task registered hreaches hmarker
    by_contra hnot
    rw [not_or] at hnot
    let request : GatewayCompletionRequest := { memberId := "m_1", task, messages := [] }
    obtain ⟨call, haccept, hprovider⟩ := accept_first request hreaches
      (Bool.eq_false_of_not_eq_true hnot.1) hnot.2
    have hadvance := advance_complete config (fun _ => none) request
    rw [haccept] at hadvance
    have step := EventLoop.Step.call (c := initial) hadvance
    exact hnone _ _ (.single step) _ (List.mem_singleton_self _) call rfl (hprovider ▸ hmarker)
  · intro hagree ls c run
    induction run with
    | refl => simp [NoExternalCall]
    | snoc run step ih =>
      intro l hl call hcall
      rcases List.mem_append.mp hl with hl | hl
      · exact ih l hl call hcall
      cases List.mem_singleton.mp hl
      cases (tracked_of_run run).stepped step with
      | sent accepted =>
        cases hcall
        obtain ⟨⟨registered, hreaches, hprovider, hinternal⟩, hopen⟩ := accept_ok accepted
        intro hmarker
        rw [hprovider] at hmarker
        rcases hagree _ registered hreaches hmarker with hexternal | hexhausted
        · exact hinternal ⟨hnoEgress, hexternal⟩
        · exact hopen hexhausted
      | _ => cases hcall

/-- A gateway under no egress, whose one provider calls itself external. -/
def cloudConfig (external : Bool) : ModelGatewayConfig Unit where
  providers := [("cloud", ⟨⟨(), some true⟩, external⟩)]
  routing := [("remote", ⟨"cloud", "cloud-1"⟩)]
  noEgress := true

/-- Where it is registered as external, requests for it are refused. -/
theorem noEgress_iff_registered :
    accept (cloudConfig true) (fun _ => none)
      { memberId := "m_1", task := "remote", messages := [] } =
        .error (.noEgressViolation "cloud") ∧
      ((∀ ls c, EventLoop.Run (complete (cloudConfig true)) initial ls c → NoExternalCall ls) ↔
        MarkersAgree (cloudConfig true)) :=
  ⟨by decide +kernel, noEgress_iff (cloudConfig true) rfl⟩

/-- Where it is registered as a provider that stays on the box, it is called. -/
theorem misregistered_provider_called : ∃ ls c,
    EventLoop.Run (complete (cloudConfig false)) initial ls c ∧
      (cloudConfig false).noEgress = true ∧ ¬ NoExternalCall ls := by
  have hfollow : (EventLoop.follow (complete (cloudConfig false))
      [.call { memberId := "m_1", task := "remote", messages := [] }] initial).map
      (fun (ls, _) => ls.map fun l => l.next.map fun call => call.provider.external) =
        some [some (some true)] := by
    decide +kernel
  obtain ⟨⟨ls, c⟩, hrun, hcalled⟩ := Option.map_eq_some_iff.mp hfollow
  refine ⟨ls, c, EventLoop.Run.of_follow hrun, rfl, fun hnone => ?_⟩
  obtain ⟨l, rfl, hl⟩ := List.map_eq_singleton_iff.mp hcalled
  obtain ⟨call, hcall, hexternal⟩ := Option.map_eq_some_iff.mp hl
  exact hnone l (List.mem_singleton_self l) call hcall hexternal

end ModelGateway

end WorkspaceOs
