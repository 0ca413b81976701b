import Mathlib.Order.UpperLower.Basic
import Mathlib.Data.Set.Basic

/-!
# Rules that admit and decide

A rule says which credentials it admits and what it decides for them; whoever it does not admit is
refused. Credentials are ordered, and more of them never admit less, so that an answer changes in
one way only as they grow: from a refusal to the decision.
-/

namespace Access

variable {C D : Type*} [Preorder C]

/-- Who is admitted, and what is decided for them. -/
structure Rule (C D : Type*) [Preorder C] where
  admitted : Set C
  decision : D
  admitted_upper : IsUpperSet admitted

/-- What a rule can answer, where `Refusal` says which answers refuse. -/
inductive Rule.Answers (Refusal : D → Prop) (rule : Rule C D) (c : C) : D → Prop where
  | decided (admitted : c ∈ rule.admitted) : Answers Refusal rule c rule.decision
  | refused {d : D} (admitted : c ∉ rule.admitted) (refusal : Refusal d) : Answers Refusal rule c d

namespace Rule.Answers

variable {Refusal : D → Prop} {rule : Rule C D} {c c' : C} {d d' : D}

/-- Whoever is not refused was admitted, and got the decision. -/
lemma of_not_refusal (h : rule.Answers Refusal c d) (hd : ¬ Refusal d) :
    c ∈ rule.admitted ∧ d = rule.decision := by
  cases h with
  | decided hc => exact ⟨hc, rfl⟩
  | refused _ hrefusal => exact absurd hrefusal hd

/-- Where the decision itself does not refuse, exactly those that are admitted are not refused. -/
lemma refusal_iff (h : rule.Answers Refusal c d) (hdecision : ¬ Refusal rule.decision) :
    Refusal d ↔ c ∉ rule.admitted := by
  cases h with
  | decided hc => simp [hdecision, hc]
  | refused hc hrefusal => simp [hrefusal, hc]

lemma refusal_or_eq (h : rule.Answers Refusal c d) : Refusal d ∨ d = rule.decision := by
  cases h with
  | decided => exact .inr rfl
  | refused _ hrefusal => exact .inl hrefusal

/-- More credentials change nothing for whoever was not refused. -/
lemma eq_of_le (h : rule.Answers Refusal c d) (h' : rule.Answers Refusal c' d') (hle : c ≤ c')
    (hd : ¬ Refusal d) : d' = d := by
  obtain ⟨hc, rfl⟩ := h.of_not_refusal hd
  cases h' with
  | decided => rfl
  | refused hc' _ => exact absurd (rule.admitted_upper hle hc) hc'

end Rule.Answers

end Access
