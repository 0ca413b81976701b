import Mathlib.Logic.Function.Basic
import WorkspaceOs.Effect.Trace

/-!
# Ledgers

A component keeps values under keys. It never changes a value, and never adds a second one under a
key. What it holds can then be read off its history: it is what the history has added.
-/

namespace Effect

universe u v w x y

variable {Op : Type u} {Ans : Op → Type v} {ε : Type v} {σ : Type w} {κ : Type x} {ν : Type y}

variable [DecidableEq κ]

/-- `entry` is what an answered operation adds, if anything, and `find` is what is kept under a
key. -/
structure Ledger (exec : Semantics Op Ans ε σ) (entry : Label Op Ans ε → Option (κ × ν))
    (find : σ → κ → Option ν) : Prop where
  adds : ∀ {i op s a s' k v}, exec i op s a s' → entry ⟨i, op, a⟩ = some (k, v) →
    find s k = none ∧ find s' = Function.update (find s) k (some v)
  keeps : ∀ {i op s a s'}, exec i op s a s' → entry ⟨i, op, a⟩ = none → find s' = find s

variable {exec : Semantics Op Ans ε σ} {entry : Label Op Ans ε → Option (κ × ν)}
  {find : σ → κ → Option ν} {s s' : σ} {ls : List (Label Op Ans ε)} {k : κ} {v v' : ν}

/-- What is found under a key is what the history has added there. -/
lemma Ledger.find_eq_some_iff (h : Ledger exec entry find) (hempty : ∀ k, find s k = none)
    (trace : Trace exec s ls s') : find s' k = some v ↔ (k, v) ∈ ls.filterMap entry := by
  induction trace generalizing v with
  | refl => simp [hempty]
  | @snoc ls s₁ i op a s₂ _ step ih =>
    rw [filterMap_concat, List.mem_append]
    cases hentry : entry ⟨i, op, a⟩ with
    | none => rw [h.keeps step hentry, ih, Option.toList_none, or_iff_left List.not_mem_nil]
    | some added =>
      obtain ⟨hfree, hupdate⟩ := @h.adds i op s₁ a s₂ added.1 added.2 step hentry
      rw [hupdate, Option.toList_some, List.mem_singleton, Function.update_apply]
      by_cases hk : k = added.1
      · rw [if_pos hk, Option.some_inj, ← ih, hk, hfree]
        simp [Prod.ext_iff, eq_comm]
      · rw [if_neg hk, ih]
        simp [Prod.ext_iff, hk]

end Effect
