import Mathlib.Data.List.Basic
import Mathlib.Tactic.Common

/-!
# Guarded operations

The operations of an object can refuse, and one that refuses leaves the object as it was. A run of
them is told by its history: the operations that went through.
-/

namespace Effect

variable {σ Op ε : Type*} (step : σ → Op → Except ε σ)

/-- The object after one call. -/
def attempt (s : σ) (op : Op) : σ :=
  match step s op with
  | .ok s' => s'
  | .error _ => s

/-- The object after a sequence of calls. -/
def settle (s : σ) (ops : List Op) : σ := ops.foldl (attempt step) s

/-- The calls that did not refuse. -/
def accepted : σ → List Op → List Op
  | _, [] => []
  | s, op :: ops =>
    match step s op with
    | .ok s' => op :: accepted s' ops
    | .error _ => accepted s ops

/-- What each call returns or throws. -/
def outcomes : σ → List Op → List (Except ε σ)
  | _, [] => []
  | s, op :: ops => step s op :: outcomes (attempt step s op) ops

variable {step} {s s' : σ} {op : Op} {ops ops' : List Op}

lemma attempt_of_ok (h : step s op = .ok s') : attempt step s op = s' := by
  simp only [attempt, h]

lemma attempt_of_error {e : ε} (h : step s op = .error e) : attempt step s op = s := by
  simp only [attempt, h]

@[simp] lemma settle_nil : settle step s [] = s := rfl

@[simp] lemma settle_cons : settle step s (op :: ops) = settle step (attempt step s op) ops := rfl

lemma settle_append : settle step s (ops ++ ops') = settle step (settle step s ops) ops' :=
  List.foldl_append

lemma accepted_cons_of_ok (h : step s op = .ok s') :
    accepted step s (op :: ops) = op :: accepted step s' ops := by
  simp only [accepted, h]

lemma accepted_cons_of_error {e : ε} (h : step s op = .error e) :
    accepted step s (op :: ops) = accepted step s ops := by
  simp only [accepted, h]

lemma accepted_append :
    accepted step s (ops ++ ops') =
      accepted step s ops ++ accepted step (settle step s ops) ops' := by
  induction ops generalizing s with
  | nil => rfl
  | cons op ops ih =>
    rw [List.cons_append, settle_cons]
    cases h : step s op with
    | ok s' =>
      rw [accepted_cons_of_ok h, accepted_cons_of_ok h, ih, attempt_of_ok h, List.cons_append]
    | error e => rw [accepted_cons_of_error h, accepted_cons_of_error h, ih, attempt_of_error h]

/-- A call that goes through is in the history from then on. -/
lemma mem_accepted (h : step (settle step s ops) op = .ok s') :
    op ∈ accepted step s (ops ++ op :: ops') := by
  rw [accepted_append, accepted_cons_of_ok h]
  exact List.mem_append_right _ List.mem_cons_self

/-- An object that refuses everything stays as it is. -/
lemma settle_of_stuck (h : ∀ op, ∃ e, step s op = .error e) : settle step s ops = s := by
  induction ops with
  | nil => rfl
  | cons op ops ih =>
    obtain ⟨e, he⟩ := h op
    rw [settle_cons, attempt_of_error he, ih]

/-- A relation between history and object that each call keeps holds after every run. -/
theorem history_invariant {R : List Op → σ → Prop} (init : R [] s)
    (keep : ∀ h s op s', R h s → step s op = .ok s' → R (h ++ [op]) s') (ops : List Op) :
    R (accepted step s ops) (settle step s ops) := by
  suffices hrun : ∀ h s, R h s → R (h ++ accepted step s ops) (settle step s ops) from
    hrun [] s init
  clear init
  induction ops with
  | nil =>
    intro h s hR
    rw [accepted, List.append_nil]
    exact hR
  | cons op ops ih =>
    intro h s hR
    rw [settle_cons]
    cases hstep : step s op with
    | ok s' =>
      rw [accepted_cons_of_ok hstep, attempt_of_ok hstep, List.append_cons]
      exact ih _ _ (keep h s op s' hR hstep)
    | error e =>
      rw [accepted_cons_of_error hstep, attempt_of_error hstep]
      exact ih h s hR

end Effect
