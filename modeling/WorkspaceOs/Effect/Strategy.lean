import WorkspaceOs.Effect.Prog
import Mathlib.Data.List.Forall2

/-!
# Programs against strategies

Foreign code with a state of its own answers an operation by everything that was performed before
it. Such a strategy is a function of the history; running a program against it gives a result and
the events the run adds to the history.
-/

namespace Effect

universe u v w

variable {Op : Type u} {Ans : Op → Type v} {ε : Type v} {α β : Type w}

/-- An operation that was performed, with its answer. -/
structure Event (Op : Type u) (Ans : Op → Type v) (ε : Type v) where
  op : Op
  ans : Except ε (Ans op)

/-- How the outside world answers, after any history. -/
abbrev Strategy (Op : Type u) (Ans : Op → Type v) (ε : Type v) :=
  List (Event Op Ans ε) → (op : Op) → Except ε (Ans op)

namespace Prog

/-- Run a program against a strategy after a history: its result and its own events. -/
def observe (env : Strategy Op Ans ε) :
    Prog Op Ans ε α → List (Event Op Ans ε) → Except ε α × List (Event Op Ans ε)
  | .ret a, _ => (.ok a, [])
  | .throw e, _ => (.error e, [])
  | .call op k, h =>
    let rest := (k (env h op)).observe env (h ++ [⟨op, env h op⟩])
    (rest.1, ⟨op, env h op⟩ :: rest.2)

/-- Run programs one after the other, each with its own result and events. A throw ends its own
program only. -/
def observeAll (env : Strategy Op Ans ε) :
    List (Prog Op Ans ε α) → List (Event Op Ans ε) →
      List (Except ε α × List (Event Op Ans ε))
  | [], _ => []
  | p :: ps, h => p.observe env h :: observeAll env ps (h ++ (p.observe env h).2)

variable {env : Strategy Op Ans ε} {h : List (Event Op Ans ε)}

@[simp] lemma observe_ret (a : α) : (ret a : Prog Op Ans ε α).observe env h = (.ok a, []) := rfl

@[simp] lemma observe_throw (e : ε) :
    (throw e : Prog Op Ans ε α).observe env h = (.error e, []) := rfl

@[simp] lemma observe_call (op : Op) (k : Except ε (Ans op) → Prog Op Ans ε α) :
    (call op k).observe env h =
      (((k (env h op)).observe env (h ++ [⟨op, env h op⟩])).1,
        ⟨op, env h op⟩ :: ((k (env h op)).observe env (h ++ [⟨op, env h op⟩])).2) := rfl

lemma observe_bind_ok {p : Prog Op Ans ε α} {f : α → Prog Op Ans ε β} {a : α}
    {es : List (Event Op Ans ε)} (hp : p.observe env h = (.ok a, es)) :
    (p >>= f).observe env h =
      (((f a).observe env (h ++ es)).1, es ++ ((f a).observe env (h ++ es)).2) := by
  induction p generalizing h es with
  | ret b => cases hp; simp
  | throw e => cases hp
  | call op k ih =>
    obtain ⟨hresult, rfl⟩ := Prod.mk.inj hp
    simp only [call_bind, observe_call, ih _ (Prod.ext hresult rfl), List.append_assoc,
      List.cons_append, List.nil_append]

lemma observe_bind_error {p : Prog Op Ans ε α} {f : α → Prog Op Ans ε β} {e : ε}
    {es : List (Event Op Ans ε)} (hp : p.observe env h = (.error e, es)) :
    (p >>= f).observe env h = (.error e, es) := by
  induction p generalizing h es with
  | ret b => cases hp
  | throw e => cases hp; rfl
  | call op k ih =>
    obtain ⟨hresult, rfl⟩ := Prod.mk.inj hp
    simp only [call_bind, observe_call, ih _ (Prod.ext hresult rfl)]

/-- The events of a run were answered by the strategy. -/
lemma observe_answered {p : Prog Op Ans ε α} {e : Event Op Ans ε} (he : e ∈ (p.observe env h).2) :
    ∃ h', e.ans = env h' e.op := by
  induction p generalizing h with
  | ret a => cases he
  | throw e => cases he
  | call op k ih =>
    rcases List.mem_cons.mp he with rfl | he
    · exact ⟨h, rfl⟩
    · exact ih _ he

/-- What holds of each program after any history holds of each run of a sequence. -/
lemma observeAll_forall₂ {ι : Type*} {f : ι → Prog Op Ans ε α}
    {P : ι → Except ε α × List (Event Op Ans ε) → Prop}
    (hP : ∀ i h, P i ((f i).observe env h)) (is : List ι) :
    List.Forall₂ P is (observeAll env (is.map f) h) := by
  induction is generalizing h with
  | nil => exact .nil
  | cons i is ih => exact .cons (hP i h) ih

end Prog

end Effect
