import WorkspaceOs.Effect.Strategy

/-!
# Indistinguishable programs

Two programs are indistinguishable to an observer when they perform operations that look alike to it
and go on indistinguishably after answers that look alike. Against strategies that give answers
alike after histories alike, such programs run alike.
-/

namespace Effect

universe u v w

variable {Op : Type u} {Ans : Op → Type v} {ε : Type v} {α β : Type w}

/-- Which operations, and which answers to them, an observer cannot tell apart. -/
structure Observer (Op : Type u) (Ans : Op → Type v) (ε : Type v) where
  alike : Op → Op → Prop
  agree : ∀ {op op'}, Except ε (Ans op) → Except ε (Ans op') → Prop

namespace Observer

variable (O : Observer Op Ans ε)

/-- Events that look alike. -/
def Same (e e' : Event Op Ans ε) : Prop := O.alike e.op e'.op ∧ O.agree e.ans e'.ans

/-- Results that look alike: the same throw, or returned values related by `R`. -/
def Results (R : α → α → Prop) : Except ε α → Except ε α → Prop
  | .ok a, .ok a' => R a a'
  | .error e, .error e' => e = e'
  | _, _ => False

/-- Strategies that give answers alike after histories alike. -/
def Strategies (env env' : Strategy Op Ans ε) : Prop :=
  ∀ h h', List.Forall₂ O.Same h h' → ∀ op op', O.alike op op' → O.agree (env h op) (env' h' op')

/-- Programs that the observer cannot tell apart, up to `R` on what they return. -/
inductive Indist (R : α → α → Prop) : Prog Op Ans ε α → Prog Op Ans ε α → Prop where
  | ret {a a'} (h : R a a') : Indist R (.ret a) (.ret a')
  | throw (e) : Indist R (.throw e) (.throw e)
  | call {op op' k k'} (h : O.alike op op')
      (hk : ∀ a a', O.agree a a' → Indist R (k a) (k' a')) : Indist R (.call op k) (.call op' k')

variable {O} {R : α → α → Prop} {S : β → β → Prop}

lemma Indist.bind {p p' : Prog Op Ans ε α} {f f' : α → Prog Op Ans ε β} (h : O.Indist R p p')
    (hf : ∀ a a', R a a' → O.Indist S (f a) (f' a')) : O.Indist S (p >>= f) (p' >>= f') := by
  induction h with
  | ret h => exact hf _ _ h
  | throw e => exact .throw e
  | call h _ ih => exact .call h ih

/-- Indistinguishable programs run alike. -/
lemma Indist.observe {p p' : Prog Op Ans ε α} (h : O.Indist R p p') {env env' : Strategy Op Ans ε}
    (henv : O.Strategies env env') {hist hist' : List (Event Op Ans ε)}
    (hhist : List.Forall₂ O.Same hist hist') :
    Results R (p.observe env hist).1 (p'.observe env' hist').1 ∧
      List.Forall₂ O.Same (p.observe env hist).2 (p'.observe env' hist').2 := by
  induction h generalizing hist hist' with
  | ret h => exact ⟨h, .nil⟩
  | throw e => exact ⟨rfl, .nil⟩
  | @call op op' k k' h _ ih =>
    have hagree := henv hist hist' hhist op op' h
    obtain ⟨hresult, hevents⟩ := ih _ _ hagree
      (List.rel_append hhist (.cons (⟨h, hagree⟩ : O.Same ⟨op, _⟩ ⟨op', _⟩) .nil))
    exact ⟨hresult, .cons ⟨h, hagree⟩ hevents⟩

/-- Sequences of indistinguishable programs run alike. -/
lemma Indist.observeAll {ps ps' : List (Prog Op Ans ε α)} (h : List.Forall₂ (O.Indist R) ps ps')
    {env env' : Strategy Op Ans ε} (henv : O.Strategies env env')
    {hist hist' : List (Event Op Ans ε)} (hhist : List.Forall₂ O.Same hist hist') :
    List.Forall₂ (fun r r' => Results R r.1 r'.1 ∧ List.Forall₂ O.Same r.2 r'.2)
      (Prog.observeAll env ps hist) (Prog.observeAll env' ps' hist') := by
  induction h generalizing hist hist' with
  | nil => exact .nil
  | cons hp _ ih =>
    have hrun := hp.observe henv hhist
    exact .cons hrun (ih (List.rel_append hhist hrun.2))

end Observer

end Effect
