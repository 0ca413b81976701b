import WorkspaceOs.Effect.Prog

/-!
# Handlers

A handler says what program stands for an operation of another signature. Handling a program puts
the handlers in the place of its operations; what a handler throws, the program gets as a rejection.
-/

namespace Effect.Prog

universe u u' v w w'

variable {Op : Type u} {Ans : Op → Type v} {Op' : Type u'} {Ans' : Op' → Type v} {ε : Type v}
  {α : Type w'} {β γ : Type w}

/-- Go on with whatever a program ends with. -/
def settle (p : Prog Op Ans ε α) (k : Except ε α → Prog Op Ans ε β) : Prog Op Ans ε β :=
  match p with
  | .ret a => k (.ok a)
  | .throw e => k (.error e)
  | .call op k' => .call op fun r => (k' r).settle k

@[simp] lemma settle_ret (a : α) (k : Except ε α → Prog Op Ans ε β) :
    (.ret a : Prog Op Ans ε α).settle k = k (.ok a) := rfl

@[simp] lemma settle_throw (e : ε) (k : Except ε α → Prog Op Ans ε β) :
    (.throw e : Prog Op Ans ε α).settle k = k (.error e) := rfl

@[simp] lemma settle_call (op : Op) (k' : Except ε (Ans op) → Prog Op Ans ε α)
    (k : Except ε α → Prog Op Ans ε β) :
    (Prog.call op k').settle k = .call op fun r => (k' r).settle k := rfl

@[simp] lemma settle_ofExcept (r : Except ε α) (k : Except ε α → Prog Op Ans ε β) :
    (ofExcept r : Prog Op Ans ε α).settle k = k r := by
  cases r <;> rfl

lemma settle_bind (p : Prog Op Ans ε α) (k : Except ε α → Prog Op Ans ε β)
    (f : β → Prog Op Ans ε γ) : (p.settle k >>= f) = p.settle fun r => k r >>= f := by
  induction p with
  | ret a => rfl
  | throw e => rfl
  | call op k' ih => simp only [settle_call, call_bind, ih]

lemma settle_ofExcept_self (p : Prog Op Ans ε α) : p.settle ofExcept = p := by
  induction p with
  | ret a => rfl
  | throw e => rfl
  | call op k' ih => simp only [settle_call, ih]

/-- Put handlers in the place of the operations. -/
def handle (h : (op : Op) → Prog Op' Ans' ε (Ans op)) : Prog Op Ans ε β → Prog Op' Ans' ε β
  | .ret a => .ret a
  | .throw e => .throw e
  | .call op k => (h op).settle fun r => (k r).handle h

variable (h : (op : Op) → Prog Op' Ans' ε (Ans op))

@[simp] lemma handle_ret (b : β) : (.ret b : Prog Op Ans ε β).handle h = .ret b := rfl

@[simp] lemma handle_throw (e : ε) : (.throw e : Prog Op Ans ε β).handle h = .throw e := rfl

@[simp] lemma handle_call (op : Op) (k : Except ε (Ans op) → Prog Op Ans ε β) :
    (Prog.call op k).handle h = (h op).settle fun r => (k r).handle h := rfl

@[simp] lemma handle_ofExcept (r : Except ε β) :
    (ofExcept r : Prog Op Ans ε β).handle h = ofExcept r := by
  cases r <;> rfl

/-- Handling goes into a sequence. -/
lemma handle_bind (p : Prog Op Ans ε β) (f : β → Prog Op Ans ε γ) :
    (p >>= f).handle h = p.handle h >>= fun b => (f b).handle h := by
  induction p with
  | ret a => rfl
  | throw e => rfl
  | call op k ih => simp only [call_bind, handle_call, settle_bind, ih]

lemma handle_perform (op : Op) : (perform op : Prog Op Ans ε (Ans op)).handle h = h op := by
  simp only [perform, handle_call, handle_ofExcept]
  exact settle_ofExcept_self (h op)

end Effect.Prog
