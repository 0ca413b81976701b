import Mathlib.Logic.Basic
import Mathlib.Tactic.Common

/-!
# Asynchronous programs as trees of awaited operations

A program either returns, throws, or awaits an operation of its signature and goes on with the
answer. The signature `Op`, `Ans` is a parameter, so the same trees serve a database client, a
gateway in front of foreign code, or any other code whose only effects are the calls it awaits.

An answer is itself an `Except`: an awaited call may be rejected, and `tryCatch` sees such a
rejection like any other throw.
-/

namespace Effect

universe u v w

/-- Programs over operations `Op` answered in `Ans op`, throwing `ε` and returning `α`. -/
inductive Prog (Op : Type u) (Ans : Op → Type v) (ε : Type v) (α : Type w) where
  | ret (a : α)
  | throw (e : ε)
  | call (op : Op) (k : Except ε (Ans op) → Prog Op Ans ε α)

namespace Prog

variable {Op : Type u} {Ans : Op → Type v} {ε : Type v} {α β γ : Type w} {σ : Type*}

/-- Sequencing: graft `f` on every normal return. -/
protected def bind (p : Prog Op Ans ε α) (f : α → Prog Op Ans ε β) : Prog Op Ans ε β :=
  match p with
  | .ret a => f a
  | .throw e => .throw e
  | .call op k => .call op fun r => (k r).bind f

/-- Graft a handler on every throw. -/
protected def tryCatch (p : Prog Op Ans ε α) (handler : ε → Prog Op Ans ε α) :
    Prog Op Ans ε α :=
  match p with
  | .ret a => .ret a
  | .throw e => handler e
  | .call op k => .call op fun r => (k r).tryCatch handler

instance : Monad (Prog Op Ans ε) where
  pure := .ret
  bind := Prog.bind

instance : MonadExceptOf ε (Prog Op Ans ε) where
  throw := .throw
  tryCatch := Prog.tryCatch

/-- A computation that awaits nothing. -/
def ofExcept : Except ε α → Prog Op Ans ε α
  | .ok a => .ret a
  | .error e => .throw e

/-- Await a single operation. -/
def perform {Ans : Op → Type w} {ε : Type w} (op : Op) : Prog Op Ans ε (Ans op) :=
  .call op ofExcept

/-- What a program that has come to its end ended with. -/
def result? : Prog Op Ans ε α → Option (Except ε α)
  | .ret a => some (.ok a)
  | .throw e => some (.error e)
  | .call _ _ => none

lemma eq_ofExcept_of_result? {p : Prog Op Ans ε α} {r : Except ε α} (h : p.result? = some r) :
    p = .ofExcept r := by
  cases p <;> cases h <;> rfl

@[simp] lemma pure_eq_ret (a : α) : (pure a : Prog Op Ans ε α) = .ret a := rfl

@[simp] lemma ret_bind (a : α) (f : α → Prog Op Ans ε β) :
    ((.ret a : Prog Op Ans ε α) >>= f) = f a := rfl

@[simp] lemma throw_bind (e : ε) (f : α → Prog Op Ans ε β) :
    ((.throw e : Prog Op Ans ε α) >>= f) = .throw e := rfl

@[simp] lemma call_bind (op : Op) (k : Except ε (Ans op) → Prog Op Ans ε α)
    (f : α → Prog Op Ans ε β) :
    ((.call op k : Prog Op Ans ε α) >>= f) = .call op fun r => k r >>= f := rfl

@[simp] lemma throw_eq (e : ε) :
    (MonadExcept.throw e : Prog Op Ans ε α) = .throw e := rfl

@[simp] lemma tryCatch_ret (a : α) (h : ε → Prog Op Ans ε α) :
    (tryCatch (.ret a : Prog Op Ans ε α) h) = .ret a := rfl

@[simp] lemma tryCatch_throw (e : ε) (h : ε → Prog Op Ans ε α) :
    (tryCatch (.throw e : Prog Op Ans ε α) h) = h e := rfl

@[simp] lemma tryCatch_call (op : Op) (k : Except ε (Ans op) → Prog Op Ans ε α)
    (h : ε → Prog Op Ans ε α) :
    (tryCatch (.call op k : Prog Op Ans ε α) h) = .call op fun r => tryCatch (k r) h := rfl

@[simp] lemma ofExcept_ok (a : α) : (ofExcept (.ok a) : Prog Op Ans ε α) = .ret a := rfl

@[simp] lemma ofExcept_error (e : ε) : (ofExcept (.error e) : Prog Op Ans ε α) = .throw e := rfl

lemma bind_ret (p : Prog Op Ans ε α) : (p >>= Prog.ret) = p := by
  induction p with
  | ret a => rfl
  | throw e => rfl
  | call op k ih => simp only [call_bind, ih]

lemma bind_bind (p : Prog Op Ans ε α) (f : α → Prog Op Ans ε β) (g : β → Prog Op Ans ε γ) :
    (p >>= f >>= g) = p >>= fun a => f a >>= g := by
  induction p with
  | ret a => rfl
  | throw e => rfl
  | call op k ih => simp only [call_bind, ih]

instance : LawfulMonad (Prog Op Ans ε) :=
  LawfulMonad.mk' _ (fun p => bind_ret p) (fun _ _ => rfl) bind_bind

/-! ### The operations of a program -/

/-- Every operation that the program may await is `good`. -/
inductive All (good : Op → Prop) : Prog Op Ans ε α → Prop where
  | ret (a : α) : All good (.ret a)
  | throw (e : ε) : All good (.throw e)
  | call {op : Op} {k : Except ε (Ans op) → Prog Op Ans ε α} (h : good op)
      (hk : ∀ r, All good (k r)) : All good (.call op k)

variable {good : Op → Prop}

lemma All.bind {p : Prog Op Ans ε α} {f : α → Prog Op Ans ε β} (hp : p.All good)
    (hf : ∀ a, (f a).All good) : (p >>= f).All good := by
  induction hp with
  | ret a => exact hf a
  | throw e => exact .throw e
  | call h _ ih => exact .call h ih

lemma All.map {p : Prog Op Ans ε α} (hp : p.All good) (f : α → β) : (f <$> p).All good := by
  rw [map_eq_pure_bind]
  exact hp.bind fun a => .ret (f a)

lemma All.tryCatch {p : Prog Op Ans ε α} {handler : ε → Prog Op Ans ε α} (hp : p.All good)
    (hh : ∀ e, (handler e).All good) : (tryCatch p handler).All good := by
  induction hp with
  | ret a => exact .ret a
  | throw e => exact hh e
  | call h _ ih => exact .call h ih

lemma All.ofExcept (r : Except ε α) : (ofExcept r : Prog Op Ans ε α).All good := by
  cases r with
  | ok a => exact .ret a
  | error e => exact .throw e

lemma All.perform {Ans : Op → Type w} {ε : Type w} {op : Op} (h : good op) :
    (Prog.perform op : Prog Op Ans ε (Ans op)).All good := .call h .ofExcept

lemma All.of_perform_bind {Ans : Op → Type w} {ε : Type w} {α : Type w} {op : Op}
    {f : Ans op → Prog Op Ans ε α} (h : (Prog.perform op >>= f).All good) (a : Ans op) :
    (f a).All good := by
  cases h with
  | call _ hk => exact hk (.ok a)

lemma All.mono {good' : Op → Prop} {p : Prog Op Ans ε α} (hp : p.All good)
    (h : ∀ op, good op → good' op) : p.All good' := by
  induction hp with
  | ret a => exact .ret a
  | throw e => exact .throw e
  | call hop _ ih => exact .call (h _ hop) ih

lemma All.of_forall (h : ∀ op, good op) (p : Prog Op Ans ε α) : p.All good := by
  induction p with
  | ret a => exact .ret a
  | throw e => exact .throw e
  | call op _ ih => exact .call (h op) ih

/-! ### Running one program alone -/

/-- Run a program to its end against a deterministic world. -/
def run (handle : (op : Op) → σ → Except ε (Ans op) × σ) :
    Prog Op Ans ε α → σ → Except ε α × σ
  | .ret a, s => (.ok a, s)
  | .throw e, s => (.error e, s)
  | .call op k, s => (k (handle op s).1).run handle (handle op s).2

variable (handle : (op : Op) → σ → Except ε (Ans op) × σ)

@[simp] lemma run_ret (a : α) (s : σ) :
    (.ret a : Prog Op Ans ε α).run handle s = (.ok a, s) := rfl

@[simp] lemma run_throw (e : ε) (s : σ) :
    (.throw e : Prog Op Ans ε α).run handle s = (.error e, s) := rfl

@[simp] lemma run_call (op : Op) (k : Except ε (Ans op) → Prog Op Ans ε α) (s : σ) :
    (Prog.call op k).run handle s = (k (handle op s).1).run handle (handle op s).2 := rfl

lemma run_bind (p : Prog Op Ans ε α) (f : α → Prog Op Ans ε β) (s : σ) :
    (p >>= f).run handle s =
      match p.run handle s with
      | (.ok a, s') => (f a).run handle s'
      | (.error e, s') => (.error e, s') := by
  induction p generalizing s with
  | ret a => rfl
  | throw e => rfl
  | call op k ih => simp only [call_bind, run_call, ih]

/-- A program that performs an operation goes on with its answer, or throws the error. -/
lemma run_perform_bind {Ans : Op → Type w} {ε : Type w} {α : Type w}
    (handle : (op : Op) → σ → Except ε (Ans op) × σ) (op : Op) (f : Ans op → Prog Op Ans ε α)
    (s : σ) :
    (perform op >>= f).run handle s =
      match handle op s with
      | (.ok a, s') => (f a).run handle s'
      | (.error e, s') => (.error e, s') := by
  rw [run_bind]
  simp only [perform]
  rw [run_call]
  rcases handle op s with ⟨a | e, s'⟩ <;> rfl

variable {handle}

/-- Worlds that no operation can tell apart no program can tell apart. -/
lemma run_rel {R : σ → σ → Prop} (hR : ∀ op s t, R s t →
      (handle op s).1 = (handle op t).1 ∧ R (handle op s).2 (handle op t).2)
    (p : Prog Op Ans ε α) {s t : σ} (h : R s t) :
    (p.run handle s).1 = (p.run handle t).1 ∧ R (p.run handle s).2 (p.run handle t).2 := by
  induction p generalizing s t with
  | ret a => exact ⟨rfl, h⟩
  | throw e => exact ⟨rfl, h⟩
  | call op k ih =>
    obtain ⟨hanswer, hnext⟩ := hR op s t h
    rw [run_call, run_call, hanswer]
    exact ih _ hnext

/-- What every operation preserves every program preserves. -/
lemma run_invariant {I : σ → Prop} (hI : ∀ op s, I s → I (handle op s).2) (p : Prog Op Ans ε α)
    {s : σ} (h : I s) : I (p.run handle s).2 := by
  induction p generalizing s with
  | ret a => exact h
  | throw e => exact h
  | call op k ih =>
    rw [run_call]
    exact ih _ (hI op s h)

variable (handle)

/-- Run independent programs one after the other, each from where the previous one stopped. A
throw ends its own program only. -/
def runAll : List (Prog Op Ans ε α) → σ → List (Except ε α) × σ
  | [], s => ([], s)
  | p :: ps, s =>
    let (r, s₁) := p.run handle s
    let (rs, s₂) := runAll ps s₁
    (r :: rs, s₂)

variable {handle}

lemma runAll_invariant {I : σ → Prop} (hI : ∀ op s, I s → I (handle op s).2)
    (ps : List (Prog Op Ans ε α)) {s : σ} (h : I s) : I (runAll handle ps s).2 := by
  induction ps generalizing s with
  | nil => exact h
  | cons p ps ih => exact ih (run_invariant hI p h)

end Prog

end Effect
