import WorkspaceOs.Effect.Prog
import Mathlib.Data.List.Induction

/-!
# Methods on an event loop

The asynchronous methods of an object share its state. A call runs without interruption up to the
operation that it awaits; when that is answered it goes on, again without interruption, to the next
operation or to its end. Other calls start and go on in between, and an operation is answered
whenever and however its environment wants.
-/

namespace Effect

universe u v w x

/-- What a method does: read or write the state that it shares, or await an operation. -/
inductive TaskOp (σ : Type v) (Op : Type u) where
  | get
  | set (s : σ)
  | await (op : Op)

abbrev TaskAns (σ : Type v) {Op : Type u} (Ans : Op → Type v) : TaskOp σ Op → Type v
  | .get => σ
  | .set _ => PUnit
  | .await op => Ans op

/-- A method under way. -/
abbrev Task (σ : Type v) {Op : Type u} (Ans : Op → Type v) (ε : Type v) (α : Type w) :=
  Prog (TaskOp σ Op) (TaskAns σ Ans) ε α

namespace Task

variable {σ : Type v} {Op : Type u} {Ans : Op → Type v} {ε : Type v} {α : Type w}

/-- Run up to the operation that is awaited next, or to the end. -/
def advance : Task σ Ans ε α → σ → Task σ Ans ε α × σ
  | .ret a, s => (.ret a, s)
  | .throw e, s => (.throw e, s)
  | .call .get k, s => advance (k (.ok s)) s
  | .call (.set s') k, _ => advance (k (.ok ⟨⟩)) s'
  | .call (.await op) k, s => (.call (.await op) k, s)

/-- The operations of a task that runs alone, with the answers that it gets. -/
def alone (answer : (op : Op) → Except ε (Ans op)) :
    (op : TaskOp σ Op) → σ → Except ε (TaskAns σ Ans op) × σ
  | .get, s => (.ok s, s)
  | .set s', _ => (.ok ⟨⟩, s')
  | .await op, s => (answer op, s)

/-- The operation that a task awaits. -/
def awaits? : Task σ Ans ε α → Option Op
  | .call (.await op) _ => some op
  | _ => none

end Task

/-- The state of an object, and the calls of its method so far, each with its request. -/
structure EventLoop (ρ : Type x) (σ : Type v) {Op : Type u} (Ans : Op → Type v) (ε : Type v)
    (α : Type w) where
  store : σ
  calls : List (ρ × Task σ Ans ε α)

namespace EventLoop

variable {ρ : Type x} {σ : Type v} {Op : Type u} {Ans : Op → Type v} {ε : Type v} {α : Type w}

/-- A call starts, or the operation that call `i` awaits is answered. `next` is the operation that
the call awaits then. -/
inductive Event (ρ : Type x) {Op : Type u} (Ans : Op → Type v) (ε : Type v) where
  | call (request : ρ) (next : Option Op)
  | answer (i : ℕ) (request : ρ) (op : Op) (a : Except ε (Ans op)) (next : Option Op)

/-- The request of the call that an event belongs to. -/
def Event.request : Event ρ Ans ε → ρ
  | .call request _ => request
  | .answer _ request _ _ _ => request

/-- The operation that an event sends out. -/
def Event.next : Event ρ Ans ε → Option Op
  | .call _ next => next
  | .answer _ _ _ _ next => next

def Event.isAnswer : Event ρ Ans ε → Bool
  | .call .. => false
  | .answer .. => true

/-- A call runs its first part, or goes on with an answer. -/
inductive Step (method : ρ → Task σ Ans ε α) :
    EventLoop ρ σ Ans ε α → Event ρ Ans ε → EventLoop ρ σ Ans ε α → Prop where
  | call {c : EventLoop ρ σ Ans ε α} {request : ρ} {task : Task σ Ans ε α} {s' : σ}
      (advanced : (method request).advance c.store = (task, s')) :
      Step method c (.call request task.awaits?) ⟨s', c.calls ++ [(request, task)]⟩
  | answer {c : EventLoop ρ σ Ans ε α} {i : ℕ} {request : ρ} {op : Op} {k}
      {a : Except ε (Ans op)} {task : Task σ Ans ε α} {s' : σ}
      (awaiting : c.calls[i]? = some (request, .call (.await op) k))
      (advanced : Task.advance (k a) c.store = (task, s')) :
      Step method c (.answer i request op a task.awaits?) ⟨s', c.calls.set i (request, task)⟩

/-- A run, with its events in order. -/
inductive Run (method : ρ → Task σ Ans ε α) :
    EventLoop ρ σ Ans ε α → List (Event ρ Ans ε) → EventLoop ρ σ Ans ε α → Prop where
  | refl (c) : Run method c [] c
  | snoc {c ls c₁ l c₂} (run : Run method c ls c₁) (step : Step method c₁ l c₂) :
      Run method c (ls ++ [l]) c₂

/-! ### The events of a run -/

/-- The calls that started, each with the operation that its first part awaits. -/
def started (ls : List (Event ρ Ans ε)) : List (ρ × Option Op) :=
  ls.filterMap fun
    | .call request next => some (request, next)
    | .answer .. => none

/-- The answers that call `i` got. -/
def answersTo (i : ℕ) (ls : List (Event ρ Ans ε)) : List ((op : Op) × Except ε (Ans op)) :=
  ls.filterMap fun
    | .answer j _ op a _ => if j = i then some ⟨op, a⟩ else none
    | .call .. => none

section Events

variable {ls ls' : List (Event ρ Ans ε)} {request : ρ} {next : Option Op} {i j : ℕ} {op : Op}
  {a : Except ε (Ans op)}

@[simp] lemma started_call :
    started (ls ++ [.call request next]) = started ls ++ [(request, next)] := by
  simp [started]

@[simp] lemma started_answer :
    started (ls ++ [.answer i request op a next]) = started ls := by
  simp [started]

@[simp] lemma answersTo_call : answersTo i (ls ++ [.call request next]) = answersTo i ls := by
  simp [answersTo]

@[simp] lemma answersTo_self :
    answersTo i (ls ++ [.answer i request op a next]) = answersTo i ls ++ [⟨op, a⟩] := by
  simp [answersTo]

lemma answersTo_of_ne (h : j ≠ i) :
    answersTo i (ls ++ [.answer j request op a next]) = answersTo i ls := by
  simp [answersTo, h]

end Events

section Run

variable {method : ρ → Task σ Ans ε α} {c c₁ c' : EventLoop ρ σ Ans ε α}
  {l : Event ρ Ans ε} {ls ls' : List (Event ρ Ans ε)}

lemma Run.single (h : Step method c l c') : Run method c [l] c' := .snoc (.refl c) h

lemma Run.append (h : Run method c ls c₁) (h' : Run method c₁ ls' c') :
    Run method c (ls ++ ls') c' := by
  induction h' with
  | refl => simpa using h
  | snoc _ step ih =>
    rw [← List.append_assoc]
    exact .snoc ih step

lemma Run.of_concat (h : Run method c (ls ++ [l]) c') :
    ∃ c₁, Run method c ls c₁ ∧ Step method c₁ l c' := by
  generalize hall : ls ++ [l] = all at h
  cases h with
  | refl => exact absurd hall (by simp)
  | snoc run step =>
    obtain ⟨hls, hl⟩ := List.append_inj' hall rfl
    cases hls
    cases List.singleton_inj.mp hl
    exact ⟨_, run, step⟩

/-- A run passes through a state after any of its prefixes. -/
lemma Run.of_append (h : Run method c (ls ++ ls') c') :
    ∃ c₁, Run method c ls c₁ ∧ Run method c₁ ls' c' := by
  induction ls' using List.reverseRecOn generalizing c' with
  | nil => exact ⟨c', by simpa using h, .refl c'⟩
  | append_singleton ls' l ih =>
    rw [← List.append_assoc] at h
    obtain ⟨c₂, run, step⟩ := h.of_concat
    obtain ⟨c₁, before, after⟩ := ih run
    exact ⟨c₁, before, .snoc after step⟩

end Run

/-! ### Following a schedule -/

section Schedule

/-- What comes next in a schedule: a new call, or an answer for a call. -/
inductive Input (ρ : Type x) {Op : Type u} (Ans : Op → Type v) (ε : Type v) where
  | call (request : ρ)
  | answer (i : ℕ) (a : (op : Op) → Except ε (Ans op))

/-- The run that follows a schedule; `none` where a call to answer awaits nothing. -/
def follow (method : ρ → Task σ Ans ε α) : List (Input ρ Ans ε) → EventLoop ρ σ Ans ε α →
    Option (List (Event ρ Ans ε) × EventLoop ρ σ Ans ε α)
  | [], c => some ([], c)
  | .call request :: inputs, c =>
    let (task, s') := (method request).advance c.store
    (follow method inputs ⟨s', c.calls ++ [(request, task)]⟩).map fun (ls, c') =>
      (.call request task.awaits? :: ls, c')
  | .answer i a :: inputs, c =>
    match c.calls[i]? with
    | some (request, .call (.await op) k) =>
      let (task, s') := Task.advance (k (a op)) c.store
      (follow method inputs ⟨s', c.calls.set i (request, task)⟩).map fun (ls, c') =>
        (.answer i request op (a op) task.awaits? :: ls, c')
    | _ => none

lemma Run.of_follow {method : ρ → Task σ Ans ε α} {inputs : List (Input ρ Ans ε)}
    {c c' : EventLoop ρ σ Ans ε α} {ls : List (Event ρ Ans ε)}
    (h : follow method inputs c = some (ls, c')) : Run method c ls c' := by
  induction inputs generalizing c ls with
  | nil =>
    cases h
    exact .refl _
  | cons input inputs ih =>
    cases input with
    | call request =>
      obtain ⟨⟨ls', c''⟩, hrest, h⟩ := Option.map_eq_some_iff.mp h
      cases h
      exact (Run.single (.call rfl)).append (ih hrest)
    | answer i a =>
      simp only [follow] at h
      split at h
      · rename_i request op k hcall
        obtain ⟨⟨ls', c''⟩, hrest, h⟩ := Option.map_eq_some_iff.mp h
        cases h
        exact (Run.single (.answer hcall rfl)).append (ih hrest)
      · cases h

end Schedule

end EventLoop

end Effect
