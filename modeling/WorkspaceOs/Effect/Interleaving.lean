import WorkspaceOs.Effect.Prog
import Mathlib.Logic.Relation
import Mathlib.Data.List.Basic

/-!
# Interleaved runs of a pool of programs

A configuration is one shared store and a pool of programs. A step picks any program of the pool
and performs the operation it awaits, atomically; which answer the operation gets and what it does
to the store is a relation `exec`, so the store may be nondeterministic. A run is labelled by what
was performed, by which program, with which answer.
-/

namespace Effect

universe u v w x

variable {Op : Type u} {Ans : Op → Type v} {ε : Type v} {α : Type w} {σ : Type x}

/-- What a program of the pool performed and what it was answered. -/
structure Label (Op : Type u) (Ans : Op → Type v) (ε : Type v) where
  thread : ℕ
  op : Op
  ans : Except ε (Ans op)

/-- How an operation performed by a given program of the pool changes the store. -/
abbrev Semantics (Op : Type u) (Ans : Op → Type v) (ε : Type v) (σ : Type x) :=
  ℕ → (op : Op) → σ → Except ε (Ans op) → σ → Prop

/-- A shared store and the programs that work on it. -/
structure Config (Op : Type u) (Ans : Op → Type v) (ε : Type v) (α : Type w) (σ : Type x) where
  store : σ
  pool : List (Prog Op Ans ε α)

variable (exec : Semantics Op Ans ε σ)

/-- One atomic step: some program of the pool performs the operation it awaits. -/
inductive Step : Config Op Ans ε α σ → Label Op Ans ε → Config Op Ans ε α σ → Prop where
  | perform {c : Config Op Ans ε α σ} {i : ℕ} {op : Op} {k} {a : Except ε (Ans op)} {s' : σ}
      (awaits : c.pool[i]? = some (.call op k)) (answered : exec i op c.store a s') :
      Step c ⟨i, op, a⟩ ⟨s', c.pool.set i (k a)⟩

/-- A finite run, with its labels in order. -/
inductive Run : Config Op Ans ε α σ → List (Label Op Ans ε) → Config Op Ans ε α σ → Prop where
  | refl (c) : Run c [] c
  | snoc {c ls c₁ l c₂} (run : Run c ls c₁) (step : Step exec c₁ l c₂) : Run c (ls ++ [l]) c₂

variable {exec}

lemma Run.single {c c' : Config Op Ans ε α σ} {l : Label Op Ans ε} (h : Step exec c l c') :
    Run exec c [l] c' := .snoc (.refl c) h

lemma Run.append {c c₁ c₂ : Config Op Ans ε α σ} {ls ls' : List (Label Op Ans ε)}
    (h : Run exec c ls c₁) (h' : Run exec c₁ ls' c₂) : Run exec c (ls ++ ls') c₂ := by
  induction h' with
  | refl => simpa using h
  | snoc _ step ih =>
    rw [← List.append_assoc]
    exact .snoc ih step

lemma Run.cons {c c₁ c₂ : Config Op Ans ε α σ} {l : Label Op Ans ε} {ls : List (Label Op Ans ε)}
    (h : Step exec c l c₁) (h' : Run exec c₁ ls c₂) : Run exec c (l :: ls) c₂ :=
  (Run.single h).append h'

/-- Programs neither join nor leave the pool. -/
lemma Run.pool_length {c c' : Config Op Ans ε α σ} {ls : List (Label Op Ans ε)}
    (h : Run exec c ls c') : c'.pool.length = c.pool.length := by
  induction h with
  | refl => rfl
  | snoc _ step ih => cases step; simpa using ih

/-- Only programs of the pool take steps. -/
lemma Run.thread_lt {c c' : Config Op Ans ε α σ} {ls : List (Label Op Ans ε)}
    (h : Run exec c ls c') : ∀ l ∈ ls, l.thread < c.pool.length := by
  induction h with
  | refl => simp
  | snoc run step ih =>
    intro l hl
    rcases List.mem_append.mp hl with hl | hl
    · exact ih l hl
    · cases step with
      | perform awaits _ =>
        rw [List.mem_singleton.mp hl, ← run.pool_length]
        exact (List.getElem?_eq_some_iff.mp awaits).1

/-! ### Following a schedule -/

section Schedule

variable {ι : Type*} (handle : ι → (op : Op) → σ → Option (Except ε (Ans op) × σ))

/-- The run that picks the programs of a schedule in order, each with an input that decides how its
operation is answered; `none` where a program awaits nothing or an operation has no such answer. -/
def follow : List (ℕ × ι) → Config Op Ans ε α σ →
    Option (List (Label Op Ans ε) × Config Op Ans ε α σ)
  | [], c => some ([], c)
  | (i, x) :: schedule, c =>
    match c.pool[i]? with
    | some (.call op k) =>
      (handle x op c.store).bind fun (a, s') =>
        (follow schedule ⟨s', c.pool.set i (k a)⟩).map fun (ls, c') => (⟨i, op, a⟩ :: ls, c')
    | _ => none

variable {handle}

lemma Run.of_follow (hexec : ∀ i x op s a s', handle x op s = some (a, s') → exec i op s a s')
    {schedule : List (ℕ × ι)} {c c' : Config Op Ans ε α σ} {ls : List (Label Op Ans ε)}
    (h : follow handle schedule c = some (ls, c')) : Run exec c ls c' := by
  induction schedule generalizing c ls with
  | nil => cases h; exact .refl _
  | cons step schedule ih =>
    obtain ⟨i, x⟩ := step
    simp only [follow] at h
    split at h
    · rename_i op k hpool
      obtain ⟨⟨a, s'⟩, hhandle, h⟩ := Option.bind_eq_some_iff.mp h
      obtain ⟨⟨ls', c''⟩, hrest, h⟩ := Option.map_eq_some_iff.mp h
      cases h
      exact .cons (.perform hpool (hexec i x op c.store a s' hhandle)) (ih hrest)
    · cases h

variable (handle)

/-- A program alone, along the inputs that decide how its operations are answered, to its end. -/
def Prog.play : List ι → Prog Op Ans ε α → σ → Option (List (Label Op Ans ε) × Except ε α × σ)
  | [], .ret a, s => some ([], .ok a, s)
  | [], .throw e, s => some ([], .error e, s)
  | x :: xs, .call op k, s =>
    (handle x op s).bind fun (a, s') =>
      (Prog.play xs (k a) s').map fun (ls, r, s'') => (⟨0, op, a⟩ :: ls, r, s'')
  | _, _, _ => none

variable {handle}

lemma Run.of_play (hexec : ∀ x op s a s', handle x op s = some (a, s') → exec 0 op s a s')
    {xs : List ι} {p : Prog Op Ans ε α} {s s' : σ} {ls : List (Label Op Ans ε)} {r : Except ε α}
    (h : p.play handle xs s = some (ls, r, s')) :
    Run exec ⟨s, [p]⟩ ls ⟨s', [.ofExcept r]⟩ := by
  induction xs generalizing p s ls with
  | nil =>
    cases p with
    | ret a => cases h; exact .refl _
    | throw e => cases h; exact .refl _
    | call op k => cases h
  | cons x xs ih =>
    cases p with
    | ret a => cases h
    | throw e => cases h
    | call op k =>
      obtain ⟨⟨a, t⟩, hhandle, h⟩ := Option.bind_eq_some_iff.mp h
      obtain ⟨⟨ls', r', s''⟩, hrest, h⟩ := Option.map_eq_some_iff.mp h
      cases h
      exact .cons (.perform rfl (hexec x op s a t hhandle)) (ih hrest)

end Schedule

/-! ### Recording the history in the store -/

variable (exec)

/-- The same operations on a store that also keeps the labels of the run so far. -/
def recorded : Semantics Op Ans ε (σ × List (Label Op Ans ε)) :=
  fun i op s a s' => exec i op s.1 a s'.1 ∧ s'.2 = s.2 ++ [⟨i, op, a⟩]

variable {exec}

section

variable {i : ℕ} {op : Op} {a : Except ε (Ans op)} {s s' : σ × List (Label Op Ans ε)}

lemma subset_of_recorded (h : recorded exec i op s a s') : s.2 ⊆ s'.2 := by
  rw [h.2]
  exact List.subset_append_left _ _

lemma mem_of_recorded (h : recorded exec i op s a s') : ⟨i, op, a⟩ ∈ s'.2 := by
  rw [h.2]
  exact List.mem_append_right _ (List.mem_singleton_self _)

end

lemma Step.recorded {c c' : Config Op Ans ε α σ} {l : Label Op Ans ε} (h : Step exec c l c')
    (ls : List (Label Op Ans ε)) :
    Step (recorded exec) ⟨(c.store, ls), c.pool⟩ l ⟨(c'.store, ls ++ [l]), c'.pool⟩ := by
  cases h with
  | perform awaits answered => exact .perform awaits ⟨answered, rfl⟩

/-- Every run is a recorded run whose history is the list of its labels. -/
lemma Run.recorded {c c' : Config Op Ans ε α σ} {ls : List (Label Op Ans ε)}
    (h : Run exec c ls c') :
    Run (recorded exec) ⟨(c.store, []), c.pool⟩ ls ⟨(c'.store, ls), c'.pool⟩ := by
  induction h with
  | refl => exact .refl _
  | snoc _ step ih => exact .snoc ih (step.recorded _)

/-- The labels of one program. -/
def ownLabels (i : ℕ) (ls : List (Label Op Ans ε)) : List (Label Op Ans ε) :=
  ls.filter fun l => l.thread = i

lemma mem_ownLabels {i : ℕ} {l : Label Op Ans ε} {ls : List (Label Op Ans ε)} :
    l ∈ ownLabels i ls ↔ l ∈ ls ∧ l.thread = i := by
  simp only [ownLabels, List.mem_filter, decide_eq_true_eq]

lemma ownLabels_self {i : ℕ} {op : Op} {a : Except ε (Ans op)} {ls : List (Label Op Ans ε)} :
    ownLabels i (ls ++ [⟨i, op, a⟩]) = ownLabels i ls ++ [⟨i, op, a⟩] := by
  simp [ownLabels]

lemma ownLabels_of_ne {i j : ℕ} (h : j ≠ i) {op : Op} {a : Except ε (Ans op)}
    {ls : List (Label Op Ans ε)} : ownLabels i (ls ++ [⟨j, op, a⟩]) = ownLabels i ls := by
  simp [ownLabels, h]

end Effect
