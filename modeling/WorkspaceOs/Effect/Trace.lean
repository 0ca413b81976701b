import WorkspaceOs.Effect.Interleaving
import WorkspaceOs.Effect.History

/-!
# Traces of atomic operations

A trace performs operations on a store one after the other, whoever asks for them. Nothing is said
of the callers but what a condition on each operation, given the history before it, says.
-/

namespace Effect

universe u v w x

variable {Op : Type u} {Ans : Op → Type v} {ε : Type v} {α : Type w} {σ : Type x}

/-- A finite trace, with its labels in order. -/
inductive Trace (exec : Semantics Op Ans ε σ) : σ → List (Label Op Ans ε) → σ → Prop where
  | refl (s) : Trace exec s [] s
  | snoc {s ls s₁ i op a s₂} (trace : Trace exec s ls s₁) (step : exec i op s₁ a s₂) :
      Trace exec s (ls ++ [⟨i, op, a⟩]) s₂

variable {exec : Semantics Op Ans ε σ} {s s' : σ} {ls ls' : List (Label Op Ans ε)}

/-- A pool of programs leaves a trace on its store. -/
lemma Run.trace {c c' : Config Op Ans ε α σ} (h : Run exec c ls c') :
    Trace exec c.store ls c'.store := by
  induction h with
  | refl => exact .refl _
  | snoc _ step ih =>
    cases step with
    | perform _ answered => exact .snoc ih answered

lemma Trace.append {s₁ : σ} (h : Trace exec s ls s₁) (h' : Trace exec s₁ ls' s') :
    Trace exec s (ls ++ ls') s' := by
  induction h' with
  | refl => simpa using h
  | snoc _ step ih =>
    rw [← List.append_assoc]
    exact .snoc ih step

lemma Trace.of_concat {l : Label Op Ans ε} (h : Trace exec s (ls ++ [l]) s') :
    ∃ s₁, Trace exec s ls s₁ ∧ exec l.thread l.op s₁ l.ans s' := by
  generalize hall : ls ++ [l] = all at h
  cases h with
  | refl => exact absurd hall (by simp)
  | snoc trace step =>
    obtain ⟨hls, hl⟩ := List.append_inj' hall rfl
    cases hls
    cases List.singleton_inj.mp hl
    exact ⟨_, trace, step⟩

/-- A trace passes through a store after any of its prefixes. -/
lemma Trace.of_append (h : Trace exec s (ls ++ ls') s') :
    ∃ s₁, Trace exec s ls s₁ ∧ Trace exec s₁ ls' s' := by
  induction ls' using List.reverseRecOn generalizing s' with
  | nil => exact ⟨s', by simpa using h, .refl s'⟩
  | append_singleton ls' l ih =>
    rw [← List.append_assoc] at h
    obtain ⟨s₂, trace, step⟩ := h.of_concat
    obtain ⟨s₁, before, after⟩ := ih trace
    exact ⟨s₁, before, .snoc after step⟩

/-- What every label of a trace stands for. -/
lemma Trace.of_mem {l : Label Op Ans ε} (h : Trace exec s ls s') (hl : l ∈ ls) :
    ∃ pre post s₁ s₂, ls = pre ++ l :: post ∧ Trace exec s pre s₁ ∧
      exec l.thread l.op s₁ l.ans s₂ ∧ Trace exec s₂ post s' := by
  obtain ⟨pre, post, rfl⟩ := List.append_of_mem hl
  obtain ⟨s₂, before, after⟩ :=
    @Trace.of_append _ _ _ _ exec s s' (pre ++ [l]) post (by simpa using h)
  obtain ⟨s₁, before, step⟩ := before.of_concat
  exact ⟨pre, post, s₁, s₂, rfl, before, step, after⟩

/-- The rule of invariants: what holds at first, and is kept by every operation whose callers
satisfy `G`, holds after every trace whose callers do. -/
lemma Trace.invariant {P : List (Label Op Ans ε) → σ → Prop}
    {G : List (Label Op Ans ε) → Label Op Ans ε → Prop} (h : P [] s)
    (hstep : ∀ ls s₁ i op a s₂, P ls s₁ → G ls ⟨i, op, a⟩ → exec i op s₁ a s₂ →
      P (ls ++ [⟨i, op, a⟩]) s₂)
    (trace : Trace exec s ls s') (hG : Always G ls) : P ls s' := by
  induction trace with
  | refl => exact h
  | snoc _ step ih =>
    obtain ⟨hbefore, hlast⟩ := Always.concat_iff.mp hG
    exact hstep _ _ _ _ _ _ (ih hbefore) hlast step

/-- The rule of invariants where nothing is asked of the callers. -/
lemma Trace.invariant_of_any {P : List (Label Op Ans ε) → σ → Prop} (h : P [] s)
    (hstep : ∀ ls s₁ i op a s₂, P ls s₁ → exec i op s₁ a s₂ → P (ls ++ [⟨i, op, a⟩]) s₂)
    (trace : Trace exec s ls s') : P ls s' :=
  trace.invariant (G := fun _ _ => True) h (fun _ _ _ _ _ _ hP _ => hstep _ _ _ _ _ _ hP)
    fun _ _ _ _ => trivial

/-- What holds of every step, given the trace before it, is always so. -/
lemma Trace.always {P : List (Label Op Ans ε) → Label Op Ans ε → Prop} (trace : Trace exec s ls s')
    (hstep : ∀ pre s₁ i op a s₂, Trace exec s pre s₁ → exec i op s₁ a s₂ → P pre ⟨i, op, a⟩) :
    Always P ls := by
  induction trace with
  | refl => exact Always.nil
  | snoc before step ih => exact Always.concat_iff.mpr ⟨ih, hstep _ _ _ _ _ _ before step⟩

/-- What no operation makes false stays true. -/
lemma Trace.keeps {P : σ → Prop} (hstep : ∀ i op s₁ a s₂, exec i op s₁ a s₂ → P s₁ → P s₂)
    (trace : Trace exec s ls s') (h : P s) : P s' :=
  trace.invariant_of_any (P := fun _ => P) h fun _ _ _ _ _ _ hP step => hstep _ _ _ _ _ step hP

/-! ### Carrying out a script -/

section Script

variable {ι : Type*} (handle : ι → (op : Op) → σ → Option (Except ε (Ans op) × σ))

/-- The operations of a script in order, each with its caller and with an input that decides how it
is answered; `none` where an operation has no such answer. -/
def carryOut : List (ℕ × ι × Op) → σ → Option (List (Label Op Ans ε) × σ)
  | [], s => some ([], s)
  | (i, x, op) :: script, s =>
    (handle x op s).bind fun (a, s₁) =>
      (carryOut script s₁).map fun (ls, s') => (⟨i, op, a⟩ :: ls, s')

variable {handle}

lemma Trace.of_carryOut (hexec : ∀ i x op s a s', handle x op s = some (a, s') → exec i op s a s')
    {script : List (ℕ × ι × Op)} (h : carryOut handle script s = some (ls, s')) :
    Trace exec s ls s' := by
  induction script generalizing s ls with
  | nil =>
    cases h
    exact .refl _
  | cons entry script ih =>
    obtain ⟨i, x, op⟩ := entry
    simp only [carryOut] at h
    obtain ⟨⟨a, s₁⟩, hhandle, h⟩ := Option.bind_eq_some_iff.mp h
    obtain ⟨⟨ls', s₂⟩, hrest, h⟩ := Option.map_eq_some_iff.mp h
    cases h
    exact Trace.append (.snoc (.refl _) (hexec i x op _ a s₁ hhandle)) (ih hrest)

end Script

end Effect
