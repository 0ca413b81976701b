import WorkspaceOs.Effect.RelyGuarantee
import WorkspaceOs.Effect.Trace

/-!
# Refinement

Two components answer the same operations. One simulates the other where a relation between their
states is kept by every operation, with the same answer. What the first one answers in a trace is
then what the second one may answer, so whatever is proved of the traces of the second holds of the
first.
-/

namespace Effect

universe u v w x y

variable {Op : Type u} {Ans : Op → Type v} {ε : Type v} {α : Type w} {σ : Type x} {τ : Type y}

/-- Whatever `exec` does in a state, `spec` may do in every state related to it. -/
def Simulates (exec : Semantics Op Ans ε σ) (spec : Semantics Op Ans ε τ)
    (R : σ → τ → Prop) : Prop :=
  ∀ i op s a s' t, R s t → exec i op s a s' → ∃ t', spec i op t a t' ∧ R s' t'

variable {exec : Semantics Op Ans ε σ} {spec : Semantics Op Ans ε τ} {R : σ → τ → Prop}
  {s s' : σ} {t t' : τ} {ls : List (Label Op Ans ε)}

/-- A simulation of steps is one of traces. -/
lemma Simulates.trace (h : Simulates exec spec R) (hR : R s t) (trace : Trace exec s ls s') :
    ∃ t', Trace spec t ls t' ∧ R s' t' := by
  induction trace with
  | refl => exact ⟨t, .refl t, hR⟩
  | snoc _ step ih =>
    obtain ⟨t₁, before, hR₁⟩ := ih
    obtain ⟨t₂, step', hR₂⟩ := h _ _ _ _ _ _ hR₁ step
    exact ⟨t₂, .snoc before step', hR₂⟩

/-- A component whose states are read as those of another, as long as an invariant holds. -/
structure Refines (exec : Semantics Op Ans ε σ) (spec : Semantics Op Ans ε τ) (inv : σ → Prop)
    (read : σ → τ) : Prop where
  keeps : ∀ {i op s a s'}, inv s → exec i op s a s' → inv s'
  step : ∀ {i op s a s'}, inv s → exec i op s a s' → spec i op (read s) a (read s')

variable {inv : σ → Prop} {read : σ → τ}

lemma Refines.simulates (h : Refines exec spec inv read) :
    Simulates exec spec fun s t => inv s ∧ read s = t := by
  rintro i op s a s' _ ⟨hinv, rfl⟩ hexec
  exact ⟨read s', h.step hinv hexec, h.keeps hinv hexec, rfl⟩

lemma Refines.trace (h : Refines exec spec inv read) (hinv : inv s) (trace : Trace exec s ls s') :
    Trace spec (read s) ls (read s') := by
  obtain ⟨_, trace', -, rfl⟩ := h.simulates.trace ⟨hinv, rfl⟩ trace
  exact trace'

/-! ### Programs that keep to a discipline -/

/-- The steps that a discipline admits. -/
def Discipline.guarded (D : Discipline exec) : Semantics Op Ans ε σ :=
  fun i op s a s' => D.pre i op s ∧ exec i op s a s'

variable {D : Discipline exec} {Q : ℕ → Except ε α → σ → Prop} {c c' : Config Op Ans ε α σ}

/-- A disciplined pool leaves a trace of admitted steps. -/
lemma Disciplined.trace (h : Disciplined D Q c) (run : Run exec c ls c') :
    Trace D.guarded c.store ls c'.store := by
  induction run with
  | refl => exact .refl _
  | snoc before step ih =>
    have hpre := (h.run before).pre step
    cases step with
    | perform _ answered => exact .snoc ih ⟨hpre, answered⟩

/-- A pool refines a component if the admitted steps do. -/
lemma Disciplined.refines (read : σ → τ) (h : Disciplined D Q c)
    (hstep : ∀ {i op s a s'}, D.inv s → D.pre i op s → exec i op s a s' →
      spec i op (read s) a (read s')) (run : Run exec c ls c') :
    Trace spec (read c.store) ls (read c'.store) := by
  have hrefines : Refines D.guarded spec D.inv read :=
    ⟨fun hinv hguarded => D.keeps hinv hguarded.1 hguarded.2,
      fun hinv hguarded => hstep hinv hguarded.1 hguarded.2⟩
  exact hrefines.trace h.inv (h.trace run)

end Effect
