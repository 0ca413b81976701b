import WorkspaceOs.Effect.History
import WorkspaceOs.Effect.Interleaving
import WorkspaceOs.Effect.Strategy

/-!
# What a program does of its own

`Behaves A P Q p h`: after its own history `h`, and however it is answered as far as `A` goes, the
program `p` performs only operations that `P` allows by what it did before, and ends as `Q` says.
That much needs no look at the store, and holds of the program in every pool.
-/

namespace Effect

universe u v w x

variable {Op : Type u} {Ans : Op → Type v} {ε : Type v} {α β : Type w} {σ : Type x}
  {A : (op : Op) → Except ε (Ans op) → Prop} {P : List (Event Op Ans ε) → Op → Prop}
  {h : List (Event Op Ans ε)}

namespace Prog

/-- The program keeps to `P` and `Q`, by its own history. -/
def Behaves (A : (op : Op) → Except ε (Ans op) → Prop) (P : List (Event Op Ans ε) → Op → Prop)
    (Q : List (Event Op Ans ε) → Except ε α → Prop) :
    Prog Op Ans ε α → List (Event Op Ans ε) → Prop
  | .ret a, h => Q h (.ok a)
  | .throw e, h => Q h (.error e)
  | .call op k, h => P h op ∧ ∀ r, A op r → (k r).Behaves A P Q (h ++ [⟨op, r⟩])

variable {Q : List (Event Op Ans ε) → Except ε α → Prop}
  {R : List (Event Op Ans ε) → Except ε β → Prop}

/-- A program that is changed only at its ends behaves as they do. -/
lemma Behaves.change_ends (F : Prog Op Ans ε α → Prog Op Ans ε β)
    (hcall : ∀ op k, F (.call op k) = .call op fun r => F (k r))
    (hret : ∀ a h, Q h (.ok a) → (F (.ret a)).Behaves A P R h)
    (hthrow : ∀ e h, Q h (.error e) → (F (.throw e)).Behaves A P R h)
    {p : Prog Op Ans ε α} (hp : p.Behaves A P Q h) : (F p).Behaves A P R h := by
  induction p generalizing h with
  | ret a => exact hret a h hp
  | throw e => exact hthrow e h hp
  | call op k ih =>
    rw [hcall]
    exact ⟨hp.1, fun r hr => ih r (hp.2 r hr)⟩

lemma Behaves.bind {p : Prog Op Ans ε α} {f : α → Prog Op Ans ε β} (hp : p.Behaves A P Q h)
    (hok : ∀ a h, Q h (.ok a) → (f a).Behaves A P R h)
    (herr : ∀ e h, Q h (.error e) → R h (.error e)) : (p >>= f).Behaves A P R h :=
  hp.change_ends (· >>= f) (fun _ _ => rfl) hok herr

lemma Behaves.map {p : Prog Op Ans ε α} (hp : p.Behaves A P Q h) (f : α → β)
    (hQ : ∀ r h, Q h r → R h (f <$> r)) : (f <$> p).Behaves A P R h :=
  hp.change_ends (f <$> ·) (fun _ _ => rfl) (fun a => hQ (.ok a)) fun e => hQ (.error e)

/-- Perform an operation and go on. -/
lemma Behaves.perform_bind {Ans : Op → Type w} {ε : Type w} {α : Type w}
    {A : (op : Op) → Except ε (Ans op) → Prop} {P : List (Event Op Ans ε) → Op → Prop}
    {Q : List (Event Op Ans ε) → Except ε α → Prop} {h : List (Event Op Ans ε)} {op : Op}
    {f : Ans op → Prog Op Ans ε α} (hop : P h op)
    (hok : ∀ a, A op (.ok a) → (f a).Behaves A P Q (h ++ [⟨op, .ok a⟩]))
    (herr : ∀ e, Q (h ++ [⟨op, .error e⟩]) (.error e)) : (perform op >>= f).Behaves A P Q h := by
  refine ⟨hop, fun r hr => ?_⟩
  cases r with
  | ok a => exact hok a hr
  | error e => exact herr e

/-- A program whose operations keep `I` and are allowed where `I` holds keeps `I`. -/
lemma Behaves.of_all {good : Op → Prop} {I : List (Event Op Ans ε) → Prop}
    (hallowed : ∀ h op, good op → I h → P h op)
    (hkeeps : ∀ h op r, good op → I h → I (h ++ [⟨op, r⟩])) {p : Prog Op Ans ε α}
    (hp : p.All good) (hI : I h) : p.Behaves A P (fun h _ => I h) h := by
  induction hp generalizing h with
  | ret a => exact hI
  | throw e => exact hI
  | call hop _ ih => exact ⟨hallowed _ _ hop hI, fun r _ => ih r (hkeeps _ _ r hop hI)⟩

lemma Behaves.mono {Q' : List (Event Op Ans ε) → Except ε α → Prop} {p : Prog Op Ans ε α}
    (hp : p.Behaves A P Q h) (hQ : ∀ r h, Q h r → Q' h r) : p.Behaves A P Q' h :=
  hp.change_ends id (fun _ _ => rfl) (fun a => hQ (.ok a)) fun e => hQ (.error e)

end Prog

/-! ### In a pool -/

/-- What was performed, whoever performed it. -/
def Label.event (l : Label Op Ans ε) : Event Op Ans ε := ⟨l.op, l.ans⟩

/-- The own history of one program of a pool. -/
def ownEvents (i : ℕ) (ls : List (Label Op Ans ε)) : List (Event Op Ans ε) :=
  (ownLabels i ls).map Label.event

variable {i j : ℕ} {ls : List (Label Op Ans ε)} {op : Op} {a : Except ε (Ans op)}

lemma mem_ownEvents {e : Event Op Ans ε} :
    e ∈ ownEvents i ls ↔ (⟨i, e.op, e.ans⟩ : Label Op Ans ε) ∈ ls := by
  simp only [ownEvents, List.mem_map, mem_ownLabels]
  constructor
  · rintro ⟨l, ⟨hl, rfl⟩, rfl⟩
    exact hl
  · intro hl
    exact ⟨_, ⟨hl, rfl⟩, rfl⟩

lemma ownEvents_self :
    ownEvents i (ls ++ [⟨i, op, a⟩]) = ownEvents i ls ++ [⟨op, a⟩] := by
  rw [ownEvents, ownLabels_self, List.map_append]
  rfl

lemma ownEvents_of_ne (hne : j ≠ i) : ownEvents i (ls ++ [⟨j, op, a⟩]) = ownEvents i ls := by
  rw [ownEvents, ownLabels_of_ne hne, ownEvents]

variable {exec : Semantics Op Ans ε σ} {c c' : Config Op Ans ε α σ}
  {P : ℕ → List (Event Op Ans ε) → Op → Prop} {Q : ℕ → List (Event Op Ans ε) → Except ε α → Prop}

/-- In every run, each program goes on as it behaves after its own history, and each operation was
allowed by the own history before it. -/
lemma Run.behaves (run : Run exec c ls c') (hA : ∀ {i op s a s'}, exec i op s a s' → A op a)
    (hpool : ∀ i (p : Prog Op Ans ε α), c.pool[i]? = some p → p.Behaves A (P i) (Q i) []) :
    (∀ i (p : Prog Op Ans ε α), c'.pool[i]? = some p →
      p.Behaves A (P i) (Q i) (ownEvents i ls)) ∧
      Always (fun pre l => P l.thread (ownEvents l.thread pre) l.op) ls := by
  induction run with
  | refl => exact ⟨hpool, .nil⟩
  | snoc _ step ih =>
    obtain ⟨hbehaves, halways⟩ := ih
    cases step with
    | @perform i op k a s' awaits answered =>
      obtain ⟨hop, hrest⟩ := hbehaves i _ awaits
      refine ⟨fun j p hj => ?_, Always.concat_iff.mpr ⟨halways, hop⟩⟩
      by_cases hij : i = j
      · subst hij
        have hlt := (List.getElem?_eq_some_iff.mp awaits).1
        rw [List.getElem?_set_self hlt] at hj
        cases hj
        rw [ownEvents_self]
        exact hrest a (hA answered)
      · rw [List.getElem?_set_ne hij] at hj
        rw [ownEvents_of_ne hij]
        exact hbehaves j p hj

/-- What a program of the pool has ended with. -/
lemma Run.behaves_result {r : Except ε α}
    (hbehaves : ∀ i (p : Prog Op Ans ε α), c'.pool[i]? = some p →
      p.Behaves A (P i) (Q i) (ownEvents i ls))
    (hr : c'.pool[i]? = some (.ofExcept r)) : Q i (ownEvents i ls) r := by
  have hend := hbehaves i _ hr
  cases r with
  | ok a => exact hend
  | error e => exact hend

end Effect
