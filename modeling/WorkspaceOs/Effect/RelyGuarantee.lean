import WorkspaceOs.Effect.Interleaving

/-!
# Rely-guarantee reasoning about interleaved programs

A discipline names what every program of a pool keeps to: a precondition on each operation it
performs, and an invariant of the store that such operations preserve. A program is safe at a
store when it keeps to the discipline whatever the other programs do in between, as long as they
keep to it as well. Safety of the single programs gives safety of every interleaved run.
-/

namespace Effect

open Relation

universe u v w x

variable {Op : Type u} {Ans : Op → Type v} {ε : Type v} {α β : Type w} {σ : Type x}

/-- An invariant of the store, and the condition under which each operation keeps it. -/
structure Discipline (exec : Semantics Op Ans ε σ) where
  inv : σ → Prop
  pre : ℕ → Op → σ → Prop
  keeps : ∀ {i op s a s'}, inv s → pre i op s → exec i op s a s' → inv s'

namespace Discipline

variable {exec : Semantics Op Ans ε σ} (D : Discipline exec) (i : ℕ)

/-- A step of the pool that is not a step of program `i`. -/
def Env (s s' : σ) : Prop :=
  ∃ (j : ℕ) (op : Op) (a : Except ε (Ans op)), j ≠ i ∧ D.inv s ∧ D.pre j op s ∧ exec j op s a s'

/-- No step of another program makes `P` false. -/
def Stable (P : σ → Prop) : Prop :=
  ∀ s s', P s → D.Env i s s' → P s'

/-- Program `i`, started at `s`, keeps to the discipline and ends as `Q` says. -/
def Safe (Q : Except ε α → σ → Prop) : Prog Op Ans ε α → σ → Prop
  | .ret a, s => ∀ s', ReflTransGen (D.Env i) s s' → Q (.ok a) s'
  | .throw e, s => ∀ s', ReflTransGen (D.Env i) s s' → Q (.error e) s'
  | .call op k, s => ∀ s', ReflTransGen (D.Env i) s s' → D.inv s' →
      D.pre i op s' ∧ ∀ a s'', exec i op s' a s'' → Safe Q (k a) s''

/-- No step at all, of this program or another, makes `P` false. -/
def Lasting (P : σ → Prop) : Prop :=
  ∀ i op s (a : Except ε (Ans op)) s', D.inv s → D.pre i op s → exec i op s a s' → P s → P s'

variable {D i} {Q Q' : Except ε α → σ → Prop}

lemma Lasting.stable {P : σ → Prop} (hP : D.Lasting P) : D.Stable i P :=
  fun _ _ h ⟨_, _, _, _, hinv, hpre, hexec⟩ => hP _ _ _ _ _ hinv hpre hexec h

lemma Stable.reach {P : σ → Prop} (hP : D.Stable i P) {s s' : σ} (h : P s)
    (hs : ReflTransGen (D.Env i) s s') : P s' := by
  induction hs with
  | refl => exact h
  | tail _ step ih => exact hP _ _ ih step

lemma Stable.and {P P' : σ → Prop} (hP : D.Stable i P) (hP' : D.Stable i P') :
    D.Stable i fun s => P s ∧ P' s :=
  fun s s' h step => ⟨hP s s' h.1 step, hP' s s' h.2 step⟩

lemma Stable.const (p : Prop) : D.Stable i fun _ => p := fun _ _ h _ => h

lemma Lasting.const (p : Prop) : D.Lasting fun _ => p := fun _ _ _ _ _ _ _ _ h => h

/-- What a history tells lasts, if no longer one tells less. -/
lemma history_lasting {D : Discipline (recorded exec)} {P : List (Label Op Ans ε) → Prop}
    (hP : ∀ {h h'}, P h → h ⊆ h' → P h') : D.Lasting fun s => P s.2 :=
  fun _ _ _ _ _ _ _ h hs => hP hs (subset_of_recorded h)

/-- The others add nothing to what a program did itself. -/
lemma ownLabels_stable {D : Discipline (recorded exec)} (ls : List (Label Op Ans ε)) :
    D.Stable i fun s => ownLabels i s.2 = ls := by
  rintro s s' hown ⟨j, op, a, hne, -, -, hexec⟩
  rw [hexec.2, ownLabels_of_ne hne, hown]

/-- Safety itself survives the steps of the others. -/
lemma Safe.stable (p : Prog Op Ans ε α) : D.Stable i (D.Safe i Q p) := by
  intro s s' h step
  cases p with
  | ret a => exact fun t ht => h t (.head step ht)
  | throw e => exact fun t ht => h t (.head step ht)
  | call op k => exact fun t ht => h t (.head step ht)

lemma Safe.ret {a : α} {s : σ} (hQ : D.Stable i (Q (.ok a))) (h : Q (.ok a) s) :
    D.Safe i Q (.ret a) s :=
  fun _ hs => hQ.reach h hs

lemma Safe.throw {e : ε} {s : σ} (hQ : D.Stable i (Q (.error e))) (h : Q (.error e) s) :
    D.Safe i Q (.throw e) s :=
  fun _ hs => hQ.reach h hs

/-- To perform an operation, know something stable that gives its precondition. -/
lemma Safe.call {op : Op} {k : Except ε (Ans op) → Prog Op Ans ε α} (P : σ → Prop)
    (hP : D.Stable i P) {s : σ} (h : P s)
    (hpre : ∀ s, D.inv s → P s → D.pre i op s)
    (hk : ∀ s a s', D.inv s → P s → exec i op s a s' → D.Safe i Q (k a) s') :
    D.Safe i Q (.call op k) s := by
  intro s' hs hinv
  have hs' : P s' := hP.reach h hs
  exact ⟨hpre s' hinv hs', fun a s'' step => hk s' a s'' hinv hs' step⟩

/-- Await a single operation and go on. -/
lemma Safe.perform_bind {Ans : Op → Type w} {ε : Type w} {α : Type w}
    {exec : Semantics Op Ans ε σ} {D : Discipline exec} {i : ℕ} {Q : Except ε α → σ → Prop}
    {op : Op} {f : Ans op → Prog Op Ans ε α} (P : σ → Prop) (hP : D.Stable i P) {s : σ} (h : P s)
    (hpre : ∀ s, D.inv s → P s → D.pre i op s)
    (hok : ∀ s a s', D.inv s → P s → exec i op s (.ok a) s' → D.Safe i Q (f a) s')
    (herr : ∀ s e s', D.inv s → P s → exec i op s (.error e) s' → D.Safe i Q (.throw e) s') :
    D.Safe i Q (Prog.perform op >>= f) s := by
  apply Safe.call P hP h hpre
  intro s a s' hinv hs hexec
  cases a with
  | ok a => exact hok s a s' hinv hs hexec
  | error e => exact herr s e s' hinv hs hexec

/-- What lasts can be carried along. -/
lemma Safe.lasting {P : σ → Prop} (hP : D.Lasting P) {p : Prog Op Ans ε α} {s : σ}
    (h : D.Safe i Q p s) (hs : P s) : D.Safe i (fun r s => Q r s ∧ P s) p s := by
  induction p generalizing s with
  | ret a => exact fun t ht => ⟨h t ht, hP.stable.reach hs ht⟩
  | throw e => exact fun t ht => ⟨h t ht, hP.stable.reach hs ht⟩
  | call op k ih =>
    intro t ht hinv
    obtain ⟨hpre, hk⟩ := h t ht hinv
    exact ⟨hpre, fun a s' step =>
      ih a (hk a s' step) (hP _ _ _ _ _ hinv hpre step (hP.stable.reach hs ht))⟩

/-- A program that is changed only at its ends is as safe as they are. -/
lemma Safe.change_ends {R : Except ε β → σ → Prop} (F : Prog Op Ans ε α → Prog Op Ans ε β)
    (hcall : ∀ op k, F (.call op k) = .call op fun a => F (k a))
    (hret : ∀ a s, D.Safe i Q (.ret a) s → D.Safe i R (F (.ret a)) s)
    (hthrow : ∀ e s, D.Safe i Q (.throw e) s → D.Safe i R (F (.throw e)) s)
    {p : Prog Op Ans ε α} {s : σ} (h : D.Safe i Q p s) : D.Safe i R (F p) s := by
  induction p generalizing s with
  | ret a => exact hret a s h
  | throw e => exact hthrow e s h
  | call op k ih =>
    rw [hcall]
    intro t ht hinv
    obtain ⟨hpre, hk⟩ := h t ht hinv
    exact ⟨hpre, fun a s' step => ih a (hk a s' step)⟩

lemma Safe.mono {p : Prog Op Ans ε α} {s : σ} (h : D.Safe i Q p s)
    (hQ : ∀ r s, Q r s → Q' r s) : D.Safe i Q' p s :=
  h.change_ends id (fun _ _ => rfl) (fun _ _ h t ht => hQ _ _ (h t ht))
    fun _ _ h t ht => hQ _ _ (h t ht)

/-- Sequencing: what the first program ends with is what the second one starts from. -/
lemma Safe.bind {R : Except ε β → σ → Prop} {p : Prog Op Ans ε α} {f : α → Prog Op Ans ε β}
    {s : σ} (h : D.Safe i Q p s)
    (hok : ∀ a s, Q (.ok a) s → D.Safe i R (f a) s)
    (herr : ∀ e s, Q (.error e) s → D.Safe i R (.throw e) s) :
    D.Safe i R (p >>= f) s :=
  h.change_ends (· >>= f) (fun _ _ => rfl) (fun a s h => hok a s (h s .refl))
    fun e s h => herr e s (h s .refl)

/-- Catching: the handler starts from where the throw left off. -/
lemma Safe.tryCatch {R : Except ε α → σ → Prop} {p : Prog Op Ans ε α}
    {handler : ε → Prog Op Ans ε α}
    {s : σ} (h : D.Safe i Q p s)
    (hok : ∀ a s, Q (.ok a) s → D.Safe i R (.ret a) s)
    (herr : ∀ e s, Q (.error e) s → D.Safe i R (handler e) s) :
    D.Safe i R (tryCatch p handler) s :=
  h.change_ends (MonadExcept.tryCatch · handler) (fun _ _ => rfl) (fun a s h => hok a s (h s .refl))
    fun e s h => herr e s (h s .refl)

lemma Safe.map {R : Except ε β → σ → Prop} {p : Prog Op Ans ε α} {s : σ} (h : D.Safe i Q p s)
    (f : α → β) (hQ : ∀ r s, Q r s → R (f <$> r) s) : D.Safe i R (f <$> p) s :=
  h.change_ends (f <$> ·) (fun _ _ => rfl) (fun _ _ h t ht => hQ _ _ (h t ht))
    fun _ _ h t ht => hQ _ _ (h t ht)

/-- A program whose operations may be performed where `P` holds, and keep `P`, keeps `P`. -/
lemma Safe.all {good : Op → Prop} {P : σ → Prop} (hP : D.Stable i P)
    (hgood : ∀ op, good op → ∀ s, D.inv s → P s → D.pre i op s)
    (hkeeps : ∀ op, good op → ∀ s a s', D.inv s → P s → exec i op s a s' → P s')
    {p : Prog Op Ans ε α} (hp : p.All good) {s : σ} (hs : P s) : D.Safe i (fun _ => P) p s := by
  induction hp generalizing s with
  | ret a => exact .ret hP hs
  | throw e => exact .throw hP hs
  | call h _ ih =>
    exact .call P hP hs (hgood _ h) fun s a s' hinv hs hexec =>
      ih a (hkeeps _ h s a s' hinv hs hexec)

/-- A program whose operations meet their preconditions at any store is safe, if any end is fine. -/
lemma Safe.of_all {good : Op → Prop} (hgood : ∀ op, good op → ∀ s, D.inv s → D.pre i op s)
    {p : Prog Op Ans ε α} (hp : p.All good) (hQ : ∀ r s, Q r s) (s : σ) : D.Safe i Q p s :=
  (Safe.all (Stable.const True) (fun op h s hinv _ => hgood op h s hinv)
    (fun _ _ _ _ _ _ _ _ => trivial) hp trivial).mono fun r s _ => hQ r s

end Discipline

variable {exec : Semantics Op Ans ε σ} (D : Discipline exec)

/-- Every program of the pool is safe, and the invariant holds. -/
structure Disciplined (Q : ℕ → Except ε α → σ → Prop) (c : Config Op Ans ε α σ) : Prop where
  inv : D.inv c.store
  safe : ∀ i p, c.pool[i]? = some p → D.Safe i (Q i) p c.store

variable {D} {Q : ℕ → Except ε α → σ → Prop} {c c' : Config Op Ans ε α σ}
  {l : Label Op Ans ε} {ls : List (Label Op Ans ε)}

/-- A step of a disciplined pool meets the precondition of its operation. -/
lemma Disciplined.pre (h : Disciplined D Q c) (step : Step exec c l c') :
    D.pre l.thread l.op c.store := by
  cases step with
  | perform awaits answered => exact (h.safe _ _ awaits _ .refl h.inv).1

lemma Disciplined.step (h : Disciplined D Q c) (step : Step exec c l c') :
    Disciplined D Q c' := by
  have hpre := h.pre step
  cases step with
  | @perform i op k a s' awaits answered =>
    refine ⟨D.keeps h.inv hpre answered, fun j p hj => ?_⟩
    by_cases hij : j = i
    · -- the program that moved continues where its safety says
      subst hij
      have hp : p = k a := by
        have hlt : j < c.pool.length := (List.getElem?_eq_some_iff.mp awaits).1
        simpa [hlt] using hj.symm
      subst hp
      exact (h.safe _ _ awaits _ .refl h.inv).2 a s' answered
    · -- the others saw an environment step
      have hp : c.pool[j]? = some p := by
        simpa [List.getElem?_set_ne (Ne.symm hij)] using hj
      exact Discipline.Safe.stable p _ _ (h.safe j p hp)
        ⟨i, op, a, Ne.symm hij, h.inv, hpre, answered⟩

/-- Safe programs stay safe along every interleaved run. -/
lemma Disciplined.run (h : Disciplined D Q c) (run : Run exec c ls c') : Disciplined D Q c' := by
  induction run with
  | refl => exact h
  | snoc _ step ih => exact ih.step step

/-- What a program of a disciplined pool has returned or thrown satisfies its postcondition. -/
lemma Disciplined.result (h : Disciplined D Q c) {i : ℕ} {r : Except ε α}
    (hr : c.pool[i]? = some (.ofExcept r)) : Q i r c.store := by
  have hsafe := h.safe i _ hr
  cases r with
  | ok a => exact hsafe _ .refl
  | error e => exact hsafe _ .refl

/-! ### One program on its own -/

namespace Discipline

variable {Q : Except ε α → σ → Prop} {s s' : σ}

/-- Nothing is asked of the only program that there is. -/
def alone (exec : Semantics Op Ans ε σ) : Discipline exec where
  inv _ := True
  pre i _ _ := i = 0
  keeps _ _ _ := trivial

/-- Nobody else takes a step. -/
lemma alone_stable (P : σ → Prop) : (alone exec).Stable 0 P := by
  rintro s s' h ⟨j, op, a, hne, -, hj, -⟩
  exact absurd hj hne

lemma Safe.call_alone {op : Op} {k : Except ε (Ans op) → Prog Op Ans ε α}
    (hk : ∀ a s', exec 0 op s a s' → (alone exec).Safe 0 Q (k a) s') :
    (alone exec).Safe 0 Q (.call op k) s := by
  refine .call _ (alone_stable (· = s)) rfl (fun _ _ _ => rfl) ?_
  rintro _ a s' - rfl hexec
  exact hk a s' hexec

lemma Safe.perform_alone {Ans : Op → Type w} {ε : Type w} {α : Type w}
    {exec : Semantics Op Ans ε σ} {Q : Except ε α → σ → Prop} {op : Op}
    {f : Ans op → Prog Op Ans ε α} {s : σ}
    (hok : ∀ a s', exec 0 op s (.ok a) s' → (alone exec).Safe 0 Q (f a) s')
    (herr : ∀ e s', exec 0 op s (.error e) s' → Q (.error e) s') :
    (alone exec).Safe 0 Q (Prog.perform op >>= f) s := by
  refine .call_alone fun a s' hexec => ?_
  cases a with
  | ok a => exact hok a s' hexec
  | error e => exact .throw (alone_stable _) (herr e s' hexec)

/-- What a safe program has come to when it has run alone to its end. -/
lemma Safe.of_run {p : Prog Op Ans ε α} (h : (alone exec).Safe 0 Q p s)
    {r : Except ε α} (run : Run exec ⟨s, [p]⟩ ls ⟨s', [.ofExcept r]⟩) : Q r s' := by
  have hstart : Disciplined (alone exec) (fun _ => Q) ⟨s, [p]⟩ := by
    refine ⟨trivial, fun i q hq => ?_⟩
    obtain ⟨rfl, rfl⟩ : i = 0 ∧ p = q := by
      cases i with
      | zero => exact ⟨rfl, Option.some.inj hq⟩
      | succ i => cases hq
    exact h
  exact (hstart.run run).result (i := 0) rfl

end Discipline

end Effect
