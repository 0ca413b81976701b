import WorkspaceOs.Effect.History

/-!
# Read, then write

Programs share a register. Each one reads it, computes a step from the value that it read, and
writes the result, all of it in separate accesses. The values written one after the other are steps
of one path exactly when no program writes between the read and the write of another.
-/

namespace Effect.Register

variable {V : Type*}

/-- An access of a program to the register. -/
inductive Access (V : Type*) where
  | read (program : ℕ) (value : V)
  | write (program : ℕ) (value : V)

def Access.program : Access V → ℕ
  | .read i _ => i
  | .write i _ => i

def Access.written? : Access V → Option V
  | .read _ _ => none
  | .write _ v => some v

/-- The values that a history writes. -/
def written (h : List (Access V)) : List V := h.filterMap Access.written?

/-- The value that a history leaves, in a register that starts with `v₀`. -/
def value (v₀ : V) (h : List (Access V)) : V := (written h).getLastD v₀

/-- What a program did itself. -/
def own (i : ℕ) (h : List (Access V)) : List (Access V) := h.filter fun access => access.program = i

/-- A read gets the value; a write is a step from the one value that its program has read. -/
def Lawful (R : V → V → Prop) (v₀ : V) (h : List (Access V)) : Access V → Prop
  | .read _ v => v = value v₀ h
  | .write i v' => ∃ v, .read i v ∈ h ∧ (∀ u, .read i u ∈ h → u = v) ∧ R v v'

/-- Nobody wrote between a read of a program and its write. -/
def Undisturbed (h : List (Access V)) : Access V → Prop
  | .read _ _ => True
  | .write i _ => ∀ pre v post, h = pre ++ .read i v :: post → written post = []

variable {R : V → V → Prop} {v₀ : V} {h h' : List (Access V)} {rank : V → ℕ} {i : ℕ}

lemma written_append : written (h ++ h') = written h ++ written h' := List.filterMap_append

lemma own_append : own i (h ++ h') = own i h ++ own i h' := List.filter_append ..

lemma mem_own {access : Access V} : access ∈ own i h ↔ access ∈ h ∧ access.program = i := by
  simp only [own, List.mem_filter, decide_eq_true_eq]

lemma isChain_concat {l : List V} {v : V} :
    List.IsChain R (v₀ :: (l ++ [v])) ↔ List.IsChain R (v₀ :: l) ∧ R (l.getLastD v₀) v := by
  induction l generalizing v₀ with
  | nil => simp
  | cons u l ih =>
    rw [List.cons_append, List.isChain_cons_cons, ih, List.isChain_cons_cons, List.getLastD_cons,
      and_assoc]

/-- Along a path of steps that each add one to the rank, the last rank counts the steps. -/
lemma rank_getLastD (hrank : ∀ v v', R v v' → rank v' = rank v + 1) {l : List V}
    (hchain : List.IsChain R (v₀ :: l)) : rank (l.getLastD v₀) = rank v₀ + l.length := by
  induction l generalizing v₀ with
  | nil => rfl
  | cons v l ih =>
    rw [List.isChain_cons_cons] at hchain
    rw [List.getLastD_cons, ih hchain.2, hrank _ _ hchain.1, List.length_cons]
    omega

/-- No value comes twice in such a path. -/
lemma nodup_of_isChain (hrank : ∀ v v', R v v' → rank v' = rank v + 1) {l : List V}
    (hchain : List.IsChain R (v₀ :: l)) : l.Nodup := by
  have hlt : List.IsChain (fun v v' => rank v < rank v') (v₀ :: l) :=
    hchain.imp fun v v' hR => by rw [hrank v v' hR]; exact Nat.lt_succ_self _
  have hmap : List.IsChain (· < ·) ((v₀ :: l).map rank) := List.isChain_map rank |>.mpr hlt
  have hpairwise := (List.pairwise_map.mp (List.isChain_iff_pairwise.mp hmap)).of_cons
  exact hpairwise.imp fun hlt heq => by
    subst heq
    exact lt_irrefl _ hlt

/-- The writes are one path exactly when no program was disturbed. -/
lemma isChain_iff_undisturbed (hrank : ∀ v v', R v v' → rank v' = rank v + 1)
    (hlawful : Always (Lawful R v₀) h) :
    List.IsChain R (v₀ :: written h) ↔ Always Undisturbed h := by
  induction h using List.reverseRecOn with
  | nil => exact iff_of_true (.singleton _) .nil
  | append_singleton h access ih =>
    obtain ⟨hbefore, haccess⟩ := Always.concat_iff.mp hlawful
    rw [Always.concat_iff, written_append, ← ih hbefore]
    cases access with
    | read i v =>
      rw [show written [Access.read i v] = [] from rfl, List.append_nil]
      exact (and_iff_left trivial).symm
    | write i v' =>
      rw [show written [Access.write i v'] = [v'] from rfl, isChain_concat]
      apply and_congr_right
      intro hchain
      obtain ⟨v, hread, hunique, hR⟩ := haccess
      -- what a read of the program got is the value that the history before it left
      have hvalue : ∀ {pre u post}, h = pre ++ .read i u :: post → value v₀ pre = v := by
        intro pre u post heq
        rw [← hunique u (by simp [heq])]
        exact (hbefore _ _ _ heq).symm
      constructor
      · intro hstep pre u post heq
        have hsplit : written h = written pre ++ written post := by
          rw [heq, written_append]
          rfl
        have hpre := rank_getLastD hrank
          (List.IsChain.left_of_append (List.cons_append ▸ hsplit ▸ hchain :
            List.IsChain R ((v₀ :: written pre) ++ written post)))
        have hall := rank_getLastD hrank hchain
        have hlast := hrank _ _ hstep
        have hfirst := hrank _ _ hR
        rw [← hvalue heq] at hfirst
        simp only [value] at hfirst
        rw [hsplit, List.length_append] at hall
        rw [hsplit] at hlast
        apply List.eq_nil_of_length_eq_zero
        omega
      · intro hundisturbed
        obtain ⟨pre, post, heq⟩ := List.append_of_mem hread
        have hpost := hundisturbed pre v post heq
        have hsplit : written h = written pre := by
          rw [heq, written_append]
          exact (congrArg (written pre ++ ·) hpost).trans (List.append_nil _)
        have hlast : (written h).getLastD v₀ = v := by
          rw [hsplit]
          exact hvalue heq
        rwa [hlast]

end Effect.Register
