import Mathlib.Data.List.Count
import Mathlib.Data.List.ReduceOption

/-!
# Servers and jobs

Servers take turns at a board of jobs. A turn takes a job that its server may take, one that comes
first among these, or nothing where there is none. Whoever the servers are, a job is taken after as
many turns of servers that may take it as there are jobs that do not come after it.
-/

namespace Effect.Service

variable {κ τ : Type*} (may : τ → κ → Bool) (before : κ → κ → Prop)

/-- One turn, with the jobs that wait before and after it. -/
inductive Serve (t : τ) (jobs : List κ) : Option κ → List κ → Prop
  | idle (nothing : ∀ k ∈ jobs, may t k = false) : Serve t jobs none jobs
  | take (k : κ) (rest : List κ) (perm : jobs.Perm (k :: rest)) (able : may t k = true)
      (first : ∀ k' ∈ jobs, may t k' = true → before k k') : Serve t jobs (some k) rest

/-- One turn after the other. -/
inductive Served : List τ → List κ → List (Option κ) → List κ → Prop
  | nil (jobs : List κ) : Served [] jobs [] jobs
  | cons {t : τ} {ts : List τ} {jobs jobs' jobs'' : List κ} {o : Option κ} {os : List (Option κ)}
      (serve : Serve may before t jobs o jobs') (served : Served ts jobs' os jobs'') :
      Served (t :: ts) jobs (o :: os) jobs''

variable {may before} {t : τ} {ts : List τ} {jobs jobs' : List κ} {o : Option κ}
  {os : List (Option κ)} {k k' : κ}

/-! ### One turn -/

lemma Serve.perm (h : Serve may before t jobs o jobs') : jobs.Perm (o.toList ++ jobs') := by
  cases h with
  | idle => exact .refl _
  | take k rest perm => exact perm

lemma Serve.mem_of_mem (h : Serve may before t jobs o jobs') (hk : k ∈ jobs') : k ∈ jobs :=
  h.perm.mem_iff.mpr (List.mem_append_right _ hk)

lemma Serve.able (h : Serve may before t jobs (some k) jobs') : may t k = true := by
  cases h with
  | take _ _ _ able => exact able

/-- What a turn takes comes before all that its server leaves. -/
lemma Serve.before_of_mem (h : Serve may before t jobs (some k) jobs') (hk : k' ∈ jobs')
    (hmay : may t k' = true) : before k k' := by
  have hmem := h.mem_of_mem hk
  cases h with
  | take _ _ _ _ first => exact first k' hmem hmay

/-- While a job waits that the server may take, its turn is not idle. -/
lemma Serve.takes (h : Serve may before t jobs o jobs') (hk : k ∈ jobs) (hmay : may t k = true) :
    ∃ k', o = some k' ∧ may t k' = true ∧ before k' k := by
  cases h with
  | idle nothing =>
    rw [nothing k hk] at hmay
    cases hmay
  | take k' _ _ able first => exact ⟨k', rfl, able, first k hk hmay⟩

/-! ### Any number of turns -/

/-- Nothing is lost and nothing is taken twice. -/
lemma Served.perm (h : Served may before ts jobs os jobs') :
    jobs.Perm (os.reduceOption ++ jobs') := by
  induction h with
  | nil => exact .refl _
  | @cons t ts jobs jobs' _ o os serve _ ih =>
    refine serve.perm.trans ((ih.append_left _).trans (.of_eq ?_))
    cases o <;> simp

lemma Served.mem_of_mem (h : Served may before ts jobs os jobs') (hk : k ∈ jobs') : k ∈ jobs :=
  h.perm.mem_iff.mpr (List.mem_append_right _ hk)

lemma Served.length_eq (h : Served may before ts jobs os jobs') : os.length = ts.length := by
  induction h with
  | nil => rfl
  | cons _ _ ih => simp only [List.length_cons, ih]

section Starvation

variable [DecidableRel before]

/-- While a job waits, every turn of a server that may take it takes one that does not come after
it. -/
lemma Served.countP_add_le (h : Served may before ts jobs os jobs') (hk : k ∈ jobs') :
    ts.countP (may · k) + jobs'.countP (before · k) ≤ jobs.countP (before · k) := by
  induction h with
  | nil => simp
  | @cons t ts jobs jobs' _ o os serve served ih =>
    have hrest := ih hk
    have hcount := serve.perm.countP_eq (before · k)
    rw [List.countP_append] at hcount
    rw [List.countP_cons]
    by_cases hmay : may t k = true
    · obtain ⟨k', rfl, -, hbefore⟩ := serve.takes (serve.mem_of_mem (served.mem_of_mem hk)) hmay
      simp only [Option.toList_some, List.countP_singleton, hbefore, decide_true, if_true] at hcount
      simp only [hmay, if_true]
      omega
    · rw [if_neg hmay]
      omega

/-- No job starves: it is taken once there were as many turns of servers that may take it as there
are jobs that do not come after it. -/
lemma Served.mem_of_countP_le [Std.Total before] (h : Served may before ts jobs os jobs')
    (hk : k ∈ jobs) (hturns : jobs.countP (before · k) ≤ ts.countP (may · k)) :
    k ∈ os.reduceOption := by
  rcases List.mem_append.mp (h.perm.mem_iff.mp hk) with hserved | hwaiting
  · exact hserved
  · have hle := h.countP_add_le hwaiting
    have hself : before k k := (Std.Total.total k k).elim id id
    have hpos : 0 < jobs'.countP (before · k) :=
      List.countP_pos_iff.mpr ⟨k, hwaiting, decide_eq_true hself⟩
    omega

end Starvation

/-- Of two jobs that were taken, the earlier one comes first if its server might have taken the
later one. -/
lemma Served.pairwise (h : Served may before ts jobs os jobs') :
    (ts.zip os).Pairwise fun p q => ∀ k k', p.2 = some k → q.2 = some k' → may p.1 k' = true →
      before k k' := by
  induction h with
  | nil => exact .nil
  | @cons t ts jobs jobs' _ o os serve served ih =>
    refine .cons ?_ ih
    rintro ⟨t', _⟩ hmem k k' rfl rfl hmay
    have hos : some k' ∈ os := (List.of_mem_zip hmem).2
    have hserved : k' ∈ jobs' := served.perm.mem_iff.mpr
      (List.mem_append_left _ (List.reduceOption_mem_iff.mpr hos))
    exact serve.before_of_mem hserved hmay

/-- Servers that may take everything take the jobs in their order. -/
lemma Served.sorted (h : Served may before ts jobs os jobs')
    (hall : ∀ t ∈ ts, ∀ k ∈ jobs, may t k = true) : os.reduceOption.Pairwise before := by
  induction h with
  | nil => exact .nil
  | @cons t ts jobs jobs' _ o os serve served ih =>
    have hrest := ih fun t' ht' k hk => hall t' (List.mem_cons_of_mem _ ht') k (serve.mem_of_mem hk)
    cases o with
    | none => exact hrest
    | some k =>
      refine .cons (fun k' hk' => ?_) hrest
      have hmem : k' ∈ jobs' := served.perm.mem_iff.mpr (List.mem_append_left _ hk')
      exact serve.before_of_mem hmem (hall t List.mem_cons_self k' (serve.mem_of_mem hmem))

/-- Servers that may take everything leave what is more than their turns. -/
lemma Served.length_add (h : Served may before ts jobs os jobs')
    (hall : ∀ t ∈ ts, ∀ k ∈ jobs, may t k = true) : jobs'.length = jobs.length - ts.length := by
  induction h with
  | nil => simp
  | @cons t ts jobs jobs' _ o os serve served ih =>
    rw [ih fun t' ht' k hk => hall t' (List.mem_cons_of_mem _ ht') k (serve.mem_of_mem hk),
      serve.perm.length_eq, List.length_append, List.length_cons]
    cases jobs with
    | nil =>
      have hempty := serve.perm.length_eq
      simp only [List.length_nil, List.length_append] at hempty
      omega
    | cons k jobs =>
      obtain ⟨k', rfl, -⟩ := serve.takes List.mem_cons_self
        (hall t List.mem_cons_self k List.mem_cons_self)
      simp only [Option.toList_some, List.length_singleton]
      omega

end Effect.Service
