import WorkspaceOs.Effect.History

/-!
# Optimistic writers

Versions are numbered from one on. Each program reads the latest version, makes the next one of it,
and tries to add that; it is added unless its number is taken by then. No update is lost: the
versions that were added are revisions of one another, and of all programs that read the same
version the first one to try adds the next.
-/

namespace Effect.Optimistic

variable {V : Type*}

/-- An access of a program to the versions. -/
inductive Access (V : Type*) where
  | read (program : ℕ) (latest : Option V)
  | save (program : ℕ) (version : V) (saved : Bool)

def Access.saved? : Access V → Option V
  | .save _ version true => some version
  | _ => none

/-- The versions that a history adds, in order. -/
def versions (h : List (Access V)) : List V := h.filterMap Access.saved?

variable (rank : V → ℕ)

/-- The number of the version that a program read, zero where there was none. -/
def number (latest : Option V) : ℕ := latest.elim 0 rank

/-- A program that started from the version with this number has tried to add the next one. -/
def Tried (h : List (Access V)) (n : ℕ) : Prop :=
  ∃ pre i version saved post latest, h = pre ++ .save i version saved :: post ∧
    .read i latest ∈ pre ∧ number rank latest = n

variable (R : Option V → V → Prop)

/-- A read gets the latest version. What a program tries to add is a revision of the one version
that it has read, and it is added unless its number is taken. -/
def Lawful (h : List (Access V)) : Access V → Prop
  | .read _ latest => latest = (versions h).getLast?
  | .save i version saved => ∃ latest, .read i latest ∈ h ∧
      (∀ latest', .read i latest' ∈ h → latest' = latest) ∧ R latest version ∧
      (saved = true ↔ ∀ v ∈ versions h, rank v ≠ rank version)

/-- The versions have the numbers from one on. -/
def Numbered : List V → Prop := Always fun earlier version => rank version = earlier.length + 1

/-- Each version is a revision of the one before it. -/
def Revised : List V → Prop := Always fun earlier version => R earlier.getLast? version

variable {rank R} {h pre post : List (Access V)} {vs vs' : List V} {version : V} {i n : ℕ}
  {saved : Bool} {latest : Option V}

lemma versions_append : versions (h ++ post) = versions h ++ versions post :=
  List.filterMap_append

lemma Access.saved?_eq_some {access : Access V} :
    access.saved? = some version ↔ ∃ i, access = .save i version true := by
  constructor
  · intro h
    cases access with
    | read => cases h
    | save i version' saved =>
      cases saved with
      | false => cases h
      | true =>
        cases h
        exact ⟨i, rfl⟩
  · rintro ⟨i, rfl⟩
    rfl

lemma mem_versions : version ∈ versions h ↔ ∃ i, .save i version true ∈ h := by
  simp only [versions, List.mem_filterMap, Access.saved?_eq_some]
  constructor
  · rintro ⟨_, haccess, i, rfl⟩
    exact ⟨i, haccess⟩
  · rintro ⟨i, haccess⟩
    exact ⟨_, haccess, i, rfl⟩

/-- The last number is the number of versions. -/
lemma Numbered.number_getLast? (h : Numbered rank vs) : number rank vs.getLast? = vs.length := by
  rcases List.eq_nil_or_concat vs with rfl | ⟨earlier, version, rfl⟩
  · rfl
  · rw [List.concat_eq_append] at h ⊢
    rw [List.getLast?_concat, List.length_append]
    exact (Always.concat_iff.mp h).2

/-- The numbers that are taken are those up to the number of versions. -/
lemma Numbered.taken_iff (h : Numbered rank vs) :
    (∃ v ∈ vs, rank v = n) ↔ 1 ≤ n ∧ n ≤ vs.length := by
  induction vs using List.reverseRecOn with
  | nil =>
    simp only [List.not_mem_nil, false_and, exists_false, List.length_nil, false_iff]
    omega
  | append_singleton earlier version ih =>
    obtain ⟨hearlier, hversion⟩ := Always.concat_iff.mp h
    simp only [List.mem_append, List.mem_singleton, or_and_right, exists_or, exists_eq_left,
      ih hearlier, hversion, List.length_append, List.length_singleton]
    omega

lemma Numbered.of_append (h : Numbered rank (vs ++ vs')) : Numbered rank vs := Always.of_append h

/-- A program started from the latest version of some earlier time. -/
lemma number_of_read (hlawful : Always (Lawful rank R) h) (hsound : Numbered rank (versions h))
    (hread : .read i latest ∈ h) :
    ∃ pre post, h = pre ++ .read i latest :: post ∧ latest = (versions pre).getLast? ∧
      number rank latest = (versions pre).length := by
  obtain ⟨pre, post, rfl⟩ := List.append_of_mem hread
  have hlatest : latest = (versions pre).getLast? := hlawful pre _ post rfl
  rw [versions_append] at hsound
  exact ⟨pre, post, rfl, hlatest, hlatest ▸ hsound.of_append.number_getLast?⟩

/-- What is added is a revision of the last version, and has the next number. -/
lemma next_of_saved (hrank : ∀ latest version, R latest version →
      rank version = number rank latest + 1)
    (hlawful : Always (Lawful rank R) h) (hnumbered : Numbered rank (versions h))
    (hsave : Lawful rank R h (.save i version true)) :
    R (versions h).getLast? version ∧ rank version = (versions h).length + 1 := by
  obtain ⟨latest, hread, -, hR, htaken⟩ := hsave
  obtain ⟨pre, post, rfl, hlatest, hnumber⟩ := number_of_read hlawful hnumbered hread
  have hversion : rank version = (versions pre).length + 1 := by
    rw [hrank _ _ hR, hnumber]
  -- the number after that of the version read is free, so nothing was added since
  have hall : versions (pre ++ .read i latest :: post) = versions pre := by
    rw [versions_append]
    have hfree : ¬ ∃ v ∈ versions (pre ++ .read i latest :: post), rank v = rank version := by
      rintro ⟨v, hv, hsame⟩
      exact htaken.mp rfl v hv hsame
    rw [hnumbered.taken_iff, hversion, versions_append, List.length_append] at hfree
    rw [List.eq_nil_of_length_eq_zero (l := versions (.read i latest :: post)) (by omega),
      List.append_nil]
  rw [hall, ← hlatest]
  exact ⟨hR, hversion⟩

/-- The versions are numbered, and each is a revision of the one before it. -/
lemma sound_of_lawful (hrank : ∀ latest version, R latest version →
      rank version = number rank latest + 1)
    (hlawful : Always (Lawful rank R) h) :
    Numbered rank (versions h) ∧ Revised R (versions h) := by
  induction h using List.reverseRecOn with
  | nil => exact ⟨.nil, .nil⟩
  | append_singleton h access ih =>
    obtain ⟨hbefore, haccess⟩ := Always.concat_iff.mp hlawful
    obtain ⟨hnumbered, hrevised⟩ := ih hbefore
    have hconcat : versions (h ++ [access]) = versions h ++ access.saved?.toList :=
      filterMap_concat ..
    rw [hconcat]
    cases hsaved : access.saved? with
    | none => simpa using ih hbefore
    | some version =>
      obtain ⟨i, rfl⟩ := Access.saved?_eq_some.mp hsaved
      obtain ⟨hR, hnumber⟩ := next_of_saved hrank hbefore hnumbered haccess
      exact ⟨Always.concat_iff.mpr ⟨hnumbered, hnumber⟩, Always.concat_iff.mpr ⟨hrevised, hR⟩⟩

/-- Of the programs that started from one version, the first one to try adds the next version, and
no other does. -/
lemma saved_iff (hrank : ∀ latest version, R latest version →
      rank version = number rank latest + 1)
    (hlawful : Always (Lawful rank R) h) (hsave : Lawful rank R h (.save i version saved))
    (hread : .read i latest ∈ h) : saved = true ↔ ¬ Tried rank h (number rank latest) := by
  obtain ⟨latest', hread', hunique, hR, htaken⟩ := hsave
  rw [htaken]
  cases hunique latest hread
  have hversion := hrank _ _ hR
  constructor
  · rintro hfree ⟨pre, j, version', saved', post, latest', rfl, hread', hsame⟩
    obtain ⟨base, -, honce, hR', htaken'⟩ := hlawful pre _ post rfl
    cases honce latest' hread'
    have hversion' : rank version' = rank version := by
      rw [hrank _ _ hR', hsame, hversion]
    cases saved' with
    | true => exact hfree version' (mem_versions.mpr ⟨j, by simp⟩) hversion'
    | false =>
      -- the earlier one found the number taken already
      rw [Bool.false_eq_true, false_iff] at htaken'
      push Not at htaken'
      obtain ⟨v, hv, hnumber⟩ := htaken'
      rw [versions_append] at hfree
      exact hfree v (List.mem_append_left _ hv) (hnumber.trans hversion')
  · intro hfirst v hv hnumber
    obtain ⟨j, hj⟩ := mem_versions.mp hv
    obtain ⟨pre, post, rfl⟩ := List.append_of_mem hj
    obtain ⟨base, hbase, -, hR', -⟩ := hlawful pre _ post rfl
    have hversion' := hrank _ _ hR'
    exact hfirst ⟨pre, j, v, true, post, base, rfl, hbase, by omega⟩

end Effect.Optimistic
