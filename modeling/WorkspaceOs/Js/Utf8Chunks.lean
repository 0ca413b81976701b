import Mathlib.Algebra.Group.Nat.Defs
import WorkspaceOs.Js.Utf8

/-!
# UTF-8 in chunks

Bytes may be read as they come, chunk by chunk, each decoded by itself. This gives what the bytes
read as a whole give when no chunk ends within a code point that the bytes after it go on with, and
never otherwise: then the whole has fewer code points.
-/

namespace Js

namespace Utf8

variable {state : State} {before bs : Bytes} {b : UInt8}

/-- The code points that are complete, and the state that is left. -/
def scan : State → Bytes → List ℕ × State
  | state, [] => ([], state)
  | state, b :: bs =>
    ((step state b.toNat).1 ++ (scan (step state b.toNat).2 bs).1,
      (scan (step state b.toNat).2 bs).2)

/-- What the bytes that end in the state are cut short to. -/
def flush : State → List ℕ
  | .start => []
  | .within _ _ _ _ => [replacement]

lemma read_append (state : State) (before bs : Bytes) :
    read state (before ++ bs) = (scan state before).1 ++ read (scan state before).2 bs := by
  induction before generalizing state with
  | nil => rfl
  | cons b before ih =>
    have hcons (rest : Bytes) :
        read state (b :: rest) = (step state b.toNat).1 ++ read (step state b.toNat).2 rest := by
      cases state <;> rfl
    rw [List.cons_append, hcons, ih, scan, List.append_assoc]

lemma read_nil (state : State) : read state [] = flush state := by
  cases state <;> rfl

lemma read_eq_scan (state : State) (bs : Bytes) :
    read state bs = (scan state bs).1 ++ flush (scan state bs).2 := by
  have happend := read_append state bs []
  rwa [List.append_nil, read_nil] at happend

/-! ### The byte after a code point that is not complete -/

/-- The byte goes on with the code point. -/
def State.Accepts : State → UInt8 → Prop
  | .start, _ => False
  | .within _ low high _, b => low ≤ b.toNat ∧ b.toNat ≤ high

/-- A byte that does not go on with a code point ends it, and is read on its own. -/
lemma read_of_not_accepts (h : ¬ state.Accepts b) :
    read state (b :: bs) = flush state ++ read .start (b :: bs) := by
  cases state with
  | start => rfl
  | within missing low high bits =>
    have hb : ¬ (low ≤ b.toNat ∧ b.toNat ≤ high) := h
    simp only [read, step, if_neg hb, flush, List.cons_append, List.nil_append]

/-- What follows begins with no byte that goes on with the code point. -/
def State.Rejects (state : State) (bs : Bytes) : Prop := ∀ b ∈ bs.head?, ¬ state.Accepts b

lemma read_of_rejects (h : state.Rejects bs) :
    read state bs = flush state ++ read .start bs := by
  cases bs with
  | nil => simp [read_nil, flush]
  | cons b bs => exact read_of_not_accepts (h b rfl)

lemma read_append_of_rejects (h : (scan .start before).2.Rejects bs) :
    read .start (before ++ bs) = read .start before ++ read .start bs := by
  rw [read_append, read_of_rejects h, ← List.append_assoc, ← read_eq_scan]

/-- Bytes that only follow are never the first of a code point. -/
lemma read_start_of_following (hlow : 0x80 ≤ b.toNat) (hhigh : b.toNat ≤ 0xBF) :
    read .start (b :: bs) = replacement :: read .start bs := by
  have hfirst : first b.toNat = ([replacement], .start) := by
    rw [first, if_neg (by omega), if_pos (by omega)]
  simp only [read, step, hfirst, List.cons_append, List.nil_append]

section Length

variable {missing low high bits : ℕ} (hlow : 0x80 ≤ low) (hhigh : high ≤ 0xBF)
include hlow hhigh

/-- A byte that goes on with a code point gives no more than it gives on its own. -/
lemma length_read_of_bound (h : (State.within missing low high bits).Accepts b)
    (hbound : ∀ missing bits,
      (read (.within missing 0x80 0xBF bits) bs).length ≤ (read .start bs).length + 1) :
    (read (.within missing low high bits) (b :: bs)).length ≤ (read .start (b :: bs)).length := by
  obtain ⟨hb, hb'⟩ := h
  rw [read_start_of_following (hlow.trans hb) (hb'.trans hhigh), read, step_within hb hb']
  split_ifs with hmissing
  · simp
  · simpa using hbound (missing - 1) (bits * 64 + b.toNat % 64)

lemma length_read_within :
    (read (.within missing low high bits) bs).length ≤ (read .start bs).length + 1 := by
  induction bs generalizing missing low high bits with
  | nil => simp [read]
  | cons b bs ih =>
    by_cases haccepts : (State.within missing low high bits).Accepts b
    · have hbound := length_read_of_bound hlow hhigh haccepts fun missing bits =>
        @ih missing 0x80 0xBF bits le_rfl le_rfl
      exact hbound.trans (Nat.le_succ _)
    · rw [read_of_not_accepts haccepts]
      simp [flush]

/-- A byte that goes on with a code point saves what this would be cut short to. -/
lemma length_read_of_accepts (h : (State.within missing low high bits).Accepts b) :
    (read (.within missing low high bits) (b :: bs)).length ≤ (read .start (b :: bs)).length :=
  length_read_of_bound hlow hhigh h fun _ _ => length_read_within le_rfl le_rfl

end Length

/-! ### Where the state comes from -/

/-- The last bytes of a code point. -/
def tail : ℕ → ℕ → Bytes
  | 0, _ => []
  | n + 1, c => UInt8.ofNat (0x80 + c / 64 ^ n % 64) :: tail n c

/-- The bytes are those of every code point with these first bits, but for the last of them. -/
def Begins (bs : Bytes) (missing bits : ℕ) : Prop :=
  ∀ c, c / 64 ^ missing = bits → IsScalar c ∧ bs ++ tail missing c = bytesOf c

lemma Begins.append {missing bits : ℕ} (h : Begins bs (missing + 1) bits)
    (hlow : 0x80 ≤ b.toNat) (hhigh : b.toNat ≤ 0xBF) :
    Begins (bs ++ [b]) missing (bits * 64 + b.toNat % 64) := by
  intro c hc
  have hquotient : c / 64 ^ (missing + 1) = bits := by
    rw [Nat.pow_succ, ← Nat.div_div_eq_div_mul, hc]
    omega
  have hb : UInt8.ofNat (0x80 + c / 64 ^ missing % 64) = b := by
    rw [hc, (by omega : 0x80 + (bits * 64 + b.toNat % 64) % 64 = b.toNat), UInt8.ofNat_toNat]
  obtain ⟨hscalar, hbytes⟩ := h c hquotient
  refine ⟨hscalar, ?_⟩
  rw [← hbytes, tail, hb, List.append_assoc, List.singleton_append]

lemma begins_two {k : ℕ} {b b' : UInt8} (hb : b.toNat = 0xC0 + k) (hk : 2 ≤ k) (hk' : k < 0x20)
    (hlow : 0x80 ≤ b'.toNat) (hhigh : b'.toNat ≤ 0xBF) :
    Begins [b, b'] 0 (k * 64 + b'.toNat % 64) := by
  intro c hc
  rw [Nat.pow_zero, Nat.div_one] at hc
  refine ⟨.inl (by omega), ?_⟩
  rw [bytesOf, if_neg (by omega), if_pos (by omega), (by omega : 0xC0 + c / 64 = b.toNat),
    (by omega : 0x80 + c % 64 = b'.toNat), UInt8.ofNat_toNat, UInt8.ofNat_toNat]
  rfl

lemma begins_three {k : ℕ} {b b' : UInt8} (hb : b.toNat = 0xE0 + k)
    (hlow : 0x80 ≤ b'.toNat) (hhigh : b'.toNat ≤ 0xBF) (hk : k < 0x10)
    (hfirst : k = 0 → 0xA0 ≤ b'.toNat) (hsurrogate : k = 0xD → b'.toNat ≤ 0x9F) :
    Begins [b, b'] 1 (k * 64 + b'.toNat % 64) := by
  intro c hc
  rw [Nat.pow_one] at hc
  refine ⟨by unfold IsScalar; omega, ?_⟩
  rw [bytesOf, if_neg (by omega), if_neg (by omega), if_pos (by omega),
    (by omega : 0xE0 + c / 4096 = b.toNat), (by omega : 0x80 + c / 64 % 64 = b'.toNat),
    UInt8.ofNat_toNat, UInt8.ofNat_toNat, tail, Nat.pow_zero, Nat.div_one]
  rfl

lemma begins_four {k : ℕ} {b b' : UInt8} (hb : b.toNat = 0xF0 + k)
    (hlow : 0x80 ≤ b'.toNat) (hhigh : b'.toNat ≤ 0xBF) (hk : k ≤ 4)
    (hfirst : k = 0 → 0x90 ≤ b'.toNat) (hlast : k = 4 → b'.toNat ≤ 0x8F) :
    Begins [b, b'] 2 (k * 64 + b'.toNat % 64) := by
  intro c hc
  refine ⟨by unfold IsScalar; omega, ?_⟩
  rw [bytesOf, if_neg (by omega), if_neg (by omega), if_neg (by omega),
    (by omega : 0xF0 + c / 262144 = b.toNat), (by omega : 0x80 + c / 4096 % 64 = b'.toNat),
    UInt8.ofNat_toNat, UInt8.ofNat_toNat, tail, tail, Nat.pow_one, Nat.pow_zero, Nat.div_one]
  rfl

/-- The bytes before the state end with the bytes of the code point that is not complete. -/
def State.After : State → Bytes → Prop
  | .start, _ => True
  | .within missing low high bits, bs => 0x80 ≤ low ∧ high ≤ 0xBF ∧
    ∃ y n, y ≠ [] ∧ y <:+ bs ∧ missing = n + 1 ∧
      ∀ b : UInt8, low ≤ b.toNat → b.toNat ≤ high →
        Begins (y ++ [b]) n (bits * 64 + b.toNat % 64)

lemma after_first : (first b.toNat).2.After (bs ++ [b]) := by
  have hsuffix : [b] <:+ bs ++ [b] := List.suffix_append bs [b]
  rw [first]
  split_ifs
  · trivial
  · trivial
  · exact ⟨by omega, by omega, [b], 0, by simp, hsuffix, rfl, fun b' hlow hhigh =>
      begins_two (by omega) (by omega) (by omega) hlow hhigh⟩
  · exact ⟨by omega, by omega, [b], 1, by simp, hsuffix, rfl, fun b' hlow hhigh =>
      begins_three (by omega) (by omega) hhigh (by omega) (by omega) (by omega)⟩
  · exact ⟨by omega, by omega, [b], 1, by simp, hsuffix, rfl, fun b' hlow hhigh =>
      begins_three (by omega) hlow (by omega) (by omega) (by omega) (by omega)⟩
  · exact ⟨by omega, by omega, [b], 1, by simp, hsuffix, rfl, fun b' hlow hhigh =>
      begins_three (by omega) hlow hhigh (by omega) (by omega) (by omega)⟩
  · exact ⟨by omega, by omega, [b], 2, by simp, hsuffix, rfl, fun b' hlow hhigh =>
      begins_four (by omega) (by omega) hhigh (by omega) (by omega) (by omega)⟩
  · exact ⟨by omega, by omega, [b], 2, by simp, hsuffix, rfl, fun b' hlow hhigh =>
      begins_four (by omega) hlow hhigh (by omega) (by omega) (by omega)⟩
  · exact ⟨by omega, by omega, [b], 2, by simp, hsuffix, rfl, fun b' hlow hhigh =>
      begins_four (by omega) hlow (by omega) (by omega) (by omega) (by omega)⟩
  · trivial

lemma isScalar_first : ∀ c ∈ (first b.toNat).1, IsScalar c := by
  have hreplacement : IsScalar replacement := .inr ⟨by decide, by decide⟩
  rw [first]
  split_ifs with hascii <;> simp [hreplacement]
  exact .inl (by omega)

/-- A step keeps track of the bytes, and gives code points that are not surrogates. -/
lemma State.After.step (h : state.After bs) : (Utf8.step state b.toNat).2.After (bs ++ [b]) ∧
    ∀ c ∈ (Utf8.step state b.toNat).1, IsScalar c := by
  cases state with
  | start => exact ⟨after_first, isScalar_first⟩
  | within missing low high bits =>
    obtain ⟨hlow, hhigh, y, n, hne, hsuffix, rfl, hbegins⟩ := h
    by_cases hb : low ≤ b.toNat ∧ b.toNat ≤ high
    · obtain ⟨hb, hb'⟩ := hb
      have hnext := hbegins b hb hb'
      rw [step_within hb hb']
      split_ifs with hlast
      · obtain rfl : n = 0 := by omega
        have hscalar := (hnext _ (by rw [Nat.pow_zero, Nat.div_one])).1
        exact ⟨trivial, by simpa using hscalar⟩
      · obtain ⟨n, rfl⟩ := Nat.exists_eq_succ_of_ne_zero (by omega : n ≠ 0)
        refine ⟨⟨le_rfl, le_rfl, y ++ [b], n, by simp, ?_, rfl, fun b' hlow' hhigh' =>
          hnext.append hlow' hhigh'⟩, by simp⟩
        obtain ⟨x, rfl⟩ := hsuffix
        exact ⟨x, by simp⟩
    · simp only [Utf8.step, if_neg hb]
      refine ⟨after_first, List.forall_mem_cons.mpr ⟨.inr ⟨by decide, by decide⟩, isScalar_first⟩⟩

lemma State.After.scan (h : state.After before) : (Utf8.scan state bs).2.After (before ++ bs) ∧
    ∀ c ∈ (Utf8.scan state bs).1, IsScalar c := by
  induction bs generalizing state before with
  | nil => simpa [Utf8.scan] using h
  | cons b bs ih =>
    obtain ⟨hafter, hscalar⟩ := h.step (b := b)
    obtain ⟨hafter', hscalar'⟩ := ih hafter
    rw [List.append_assoc] at hafter'
    refine ⟨hafter', fun c hc => ?_⟩
    rcases List.mem_append.mp hc with hc | hc
    · exact hscalar c hc
    · exact hscalar' c hc

lemma after_scan : (scan .start bs).2.After bs :=
  (@State.After.scan .start [] bs trivial).1

/-- No surrogate is read. -/
lemma isScalar_of_mem_read : ∀ c ∈ read .start bs, IsScalar c := by
  intro c hc
  rw [read_eq_scan] at hc
  rcases List.mem_append.mp hc with hc | hc
  · exact (@State.After.scan .start [] bs trivial).2 c hc
  · cases hstate : (scan .start bs).2 with
    | start =>
      rw [hstate] at hc
      exact absurd hc List.not_mem_nil
    | within missing low high bits =>
      rw [hstate] at hc
      rw [List.mem_singleton.mp hc]
      exact .inr ⟨by decide, by decide⟩

/-- The first byte of a code point goes on with no other. -/
lemma State.After.not_accepts_head {c : ℕ} (h : state.After before) (hc : IsScalar c)
    (hb : bytesOf c = b :: bs) : ¬ state.Accepts b := by
  have hhead : b.toNat < 0x80 ∨ 0xBF < b.toNat := by
    rw [IsScalar] at hc
    rw [bytesOf] at hb
    split_ifs at hb with h₁ h₂ h₃ <;> obtain ⟨rfl, -⟩ := List.cons_eq_cons.mp hb <;>
      rw [UInt8.toNat_ofNat_of_lt' (by unfold UInt8.size; omega)] <;> omega
  cases state with
  | start => exact id
  | within missing low high bits =>
    rintro ⟨hlow, hhigh⟩
    obtain ⟨hlow', hhigh', -⟩ := h
    omega

/-- A byte that gives no code point begins one, or goes on with one. -/
lemma step_nil {b : ℕ} (h : (step state b).1 = []) :
    ∃ missing low high bits, (step state b).2 = .within missing low high bits := by
  cases state with
  | start =>
    simp only [step, first] at h ⊢
    split_ifs at h ⊢ <;> exact ⟨_, _, _, _, rfl⟩
  | within missing low high bits =>
    simp only [step] at h ⊢
    split_ifs at h ⊢
    exact ⟨_, _, _, _, rfl⟩

lemma read_within_ne_nil {missing low high bits : ℕ} :
    read (.within missing low high bits) bs ≠ [] := by
  induction bs generalizing missing low high bits with
  | nil => exact List.cons_ne_nil _ _
  | cons b bs ih =>
    intro hnil
    obtain ⟨hstep, hrest⟩ := List.append_eq_nil_iff.mp hnil
    obtain ⟨_, _, _, _, hstate⟩ := step_nil hstep
    exact ih (hstate ▸ hrest)

lemma read_ne_nil (h : bs ≠ []) : read .start bs ≠ [] := by
  obtain ⟨b, bs, rfl⟩ := List.exists_cons_of_ne_nil h
  intro hnil
  obtain ⟨hstep, hrest⟩ := List.append_eq_nil_iff.mp hnil
  obtain ⟨_, _, _, _, hstate⟩ := step_nil hstep
  exact read_within_ne_nil (hstate ▸ hrest)

end Utf8

/-! ### Chunks -/

/-- The end of the one and the beginning of the other begin a code point together. -/
def Cuts (before after : Bytes) : Prop :=
  ∃ c, IsScalar c ∧ ∃ y z, y ≠ [] ∧ z ≠ [] ∧ y <:+ before ∧ z <+: after ∧ y ++ z <+: bytesOf c

/-- No chunk ends within a code point that the bytes after it go on with. -/
def NoneCut : List Bytes → Prop
  | [] => True
  | chunk :: chunks => ¬ Cuts chunk chunks.flatten ∧ NoneCut chunks

namespace Utf8

variable {before after : Bytes}

lemma cuts_of_accepts {b : UInt8} {bs : Bytes} (h : (scan .start before).2.Accepts b) :
    Cuts before (b :: bs) := by
  have hafter := @after_scan before
  cases hstate : (scan .start before).2 with
  | start =>
    rw [hstate] at h
    exact h.elim
  | within missing low high bits =>
    rw [hstate] at h hafter
    obtain ⟨hb, hb'⟩ := h
    obtain ⟨-, -, y, n, hne, hsuffix, -, hbegins⟩ := hafter
    obtain ⟨hscalar, hbytes⟩ := hbegins b hb hb' ((bits * 64 + b.toNat % 64) * 64 ^ n)
      (Nat.mul_div_cancel _ (Nat.pow_pos (by decide)))
    exact ⟨_, hscalar, y, [b], hne, List.cons_ne_nil b [], hsuffix, ⟨bs, rfl⟩,
      ⟨tail n _, hbytes⟩⟩

/-- Were the byte not taken, the code point would be read as two. -/
lemma accepts_of_cuts (h : Cuts before after) : ¬ (scan .start before).2.Rejects after := by
  obtain ⟨c, hscalar, y, z, hy, hz, ⟨x, rfl⟩, ⟨after, rfl⟩, ⟨rest, hbytes⟩⟩ := h
  intro hrejects
  have hhead : (scan .start x).2.Rejects y := by
    intro b hb
    obtain ⟨y, rfl⟩ := List.head?_eq_some_iff.mp hb
    exact State.After.not_accepts_head after_scan hscalar hbytes.symm
  have hrejects' : (scan .start (x ++ y)).2.Rejects (z ++ rest) := by
    cases z with
    | nil => exact absurd rfl hz
    | cons b z => exact fun b hb => hrejects b hb
  have hpoint : read .start (x ++ bytesOf c) = read .start x ++ [c] := by
    have hread := @read_bytesOf c [] hscalar
    rw [List.append_nil] at hread
    rw [read_append_of_rejects, hread]
    · rfl
    · intro b hb
      obtain ⟨bs, hbs⟩ := List.head?_eq_some_iff.mp hb
      exact State.After.not_accepts_head after_scan hscalar hbs
  have hparts : read .start (x ++ bytesOf c) =
      read .start x ++ (read .start y ++ read .start (z ++ rest)) := by
    rw [← hbytes, List.append_assoc, ← List.append_assoc, read_append_of_rejects hrejects',
      read_append_of_rejects hhead, List.append_assoc]
  have hlength := congrArg List.length (hpoint.symm.trans hparts)
  have hleft := List.length_pos_of_ne_nil (read_ne_nil hy)
  have hright := List.length_pos_of_ne_nil (@read_ne_nil (z ++ rest) (by simp [hz]))
  simp only [List.length_append, List.length_singleton] at hlength
  omega

lemma cuts_iff : Cuts before after ↔ ¬ (scan .start before).2.Rejects after := by
  refine ⟨accepts_of_cuts, fun h => ?_⟩
  simp only [State.Rejects, not_forall, not_not] at h
  obtain ⟨b, hb, haccepts⟩ := h
  obtain ⟨bs, rfl⟩ := List.head?_eq_some_iff.mp hb
  exact cuts_of_accepts haccepts

lemma read_append_of_not_cuts (h : ¬ Cuts before after) :
    read .start (before ++ after) = read .start before ++ read .start after :=
  read_append_of_rejects (not_not.mp (cuts_iff.not.mp h))

/-- A cut makes one code point more of what is left. -/
lemma length_read_of_cuts (h : Cuts before after) : (read .start (before ++ after)).length <
    (read .start before).length + (read .start after).length := by
  rw [cuts_iff] at h
  simp only [State.Rejects, not_forall, not_not] at h
  obtain ⟨b, hb, haccepts⟩ := h
  obtain ⟨bs, rfl⟩ := List.head?_eq_some_iff.mp hb
  have hafter := @after_scan before
  rw [read_append, read_eq_scan .start before]
  cases hstate : (scan .start before).2 with
  | start =>
    rw [hstate] at haccepts
    exact haccepts.elim
  | within missing low high bits =>
    rw [hstate] at haccepts hafter
    have := @length_read_of_accepts bs b _ _ _ _ hafter.1 hafter.2.1 haccepts
    simp only [List.length_append, flush, List.length_singleton]
    omega

/-- Chunks give no fewer code points than the whole, and the same where none is cut. -/
lemma read_flatten (chunks : List Bytes) :
    (NoneCut chunks → read .start chunks.flatten = chunks.flatMap (read .start)) ∧
      (read .start chunks.flatten).length ≤ (chunks.flatMap (read .start)).length ∧
      (¬ NoneCut chunks →
        (read .start chunks.flatten).length < (chunks.flatMap (read .start)).length) := by
  induction chunks with
  | nil => exact ⟨fun _ => rfl, le_rfl, fun h => absurd trivial h⟩
  | cons chunk chunks ih =>
    obtain ⟨heq, hle, hlt⟩ := ih
    rw [List.flatten_cons, List.flatMap_cons, List.length_append]
    by_cases hcut : Cuts chunk chunks.flatten
    · have := length_read_of_cuts hcut
      exact ⟨fun h => absurd hcut h.1, by omega, fun _ => by omega⟩
    · have happend := read_append_of_not_cuts hcut
      have hlength := congrArg List.length happend
      rw [List.length_append] at hlength
      refine ⟨fun h => by rw [happend, heq h.2], by omega, fun h => ?_⟩
      have := hlt fun hnone => h ⟨hcut, hnone⟩
      omega

end Utf8

/-- What is read chunk by chunk is what is read as a whole exactly when no code point is cut. -/
lemma flatMap_fromUtf8_iff {chunks : List Bytes} :
    chunks.flatMap fromUtf8 = fromUtf8 chunks.flatten ↔ NoneCut chunks := by
  obtain ⟨heq, -, hlt⟩ := Utf8.read_flatten chunks
  have hunits : chunks.flatMap fromUtf8 = (chunks.flatMap (Utf8.read .start)).flatMap unitsOf :=
    List.flatMap_assoc.symm
  rw [hunits]
  constructor
  · intro h
    by_contra hcut
    have hscalars := congrArg scalars h
    rw [fromUtf8, (scalars_flatMap_unitsOf Utf8.isScalar_of_mem_read).1,
      (scalars_flatMap_unitsOf fun c hc => ?_).1] at hscalars
    · exact absurd (congrArg List.length hscalars) (hlt hcut).ne'
    · obtain ⟨chunk, -, hc⟩ := List.mem_flatMap.mp hc
      exact Utf8.isScalar_of_mem_read c hc
  · intro h
    rw [fromUtf8, heq h]

end Js
