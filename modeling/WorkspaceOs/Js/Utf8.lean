import WorkspaceOs.Js.Text

/-!
# UTF-8

Buffers hold bytes. A string is written as UTF-8 code point by code point, an unpaired surrogate as
U+FFFD; bytes that are not UTF-8 are read as U+FFFD, one for each longest piece of a code point.
-/

namespace Js

abbrev Bytes := List UInt8

def isHighSurrogate (u : UInt16) : Bool := 0xD800 ≤ u.toNat && u.toNat < 0xDC00

def isLowSurrogate (u : UInt16) : Bool := 0xDC00 ≤ u.toNat && u.toNat < 0xE000

def isSurrogate (u : UInt16) : Bool := 0xD800 ≤ u.toNat && u.toNat < 0xE000

/-- U+FFFD. -/
def replacement : ℕ := 0xFFFD

/-- The code point of a code unit that is not part of a pair. -/
def loneScalar (u : UInt16) : ℕ := if isSurrogate u then replacement else u.toNat

/-- The code point of a surrogate pair. -/
def pairScalar (u v : UInt16) : ℕ := 0x10000 + (u.toNat - 0xD800) * 0x400 + (v.toNat - 0xDC00)

/-- The code points of a string. -/
def scalars : JsString → List ℕ
  | [] => []
  | [u] => [loneScalar u]
  | u :: v :: s =>
    if isHighSurrogate u && isLowSurrogate v then pairScalar u v :: scalars s
    else loneScalar u :: scalars (v :: s)

/-- The code units of a code point. -/
def unitsOf (c : ℕ) : JsString :=
  if c < 0x10000 then [UInt16.ofNat c]
  else [UInt16.ofNat (0xD800 + (c - 0x10000) / 0x400),
    UInt16.ofNat (0xDC00 + (c - 0x10000) % 0x400)]

/-- The bytes of a code point. -/
def bytesOf (c : ℕ) : Bytes :=
  if c < 0x80 then [UInt8.ofNat c]
  else if c < 0x800 then [UInt8.ofNat (0xC0 + c / 64), UInt8.ofNat (0x80 + c % 64)]
  else if c < 0x10000 then
    [UInt8.ofNat (0xE0 + c / 4096), UInt8.ofNat (0x80 + c / 64 % 64), UInt8.ofNat (0x80 + c % 64)]
  else
    [UInt8.ofNat (0xF0 + c / 262144), UInt8.ofNat (0x80 + c / 4096 % 64),
      UInt8.ofNat (0x80 + c / 64 % 64), UInt8.ofNat (0x80 + c % 64)]

/-- `Buffer.from(s, "utf8")`. -/
def utf8 (s : JsString) : Bytes := (scalars s).flatMap bytesOf

namespace Utf8

/-- Between code points, or within one: how many bytes are missing, the range of the next one, and
the bits so far. -/
inductive State where
  | start
  | within (missing low high bits : ℕ)

/-- The first byte of a code point, or one that cannot be. -/
def first (b : ℕ) : List ℕ × State :=
  if b < 0x80 then ([b], .start)
  else if b < 0xC2 then ([replacement], .start)
  else if b < 0xE0 then ([], .within 1 0x80 0xBF (b - 0xC0))
  else if b = 0xE0 then ([], .within 2 0xA0 0xBF 0)
  else if b = 0xED then ([], .within 2 0x80 0x9F 0xD)
  else if b < 0xF0 then ([], .within 2 0x80 0xBF (b - 0xE0))
  else if b = 0xF0 then ([], .within 3 0x90 0xBF 0)
  else if b < 0xF4 then ([], .within 3 0x80 0xBF (b - 0xF0))
  else if b = 0xF4 then ([], .within 3 0x80 0x8F 4)
  else ([replacement], .start)

/-- One more byte: the code points that are complete with it. -/
def step : State → ℕ → List ℕ × State
  | .start, b => first b
  | .within missing low high bits, b =>
    if low ≤ b ∧ b ≤ high then
      if missing = 1 then ([bits * 64 + b % 64], .start)
      else ([], .within (missing - 1) 0x80 0xBF (bits * 64 + b % 64))
    else (replacement :: (first b).1, (first b).2)

/-- The code points of the bytes that follow. -/
def read : State → Bytes → List ℕ
  | .start, [] => []
  | .within _ _ _ _, [] => [replacement]
  | state, b :: bs => (step state b.toNat).1 ++ read (step state b.toNat).2 bs

end Utf8

/-- `buffer.toString("utf8")`. -/
def fromUtf8 (bs : Bytes) : JsString := (Utf8.read .start bs).flatMap unitsOf

/-! ### Reading what was written -/

/-- A code point that is not a surrogate. -/
def IsScalar (c : ℕ) : Prop := c < 0xD800 ∨ 0xE000 ≤ c ∧ c < 0x110000

namespace Utf8

variable {c b : ℕ} {bs : Bytes}

lemma read_cons {state : State} (h : b < 256) : read state (UInt8.ofNat b :: bs) =
    (step state b).1 ++ read (step state b).2 bs := by
  have hb : (UInt8.ofNat b).toNat = b := by simpa using Nat.mod_eq_of_lt h
  cases state <;> simp only [read, hb]

lemma step_within {missing low high bits : ℕ} (hlow : low ≤ b) (hhigh : b ≤ high) :
    step (.within missing low high bits) b =
      if missing = 1 then ([bits * 64 + b % 64], .start)
      else ([], .within (missing - 1) 0x80 0xBF (bits * 64 + b % 64)) :=
  if_pos ⟨hlow, hhigh⟩

/-- The last byte of a code point. -/
lemma read_last {low high bits : ℕ} (hlow : low ≤ b) (hhigh : b ≤ high) (hb : b < 256) :
    read (.within 1 low high bits) (UInt8.ofNat b :: bs) =
      (bits * 64 + b % 64) :: read .start bs := by
  rw [read_cons hb, step_within hlow hhigh, if_pos rfl]
  rfl

/-- A byte of a code point that is not the last one. -/
lemma read_middle {missing low high bits : ℕ} (hmissing : missing ≠ 0) (hlow : low ≤ b)
    (hhigh : b ≤ high) (hb : b < 256) :
    read (.within (missing + 1) low high bits) (UInt8.ofNat b :: bs) =
      read (.within missing 0x80 0xBF (bits * 64 + b % 64)) bs := by
  rw [read_cons hb, step_within hlow hhigh, if_neg (by omega)]
  rfl

/-- The first byte of a code point of several bytes. -/
lemma read_first {state : State} (hb : b < 256) (h : first b = ([], state)) :
    read .start (UInt8.ofNat b :: bs) = read state bs := by
  rw [read_cons hb]
  show (first b).1 ++ read (first b).2 bs = _
  rw [h]
  rfl

/-- What may follow the first of three bytes, and what the code point is then. -/
lemma first_three (hlow : 0x800 ≤ c) (hhigh : c < 0x10000) (hc : IsScalar c) : ∃ low high,
    first (0xE0 + c / 4096) = ([], .within 2 low high (c / 4096)) ∧ low ≤ 0x80 + c / 64 % 64 ∧
      0x80 + c / 64 % 64 ≤ high := by
  rw [IsScalar] at hc
  rw [first]
  rw [if_neg (by omega), if_neg (by omega), if_neg (by omega)]
  split_ifs with h₁ h₂ h₃
  · exact ⟨0xA0, 0xBF, by rw [(by omega : c / 4096 = 0)], by omega, by omega⟩
  · exact ⟨0x80, 0x9F, by rw [(by omega : c / 4096 = 0xD)], by omega, by omega⟩
  · exact ⟨0x80, 0xBF, by rw [Nat.add_sub_cancel_left], by omega, by omega⟩
  all_goals omega

/-- The same for the first of four bytes. -/
lemma first_four (hlow : 0x10000 ≤ c) (hhigh : c < 0x110000) : ∃ low high,
    first (0xF0 + c / 262144) = ([], .within 3 low high (c / 262144)) ∧
      low ≤ 0x80 + c / 4096 % 64 ∧ 0x80 + c / 4096 % 64 ≤ high := by
  rw [first]
  rw [if_neg (by omega), if_neg (by omega), if_neg (by omega), if_neg (by omega),
    if_neg (by omega), if_neg (by omega)]
  split_ifs with h₁ h₂ h₃
  · exact ⟨0x90, 0xBF, by rw [(by omega : c / 262144 = 0)], by omega, by omega⟩
  · exact ⟨0x80, 0xBF, by rw [Nat.add_sub_cancel_left], by omega, by omega⟩
  · exact ⟨0x80, 0x8F, by rw [(by omega : c / 262144 = 4)], by omega, by omega⟩
  · omega

/-- A code point is read back. -/
lemma read_bytesOf (hc : IsScalar c) : read .start (bytesOf c ++ bs) = c :: read .start bs := by
  have hbound : c < 0x110000 := by
    rw [IsScalar] at hc
    omega
  rw [bytesOf]
  split_ifs with h₁ h₂ h₃
  · have hfirst : first c = ([c], .start) := if_pos h₁
    rw [List.cons_append, read_cons (by omega)]
    show (first c).1 ++ read (first c).2 _ = _
    rw [hfirst]
    rfl
  · have hfirst : first (0xC0 + c / 64) = ([], .within 1 0x80 0xBF (c / 64)) := by
      rw [first, if_neg (by omega), if_neg (by omega), if_pos (by omega), Nat.add_sub_cancel_left]
    rw [List.cons_append, List.cons_append, read_first (by omega) hfirst,
      read_last (by omega) (by omega) (by omega)]
    congr 1
    omega
  · obtain ⟨low, high, hfirst, hlow, hhigh⟩ := first_three (by omega) h₃ hc
    rw [List.cons_append, List.cons_append, List.cons_append, read_first (by omega) hfirst,
      read_middle (by omega) hlow hhigh (by omega), read_last (by omega) (by omega) (by omega)]
    congr 1
    omega
  · obtain ⟨low, high, hfirst, hlow, hhigh⟩ := first_four (by omega) hbound
    rw [List.cons_append, List.cons_append, List.cons_append, List.cons_append,
      read_first (by omega) hfirst, read_middle (by omega) hlow hhigh (by omega),
      read_middle (by omega) (by omega) (by omega) (by omega),
      read_last (by omega) (by omega) (by omega)]
    congr 1
    omega

lemma read_flatMap_bytesOf {cs : List ℕ} (h : ∀ c ∈ cs, IsScalar c) :
    read .start (cs.flatMap bytesOf) = cs := by
  induction cs with
  | nil => rfl
  | cons c cs ih =>
    rw [List.flatMap_cons, read_bytesOf (h c (.head _)), ih fun c hc => h c (.tail _ hc)]

end Utf8

/-! ### Strings without unpaired surrogates -/

variable {u v : UInt16} {s t : JsString}

lemma isHighSurrogate_iff : isHighSurrogate u = true ↔ 0xD800 ≤ u.toNat ∧ u.toNat < 0xDC00 := by
  simp [isHighSurrogate]

lemma isLowSurrogate_iff : isLowSurrogate u = true ↔ 0xDC00 ≤ u.toNat ∧ u.toNat < 0xE000 := by
  simp [isLowSurrogate]

lemma isSurrogate_iff : isSurrogate u = true ↔ 0xD800 ≤ u.toNat ∧ u.toNat < 0xE000 := by
  simp [isSurrogate]

lemma isSurrogate_eq_false_iff :
    isSurrogate u = false ↔ u.toNat < 0xD800 ∨ 0xE000 ≤ u.toNat := by
  rw [← Bool.not_eq_true, isSurrogate_iff]
  omega

/-- Half of a pair is a surrogate. -/
lemma isHighSurrogate_eq_false (h : isSurrogate u = false) : isHighSurrogate u = false := by
  rw [isSurrogate_eq_false_iff] at h
  rw [← Bool.not_eq_true, isHighSurrogate_iff]
  omega

lemma isLowSurrogate_eq_false (h : isSurrogate u = false) : isLowSurrogate u = false := by
  rw [isSurrogate_eq_false_iff] at h
  rw [← Bool.not_eq_true, isLowSurrogate_iff]
  omega

lemma isScalar_loneScalar : IsScalar (loneScalar u) := by
  have hbound := u.toNat_lt
  rw [loneScalar, IsScalar]
  split_ifs with h
  · exact .inr ⟨by decide, by decide⟩
  · rw [isSurrogate_iff] at h
    omega

lemma le_pairScalar : 0x10000 ≤ pairScalar u v := by
  unfold pairScalar
  omega

lemma pairScalar_lt (hu : isHighSurrogate u = true) (hv : isLowSurrogate v = true) :
    pairScalar u v < 0x110000 := by
  rw [isHighSurrogate_iff] at hu
  rw [isLowSurrogate_iff] at hv
  unfold pairScalar
  omega

lemma isScalar_pairScalar (hu : isHighSurrogate u = true) (hv : isLowSurrogate v = true) :
    IsScalar (pairScalar u v) :=
  .inr ⟨Nat.le_trans (by decide) le_pairScalar, pairScalar_lt hu hv⟩

lemma isScalar_of_mem_scalars : ∀ c ∈ scalars s, IsScalar c := by
  induction s using scalars.induct with
  | case1 => exact fun c hc => absurd hc List.not_mem_nil
  | case2 u =>
    intro c hc
    rw [scalars, List.mem_singleton] at hc
    exact hc ▸ isScalar_loneScalar
  | case3 u v s hpair ih =>
    intro c hc
    rw [scalars, if_pos hpair] at hc
    obtain ⟨hu, hv⟩ := Bool.and_eq_true_iff.mp hpair
    rcases List.mem_cons.mp hc with hc | hc
    · exact hc ▸ isScalar_pairScalar hu hv
    · exact ih c hc
  | case4 u v s hpair ih =>
    intro c hc
    rw [scalars, if_neg hpair] at hc
    rcases List.mem_cons.mp hc with hc | hc
    · exact hc ▸ isScalar_loneScalar
    · exact ih c hc

/-- Two strings have the same bytes when they have the same code points. -/
lemma scalars_eq_of_utf8_eq (h : utf8 s = utf8 t) : scalars s = scalars t := by
  have hread := congrArg (Utf8.read .start) h
  rwa [utf8, utf8, Utf8.read_flatMap_bytesOf isScalar_of_mem_scalars,
    Utf8.read_flatMap_bytesOf isScalar_of_mem_scalars] at hread

/-- Every surrogate of the string is half of a pair. -/
inductive WellFormed : JsString → Prop
  | nil : WellFormed []
  | unit {u : UInt16} {s : JsString} : isSurrogate u = false → WellFormed s → WellFormed (u :: s)
  | pair {u v : UInt16} {s : JsString} : isHighSurrogate u = true → isLowSurrogate v = true →
      WellFormed s → WellFormed (u :: v :: s)

lemma WellFormed.append (hs : WellFormed s) (ht : WellFormed t) : WellFormed (s ++ t) := by
  induction hs with
  | nil => exact ht
  | unit hu _ ih => exact .unit hu ih
  | pair hu hv _ ih => exact .pair hu hv ih

lemma WellFormed.of_forall (h : ∀ u ∈ s, isSurrogate u = false) : WellFormed s := by
  induction s with
  | nil => exact .nil
  | cons u s ih => exact .unit (h u (.head _)) (ih fun v hv => h v (.tail _ hv))

lemma WellFormed.of_all (h : s.all (fun u => !isSurrogate u) = true) : WellFormed s :=
  .of_forall fun u hu => Bool.not_eq_true' _ |>.mp (List.all_eq_true.mp h u hu)

/-- A pair is not split by what is no surrogate. -/
lemma WellFormed.of_append_cons (hu : isSurrogate u = false) (h : WellFormed (s ++ u :: t)) :
    WellFormed s ∧ WellFormed t := by
  have hhigh : isHighSurrogate u ≠ true := Bool.eq_false_iff.mp (isHighSurrogate_eq_false hu)
  have hlow : isLowSurrogate u ≠ true := Bool.eq_false_iff.mp (isLowSurrogate_eq_false hu)
  induction s using scalars.induct with
  | case1 =>
    cases h with
    | unit _ ht => exact ⟨.nil, ht⟩
    | pair hhigh' _ _ => exact absurd hhigh' hhigh
  | case2 v =>
    cases h with
    | unit hv ht =>
      cases ht with
      | unit _ ht => exact ⟨.unit hv .nil, ht⟩
      | pair hhigh' _ _ => exact absurd hhigh' hhigh
    | pair _ hlow' _ => exact absurd hlow' hlow
  | case3 v w s hpair ih =>
    cases h with
    | unit hv _ =>
      rw [isHighSurrogate_eq_false hv, Bool.false_and] at hpair
      cases hpair
    | pair hv hw hst =>
      obtain ⟨hs, ht⟩ := ih hst
      exact ⟨.pair hv hw hs, ht⟩
  | case4 v w s hpair ih =>
    cases h with
    | unit hv hst =>
      obtain ⟨hs, ht⟩ := ih hst
      exact ⟨.unit hv hs, ht⟩
    | pair hv hw _ => exact absurd (by rw [hv, hw]; rfl) hpair

/-- What is cut off is well-formed unless a pair is cut in two. -/
lemma WellFormed.take_succ_iff (h : WellFormed s) (n : ℕ) :
    WellFormed (s.take (n + 1)) ↔ ∀ u ∈ s[n]?, isHighSurrogate u = false := by
  induction h generalizing n with
  | nil => simp [WellFormed.nil]
  | @unit u s hu _ ih =>
    have hcons (t : JsString) : WellFormed (u :: t) ↔ WellFormed t :=
      ⟨fun h => (WellFormed.of_append_cons (s := []) hu h).2, .unit hu⟩
    rw [List.take_succ_cons, hcons]
    cases n with
    | zero => simp [WellFormed.nil, isHighSurrogate_eq_false hu]
    | succ n => exact ih n
  | @pair u v s hu hv _ ih =>
    have hlow : isHighSurrogate v = false := by
      rw [isLowSurrogate_iff] at hv
      rw [← Bool.not_eq_true, isHighSurrogate_iff]
      omega
    cases n with
    | zero =>
      refine iff_of_false (fun hcut => ?_) (by simp [hu])
      cases hcut with
      | unit hu' _ => exact absurd hu (by simp [isHighSurrogate_eq_false hu'])
    | succ n =>
      have hcons (t : JsString) : WellFormed (u :: v :: t) ↔ WellFormed t := by
        refine ⟨fun h => ?_, .pair hu hv⟩
        cases h with
        | unit hu' _ => exact absurd hu (by simp [isHighSurrogate_eq_false hu'])
        | pair _ _ h => exact h
      rw [List.take_succ_cons, List.take_succ_cons, hcons]
      cases n with
      | zero => simp [WellFormed.nil, hlow]
      | succ n => exact ih n

lemma scalars_cons_unit (hu : isSurrogate u = false) :
    scalars (u :: s) = u.toNat :: scalars s := by
  have hlone : loneScalar u = u.toNat := by simp [loneScalar, hu]
  cases s with
  | nil => exact congrArg (· :: []) hlone
  | cons v s =>
    rw [scalars, isHighSurrogate_eq_false hu, hlone, Bool.false_and, if_neg Bool.false_ne_true]

lemma scalars_cons_pair (hu : isHighSurrogate u = true) (hv : isLowSurrogate v = true) :
    scalars (u :: v :: s) = pairScalar u v :: scalars s := by
  rw [scalars, hu, hv, Bool.and_self, if_pos rfl]

lemma unitsOf_toNat : unitsOf u.toNat = [u] := by
  have hu : UInt16.ofNat u.toNat = u := UInt16.ofNat_toNat
  rw [unitsOf, if_pos u.toNat_lt, hu]

lemma unitsOf_pairScalar (hu : isHighSurrogate u = true) (hv : isLowSurrogate v = true) :
    unitsOf (pairScalar u v) = [u, v] := by
  rw [isHighSurrogate_iff] at hu
  rw [isLowSurrogate_iff] at hv
  have hhigh : 0xD800 + (pairScalar u v - 0x10000) / 0x400 = u.toNat := by
    unfold pairScalar
    omega
  have hlow : 0xDC00 + (pairScalar u v - 0x10000) % 0x400 = v.toNat := by
    unfold pairScalar
    omega
  rw [unitsOf, if_neg (Nat.not_lt.mpr le_pairScalar), hhigh, hlow, UInt16.ofNat_toNat,
    UInt16.ofNat_toNat]

/-- The string as it is read back: unpaired surrogates are replaced. -/
lemma fromUtf8_utf8_eq : fromUtf8 (utf8 s) = (scalars s).flatMap unitsOf := by
  rw [fromUtf8, utf8, Utf8.read_flatMap_bytesOf isScalar_of_mem_scalars]

/-- What is written without unpaired surrogates is read back. -/
lemma fromUtf8_utf8 (h : WellFormed s) : fromUtf8 (utf8 s) = s := by
  rw [fromUtf8_utf8_eq]
  induction h with
  | nil => rfl
  | unit hu _ ih =>
    rw [scalars_cons_unit hu, List.flatMap_cons, unitsOf_toNat, ih]
    rfl
  | pair hu hv _ ih =>
    rw [scalars_cons_pair hu hv, List.flatMap_cons, unitsOf_pairScalar hu hv, ih]
    rfl

/-- What is well formed is kept in front of anything. -/
lemma WellFormed.fromUtf8_utf8_append (h : WellFormed s) :
    fromUtf8 (utf8 (s ++ t)) = s ++ fromUtf8 (utf8 t) := by
  simp only [fromUtf8_utf8_eq]
  induction h with
  | nil => rfl
  | unit hu _ ih =>
    rw [List.cons_append, scalars_cons_unit hu, List.flatMap_cons, unitsOf_toNat, ih]
    rfl
  | pair hu hv _ ih =>
    rw [List.cons_append, List.cons_append, scalars_cons_pair hu hv, List.flatMap_cons,
      unitsOf_pairScalar hu hv, ih]
    rfl

/-- A code point is one code unit or a pair. -/
lemma unitsOf_cases {c : ℕ} (hc : IsScalar c) :
    (∃ u, unitsOf c = [u] ∧ u.toNat = c ∧ isSurrogate u = false) ∨
    ∃ u v, unitsOf c = [u, v] ∧ pairScalar u v = c ∧ isHighSurrogate u = true ∧
      isLowSurrogate v = true := by
  rw [IsScalar] at hc
  by_cases hsmall : c < 0x10000
  · have htoNat := UInt16.toNat_ofNat_of_lt' hsmall
    refine .inl ⟨UInt16.ofNat c, if_pos hsmall, htoNat, ?_⟩
    rw [isSurrogate_eq_false_iff, htoNat]
    omega
  · have hhigh : 0xD800 + (c - 0x10000) / 0x400 < UInt16.size := by
      rw [UInt16.size]
      omega
    have hlow : 0xDC00 + (c - 0x10000) % 0x400 < UInt16.size := by
      rw [UInt16.size]
      omega
    refine .inr ⟨_, _, if_neg hsmall, ?_, ?_, ?_⟩
    · unfold pairScalar
      rw [UInt16.toNat_ofNat_of_lt' hhigh, UInt16.toNat_ofNat_of_lt' hlow,
        Nat.add_sub_cancel_left, Nat.add_sub_cancel_left]
      omega
    · rw [isHighSurrogate_iff, UInt16.toNat_ofNat_of_lt' hhigh]
      omega
    · rw [isLowSurrogate_iff, UInt16.toNat_ofNat_of_lt' hlow]
      omega

lemma scalars_flatMap_unitsOf {cs : List ℕ} (h : ∀ c ∈ cs, IsScalar c) :
    scalars (cs.flatMap unitsOf) = cs ∧ WellFormed (cs.flatMap unitsOf) := by
  induction cs with
  | nil => exact ⟨rfl, .nil⟩
  | cons c cs ih =>
    obtain ⟨hscalars, hwell⟩ := ih fun c hc => h c (.tail _ hc)
    rw [List.flatMap_cons]
    rcases unitsOf_cases (h c (.head _)) with ⟨u, hunits, rfl, hu⟩ | ⟨u, v, hunits, rfl, hu, hv⟩
    · rw [hunits, List.singleton_append, scalars_cons_unit hu, hscalars]
      exact ⟨rfl, .unit hu hwell⟩
    · rw [hunits, List.cons_append, List.singleton_append, scalars_cons_pair hu hv, hscalars]
      exact ⟨rfl, .pair hu hv hwell⟩

lemma scalars_fromUtf8_utf8 : scalars (fromUtf8 (utf8 s)) = scalars s := by
  rw [fromUtf8_utf8_eq]
  exact (scalars_flatMap_unitsOf isScalar_of_mem_scalars).1

lemma utf8_fromUtf8_utf8 : utf8 (fromUtf8 (utf8 s)) = utf8 s := by
  rw [utf8, scalars_fromUtf8_utf8, utf8]

/-- Only a string without unpaired surrogates is read back. -/
lemma fromUtf8_utf8_iff : fromUtf8 (utf8 s) = s ↔ WellFormed s := by
  refine ⟨fun h => ?_, fromUtf8_utf8⟩
  rw [← h, fromUtf8_utf8_eq]
  exact (scalars_flatMap_unitsOf isScalar_of_mem_scalars).2

/-- A code unit that is no surrogate separates what is before it from what is after it. -/
lemma scalars_append_cons (hu : isSurrogate u = false) :
    scalars (s ++ u :: t) = scalars s ++ u.toNat :: scalars t := by
  have hlow : isLowSurrogate u = false := by
    simp only [isSurrogate, isLowSurrogate, Bool.and_eq_false_iff, decide_eq_false_iff_not] at hu ⊢
    omega
  induction s using scalars.induct with
  | case1 => exact scalars_cons_unit hu
  | case2 v =>
    rw [List.singleton_append, scalars.eq_3, hlow, Bool.and_false, if_neg Bool.false_ne_true,
      scalars_cons_unit hu]
    rfl
  | case3 v w s hpair ih =>
    rw [List.cons_append, List.cons_append, scalars, if_pos hpair, ih, scalars, if_pos hpair]
    rfl
  | case4 v w s hpair ih =>
    rw [List.cons_append, List.cons_append, scalars, if_neg hpair, ← List.cons_append, ih,
      scalars, if_neg hpair]
    rfl

lemma utf8_append_cons (hu : u.toNat < 0x80) :
    utf8 (s ++ u :: t) = utf8 s ++ UInt8.ofNat u.toNat :: utf8 t := by
  have hsurrogate : isSurrogate u = false := isSurrogate_eq_false_iff.mpr (.inl (by omega))
  rw [utf8, scalars_append_cons hsurrogate, List.flatMap_append, List.flatMap_cons, bytesOf,
    if_pos hu]
  rfl

/-! ### ASCII -/

/-- The string has code units of ASCII only. -/
def IsAscii (s : JsString) : Prop := ∀ u ∈ s, u.toNat < 0x80

lemma IsAscii.of_all (h : s.all (fun u => u.toNat < 0x80) = true) : IsAscii s :=
  fun u hu => of_decide_eq_true (List.all_eq_true.mp h u hu)

lemma IsAscii.wellFormed (h : IsAscii s) : WellFormed s := by
  refine .of_forall fun u hu => ?_
  have := h u hu
  simp only [isSurrogate, Bool.and_eq_false_iff, decide_eq_false_iff_not]
  omega

lemma loneScalar_lt (h : loneScalar u < 0x80) : loneScalar u = u.toNat := by
  rw [loneScalar, replacement] at h ⊢
  split_ifs at h ⊢ with hu
  · omega
  · rfl

lemma eq_of_loneScalar (hu : u.toNat < 0x80) (h : loneScalar v = u.toNat) : u = v := by
  rw [loneScalar_lt (by omega)] at h
  exact UInt16.toNat.inj h.symm

/-- A string whose code points are of ASCII is of ASCII itself. -/
lemma isAscii_of_scalars (h : ∀ c ∈ scalars s, c < 0x80) : IsAscii s := by
  have hlone {u : UInt16} (hu : loneScalar u < 0x80) : u.toNat < 0x80 := loneScalar_lt hu ▸ hu
  induction s using scalars.induct with
  | case1 => exact fun c hc => absurd hc List.not_mem_nil
  | case2 u =>
    intro w hw
    rw [List.mem_singleton.mp hw]
    exact hlone (h _ (.head _))
  | case3 u v s hpair ih =>
    rw [scalars, if_pos hpair] at h
    exact absurd (Nat.lt_of_le_of_lt le_pairScalar (h _ (.head _))) (by decide)
  | case4 u v s hpair ih =>
    rw [scalars, if_neg hpair] at h
    intro w hw
    rcases List.mem_cons.mp hw with rfl | hw
    · exact hlone (h _ (.head _))
    · exact ih (fun c hc => h c (.tail _ hc)) w hw

lemma mem_scalars_iff (hu : u.toNat < 0x80) : u.toNat ∈ scalars s ↔ u ∈ s := by
  constructor
  · intro h
    induction s using scalars.induct with
    | case1 => exact absurd h List.not_mem_nil
    | case2 v =>
      rw [scalars, List.mem_singleton] at h
      rw [List.mem_singleton]
      exact eq_of_loneScalar hu h.symm
    | case3 v w s hpair ih =>
      rw [scalars, if_pos hpair] at h
      rcases List.mem_cons.mp h with h | h
      · exact absurd (Nat.lt_of_le_of_lt (h ▸ le_pairScalar) hu) (by decide)
      · exact .tail _ (.tail _ (ih h))
    | case4 v w s hpair ih =>
      rw [scalars, if_neg hpair] at h
      rcases List.mem_cons.mp h with h | h
      · exact eq_of_loneScalar hu h.symm ▸ .head _
      · exact .tail _ (ih h)
  · intro h
    obtain ⟨before, after, rfl⟩ := List.append_of_mem h
    rw [scalars_append_cons (isSurrogate_eq_false_iff.mpr (.inl (by omega)))]
    exact List.mem_append_right _ (.head _)

/-- Replacing unpaired surrogates brings in no ASCII, and takes none away. -/
lemma mem_fromUtf8_utf8 (hu : u.toNat < 0x80) : u ∈ fromUtf8 (utf8 s) ↔ u ∈ s := by
  rw [← mem_scalars_iff hu, scalars_fromUtf8_utf8, mem_scalars_iff hu]

/-- Only one string has the bytes of an ASCII string. -/
lemma eq_of_utf8_eq (ht : IsAscii t) (h : utf8 s = utf8 t) : s = t := by
  have hscalars := scalars_eq_of_utf8_eq h
  have hmap : scalars t = t.map UInt16.toNat := by
    clear h hscalars
    induction t with
    | nil => rfl
    | cons u t ih =>
      have hu : isSurrogate u = false := by
        have := ht u (.head _)
        simp only [isSurrogate, Bool.and_eq_false_iff, decide_eq_false_iff_not]
        omega
      rw [scalars_cons_unit hu, ih fun v hv => ht v (.tail _ hv), List.map_cons]
  have hs : IsAscii s := by
    refine isAscii_of_scalars fun c hc => ?_
    rw [hscalars, hmap] at hc
    obtain ⟨u, hu, rfl⟩ := List.mem_map.mp hc
    exact ht u hu
  rw [← fromUtf8_utf8 hs.wellFormed, h, fromUtf8_utf8 ht.wellFormed]

/-- What is visible stays so when unpaired surrogates are replaced. -/
lemma isBlank_of_fromUtf8_utf8 (h : (fromUtf8 (utf8 s)).IsBlank) : s.IsBlank := by
  have hlone {u : UInt16} (hu : JsString.IsBlank (unitsOf (loneScalar u))) :
      JsString.IsBlank [u] := by
    rw [loneScalar] at hu
    split_ifs at hu
    · exact absurd hu (by decide)
    · rwa [unitsOf_toNat] at hu
  rw [fromUtf8_utf8_eq] at h
  induction s using scalars.induct with
  | case1 => exact JsString.isBlank_nil
  | case2 u => exact hlone (by simpa [scalars] using h)
  | case3 u v s hpair ih =>
    obtain ⟨hu, hv⟩ := Bool.and_eq_true_iff.mp hpair
    rw [scalars_cons_pair hu hv, List.flatMap_cons, unitsOf_pairScalar hu hv] at h
    obtain ⟨hunits, hrest⟩ := JsString.isBlank_append.mp h
    exact JsString.isBlank_append.mpr ⟨hunits, ih hrest⟩
  | case4 u v s hpair ih =>
    rw [scalars, if_neg hpair, List.flatMap_cons] at h
    obtain ⟨hunits, hrest⟩ := JsString.isBlank_append.mp h
    exact JsString.isBlank_append.mpr ⟨hlone hunits, ih hrest⟩

end Js
