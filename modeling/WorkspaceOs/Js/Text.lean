import Mathlib.Data.List.DropRight
import Mathlib.Tactic.Common

/-!
# JavaScript strings

A JavaScript string is a sequence of UTF-16 code units; an unpaired surrogate is a string like any
other. String literals coerce to the sequence that encodes them.
-/

namespace Js

/-- A JavaScript string. -/
abbrev JsString := List UInt16

/-- The code units of one Unicode scalar value. -/
def utf16 (c : Char) : JsString :=
  if c.toNat < 0x10000 then [UInt16.ofNat c.toNat]
  else [UInt16.ofNat (0xD800 + (c.toNat - 0x10000) / 0x400),
    UInt16.ofNat (0xDC00 + (c.toNat - 0x10000) % 0x400)]

def JsString.ofString (s : String) : JsString := s.toList.flatMap utf16

instance : Coe String JsString := ⟨JsString.ofString⟩

namespace JsString

/-- `WhiteSpace` and `LineTerminator` code units, as `String.prototype.trim` strips them. -/
def isSpace (c : UInt16) : Bool :=
  c ∈ [0x09, 0x0A, 0x0B, 0x0C, 0x0D, 0x20, 0xA0, 0x1680, 0x2028, 0x2029, 0x202F, 0x205F, 0x3000,
    0xFEFF] || (0x2000 ≤ c && c ≤ 0x200A)

/-- `String.prototype.trim`. -/
def trim (s : JsString) : JsString := (s.dropWhile isSpace).rdropWhile isSpace

/-- `s.trim() === ""`. -/
def IsBlank (s : JsString) : Prop := s.trim = []

instance (s : JsString) : Decidable s.IsBlank := inferInstanceAs (Decidable (s.trim = []))

/-- A string is blank when it is white space throughout. -/
lemma isBlank_iff {s : JsString} : s.IsBlank ↔ ∀ c ∈ s, isSpace c := by
  simp only [IsBlank, trim]
  rw [List.rdropWhile_eq_nil_iff]
  constructor
  · intro h
    have hnil : s.dropWhile isSpace = [] := by
      by_contra hne
      have hhead := List.head_dropWhile_not isSpace hne
      rw [h _ (List.head_mem hne)] at hhead
      exact absurd hhead (by simp)
    exact List.dropWhile_eq_nil_iff.mp hnil
  · intro h c hc
    exact h c ((List.dropWhile_sublist isSpace).mem hc)

/-- A string without white space has none to strip. -/
lemma trim_of_forall {s : JsString} (h : ∀ c ∈ s, isSpace c = false) : s.trim = s := by
  have hdrop : s.dropWhile isSpace = s := by
    rw [List.dropWhile_eq_self_iff]
    intro hpos
    rw [h _ (List.getElem_mem hpos)]
    simp
  rw [trim, hdrop, List.rdropWhile_eq_self_iff]
  intro hne
  rw [h _ (List.getLast_mem hne)]
  simp

@[simp] lemma isBlank_nil : IsBlank [] := rfl

lemma isBlank_append {s t : JsString} : IsBlank (s ++ t) ↔ s.IsBlank ∧ t.IsBlank := by
  simp only [isBlank_iff, List.mem_append, or_imp, forall_and]

/-- Prefixing a visible literal keeps a string visible. -/
lemma not_isBlank_append_left {s t : JsString} (h : ¬ s.IsBlank) : ¬ IsBlank (s ++ t) :=
  fun hst => h (isBlank_append.mp hst).1

/-! ### Splitting

`s.split(c)` for a single code unit is `List.splitOn`, and `s.split(/[…]/)` is `List.splitOnP`. -/

/-- The parts are made of what is no separator. -/
lemma forall_of_mem_splitOnP {p : UInt16 → Bool} {s part : JsString} (h : part ∈ s.splitOnP p) :
    ∀ c ∈ part, c ∈ s ∧ p c = false := by
  induction s generalizing part with
  | nil =>
    rw [List.splitOnP_nil, List.mem_singleton] at h
    rw [h]
    exact fun c hc => absurd hc List.not_mem_nil
  | cons c s ih =>
    have hlater {part : JsString} (h : part ∈ s.splitOnP p) :
        ∀ d ∈ part, d ∈ c :: s ∧ p d = false :=
      fun d hd => ⟨List.mem_cons_of_mem c (ih h d hd).1, (ih h d hd).2⟩
    rw [List.splitOnP_cons_eq_if_modifyHead] at h
    split_ifs at h with hc
    · rcases List.mem_cons.mp h with rfl | h
      · exact fun c hc => absurd hc List.not_mem_nil
      · exact hlater h
    · cases hs : s.splitOnP p with
      | nil => exact absurd hs (List.splitOnP_ne_nil p s)
      | cons first parts =>
        rw [hs] at hlater h
        rcases List.mem_cons.mp h with rfl | h
        · intro d hd
          rcases List.mem_cons.mp hd with rfl | hd
          · exact ⟨List.mem_cons_self, by simpa using hc⟩
          · exact hlater List.mem_cons_self d hd
        · exact hlater (List.mem_cons_of_mem _ h)

lemma not_mem_of_mem_splitOn {c : UInt16} {s part : JsString} (h : part ∈ s.splitOn c) :
    c ∉ part := by
  rw [List.splitOn_eq_splitOnP] at h
  intro hc
  have hne := (forall_of_mem_splitOnP h c hc).2
  simp at hne

lemma mem_of_mem_splitOn {c d : UInt16} {s part : JsString} (h : part ∈ s.splitOn c)
    (hd : d ∈ part) : d ∈ s := by
  rw [List.splitOn_eq_splitOnP] at h
  exact (forall_of_mem_splitOnP h d hd).1

/-- Splitting at more separators splits the parts further. -/
lemma splitOnP_eq_flatMap {p : UInt16 → Bool} {c : UInt16} (hc : p c = true) (s : JsString) :
    s.splitOnP p = (s.splitOn c).flatMap (List.splitOnP p) := by
  have hparts (parts : List JsString) (hne : parts ≠ []) :
      ([c].intercalate parts).splitOnP p = parts.flatMap (List.splitOnP p) := by
    induction parts with
    | nil => exact absurd rfl hne
    | cons part parts ih =>
      cases parts with
      | nil => rw [List.intercalate_singleton, List.flatMap_singleton]
      | cons next parts =>
        rw [List.intercalate_cons_cons, List.append_assoc, List.singleton_append,
          List.splitOnP_append_cons _ _ hc, ih (List.cons_ne_nil _ _)]
        exact List.flatMap_cons.symm
  rw [← hparts _ (List.splitOn_ne_nil c s), List.intercalate_splitOn]

/-- What splits into three parts, and what these are. -/
lemma splitOn_eq_three {c : UInt16} {s x y z : JsString} : s.splitOn c = [x, y, z] ↔
    c ∉ x ∧ c ∉ y ∧ c ∉ z ∧ s = x ++ c :: (y ++ c :: z) := by
  constructor
  · intro h
    have hpart {part : JsString} (hmem : part ∈ [x, y, z]) : c ∉ part :=
      not_mem_of_mem_splitOn (h ▸ hmem)
    refine ⟨hpart (by simp), hpart (by simp), hpart (by simp), ?_⟩
    rw [← @List.intercalate_splitOn _ s _ _ c, h]
    simp [List.intercalate]
  · rintro ⟨hx, hy, hz, rfl⟩
    rw [List.splitOn_append_cons_self_of_not_mem hx, List.splitOn_append_cons_self_of_not_mem hy,
      List.splitOn_eq_singleton hz]

end JsString

end Js
