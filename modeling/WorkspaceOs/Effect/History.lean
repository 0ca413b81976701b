import Mathlib.Data.List.Chain
import Mathlib.Data.List.Induction
import Mathlib.Data.List.Nodup
import Mathlib.Tactic.Common

/-!
# Histories

A history is a list that grows at its end. What is said of an entry may refer to the history before
it.
-/

namespace Effect

variable {L E : Type*}

/-- A split of a longer history is a split of the shorter one, or singles out the last entry. -/
lemma concat_eq_append_cons_iff {h pre post : List L} {x l : L} :
    h ++ [x] = pre ++ l :: post ↔
      (∃ post', post = post' ++ [x] ∧ h = pre ++ l :: post') ∨ post = [] ∧ h = pre ∧ x = l := by
  constructor
  · intro heq
    rcases List.eq_nil_or_concat post with rfl | ⟨post', y, rfl⟩
    · obtain ⟨hpre, hl⟩ := List.append_inj' heq rfl
      exact .inr ⟨rfl, hpre, List.singleton_inj.mp hl⟩
    · have heq' : h ++ [x] = (pre ++ l :: post') ++ [y] := by simpa using heq
      obtain ⟨hpre, hl⟩ := List.append_inj' heq' rfl
      cases List.singleton_inj.mp hl
      exact .inl ⟨post', List.concat_eq_append, hpre⟩
  · rintro (⟨post', rfl, rfl⟩ | ⟨rfl, rfl, rfl⟩) <;> simp

lemma filterMap_concat (f : L → Option E) (h : List L) (l : L) :
    (h ++ [l]).filterMap f = h.filterMap f ++ (f l).toList := by
  rw [List.filterMap_append]
  cases hl : f l <;> simp [hl]

/-- Entries that stand for the same are the same, where nothing is stood for twice. -/
lemma eq_of_nodup_filterMap {f : L → Option E} {h : List L} (hnodup : (h.filterMap f).Nodup)
    {l l' : L} {x : E} (hl : l ∈ h) (hl' : l' ∈ h) (hx : f l = some x) (hx' : f l' = some x) :
    l = l' := by
  induction h with
  | nil => cases hl
  | cons k h ih =>
    have hrest : (h.filterMap f).Nodup := by
      rw [List.filterMap_cons] at hnodup
      cases hk : f k with
      | none => simpa only [hk] using hnodup
      | some y =>
        rw [hk] at hnodup
        exact hnodup.of_cons
    -- what the first entry stands for, no later one does
    have hnew : ∀ m ∈ h, f k = some x → f m ≠ some x := by
      intro m hm hk hmx
      rw [List.filterMap_cons, hk] at hnodup
      exact (List.nodup_cons.mp hnodup).1 (List.mem_filterMap.mpr ⟨m, hm, hmx⟩)
    rcases List.mem_cons.mp hl with rfl | hmem
    · rcases List.mem_cons.mp hl' with rfl | hmem'
      · rfl
      · exact absurd hx' (hnew l' hmem' hx)
    · rcases List.mem_cons.mp hl' with rfl | hmem'
      · exact absurd hx (hnew l hmem hx')
      · exact ih hrest hmem hmem'

/-- Every entry satisfies `P`, given the history before it. -/
def Always (P : List L → L → Prop) (h : List L) : Prop :=
  ∀ pre l post, h = pre ++ l :: post → P pre l

variable {P : List L → L → Prop} {h : List L} {l : L}

lemma Always.nil : Always P [] := by
  intro pre l post heq
  cases pre <;> cases heq

lemma Always.concat_iff : Always P (h ++ [l]) ↔ Always P h ∧ P h l := by
  constructor
  · intro halways
    refine ⟨fun pre l' post heq => halways pre l' (post ++ [l]) (by simp [heq]), ?_⟩
    exact halways h l [] rfl
  · rintro ⟨halways, hl⟩ pre l' post heq
    rcases concat_eq_append_cons_iff.mp heq with ⟨post', -, heq⟩ | ⟨-, rfl, rfl⟩
    · exact halways pre l' post' heq
    · exact hl

lemma Always.imp {Q : List L → L → Prop} (halways : Always P h) (hQ : ∀ pre l, P pre l → Q pre l) :
    Always Q h := fun pre l post heq => hQ pre l (halways pre l post heq)

/-- What is always so was so in every earlier history. -/
lemma Always.of_append {h' : List L} (halways : Always P (h ++ h')) : Always P h :=
  fun pre l post heq => halways pre l (post ++ h') (by simp [heq])

/-- Entries that satisfy `P` after any history go on with it. -/
lemma Always.append {h' : List L} (halways : Always P h) (hP : ∀ l ∈ h', ∀ pre, P pre l) :
    Always P (h ++ h') := by
  induction h' using List.reverseRecOn with
  | nil => simpa using halways
  | append_singleton h' l ih =>
    rw [← List.append_assoc]
    refine Always.concat_iff.mpr ⟨ih fun l hl => hP l (List.mem_append_left _ hl), ?_⟩
    exact hP l (List.mem_append_right _ (List.mem_singleton_self l)) _

/-- A history can be checked entry by entry. -/
lemma always_iff_take : Always P h ↔ ∀ n (hn : n < h.length), P (h.take n) h[n] := by
  constructor
  · intro halways n hn
    exact halways _ _ (h.drop (n + 1)) (by simp)
  · rintro hall pre l post rfl
    simpa using hall pre.length (by simp)

end Effect
