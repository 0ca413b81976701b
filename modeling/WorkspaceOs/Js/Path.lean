import WorkspaceOs.Js.Text

/-!
# Paths

`node:path` on a POSIX system. The parts of a path are what stands between its slashes; the ones
that are neither empty nor a dot are its segments. Where a relative path starts is given by the
segments of the working directory.
-/

namespace Js.Path

/-- A part that leads nowhere else. -/
def IsIdle (part : JsString) : Prop := part = [] ∨ part = "."

instance : DecidablePred IsIdle := fun part => inferInstanceAs (Decidable (part = [] ∨ part = "."))

/-- `isAbsolute`. -/
def isAbsolute (path : JsString) : Bool := path.head? = some 0x2F

def segments (path : JsString) : List JsString :=
  (path.splitOn 0x2F).filter fun part => ¬ IsIdle part

/-- One more part, on the stack of the parts before it with the last one first. Above the start of a
relative path, `..` stays. -/
def push (relative : Bool) (stack : List JsString) (part : JsString) : List JsString :=
  if IsIdle part then stack
  else if part = ".." then
    match stack with
    | [] => if relative then [".."] else []
    | top :: rest => if top = ".." then ".." :: top :: rest else rest
  else part :: stack

/-- The parts that are left when each `..` is resolved against what is before it. -/
def reduce (relative : Bool) (parts : List JsString) : List JsString :=
  (parts.foldl (push relative) []).reverse

/-- The text of a normalized path. -/
def render (absolute : Bool) (parts : List JsString) (trailing : Bool) : JsString :=
  if parts = [] then
    if absolute then "/" else if trailing then "./" else "."
  else
    (if absolute then [0x2F] else []) ++ [0x2F].intercalate parts ++ if trailing then [0x2F] else []

/-- `normalize`. -/
def normalize (path : JsString) : JsString :=
  if path = [] then "."
  else render (isAbsolute path) (reduce (!isAbsolute path) (path.splitOn 0x2F))
    (path.getLast? = some 0x2F)

/-- `join` of two paths. -/
def join (a b : JsString) : JsString :=
  let args := [a, b].filter fun arg => arg ≠ []
  if args = [] then "." else normalize ([0x2F].intercalate args)

/-- `dirname`. -/
def dirname (path : JsString) : JsString :=
  let above := (path.rdropWhile (· == 0x2F)).rdropWhile (· != 0x2F)
  if above.length ≤ 1 then if isAbsolute path then "/" else "."
  else if isAbsolute path ∧ above.length = 2 then "//"
  else above.dropLast

/-- Where a part leads from a position, which is given by the segments of its absolute path. -/
def move (position : List JsString) (part : JsString) : List JsString :=
  if IsIdle part then position
  else if part = ".." then position.dropLast
  else position ++ [part]

/-- `resolve`, by the segments of its result. -/
def resolve (cwd : List JsString) (path : JsString) : List JsString :=
  (path.splitOn 0x2F).foldl move (if isAbsolute path then [] else cwd)

/-- The path says that what it leads to is a directory. -/
def endsIdle (path : JsString) : Bool := (path.splitOn 0x2F).getLast?.any fun part => IsIdle part

/-- The way from one position to another. -/
def detour : List JsString → List JsString → List JsString
  | a :: as, b :: bs =>
    if a = b then detour as bs else List.replicate (as.length + 1) (".." : JsString) ++ b :: bs
  | as, bs => List.replicate as.length (".." : JsString) ++ bs

/-- `relative`. -/
def relative (cwd : List JsString) (origin target : JsString) : JsString :=
  [0x2F].intercalate (detour (resolve cwd origin) (resolve cwd target))

/-! ### Segments -/

variable {path path' part : JsString} {parts : List JsString} {rel absolute trailing : Bool}

/-- What can be a segment. -/
def IsSegment (part : JsString) : Prop := 0x2F ∉ part ∧ ¬ IsIdle part

lemma mem_segments : part ∈ segments path ↔ part ∈ path.splitOn 0x2F ∧ ¬ IsIdle part := by
  simp [segments]

lemma isSegment_of_mem (h : part ∈ segments path) : IsSegment part :=
  ⟨JsString.not_mem_of_mem_splitOn (mem_segments.mp h).1, (mem_segments.mp h).2⟩

@[simp] lemma segments_nil : segments [] = [] := rfl

lemma segments_append : segments (path ++ 0x2F :: path') = segments path ++ segments path' := by
  rw [segments, List.splitOn_append_cons_self, List.filter_append, segments, segments]

lemma segments_of_isSegment (h : IsSegment part) : segments part = [part] := by
  rw [segments, List.splitOn_eq_singleton h.1, List.filter_cons_of_pos (by simpa using h.2),
    List.filter_nil]

lemma segments_intercalate (h : ∀ part ∈ parts, IsSegment part) :
    segments ([0x2F].intercalate parts) = parts := by
  induction parts with
  | nil => rfl
  | cons part parts ih =>
    obtain ⟨hpart, hparts⟩ := List.forall_mem_cons.mp h
    cases parts with
    | nil => rw [List.intercalate_singleton, segments_of_isSegment hpart]
    | cons next parts =>
      rw [List.intercalate_cons_cons, List.append_assoc, List.singleton_append, segments_append,
        segments_of_isSegment hpart, ih hparts, List.singleton_append]

lemma segments_render (h : ∀ part ∈ parts, IsSegment part) :
    segments (render absolute parts trailing) = parts := by
  have hafter (path : JsString) : segments (path ++ [0x2F]) = segments path := by
    rw [segments_append, segments_nil, List.append_nil]
  have hbefore (path : JsString) : segments (0x2F :: path) = segments path := by
    rw [← List.nil_append (0x2F :: path), segments_append, segments_nil, List.nil_append]
  by_cases hempty : parts = []
  · subst hempty
    cases absolute <;> cases trailing <;> rfl
  · rw [render, if_neg hempty]
    have hparts := segments_intercalate h
    cases absolute <;> cases trailing
    · simpa using hparts
    · simpa using (hafter _).trans hparts
    · simpa using (hbefore _).trans hparts
    · simpa using (hbefore _).trans ((hafter _).trans hparts)

/-! ### Normalization -/

variable {stack : List JsString}

lemma push_of_isIdle (h : IsIdle part) : push rel stack part = stack := by
  simp only [push]
  exact if_pos h

/-- Any other part goes on the stack. -/
lemma push_of_not_isIdle (hidle : ¬ IsIdle part) (hup : part ≠ "..") :
    push rel stack part = part :: stack := by
  simp only [push]
  rw [if_neg hidle, if_neg hup]

@[simp] lemma push_up_nil : push rel [] ".." = if rel then [(".." : JsString)] else [] := rfl

@[simp] lemma push_up_cons {top : JsString} : push rel (top :: stack) ".." =
    if top = ".." then (".." : JsString) :: top :: stack else stack := rfl

/-- Parts that lead nowhere do not matter. -/
lemma foldl_push_filter :
    (parts.filter fun part => ¬ IsIdle part).foldl (push rel) stack =
      parts.foldl (push rel) stack := by
  induction parts generalizing stack with
  | nil => rfl
  | cons part parts ih =>
    by_cases hidle : IsIdle part
    · rw [List.filter_cons_of_neg (by simpa using hidle), ih, List.foldl_cons,
        push_of_isIdle hidle]
    · rw [List.filter_cons_of_pos (by simpa using hidle), List.foldl_cons, ih, List.foldl_cons]

lemma reduce_splitOn : reduce rel (path.splitOn 0x2F) = reduce rel (segments path) := by
  rw [reduce, reduce, segments, foldl_push_filter]

/-- What is on the stack was pushed. -/
lemma mem_of_mem_push {x : JsString} (h : x ∈ push rel stack part) :
    x ∈ stack ∨ x = part ∧ ¬ IsIdle part := by
  by_cases hidle : IsIdle part
  · rw [push_of_isIdle hidle] at h
    exact .inl h
  by_cases hup : part = ".."
  · subst hup
    cases stack with
    | nil =>
      rw [push_up_nil] at h
      split_ifs at h with hrel
      · exact .inr ⟨List.mem_singleton.mp h, hidle⟩
      · cases h
    | cons top stack =>
      rw [push_up_cons] at h
      split_ifs at h with htop
      · rcases List.mem_cons.mp h with rfl | h
        · exact .inr ⟨rfl, hidle⟩
        · exact .inl h
      · exact .inl (List.mem_cons_of_mem _ h)
  · rw [push_of_not_isIdle hidle hup] at h
    rcases List.mem_cons.mp h with rfl | h
    · exact .inr ⟨rfl, hidle⟩
    · exact .inl h

lemma mem_of_mem_reduce {x : JsString} (h : x ∈ reduce rel parts) : x ∈ parts ∧ ¬ IsIdle x := by
  rw [reduce, List.mem_reverse] at h
  suffices hstack : ∀ stack, x ∈ parts.foldl (push rel) stack →
      x ∈ stack ∨ x ∈ parts ∧ ¬ IsIdle x by
    exact (hstack [] h).resolve_left List.not_mem_nil
  clear h
  induction parts with
  | nil => exact fun _ h => .inl h
  | cons part parts ih =>
    intro stack h
    rcases ih _ h with h | ⟨h, hidle⟩
    · rcases mem_of_mem_push h with h | ⟨rfl, hidle⟩
      · exact .inl h
      · exact .inr ⟨List.mem_cons_self, hidle⟩
    · exact .inr ⟨List.mem_cons_of_mem _ h, hidle⟩

/-- Whatever leads up comes first. -/
def UpsFirst (parts : List JsString) : Prop :=
  parts.Pairwise fun a b : JsString => b = ".." → a = ".."

lemma upsFirst_push (h : UpsFirst stack.reverse) : UpsFirst (push rel stack part).reverse := by
  rw [UpsFirst, List.pairwise_reverse] at h ⊢
  by_cases hidle : IsIdle part
  · rwa [push_of_isIdle hidle]
  by_cases hup : part = ".."
  · subst hup
    cases stack with
    | nil =>
      rw [push_up_nil]
      cases rel <;> simp
    | cons top stack =>
      rw [push_up_cons]
      split_ifs with htop
      · subst htop
        refine List.Pairwise.cons (fun below hbelow _ => ?_) h
        rcases List.mem_cons.mp hbelow with rfl | hbelow
        · rfl
        · exact List.rel_of_pairwise_cons h hbelow rfl
      · exact h.of_cons
  · rw [push_of_not_isIdle hidle hup]
    exact List.Pairwise.cons (fun below _ hpart => absurd hpart hup) h

lemma upsFirst_reduce : UpsFirst (reduce rel parts) := by
  induction parts using List.reverseRecOn with
  | nil => exact List.Pairwise.nil
  | append_singleton parts part ih =>
    rw [reduce, List.foldl_append, List.foldl_cons, List.foldl_nil]
    exact upsFirst_push ih

lemma UpsFirst.append {more : List JsString} (h : UpsFirst parts)
    (hmore : ∀ part ∈ more, part ≠ "..") : UpsFirst (parts ++ more) := by
  refine List.pairwise_append.mpr ⟨h, ?_, ?_⟩
  · exact List.Pairwise.imp_of_mem (fun _ hb _ hup => absurd hup (hmore _ hb))
      (List.pairwise_of_forall fun _ _ => trivial)
  · exact fun _ _ b hb hup => absurd hup (hmore b hb)

lemma isSegment_of_mem_reduce {x : JsString} (h : x ∈ reduce rel (segments path)) :
    IsSegment x := isSegment_of_mem (mem_of_mem_reduce h).1

/-- Normalizing once is enough. -/
lemma reduce_of_upsFirst (hidle : ∀ part ∈ parts, ¬ IsIdle part) (hups : UpsFirst parts)
    (hrel : rel = true ∨ ∀ part ∈ parts, part ≠ "..") : reduce rel parts = parts := by
  induction parts using List.reverseRecOn with
  | nil => rfl
  | append_singleton parts part ih =>
    obtain ⟨hbefore, -, hlast⟩ := List.pairwise_append.mp hups
    have hparts := ih (fun part h => hidle part (List.mem_append_left _ h)) hbefore
      (hrel.imp_right fun h part hpart => h part (List.mem_append_left _ hpart))
    have hmem := List.mem_append_right parts (List.mem_singleton_self part)
    have hstack : parts.foldl (push rel) [] = parts.reverse := by
      rw [← List.reverse_reverse (parts.foldl (push rel) [])]
      exact congrArg List.reverse hparts
    rw [reduce, List.foldl_append, List.foldl_cons, List.foldl_nil, hstack]
    by_cases hup : part = ".."
    · subst hup
      have hrel := hrel.resolve_right fun h => h _ hmem rfl
      cases hreverse : parts.reverse with
      | nil =>
        rw [List.reverse_eq_nil_iff.mp hreverse, push_up_nil, if_pos hrel]
        rfl
      | cons top stack =>
        have htop : top ∈ parts := by
          rw [← List.mem_reverse, hreverse]
          exact List.mem_cons_self
        rw [push_up_cons, if_pos (hlast top htop _ (List.mem_singleton_self _) rfl),
          List.reverse_cons, ← hreverse, List.reverse_reverse]
    · rw [push_of_not_isIdle (hidle part hmem) hup, List.reverse_cons, List.reverse_reverse]

/-- Nothing leads above the root. -/
lemma ne_up_of_mem_push (hstack : ∀ x ∈ stack, x ≠ "..") {x : JsString}
    (h : x ∈ push false stack part) : x ≠ ".." := by
  by_cases hidle : IsIdle part
  · rw [push_of_isIdle hidle] at h
    exact hstack x h
  by_cases hup : part = ".."
  · subst hup
    cases stack with
    | nil => cases h
    | cons top stack =>
      rw [push_up_cons, if_neg (hstack top List.mem_cons_self)] at h
      exact hstack x (List.mem_cons_of_mem _ h)
  · rw [push_of_not_isIdle hidle hup] at h
    rcases List.mem_cons.mp h with rfl | h
    · exact hup
    · exact hstack x h

lemma ne_up_of_mem_reduce {x : JsString} (h : x ∈ reduce false parts) : x ≠ ".." := by
  induction parts using List.reverseRecOn generalizing x with
  | nil => cases h
  | append_singleton parts part ih =>
    rw [reduce, List.foldl_append, List.foldl_cons, List.foldl_nil, List.mem_reverse] at h
    refine ne_up_of_mem_push (fun x hx => ?_) h
    exact ih (List.mem_reverse.mpr hx)

lemma reduce_reduce : reduce rel (reduce rel parts) = reduce rel parts := by
  apply reduce_of_upsFirst (fun part hpart => (mem_of_mem_reduce hpart).2) upsFirst_reduce
  cases rel
  · exact .inr fun part => ne_up_of_mem_reduce
  · exact .inl rfl

lemma normalize_eq (h : path ≠ []) : normalize path = render (isAbsolute path)
    (reduce (!isAbsolute path) (segments path)) (path.getLast? = some 0x2F) := by
  rw [normalize, if_neg h, reduce_splitOn]

lemma segments_normalize :
    segments (normalize path) = reduce (!isAbsolute path) (segments path) := by
  rw [normalize]
  split_ifs with hempty
  · subst hempty
    rfl
  · rw [reduce_splitOn, segments_render fun part => isSegment_of_mem_reduce]

/-- Segments that do not lead up stay as they are. -/
lemma reduce_append {more : List JsString} (h : ∀ part ∈ more, IsSegment part ∧ part ≠ "..") :
    reduce rel (parts ++ more) = reduce rel parts ++ more := by
  induction more using List.reverseRecOn with
  | nil => rw [List.append_nil, List.append_nil]
  | append_singleton more part ih =>
    have hmore := ih fun part hpart => h part (List.mem_append_left _ hpart)
    obtain ⟨hpart, hup⟩ := h part (List.mem_append_right _ (List.mem_singleton_self part))
    rw [reduce] at hmore
    rw [← List.append_assoc, reduce, List.foldl_append, List.foldl_cons, List.foldl_nil,
      push_of_not_isIdle hpart.2 hup, List.reverse_cons, hmore, List.append_assoc]

/-! ### Joining -/

/-- A path that does not lead up, nor starts at the root. -/
def Descends (path : JsString) : Prop := isAbsolute path = false ∧ (".." : JsString) ∉ segments path

lemma Descends.isSegment (h : Descends path) :
    ∀ part ∈ segments path, IsSegment part ∧ part ≠ ".." := by
  intro part hpart
  refine ⟨isSegment_of_mem hpart, ?_⟩
  rintro rfl
  exact h.2 hpart

lemma isAbsolute_append (h : path ≠ []) : isAbsolute (path ++ path') = isAbsolute path := by
  cases path with
  | nil => exact absurd rfl h
  | cons c path => rfl

lemma isAbsolute_of_isSegment (h : IsSegment part) : isAbsolute (part ++ path) = false := by
  have hne : part ≠ [] := fun hnil => h.2 (.inl hnil)
  rw [isAbsolute_append hne]
  cases part with
  | nil => exact absurd rfl hne
  | cons c part =>
    simp only [isAbsolute, List.head?_cons, Option.some.injEq, decide_eq_false_iff_not]
    rintro rfl
    exact h.1 List.mem_cons_self

lemma isAbsolute_render (h : ∀ part ∈ parts, IsSegment part) :
    isAbsolute (render absolute parts trailing) = absolute := by
  cases parts with
  | nil => cases absolute <;> cases trailing <;> rfl
  | cons part parts =>
    rw [render, if_neg (List.cons_ne_nil part parts)]
    cases absolute with
    | true => rfl
    | false =>
      have hpart := (List.forall_mem_cons.mp h).1
      have hsplit : ∃ path, [0x2F].intercalate (part :: parts) = part ++ path := by
        cases parts with
        | nil => exact ⟨[], by simp⟩
        | cons next parts => exact ⟨_, (List.intercalate_cons_cons ..).trans (List.append_assoc ..)⟩
      obtain ⟨path, hpath⟩ := hsplit
      rw [hpath]
      simpa using isAbsolute_of_isSegment hpart

lemma isAbsolute_normalize : isAbsolute (normalize path) = isAbsolute path := by
  rw [normalize]
  split_ifs with hempty
  · subst hempty
    rfl
  · rw [reduce_splitOn, isAbsolute_render fun part => isSegment_of_mem_reduce]

lemma join_nil : join path [] = normalize path := by
  by_cases h : path = []
  · subst h
    rfl
  · simp [join, h]

lemma join_of_ne_nil (h : path ≠ []) (h' : path' ≠ []) :
    join path path' = normalize (path ++ 0x2F :: path') := by
  simp [join, h, h']

lemma nil_join (h : path ≠ []) : join [] path = normalize path := by
  simp [join, h]

/-- What is joined to a path goes on from it. -/
lemma segments_join (h : Descends path') :
    segments (join path path') = segments (normalize path) ++ segments path' := by
  by_cases hempty' : path' = []
  · rw [hempty', join_nil, segments_nil, List.append_nil]
  by_cases hempty : path = []
  · rw [hempty, nil_join hempty', segments_normalize, h.1]
    exact @reduce_append [] true (segments path') h.isSegment
  · rw [join_of_ne_nil hempty hempty', segments_normalize, segments_append,
      isAbsolute_append hempty, reduce_append h.isSegment, segments_normalize]

lemma isAbsolute_join (h : isAbsolute path' = false) :
    isAbsolute (join path path') = isAbsolute path := by
  by_cases hempty' : path' = []
  · rw [hempty', join_nil, isAbsolute_normalize]
  by_cases hempty : path = []
  · rw [hempty, nil_join hempty', isAbsolute_normalize, h]
    rfl
  · rw [join_of_ne_nil hempty hempty', isAbsolute_normalize, isAbsolute_append hempty]

/-- The text of what is joined to a path. -/
lemma join_eq (h : Descends path') (hne : path' ≠ []) : join path path' = render (isAbsolute path)
    (reduce (!isAbsolute path) (segments path) ++ segments path')
    (path'.getLast? = some 0x2F) := by
  by_cases hempty : path = []
  · subst hempty
    rw [nil_join hne, normalize_eq hne, h.1]
    exact congrArg (render false · _) (@reduce_append [] true (segments path') h.isSegment)
  · rw [join_of_ne_nil hempty hne, normalize_eq (by simp), segments_append,
      isAbsolute_append hempty, reduce_append h.isSegment, List.getLast?_append_cons,
      List.getLast?_cons_of_ne_nil hne]

/-! ### Positions -/

variable {cwd start : List JsString}

lemma move_of_isIdle (h : IsIdle part) : move start part = start := if_pos h

@[simp] lemma move_up : move start ".." = start.dropLast := rfl

lemma move_of_isSegment (h : IsSegment part) (hup : part ≠ "..") :
    move start part = start ++ [part] := by
  rw [move, if_neg h.2, if_neg hup]

lemma foldl_move_filter :
    (parts.filter fun part => ¬ IsIdle part).foldl move start = parts.foldl move start := by
  induction parts generalizing start with
  | nil => rfl
  | cons part parts ih =>
    by_cases hidle : IsIdle part
    · rw [List.filter_cons_of_neg (by simpa using hidle), ih, List.foldl_cons, move_of_isIdle hidle]
    · rw [List.filter_cons_of_pos (by simpa using hidle), List.foldl_cons, ih, List.foldl_cons]

lemma resolve_eq :
    resolve cwd path = (segments path).foldl move (if isAbsolute path then [] else cwd) := by
  rw [resolve, segments, foldl_move_filter]

/-- A part on the stack leads where it would lead at once. -/
lemma foldl_move_push (hstack : ∀ part ∈ stack, ¬ IsIdle part) (hstart : rel = true ∨ start = []) :
    (push rel stack part).reverse.foldl move start =
      move (stack.reverse.foldl move start) part := by
  by_cases hidle : IsIdle part
  · rw [push_of_isIdle hidle, move_of_isIdle hidle]
  by_cases hup : part = ".."
  · subst hup
    cases stack with
    | nil =>
      rcases hstart with rfl | rfl
      · rfl
      · cases rel <;> rfl
    | cons top stack =>
      rw [push_up_cons, move_up]
      split_ifs with htop
      · simp
      · have hmove (position : List JsString) : move position top = position ++ [top] := by
          rw [move, if_neg (hstack top List.mem_cons_self), if_neg htop]
        simp [hmove]
  · rw [push_of_not_isIdle hidle hup, List.reverse_cons, List.foldl_append]
    rfl

lemma foldl_move_reduce (hstart : rel = true ∨ start = []) :
    (reduce rel parts).foldl move start = parts.foldl move start := by
  induction parts using List.reverseRecOn with
  | nil => rfl
  | append_singleton parts part ih =>
    have hstack : ∀ x ∈ parts.foldl (push rel) [], ¬ IsIdle x := by
      intro x hx
      exact (mem_of_mem_reduce (List.mem_reverse.mpr hx)).2
    rw [reduce, List.foldl_append, List.foldl_cons, List.foldl_nil, foldl_move_push hstack hstart,
      List.foldl_append, ← ih]
    rfl

/-- Moves along segments that do not lead up. -/
lemma foldl_move_of_isSegment (h : ∀ part ∈ parts, IsSegment part ∧ part ≠ "..") :
    parts.foldl move start = start ++ parts := by
  induction parts generalizing start with
  | nil => rw [List.foldl_nil, List.append_nil]
  | cons part parts ih =>
    obtain ⟨⟨hpart, hup⟩, hparts⟩ := List.forall_mem_cons.mp h
    rw [List.foldl_cons, move_of_isSegment hpart hup, ih hparts, List.append_assoc,
      List.singleton_append]

lemma resolve_normalize : resolve cwd (normalize path) = resolve cwd path := by
  rw [resolve_eq, resolve_eq, segments_normalize, isAbsolute_normalize]
  apply foldl_move_reduce
  cases isAbsolute path
  · exact .inl rfl
  · exact .inr rfl

lemma resolve_join (h : Descends path') :
    resolve cwd (join path path') = resolve cwd path ++ segments path' := by
  rw [resolve_eq, segments_join h, List.foldl_append, isAbsolute_join h.1,
    ← isAbsolute_normalize, ← resolve_eq, resolve_normalize, foldl_move_of_isSegment h.isSegment]

lemma detour_append {origin : List JsString} : detour origin (origin ++ parts) = parts := by
  induction origin with
  | nil =>
    simp only [detour]
    simp
  | cons part origin ih =>
    rw [List.cons_append, detour, if_pos rfl, ih]

lemma relative_eq {origin target : JsString}
    (h : resolve cwd target = resolve cwd origin ++ parts) :
    relative cwd origin target = [0x2F].intercalate parts := by
  rw [relative, h, detour_append]

/-! ### The end of a path -/

lemma IsSegment.ne_nil (h : IsSegment part) : part ≠ [] := fun hnil => h.2 (.inl hnil)

lemma intercalate_ne_nil (h : ∀ part ∈ parts, IsSegment part) (hne : parts ≠ []) :
    [0x2F].intercalate parts ≠ [] := by
  cases parts with
  | nil => exact absurd rfl hne
  | cons part parts =>
    have hpart := (List.forall_mem_cons.mp h).1.ne_nil
    cases parts with
    | nil => simpa using hpart
    | cons next parts => simp [List.intercalate_cons_cons, hpart]

/-- What stands before the last part of a normalized path. -/
def above (absolute : Bool) (parts : List JsString) : JsString :=
  (if absolute then [0x2F] else []) ++ if parts = [] then [] else [0x2F].intercalate parts ++ [0x2F]

lemma above_eq : above absolute parts = [] ∨ ∃ path, above absolute parts = path ++ [0x2F] := by
  rw [above]
  split_ifs
  · exact .inr ⟨[], rfl⟩
  · exact .inr ⟨_, (List.append_assoc ..).symm⟩
  · exact .inl rfl
  · exact .inr ⟨_, rfl⟩

lemma intercalate_concat : [0x2F].intercalate (parts ++ [part]) =
    (if parts = [] then [] else [0x2F].intercalate parts ++ [0x2F]) ++ part := by
  induction parts with
  | nil => simp
  | cons first parts ih =>
    cases parts with
    | nil => simp [List.intercalate_cons_cons]
    | cons next parts =>
      rw [if_neg (List.cons_ne_nil _ _)] at ih ⊢
      rw [List.cons_append, List.cons_append, List.intercalate_cons_cons,
        List.intercalate_cons_cons,
        ← List.cons_append, ih]
      simp

lemma render_concat : render absolute (parts ++ [part]) trailing =
    above absolute parts ++ part ++ if trailing then [0x2F] else [] := by
  rw [render, if_neg (by simp), intercalate_concat, above]
  simp

lemma render_ne_nil (h : ∀ part ∈ parts, IsSegment part) : render absolute parts trailing ≠ [] := by
  rw [render]
  split_ifs with hempty
  · decide
  · decide
  · decide
  all_goals simp [intercalate_ne_nil h hempty]

/-- A path goes on after a slash from the path without its last segment. -/
lemma render_concat_of_ne_nil (h : parts ≠ []) : render absolute (parts ++ [part]) trailing =
    render absolute parts false ++ 0x2F :: (part ++ if trailing then [0x2F] else []) := by
  rw [render_concat, above, render, if_neg h, if_neg h]
  simp

lemma endsIdle_concat : endsIdle (path ++ [0x2F]) = true := by
  rw [endsIdle, List.splitOn_append_cons_self, List.splitOn_nil, List.getLast?_concat]
  rfl

lemma endsIdle_append (h : path = [] ∨ ∃ path', path = path' ++ [0x2F]) (hpart : IsSegment part) :
    endsIdle (path ++ part) = false := by
  have hlast : ((path ++ part).splitOn 0x2F).getLast? = some part := by
    rcases h with rfl | ⟨path', rfl⟩
    · rw [List.nil_append, List.splitOn_eq_singleton hpart.1]
      rfl
    · rw [List.append_assoc, List.singleton_append, List.splitOn_append_cons_self,
        List.splitOn_eq_singleton hpart.1, List.getLast?_concat]
  rw [endsIdle, hlast]
  simpa using hpart.2

/-- A normalized path ends with its last segment, unless it has a slash after it. -/
lemma endsIdle_render (h : ∀ part ∈ parts, IsSegment part) :
    endsIdle (render absolute parts trailing) = true ↔ trailing = true ∨ parts = [] := by
  rcases List.eq_nil_or_concat parts with rfl | ⟨parts, part, rfl⟩
  · cases absolute <;> cases trailing <;> simp <;> rfl
  · rw [List.concat_eq_append] at h ⊢
    have hpart := h part (List.mem_append_right _ (List.mem_singleton_self part))
    rw [render_concat]
    cases trailing with
    | true =>
      rw [if_pos rfl, endsIdle_concat]
      simp
    | false => simpa using endsIdle_append above_eq hpart

lemma rdropWhile_append {p : UInt16 → Bool} (h : ∀ c ∈ path', p c = true) :
    (path ++ path').rdropWhile p = path.rdropWhile p := by
  induction path' using List.reverseRecOn with
  | nil => rw [List.append_nil]
  | append_singleton path' c ih =>
    rw [← List.append_assoc, List.rdropWhile_concat_pos _ _ _
      (h c (List.mem_append_right _ (List.mem_singleton_self c))),
      ih fun c hc => h c (List.mem_append_left _ hc)]

lemma isSegment_not_slash (h : IsSegment part) : ∀ c ∈ part, (c != 0x2F) = true := by
  intro c hc
  rw [bne_iff_ne]
  rintro rfl
  exact h.1 hc

lemma rdropWhile_part (hpart : IsSegment part) :
    (path ++ part).rdropWhile (· == 0x2F) = path ++ part := by
  rw [List.rdropWhile_eq_self_iff]
  intro hne
  rw [List.getLast_append_of_ne_nil hne hpart.ne_nil]
  simpa using isSegment_not_slash hpart _ (List.getLast_mem hpart.ne_nil)

/-- What `dirname` leaves of a normalized path before it strips the last slash. -/
lemma rdropWhile_render_concat (hpart : IsSegment part) :
    ((render absolute (parts ++ [part]) trailing).rdropWhile (· == 0x2F)).rdropWhile (· != 0x2F) =
      above absolute parts := by
  have htrailing : (render absolute (parts ++ [part]) trailing).rdropWhile (· == 0x2F) =
      above absolute parts ++ part := by
    rw [render_concat, rdropWhile_append, rdropWhile_part hpart]
    cases trailing <;> simp
  rw [htrailing, rdropWhile_append (isSegment_not_slash hpart), List.rdropWhile_eq_self_iff]
  intro hne
  rcases @above_eq parts absolute with habove | ⟨path, habove⟩
  · exact absurd habove hne
  · simp only [habove, List.getLast_append_singleton]
    simp

/-- The directory of a normalized path is the path without its last segment. -/
lemma dirname_render (h : ∀ part ∈ parts, IsSegment part) :
    dirname (render absolute parts trailing) = render absolute parts.dropLast false := by
  rcases List.eq_nil_or_concat parts with rfl | ⟨parts, part, rfl⟩
  · cases absolute <;> cases trailing <;> rfl
  · rw [List.concat_eq_append] at h ⊢
    have hpart := h part (List.mem_append_right _ (List.mem_singleton_self part))
    rw [List.dropLast_concat, dirname, isAbsolute_render h, rdropWhile_render_concat hpart]
    by_cases hempty : parts = []
    · subst hempty
      cases absolute <;> rfl
    · have hne := intercalate_ne_nil (fun part hmem => h part (List.mem_append_left _ hmem)) hempty
      have hpos := List.length_pos_of_ne_nil hne
      rw [above, render, if_neg hempty, if_neg hempty]
      cases absolute with
      | true =>
        have hlength : ([0x2F] ++ ([0x2F].intercalate parts ++ [0x2F])).length =
            ([0x2F].intercalate parts).length + 2 := by simp
        rw [if_pos rfl, hlength, if_neg (by omega), if_neg (by omega), ← List.append_assoc,
          List.dropLast_concat]
        simp
      | false =>
        rw [if_neg Bool.false_ne_true, List.nil_append, if_neg (by simpa using hne),
          if_neg (by simp), List.dropLast_concat]
        simp

lemma segments_dirname (h : ∀ part ∈ parts, IsSegment part) :
    segments (dirname (render absolute parts trailing)) = parts.dropLast := by
  rw [dirname_render h, segments_render fun part hpart => h part (List.dropLast_subset _ hpart)]

lemma isAbsolute_dirname (h : ∀ part ∈ parts, IsSegment part) :
    isAbsolute (dirname (render absolute parts trailing)) = absolute := by
  rw [dirname_render h, isAbsolute_render fun part hpart => h part (List.dropLast_subset _ hpart)]

/-- A path and its directory are one above the other. -/
lemma resolve_dirname (h : ∀ part ∈ parts, IsSegment part) :
    resolve cwd (dirname (render absolute parts trailing)) <+:
        resolve cwd (render absolute parts trailing) ∨
      resolve cwd (render absolute parts trailing) <+:
        resolve cwd (dirname (render absolute parts trailing)) := by
  rw [resolve_eq, resolve_eq, segments_dirname h, isAbsolute_dirname h, segments_render h,
    isAbsolute_render h]
  rcases List.eq_nil_or_concat parts with rfl | ⟨parts, part, rfl⟩
  · exact .inl (List.prefix_refl _)
  · rw [List.concat_eq_append] at h ⊢
    rw [List.dropLast_concat, List.foldl_append, List.foldl_cons, List.foldl_nil]
    have hpart := h part (List.mem_append_right _ (List.mem_singleton_self part))
    by_cases hup : part = ".."
    · subst hup
      rw [move_up]
      exact .inr (List.dropLast_prefix _)
    · rw [move_of_isSegment hpart hup]
      exact .inl (List.prefix_append _ _)

end Js.Path
