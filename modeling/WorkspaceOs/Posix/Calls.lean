import WorkspaceOs.Js.Path
import WorkspaceOs.Js.Utf8
import WorkspaceOs.Posix.Disk

/-!
# Calls on a disk

The calls of `node:fs/promises` on a POSIX system, for a disk without links whose names and files
are bytes. A path is followed from the root of the disk or from the working directory, segment by
segment; a call that fails may have done a part of its work.
-/

namespace Posix

open Js

/-- How a call fails. -/
inductive Errno where
  /-- `ERR_INVALID_ARG_VALUE` -/
  | invalidArgValue
  /-- `ERR_FS_EISDIR` -/
  | fsIsDirectory
  /-- `ENOENT` -/
  | noEntry
  /-- `ENOTDIR` -/
  | notDirectory
  /-- `EISDIR` -/
  | isDirectory
  /-- `EEXIST` -/
  | exists
  /-- `ENAMETOOLONG` -/
  | nameTooLong
deriving DecidableEq

abbrev FileSystem := Disk Bytes Bytes

/-- Where a process runs: its working directory, and how long names and paths may be. -/
structure Host where
  cwd : List JsString
  nameMax : ℕ
  pathMax : ℕ

namespace Host

variable (host : Host) (disk : FileSystem)

/-- A path that no call can be made with. -/
def refusal? (path : JsString) : Option Errno :=
  if path.contains 0 then some .invalidArgValue
  else if path = [] then some .noEntry
  else if host.pathMax < (utf8 path).length then some .nameTooLong
  else none

/-- The position that a segment leads to. -/
def enter (position : List Bytes) (segment : JsString) : Except Errno (List Bytes) :=
  match disk.status position with
  | none => .error .noEntry
  | some (.file _) => .error .notDirectory
  | some .directory =>
    if segment = ".." then .ok position.dropLast
    else if host.nameMax < (utf8 segment).length then .error .nameTooLong
    else .ok (position ++ [utf8 segment])

def follow : List Bytes → List JsString → Except Errno (List Bytes)
  | position, [] => .ok position
  | position, segment :: segments =>
    match host.enter disk position segment with
    | .error errno => .error errno
    | .ok next => follow next segments

def start (path : JsString) : List Bytes :=
  if Path.isAbsolute path then [] else host.cwd.map utf8

/-- The position that a path leads to, whether something stands there or not. -/
def locate (path : JsString) : Except Errno (List Bytes) :=
  match host.refusal? path with
  | some errno => .error errno
  | none => host.follow disk (host.start path) (Path.segments path)

/-- `stat`. -/
def stat (path : JsString) : Except Errno (Node Bytes) :=
  match host.locate disk path with
  | .error errno => .error errno
  | .ok position =>
    match disk.status position with
    | none => .error .noEntry
    | some (.file data) => if Path.endsIdle path then .error .notDirectory else .ok (.file data)
    | some .directory => .ok .directory

/-- `readFile`. -/
def readFile (path : JsString) : Except Errno Bytes :=
  match host.stat disk path with
  | .error errno => .error errno
  | .ok (.file data) => .ok data
  | .ok .directory => .error .isDirectory

/-- `readdir` with `withFileTypes`. -/
def readdir (path : JsString) : Except Errno (List (Dirent Bytes)) :=
  match host.locate disk path with
  | .error errno => .error errno
  | .ok position =>
    match disk.status position with
    | none => .error .noEntry
    | some (.file _) => .error .notDirectory
    | some .directory => .ok (disk.children position)

/-- `writeFile`. -/
def writeFile (path : JsString) (data : Bytes) : FileSystem × Except Errno Unit :=
  match host.locate disk path with
  | .error errno => (disk, .error errno)
  | .ok position =>
    if Path.endsIdle path then (disk, .error .isDirectory)
    else if disk.status position = some .directory then (disk, .error .isDirectory)
    else (disk.put position (.file data), .ok ())

/-- `rm` with `force`. -/
def rm (path : JsString) : FileSystem × Except Errno Unit :=
  match host.locate disk path with
  | .error .noEntry => (disk, .ok ())
  | .error errno => (disk, .error errno)
  | .ok position =>
    match disk.status position with
    | none => (disk, .ok ())
    | some (.file _) =>
      if Path.endsIdle path then (disk, .error .notDirectory) else (disk.unlink position, .ok ())
    | some .directory => (disk, .error .fsIsDirectory)

/-- The directories from a position on are made where they are missing. -/
def mkdirs (disk : FileSystem) (position : List Bytes) :
    List JsString → FileSystem × Except Errno Unit
  | [] =>
    match disk.status position with
    | none => (disk, .error .noEntry)
    | some (.file _) => (disk, .error .exists)
    | some .directory => (disk, .ok ())
  | segment :: segments =>
    match host.enter disk position segment with
    | .error errno => (disk, .error errno)
    | .ok next =>
      if disk.status next = none then mkdirs (disk.put next .directory) next segments
      else mkdirs disk next segments

/-- `mkdir` with `recursive`. -/
def mkdir (path : JsString) : FileSystem × Except Errno Unit :=
  match host.refusal? path with
  | some errno => (disk, .error errno)
  | none => host.mkdirs disk (host.start path) (Path.segments path)

/-! ### Following segments -/

variable {host} {disk} {position next : List Bytes} {segment path : JsString}
  {segments more : List JsString} {start : List JsString} {rel : Bool}

lemma refusal?_eq_none : host.refusal? path = none ↔
    0 ∉ path ∧ path ≠ [] ∧ (utf8 path).length ≤ host.pathMax := by
  rw [refusal?]
  split_ifs with hzero hempty hlong
  · simp [List.contains_iff_mem.mp hzero]
  · simp [hempty]
  · simp [not_le.mpr hlong]
  · simpa [hempty, not_lt.mp hlong] using hzero

lemma refusal?_ne_noEntry (h : path ≠ []) : host.refusal? path ≠ some .noEntry := by
  rw [refusal?]
  rw [if_neg h]
  split_ifs <;> simp

/-- A path is refused for its bytes. -/
lemma refusal?_eq_none_of_utf8 {path' : JsString} (h : host.refusal? path = none)
    (hutf8 : utf8 path' = utf8 path) : host.refusal? path' = none := by
  have hscalars := scalars_eq_of_utf8_eq hutf8
  obtain ⟨hzero, hne, hshort⟩ := refusal?_eq_none.mp h
  refine refusal?_eq_none.mpr ⟨?_, ?_, hutf8 ▸ hshort⟩
  · rwa [← mem_scalars_iff (by decide), hscalars, mem_scalars_iff (by decide)]
  · rintro rfl
    exact hne (eq_of_utf8_eq (by simp [IsAscii]) hutf8.symm)

/-- What comes before a slash is not refused when the path is not. -/
lemma refusal?_before_slash {after : JsString} (h : host.refusal? (path ++ 0x2F :: after) = none)
    (hne : path ≠ []) : host.refusal? path = none := by
  obtain ⟨hzero, -, hshort⟩ := refusal?_eq_none.mp h
  refine refusal?_eq_none.mpr ⟨fun hmem => hzero (List.mem_append_left _ hmem), hne, ?_⟩
  rw [utf8_append_cons (by decide), List.length_append] at hshort
  exact (Nat.le_add_right _ _).trans hshort

lemma enter_eq_ok (h : host.enter disk position segment = .ok next) :
    disk.status position = some .directory ∧ (segment = ".." ∧ next = position.dropLast ∨
      segment ≠ ".." ∧ (utf8 segment).length ≤ host.nameMax ∧
        next = position ++ [utf8 segment]) := by
  rw [enter] at h
  split at h
  · cases h
  · cases h
  · rename_i hstatus
    refine ⟨hstatus, ?_⟩
    split_ifs at h with hup hlong
    · cases h
      exact .inl ⟨hup, rfl⟩
    · cases h
      exact .inr ⟨hup, not_lt.mp hlong, rfl⟩

lemma enter_segment (h : disk.status position = some .directory) (hup : segment ≠ "..")
    (hshort : (utf8 segment).length ≤ host.nameMax) :
    host.enter disk position segment = .ok (position ++ [utf8 segment]) := by
  rw [enter, h]
  dsimp only
  rw [if_neg hup, if_neg (not_lt.mpr hshort)]

lemma follow_cons_eq_ok {p : List Bytes} :
    host.follow disk position (segment :: segments) = .ok p ↔
      ∃ next, host.enter disk position segment = .ok next ∧
        host.follow disk next segments = .ok p := by
  rw [follow]
  cases host.enter disk position segment with
  | error errno => simp
  | ok next => simp

lemma follow_append (h : host.follow disk position segments = .ok next) :
    host.follow disk position (segments ++ more) = host.follow disk next more := by
  induction segments generalizing position with
  | nil =>
    cases h
    rfl
  | cons segment segments ih =>
    obtain ⟨between, henter, hfollow⟩ := follow_cons_eq_ok.mp h
    rw [List.cons_append, follow, henter]
    exact ih hfollow

lemma follow_concat_eq_ok {p : List Bytes} :
    host.follow disk position (segments ++ [segment]) = .ok p ↔
      ∃ next, host.follow disk position segments = .ok next ∧
        host.enter disk next segment = .ok p := by
  induction segments generalizing position with
  | nil =>
    rw [List.nil_append, follow_cons_eq_ok]
    constructor
    · rintro ⟨next, henter, hfollow⟩
      cases hfollow
      exact ⟨position, rfl, henter⟩
    · rintro ⟨next, hfollow, henter⟩
      cases hfollow
      exact ⟨p, henter, rfl⟩
  | cons first segments ih =>
    rw [List.cons_append, follow_cons_eq_ok]
    constructor
    · rintro ⟨between, henter, hfollow⟩
      obtain ⟨next, hfollow, hlast⟩ := ih.mp hfollow
      exact ⟨next, follow_cons_eq_ok.mpr ⟨between, henter, hfollow⟩, hlast⟩
    · rintro ⟨next, hfollow, hlast⟩
      obtain ⟨between, henter, hfollow⟩ := follow_cons_eq_ok.mp hfollow
      exact ⟨between, henter, ih.mpr ⟨next, hfollow, hlast⟩⟩

/-- What leads to a directory starts from one. -/
lemma status_of_follow (h : host.follow disk position segments = .ok next)
    (hnext : disk.status next = some .directory) : disk.status position = some .directory := by
  cases segments with
  | nil =>
    cases h
    exact hnext
  | cons segment segments =>
    obtain ⟨between, henter, -⟩ := follow_cons_eq_ok.mp h
    exact (enter_eq_ok henter).1

/-- What leads somewhere still does when the directories stay. -/
lemma follow_mono {disk' : FileSystem} (hkept : ∀ p, disk.status p = some .directory →
    disk'.status p = some .directory) (h : host.follow disk position segments = .ok next) :
    host.follow disk' position segments = .ok next := by
  induction segments generalizing position with
  | nil => exact h
  | cons segment segments ih =>
    obtain ⟨between, henter, hfollow⟩ := follow_cons_eq_ok.mp h
    have hstatus := (enter_eq_ok henter).1
    refine follow_cons_eq_ok.mpr ⟨between, ?_, ih hfollow⟩
    rw [← henter, enter, enter, hstatus, hkept position hstatus]

/-- The disk is followed as positions are resolved. -/
lemma enter_move (hsegment : ¬ Path.IsIdle segment)
    (h : host.enter disk (start.map utf8) segment = .ok next) :
    next = (Path.move start segment).map utf8 := by
  rcases (enter_eq_ok h).2 with ⟨rfl, rfl⟩ | ⟨hup, -, rfl⟩
  · rw [Path.move_up, List.map_dropLast]
  · rw [Path.move, if_neg hsegment, if_neg hup, List.map_append, List.map_singleton]

lemma follow_resolve (hsegments : ∀ segment ∈ segments, ¬ Path.IsIdle segment)
    (h : host.follow disk (start.map utf8) segments = .ok next) :
    next = (segments.foldl Path.move start).map utf8 := by
  induction segments generalizing start with
  | nil =>
    cases h
    rfl
  | cons segment segments ih =>
    obtain ⟨hsegment, hsegments⟩ := List.forall_mem_cons.mp hsegments
    obtain ⟨between, henter, hfollow⟩ := follow_cons_eq_ok.mp h
    rw [enter_move hsegment henter] at hfollow
    exact ih hsegments hfollow

lemma start_eq : host.start path = (if Path.isAbsolute path then [] else host.cwd).map utf8 := by
  rw [Host.start]
  split_ifs
  · rfl
  · rfl

lemma locate_eq_ok (h : host.locate disk path = .ok next) : host.refusal? path = none ∧
    host.follow disk (host.start path) (Path.segments path) = .ok next := by
  rw [locate] at h
  split at h
  · cases h
  · rename_i hrefusal
    exact ⟨hrefusal, h⟩

lemma locate_resolve (h : host.locate disk path = .ok next) :
    next = (Path.resolve host.cwd path).map utf8 := by
  have hfollow := (locate_eq_ok h).2
  rw [start_eq] at hfollow
  rw [Path.resolve_eq]
  exact follow_resolve (fun segment hsegment => (Path.mem_segments.mp hsegment).2) hfollow

/-- Where a way up and down leads, the way without the detour leads too. -/
lemma follow_push {stack : List JsString} (hstart : rel = true ∨ position = [])
    (hsegment : ¬ Path.IsIdle segment)
    (h : host.follow disk position (stack.reverse ++ [segment]) = .ok next) :
    host.follow disk position (Path.push rel stack segment).reverse = .ok next := by
  by_cases hup : segment = ".."
  · subst hup
    obtain ⟨between, hfollow, henter⟩ := follow_concat_eq_ok.mp h
    have hnext := (enter_eq_ok henter).2.resolve_right fun hother => hother.1 rfl
    cases stack with
    | nil =>
      cases hfollow
      rcases hstart with rfl | rfl
      · exact h
      · obtain rfl := hnext.2
        cases rel
        · rfl
        · exact h
    | cons top stack =>
      rw [Path.push_up_cons]
      split_ifs with htop
      · simpa using h
      · rw [List.reverse_cons] at hfollow
        obtain ⟨below, hbelow, htop'⟩ := follow_concat_eq_ok.mp hfollow
        obtain ⟨-, -, rfl⟩ := (enter_eq_ok htop').2.resolve_left fun hother => htop hother.1
        rw [hnext.2, List.dropLast_concat]
        exact hbelow
  · rw [Path.push_of_not_isIdle hsegment hup, List.reverse_cons]
    exact h

lemma follow_reduce (hstart : rel = true ∨ position = [])
    (hsegments : ∀ segment ∈ segments, ¬ Path.IsIdle segment)
    (h : host.follow disk position segments = .ok next) :
    host.follow disk position (Path.reduce rel segments) = .ok next := by
  induction segments using List.reverseRecOn generalizing next with
  | nil => exact h
  | append_singleton segments segment ih =>
    have hsegment := hsegments segment (List.mem_append_right _ (List.mem_singleton_self segment))
    obtain ⟨between, hfollow, henter⟩ := follow_concat_eq_ok.mp h
    have hreduce := ih (fun segment hmem => hsegments segment (List.mem_append_left _ hmem)) hfollow
    rw [Path.reduce, List.foldl_append, List.foldl_cons, List.foldl_nil]
    apply follow_push hstart hsegment
    exact follow_concat_eq_ok.mpr ⟨between, hreduce, henter⟩

/-- A path leads where it leads after normalization. -/
lemma follow_normalize (h : host.locate disk path = .ok next) :
    host.follow disk (host.start path)
      (Path.reduce (!Path.isAbsolute path) (Path.segments path)) = .ok next := by
  refine follow_reduce ?_ (fun segment hsegment => (Path.mem_segments.mp hsegment).2)
    (locate_eq_ok h).2
  rw [Host.start]
  cases Path.isAbsolute path
  · exact .inl rfl
  · exact .inr rfl

/-! ### Ways down -/

variable {names : List Bytes} {name : Bytes}

/-- Nothing is in the way along the names: no file stands before their end, and no name that is
looked up is too long. -/
def Clear (host : Host) (disk : FileSystem) (position names : List Bytes) : Prop :=
  ∀ before name after, names = before ++ name :: after →
    ∀ node, disk.status (position ++ before) = some node →
      node = .directory ∧ name.length ≤ host.nameMax

lemma clear_nil : Clear host disk position [] := by
  intro before name after h
  cases before <;> cases h

lemma clear_cons : Clear host disk position (name :: names) ↔
    (∀ node, disk.status position = some node →
      node = .directory ∧ name.length ≤ host.nameMax) ∧
    Clear host disk (position ++ [name]) names := by
  constructor
  · intro h
    refine ⟨?_, ?_⟩
    · simpa using h [] name names rfl
    · intro before next after hnames
      have hbelow := h (name :: before) next after (by rw [hnames, List.cons_append])
      simpa using hbelow
  · rintro ⟨hfirst, hrest⟩ before next after hnames
    cases before with
    | nil =>
      cases hnames
      simpa using hfirst
    | cons first before =>
      rw [List.cons_append, List.cons.injEq] at hnames
      obtain ⟨rfl, hnames⟩ := hnames
      simpa using hrest before next after hnames

/-- Where something stands, the way to it is clear when its names are not too long. -/
lemma clear_of_status {node : Node Bytes} (h : disk.status (position ++ names) = some node)
    (hshort : ∀ name ∈ names, name.length ≤ host.nameMax) : Clear host disk position names := by
  intro before name after hnames node' hnode'
  refine ⟨?_, hshort name (by simp [hnames])⟩
  rw [hnames, ← List.append_assoc] at h
  have hdirectory := Disk.status_of_append h (List.cons_ne_nil _ _)
  rw [hnode'] at hdirectory
  exact Option.some.inj hdirectory

/-- Along a clear way one comes to its end, or to where nothing stands. -/
lemma follow_of_clear (hplain : ∀ segment ∈ segments, segment ≠ "..")
    (h : Clear host disk position (segments.map utf8)) :
    host.follow disk position segments = .ok (position ++ segments.map utf8) ∨
      host.follow disk position segments = .error .noEntry ∧
        disk.status (position ++ segments.map utf8) = none := by
  induction segments generalizing position with
  | nil =>
    rw [List.map_nil, List.append_nil]
    exact .inl rfl
  | cons segment segments ih =>
    obtain ⟨hup, hplain⟩ := List.forall_mem_cons.mp hplain
    rw [List.map_cons, clear_cons] at h
    obtain ⟨hfirst, hrest⟩ := h
    cases hstatus : disk.status position with
    | none =>
      refine .inr ⟨?_, Disk.status_append_of_none hstatus⟩
      rw [follow, enter, hstatus]
    | some node =>
      obtain ⟨rfl, hshort⟩ := hfirst node hstatus
      have hbelow := ih hplain hrest
      rw [follow, enter_segment hstatus hup hshort, List.map_cons, ← List.append_cons] at *
      exact hbelow

/-- Another way fails, but not because nothing is there. -/
lemma follow_of_not_clear (hplain : ∀ segment ∈ segments, segment ≠ "..")
    (h : ¬ Clear host disk position (segments.map utf8)) :
    ∃ errno, errno ≠ .noEntry ∧ host.follow disk position segments = .error errno := by
  induction segments generalizing position with
  | nil => exact absurd clear_nil h
  | cons segment segments ih =>
    obtain ⟨hup, hplain⟩ := List.forall_mem_cons.mp hplain
    rw [List.map_cons, clear_cons] at h
    cases hstatus : disk.status position with
    | none =>
      refine absurd ⟨fun node hnode => ?_, ?_⟩ h
      · rw [hstatus] at hnode
        cases hnode
      · intro before name after hnames node hnode
        rw [List.append_assoc, Disk.status_append_of_none hstatus] at hnode
        cases hnode
    | some node =>
      cases node with
      | file data => exact ⟨.notDirectory, by simp, by rw [follow, enter, hstatus]⟩
      | directory =>
        by_cases hshort : (utf8 segment).length ≤ host.nameMax
        · rw [follow, enter_segment hstatus hup hshort]
          refine ih hplain fun hrest => h ⟨fun node hnode => ?_, hrest⟩
          rw [hstatus] at hnode
          cases hnode
          exact ⟨rfl, hshort⟩
        · refine ⟨.nameTooLong, by simp, ?_⟩
          rw [follow, enter, hstatus]
          dsimp only
          rw [if_neg hup, if_pos (not_le.mp hshort)]

lemma follow_eq_ok {p : List Bytes} (hplain : ∀ segment ∈ segments, segment ≠ "..")
    (h : host.follow disk position segments = .ok p) : p = position ++ segments.map utf8 ∧
      ∀ segment ∈ segments, (utf8 segment).length ≤ host.nameMax := by
  induction segments generalizing position with
  | nil =>
    cases h
    simp
  | cons segment segments ih =>
    obtain ⟨hup, hplain⟩ := List.forall_mem_cons.mp hplain
    obtain ⟨next, henter, hfollow⟩ := follow_cons_eq_ok.mp h
    obtain ⟨-, hshort, rfl⟩ := (enter_eq_ok henter).2.resolve_left fun hother => hup hother.1
    obtain ⟨rfl, hrest⟩ := ih hplain hfollow
    refine ⟨?_, List.forall_mem_cons.mpr ⟨hshort, hrest⟩⟩
    rw [List.map_cons, ← List.append_cons]

/-! ### Making directories -/

lemma mkdirs_cons (h : host.enter disk position segment = .ok next) :
    host.mkdirs disk position (segment :: segments) =
      if disk.status next = none then host.mkdirs (disk.put next .directory) next segments
      else host.mkdirs disk next segments := by
  rw [mkdirs, h]

/-- Directories that are there are passed. -/
lemma mkdirs_append_of_follow (h : host.follow disk position segments = .ok next)
    (hnext : disk.status next = some .directory) :
    host.mkdirs disk position (segments ++ more) = host.mkdirs disk next more := by
  induction segments generalizing position with
  | nil =>
    cases h
    rfl
  | cons segment segments ih =>
    obtain ⟨between, henter, hfollow⟩ := follow_cons_eq_ok.mp h
    have hbetween := status_of_follow hfollow hnext
    rw [List.cons_append, mkdirs_cons henter, if_neg (by simp [hbetween]), ih hfollow]

lemma mkdirs_dropLast (h : host.follow disk position segments = .ok next)
    (hnext : disk.status next = some .directory) :
    host.mkdirs disk position segments.dropLast = (disk, .ok ()) := by
  have hnil {q : List Bytes} (hq : disk.status q = some .directory) :
      host.mkdirs disk q [] = (disk, .ok ()) := by
    rw [mkdirs, hq]
  rcases List.eq_nil_or_concat segments with rfl | ⟨segments, segment, rfl⟩
  · cases h
    exact hnil hnext
  · rw [List.concat_eq_append] at h ⊢
    obtain ⟨between, hfollow, henter⟩ := follow_concat_eq_ok.mp h
    have hbetween := (enter_eq_ok henter).1
    rw [List.dropLast_concat, ← List.append_nil segments, mkdirs_append_of_follow hfollow hbetween]
    exact hnil hbetween

/-- Where making the directories of these segments can make one. -/
def OnTheWay (host : Host) (position : List Bytes) (segments : List JsString) (p : List Bytes) :
    Prop :=
  ∃ taken rest, segments = taken ++ rest ∧ taken ≠ [] ∧ p = position ++ taken.map utf8 ∧
    ∀ segment ∈ taken, (utf8 segment).length ≤ host.nameMax

lemma onTheWay_first (hshort : (utf8 segment).length ≤ host.nameMax) :
    host.OnTheWay position (segment :: segments) (position ++ [utf8 segment]) :=
  ⟨[segment], segments, rfl, List.cons_ne_nil _ _, rfl, by simpa using hshort⟩

/-- What is made further down stands below the first segment. -/
lemma OnTheWay.cons {p : List Bytes} (hshort : (utf8 segment).length ≤ host.nameMax)
    (h : host.OnTheWay (position ++ [utf8 segment]) segments p) :
    host.OnTheWay position (segment :: segments) p := by
  obtain ⟨taken, rest, rfl, -, rfl, hrest⟩ := h
  refine ⟨segment :: taken, rest, by rw [List.cons_append], List.cons_ne_nil _ _, ?_,
    List.forall_mem_cons.mpr ⟨hshort, hrest⟩⟩
  rw [List.map_cons, ← List.append_cons]

/-- What making directories changes: some that were missing on the way down are there. -/
lemma status_mkdirs (hplain : ∀ segment ∈ segments, segment ≠ "..") (p : List Bytes) :
    (host.mkdirs disk position segments).1.status p = disk.status p ∨
      disk.status p = none ∧
      (host.mkdirs disk position segments).1.status p = some .directory ∧
      host.OnTheWay position segments p := by
  induction segments generalizing disk position with
  | nil =>
    left
    rw [mkdirs]
    split <;> rfl
  | cons segment segments ih =>
    obtain ⟨hup, hplain⟩ := List.forall_mem_cons.mp hplain
    cases henter : host.enter disk position segment with
    | error errno =>
      left
      rw [mkdirs, henter]
    | ok next =>
      obtain ⟨hdirectory, hcases⟩ := enter_eq_ok henter
      obtain ⟨-, hshort, rfl⟩ := hcases.resolve_left fun hother => hup hother.1
      rw [mkdirs_cons henter]
      split_ifs with hmissing
      · have hput := @Disk.status_put_concat _ _ _ disk _ .directory (utf8 segment) hdirectory
          (by simp [hmissing])
        rcases ih hplain with hsame | ⟨hnone, hmade, hway⟩
        · rw [hsame, hput]
          split_ifs with hp
          · subst hp
            exact .inr ⟨hmissing, rfl, onTheWay_first hshort⟩
          · exact .inl rfl
        · rw [hput] at hnone
          split_ifs at hnone
          exact .inr ⟨hnone, hmade, hway.cons hshort⟩
      · rcases ih hplain with hsame | ⟨hnone, hmade, hway⟩
        · exact .inl hsame
        · exact .inr ⟨hnone, hmade, hway.cons hshort⟩

/-- What stands somewhere still stands there. -/
lemma status_mkdirs_of_some {node : Node Bytes} {p : List Bytes}
    (hplain : ∀ segment ∈ segments, segment ≠ "..") (h : disk.status p = some node) :
    (host.mkdirs disk position segments).1.status p = some node := by
  rcases @status_mkdirs host disk position segments hplain p with hsame | ⟨hnone, -⟩
  · rw [hsame, h]
  · rw [h] at hnone
    cases hnone

/-- Making directories goes well when no file stands on the way and no name is too long. -/
lemma mkdirs_ok (hplain : ∀ segment ∈ segments, segment ≠ "..")
    (hshort : ∀ segment ∈ segments, (utf8 segment).length ≤ host.nameMax)
    (hposition : disk.status position = some .directory)
    (hfree : ∀ taken rest data, segments = taken ++ rest →
      disk.status (position ++ taken.map utf8) ≠ some (.file data)) :
    (host.mkdirs disk position segments).2 = .ok () := by
  induction segments generalizing disk position with
  | nil => rw [mkdirs, hposition]
  | cons segment segments ih =>
    obtain ⟨hup, hplain⟩ := List.forall_mem_cons.mp hplain
    obtain ⟨hsegment, hshort⟩ := List.forall_mem_cons.mp hshort
    rw [mkdirs_cons (enter_segment hposition hup hsegment)]
    have hdown (taken rest : List JsString) (data : Bytes) (h : segments = taken ++ rest) :
        disk.status (position ++ [utf8 segment] ++ taken.map utf8) ≠ some (.file data) := by
      rw [← List.append_cons, ← List.map_cons]
      exact hfree (segment :: taken) rest data (by rw [h, List.cons_append])
    split_ifs with hmissing
    · have hput := @Disk.status_put_concat _ _ _ disk _ .directory (utf8 segment) hposition
        (by simp [hmissing])
      refine ih hplain hshort (by rw [hput, if_pos rfl]) fun taken rest data h => ?_
      rw [hput]
      split_ifs
      · simp
      · exact hdown taken rest data h
    · refine ih hplain hshort ?_ hdown
      cases hstatus : disk.status (position ++ [utf8 segment]) with
      | none => exact absurd hstatus hmissing
      | some node =>
        cases node with
        | directory => rfl
        | file data =>
          have hfile := hdown [] segments data rfl
          rw [List.map_nil, List.append_nil] at hfile
          exact absurd hstatus hfile

lemma status_mkdirs_of_ok (hplain : ∀ segment ∈ segments, segment ≠ "..")
    (h : (host.mkdirs disk position segments).2 = .ok ()) :
    (host.mkdirs disk position segments).1.status (position ++ segments.map utf8) =
      some .directory := by
  induction segments generalizing disk position with
  | nil =>
    rw [List.map_nil, List.append_nil]
    rw [mkdirs] at h ⊢
    split at h <;> try cases h
    assumption
  | cons segment segments ih =>
    obtain ⟨hup, hplain⟩ := List.forall_mem_cons.mp hplain
    cases henter : host.enter disk position segment with
    | error errno =>
      rw [mkdirs, henter] at h
      cases h
    | ok next =>
      obtain ⟨-, -, rfl⟩ := (enter_eq_ok henter).2.resolve_left fun hother => hup hother.1
      have hend : position ++ (segment :: segments).map utf8 =
          position ++ [utf8 segment] ++ segments.map utf8 := List.append_cons ..
      rw [mkdirs_cons henter] at h ⊢
      rw [hend]
      split_ifs at h ⊢
      · exact ih hplain h
      · exact ih hplain h

/-- From anywhere on, a directory is made only on the way to where the path leads. -/
lemma status_mkdirs_upsFirst (hsegments : ∀ segment ∈ segments, Path.IsSegment segment)
    (hups : Path.UpsFirst segments) (p : List Bytes) :
    (host.mkdirs disk (start.map utf8) segments).1.status p = disk.status p ∨
      disk.status p = none ∧
      (host.mkdirs disk (start.map utf8) segments).1.status p = some .directory ∧
      p <+: (segments.foldl Path.move start).map utf8 := by
  induction segments generalizing start with
  | nil =>
    left
    rw [mkdirs]
    split <;> rfl
  | cons segment segments ih =>
    by_cases hup : segment = ".."
    · subst hup
      cases henter : host.enter disk (start.map utf8) ".." with
      | error errno =>
        left
        rw [mkdirs, henter]
      | ok next =>
        obtain ⟨hstatus, hcases⟩ := enter_eq_ok henter
        obtain ⟨-, rfl⟩ := hcases.resolve_right fun hother => hother.1 rfl
        rw [mkdirs_cons henter, if_neg (by simp [Disk.status_parent hstatus]), ← List.map_dropLast]
        exact ih (fun segment h => hsegments segment (.tail _ h)) hups.of_cons
    · have hplain : ∀ part ∈ segment :: segments, part ≠ ".." := by
        intro part hpart
        rcases List.mem_cons.mp hpart with rfl | hpart
        · exact hup
        · exact fun hpart' => hup (List.rel_of_pairwise_cons hups hpart hpart')
      rcases @status_mkdirs host disk (start.map utf8) _ hplain p with hsame |
        ⟨hnone, hmade, taken, rest, htaken, -, rfl, -⟩
      · exact .inl hsame
      · refine .inr ⟨hnone, hmade, rest.map utf8, ?_⟩
        rw [Path.foldl_move_of_isSegment fun part hpart =>
          ⟨hsegments part hpart, hplain part hpart⟩,
          htaken, List.map_append, List.map_append, List.append_assoc]

/-! ### What a call reaches -/

variable {p : List Bytes} {data : Bytes}

lemma stat_eq_ok {node : Node Bytes} (h : host.stat disk path = .ok node) :
    disk.status ((Path.resolve host.cwd path).map utf8) = some node := by
  rw [stat] at h
  split at h
  · cases h
  · rename_i position hlocate
    rw [← locate_resolve hlocate]
    split at h
    · cases h
    · rename_i hstatus
      split_ifs at h
      cases h
      exact hstatus
    · rename_i hstatus
      cases h
      exact hstatus

lemma readFile_eq_ok (h : host.readFile disk path = .ok data) :
    disk.status ((Path.resolve host.cwd path).map utf8) = some (.file data) := by
  rw [readFile] at h
  split at h
  · cases h
  · rename_i hstat
    cases h
    exact stat_eq_ok hstat
  · cases h

lemma stat_eq_file (h : host.stat disk path = .ok (.file data)) :
    host.refusal? path = none ∧ Path.endsIdle path = false := by
  rw [stat] at h
  split at h
  · cases h
  · rename_i hlocate
    refine ⟨(locate_eq_ok hlocate).1, ?_⟩
    split at h
    · cases h
    · split_ifs at h with hidle
      simpa using hidle
    · cases h

lemma status_writeFile (h : p ≠ (Path.resolve host.cwd path).map utf8) :
    (host.writeFile disk path data).1.status p = disk.status p := by
  rw [writeFile]
  split
  · rfl
  · rename_i hlocate
    rw [← locate_resolve hlocate] at h
    split_ifs
    · rfl
    · rfl
    · exact Disk.status_put_of_ne h

lemma status_rm (h : p ≠ (Path.resolve host.cwd path).map utf8) :
    (host.rm disk path).1.status p = disk.status p := by
  rw [rm]
  split
  · rfl
  · rfl
  · rename_i hlocate
    rw [← locate_resolve hlocate] at h
    split
    · rfl
    · split_ifs
      · rfl
      · exact Disk.status_unlink_of_ne h
    · rfl

lemma status_mkdir (hups : Path.UpsFirst (Path.segments path)) :
    (host.mkdir disk path).1.status p = disk.status p ∨
      disk.status p = none ∧ (host.mkdir disk path).1.status p = some .directory ∧
        p <+: (Path.resolve host.cwd path).map utf8 := by
  rw [mkdir]
  split
  · exact .inl rfl
  · rw [start_eq, Path.resolve_eq]
    exact status_mkdirs_upsFirst (fun segment => Path.isSegment_of_mem) hups p

end Host

end Posix
