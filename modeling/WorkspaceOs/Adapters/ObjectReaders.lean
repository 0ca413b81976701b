import WorkspaceOs.Adapters.ObjectTree

/-!
# The readers of the object store

`exists`, `get` and `list` look at the same tree in different ways: `stat` is content with a
directory, `readFile` wants a file, and the walk of `list` reads the names of the files back.
-/

namespace WorkspaceOs

open Js Posix

namespace FilesystemObjectStore

variable {store : FilesystemObjectStore} {host : Host} {disk : FileSystem}
  {key path dir segment : JsString} {segments : List JsString} {names : List Bytes}
  {trailing : Bool} {data : Bytes}

/-! ### `get` and `exists` -/

lemma Rooted.short (hroot : store.Rooted host disk) {node : Node Bytes}
    (h : disk.status (store.location host ++ names) = some node) :
    ∀ name ∈ names, name.length ≤ host.nameMax := by
  by_cases hne : names = []
  · simp [hne]
  · obtain ⟨segments, rfl, -, hshort, -⟩ := hroot.named names node hne h
    simpa using hshort

/-- Where something stands its path leads. -/
lemma Rooted.locate_of_status (hroot : store.Rooted host disk) {node : Node Bytes}
    (hplain : ∀ segment ∈ segments, IsPlain segment)
    (hrefusal : host.refusal? (store.text segments trailing) = none)
    (h : disk.status (store.location host ++ segments.map utf8) = some node) :
    host.locate disk (store.text segments trailing) =
      .ok (store.location host ++ segments.map utf8) := by
  rw [hroot.hasRoot.locate hplain hrefusal]
  rcases Host.follow_of_clear (fun segment h => (hplain segment h).2)
    (Host.clear_of_status h (hroot.short h)) with hfollow | ⟨-, hnone⟩
  · exact hfollow
  · rw [h] at hnone
    cases hnone

lemma Rooted.segments_ne_nil (hroot : store.Rooted host disk)
    (h : disk.status (store.place host key) = some (.file data)) : Path.segments key ≠ [] := by
  intro hempty
  rw [place, hempty, List.map_nil, List.append_nil, hroot.directory] at h
  cases h

lemma get_of_resolveKey (h : store.resolveKey key = .ok path) :
    store.get host disk key = .ok data ↔ host.readFile disk path = .ok data := by
  rw [get, h]
  dsimp only
  cases host.readFile disk path with
  | ok data' => simp
  | error errno => cases errno <;> simp

/-- The bytes that a key is read as are those of the file at its place. -/
lemma Rooted.get_eq_ok_iff (hroot : store.Rooted host disk) (h : store.resolveKey key = .ok path) :
    store.get host disk key = .ok data ↔ host.refusal? path = none ∧
      key.getLast? ≠ some 0x2F ∧ disk.status (store.place host key) = some (.file data) := by
  have hplain := isPlain_of_resolveKey h
  rw [get_of_resolveKey h, Host.readFile]
  constructor
  · intro hread
    split at hread
    · cases hread
    · rename_i hstat
      cases hread
      obtain ⟨hrefusal, hidle⟩ := Host.stat_eq_file hstat
      have hfile := Host.stat_eq_ok hstat
      rw [resolve_resolveKey h] at hfile
      have hne := hroot.segments_ne_nil hfile
      obtain rfl := resolveKey_text_of_ne_nil h hne
      rw [endsIdle_text hplain hne] at hidle
      exact ⟨hrefusal, by simpa using hidle, hfile⟩
    · cases hread
  · rintro ⟨hrefusal, hlast, hfile⟩
    have hne := hroot.segments_ne_nil hfile
    obtain rfl := resolveKey_text_of_ne_nil h hne
    have hidle := @endsIdle_text store _ (key.getLast? = some 0x2F) hplain hne
    rw [Host.stat, hroot.locate_of_status hplain hrefusal hfile]
    simp only [place] at hfile
    dsimp only
    rw [hfile]
    dsimp only
    rw [hidle, if_neg (by simpa using hlast)]

/-- `stat` of a path that is not refused, along a clear way. -/
lemma HasRoot.stat_of_clear (hroot : store.HasRoot host disk)
    (hplain : ∀ segment ∈ segments, IsPlain segment) (hne : segments ≠ [])
    (hrefusal : host.refusal? (store.text segments false) = none)
    (hclear : Host.Clear host disk (store.location host) (segments.map utf8)) :
    host.stat disk (store.text segments false) =
      match disk.status (store.location host ++ segments.map utf8) with
      | none => .error .noEntry
      | some node => .ok node := by
  rw [Host.stat, hroot.locate hplain hrefusal]
  rcases Host.follow_of_clear (fun segment h => (hplain segment h).2) hclear with hfollow |
    ⟨hfollow, hnone⟩
  · rw [hfollow]
    dsimp only
    cases disk.status (store.location host ++ segments.map utf8) with
    | none => rfl
    | some node =>
      cases node with
      | directory => rfl
      | file data =>
        dsimp only
        rw [endsIdle_text hplain hne, if_neg Bool.false_ne_true]
  · rw [hfollow, hnone]

/-- Any other path fails, and not because nothing is there. -/
lemma HasRoot.stat_of_blocked (hroot : store.HasRoot host disk)
    (hplain : ∀ segment ∈ segments, IsPlain segment)
    (h : ¬ (host.refusal? (store.text segments false) = none ∧
      Host.Clear host disk (store.location host) (segments.map utf8))) :
    ∃ errno, errno ≠ .noEntry ∧ host.stat disk (store.text segments false) = .error errno := by
  cases hrefusal : host.refusal? (store.text segments false) with
  | some errno =>
    refine ⟨errno, ?_, by rw [Host.stat, Host.locate, hrefusal]⟩
    rintro rfl
    exact Host.refusal?_ne_noEntry (Path.render_ne_nil (isSegment_text hplain)) hrefusal
  | none =>
    obtain ⟨errno, herrno, hfollow⟩ := Host.follow_of_not_clear
      (fun segment hsegment => (hplain segment hsegment).2) fun hclear => h ⟨hrefusal, hclear⟩
    exact ⟨errno, herrno, by rw [Host.stat, hroot.locate hplain hrefusal, hfollow]⟩

/-! ### `list` -/

lemma segments_of_isPlain (h : IsPlain segment) : Path.segments segment = [segment] :=
  Path.segments_of_isSegment h.1

lemma descends_of_isPlain (h : IsPlain segment) : Path.Descends segment := by
  constructor
  · rw [← List.append_nil segment]
    exact Path.isAbsolute_of_isSegment h.1
  · rw [segments_of_isPlain h, List.mem_singleton]
    exact fun hup => h.2 hup.symm

lemma getLast?_of_isPlain (h : IsPlain segment) :
    decide (segment.getLast? = some 0x2F) = false := by
  rw [decide_eq_false_iff_not]
  exact fun hlast => h.1.1 (List.mem_of_getLast? hlast)

/-- The walk goes down by names. -/
lemma join_root (h : IsPlain segment) :
    Path.join store.root segment = store.text [segment] false := by
  rw [Path.join_eq (descends_of_isPlain h) h.1.ne_nil, segments_of_isPlain h, getLast?_of_isPlain h,
    text]

lemma join_text (hplain : ∀ segment ∈ segments, IsPlain segment) (h : IsPlain segment) :
    Path.join (store.text segments false) segment = store.text (segments ++ [segment]) false := by
  rw [Path.join_eq (descends_of_isPlain h) h.1.ne_nil, segments_of_isPlain h, getLast?_of_isPlain h,
    isAbsolute_text hplain, segments_text hplain, Path.reduce_append hplain, Path.reduce_reduce,
    text, List.append_assoc]

lemma resolve_text (hplain : ∀ segment ∈ segments, IsPlain segment) :
    Path.resolve host.cwd (store.text segments trailing) =
      Path.resolve host.cwd store.root ++ segments := by
  rw [Path.resolve_eq, isAbsolute_text hplain, segments_text hplain, List.foldl_append,
    Path.foldl_move_of_isSegment hplain, Path.foldl_move_reduce, ← Path.resolve_eq]
  cases Path.isAbsolute store.root
  · exact .inl rfl
  · exact .inr rfl

/-- The key of a file is made of the segments below the root. -/
lemma relative_text (hplain : ∀ segment ∈ segments, IsPlain segment) :
    [0x2F].intercalate ((Path.relative host.cwd store.root
      (store.text segments false)).splitOn 0x2F) = [0x2F].intercalate segments := by
  rw [Path.relative_eq (resolve_text hplain), List.intercalate_splitOn]

/-- A loop in which no step fails gathers what its steps give. -/
lemma gather_ok {α : Type} {visit : α → Except Errno (List JsString)} {entries : List α}
    (h : ∀ entry ∈ entries, ∃ results, visit entry = .ok results) :
    ∃ results, gather visit entries = .ok results ∧ ∀ k, k ∈ results ↔
      ∃ entry ∈ entries, ∃ found, visit entry = .ok found ∧ k ∈ found := by
  induction entries with
  | nil => exact ⟨[], rfl, by simp⟩
  | cons entry entries ih =>
    obtain ⟨⟨found, hfound⟩, h⟩ := List.forall_mem_cons.mp h
    obtain ⟨results, hresults, hmem⟩ := ih h
    refine ⟨found ++ results, by rw [gather, hfound, hresults], fun k => ?_⟩
    rw [List.mem_append, hmem]
    simp [hfound]

/-- What a name below the root is read back as. -/
lemma Rooted.read_names (hroot : store.Rooted host disk) {node : Node Bytes} (hne : names ≠ [])
    (h : disk.status (store.location host ++ names) = some node) :
    (∀ segment ∈ names.map fromUtf8, IsPlain segment) ∧ (names.map fromUtf8).map utf8 = names ∧
      (node = .directory → host.refusal? (store.text (names.map fromUtf8) false) = none) := by
  obtain ⟨segments, rfl, hplain, -, hrefusal⟩ := hroot.named names node hne h
  have hutf8 : ((segments.map utf8).map fromUtf8).map utf8 = segments.map utf8 := by
    rw [List.map_map, List.map_map]
    exact List.map_congr_left fun segment _ => utf8_fromUtf8_utf8
  refine ⟨?_, hutf8, fun hnode => Host.refusal?_eq_none_of_utf8 (hrefusal hnode) (utf8_text hutf8)⟩
  intro segment hsegment
  rw [List.map_map, List.mem_map] at hsegment
  obtain ⟨segment, hmem, rfl⟩ := hsegment
  exact (hplain segment hmem).fromUtf8_utf8

/-- The text that the walk has for a directory. -/
def IsDirText (store : FilesystemObjectStore) (dir : JsString) (segments : List JsString) : Prop :=
  segments = [] ∧ dir = store.root ∨ segments ≠ [] ∧ dir = store.text segments false

lemma IsDirText.join (h : store.IsDirText dir segments)
    (hplain : ∀ segment ∈ segments, IsPlain segment) (hsegment : IsPlain segment) :
    Path.join dir segment = store.text (segments ++ [segment]) false := by
  rcases h with ⟨rfl, rfl⟩ | ⟨-, rfl⟩
  · exact join_root hsegment
  · exact join_text hplain hsegment

/-- The walk can read every directory that it comes to. -/
lemma Rooted.readdir (hroot : store.Rooted host disk)
    (hdir : store.IsDirText dir (names.map fromUtf8))
    (h : disk.status (store.location host ++ names) = some .directory) :
    host.readdir disk dir = .ok (disk.children (store.location host ++ names)) := by
  have hlocate : host.locate disk dir = .ok (store.location host ++ names) := by
    rcases hdir with ⟨hempty, rfl⟩ | ⟨hne, rfl⟩
    · obtain rfl := List.map_eq_nil_iff.mp hempty
      rw [List.append_nil]
      exact hroot.located
    · obtain ⟨hplain, hutf8, hrefusal⟩ := hroot.read_names (by simpa using hne) h
      have hlocate := hroot.locate_of_status hplain (hrefusal rfl) (hutf8.symm ▸ h)
      rwa [hutf8] at hlocate
  rw [Host.readdir, hlocate]
  dsimp only
  rw [h]

/-- The key that the walk reads the names of a file back as. -/
def keyOf (names : List Bytes) : JsString := [0x2F].intercalate (names.map fromUtf8)

/-- A key of a file below some names. -/
def KeyBelow (store : FilesystemObjectStore) (host : Host) (disk : FileSystem)
    (names : List Bytes) (k : JsString) : Prop :=
  ∃ below data, disk.status (store.location host ++ (names ++ below)) = some (.file data) ∧
    k = keyOf (names ++ below)

/-- Below a file there is only the file. -/
lemma keyBelow_of_file (h : disk.status (store.location host ++ names) = some (.file data))
    (k : JsString) : store.KeyBelow host disk names k ↔ k = keyOf names := by
  constructor
  · rintro ⟨below, data', hfile, rfl⟩
    by_cases hempty : below = []
    · rw [hempty, List.append_nil]
    · rw [← List.append_assoc] at hfile
      rw [Disk.status_of_append hfile hempty] at h
      cases h
  · rintro rfl
    exact ⟨[], data, by rwa [List.append_nil], by rw [List.append_nil]⟩

/-- What is below a directory is below one of its entries. -/
lemma keyBelow_of_directory (h : disk.status (store.location host ++ names) = some .directory)
    (k : JsString) : store.KeyBelow host disk names k ↔
      ∃ entry ∈ disk.children (store.location host ++ names),
        store.KeyBelow host disk (names ++ [entry.name]) k := by
  constructor
  · rintro ⟨below, data, hfile, rfl⟩
    cases below with
    | nil =>
      rw [List.append_nil, h] at hfile
      cases hfile
    | cons name below =>
      rw [List.append_cons] at hfile
      obtain ⟨node, hnode⟩ : ∃ node, disk.status (store.location host ++ names ++ [name]) =
          some node := by
        cases below with
        | nil => exact ⟨_, by simpa using hfile⟩
        | cons next below =>
          rw [← List.append_assoc, ← List.append_assoc] at hfile
          exact ⟨_, Disk.status_of_append hfile (List.cons_ne_nil _ _)⟩
      have hentry : ⟨name, node.isDirectory⟩ ∈ disk.children (store.location host ++ names) :=
        Disk.mem_children.mpr ⟨node, hnode, rfl⟩
      exact ⟨_, hentry, below, data, hfile, congrArg keyOf (List.append_cons ..)⟩
  · rintro ⟨entry, -, below, data, hfile, rfl⟩
    refine ⟨entry.name :: below, data, ?_, ?_⟩
    · rwa [List.append_cons]
    · exact congrArg keyOf (List.append_cons ..).symm

/-- What the loop gathers for an entry: the key of a file, or what the walk finds below a
directory. -/
lemma Rooted.visit (hroot : store.Rooted host disk) {levels : ℕ} {entry : Dirent Bytes}
    (hdir : store.IsDirText dir (names.map fromUtf8))
    (h : disk.status (store.location host ++ names) = some .directory)
    (hentry : entry ∈ disk.children (store.location host ++ names))
    (hwalk : disk.status (store.location host ++ (names ++ [entry.name])) = some .directory →
      ∃ found, store.walk host disk levels
          (store.text ((names ++ [entry.name]).map fromUtf8) false) = .ok found ∧
        ∀ k, k ∈ found ↔ store.KeyBelow host disk (names ++ [entry.name]) k) :
    ∃ found,
      (if entry.isDirectory then
        store.walk host disk levels (Path.join dir (fromUtf8 entry.name))
      else
        .ok [[0x2F].intercalate ((Path.relative host.cwd store.root
          (Path.join dir (fromUtf8 entry.name))).splitOn 0x2F)]) = .ok found ∧
      ∀ k, k ∈ found ↔ store.KeyBelow host disk (names ++ [entry.name]) k := by
  obtain ⟨node, hnode, hdirectory⟩ := Disk.mem_children.mp hentry
  rw [List.append_assoc] at hnode
  have hplain : ∀ segment ∈ names.map fromUtf8, IsPlain segment := by
    by_cases hempty : names = []
    · simp [hempty]
    · exact (hroot.read_names hempty h).1
  obtain ⟨hplain', -, -⟩ := hroot.read_names (by simp) hnode
  have hsegment : IsPlain (fromUtf8 entry.name) := hplain' _ (by simp)
  have hjoin := hdir.join hplain hsegment
  rw [← List.map_singleton, ← List.map_append] at hjoin
  rw [hdirectory, hjoin]
  cases node with
  | directory => exact hwalk hnode
  | file data =>
    refine ⟨_, rfl, fun k => ?_⟩
    rw [relative_text hplain', List.mem_singleton, keyBelow_of_file hnode]
    rfl

/-- From every directory the walk gathers the keys of the files below it. -/
lemma Rooted.walk (hroot : store.Rooted host disk) {levels : ℕ}
    (hdir : store.IsDirText dir (names.map fromUtf8))
    (h : disk.status (store.location host ++ names) = some .directory)
    (hlevels : disk.height < (store.location host ++ names).length + levels) :
    ∃ results, store.walk host disk levels dir = .ok results ∧
      ∀ k, k ∈ results ↔ store.KeyBelow host disk names k := by
  induction levels generalizing dir names with
  | zero => exact absurd (Disk.length_le_height h) (not_le.mpr hlevels)
  | succ levels ih =>
    rw [FilesystemObjectStore.walk, hroot.readdir hdir h]
    dsimp only
    have hvisit := fun entry hentry => @Rooted.visit store host disk dir names hroot levels entry
      hdir h hentry fun hbelow => ih (.inr ⟨by simp, rfl⟩) hbelow (by
        simp only [List.length_append, List.length_singleton] at hlevels ⊢
        omega)
    obtain ⟨results, hresults, hmem⟩ := gather_ok fun entry hentry =>
      (hvisit entry hentry).imp fun _ => And.left
    refine ⟨results, hresults, fun k => ?_⟩
    rw [hmem, keyBelow_of_directory h]
    refine exists_congr fun entry => and_congr_right fun hentry => ?_
    obtain ⟨found, hfound, hkeys⟩ := hvisit entry hentry
    rw [← hkeys]
    constructor
    · rintro ⟨found', hfound', hk⟩
      rw [hfound] at hfound'
      cases hfound'
      exact hk
    · exact fun hk => ⟨found, hfound, hk⟩

/-- `list("")` gives the keys of the files below the root. -/
lemma Rooted.list (hroot : store.Rooted host disk) : ∃ keys,
    store.list host disk [] = .ok keys ∧ ∀ k, k ∈ keys ↔
      ∃ names data, disk.status (store.location host ++ names) = some (.file data) ∧
        k = keyOf names := by
  obtain ⟨results, hwalk, hmem⟩ := @Rooted.walk store host disk store.root [] hroot
    (disk.height + 1) (.inl ⟨rfl, rfl⟩) (by rw [List.append_nil]; exact hroot.directory)
    (by omega)
  refine ⟨_, by rw [FilesystemObjectStore.list, hwalk], fun k => ?_⟩
  rw [List.mem_mergeSort, List.mem_filter, hmem]
  simp [KeyBelow]

lemma wellFormed_intercalate (h : ∀ segment ∈ segments, WellFormed segment) :
    WellFormed ([0x2F].intercalate segments) := by
  induction segments with
  | nil => exact .nil
  | cons segment segments ih =>
    obtain ⟨hsegment, hsegments⟩ := List.forall_mem_cons.mp h
    cases segments with
    | nil => rwa [List.intercalate_singleton]
    | cons next segments =>
      rw [List.intercalate_cons_cons]
      exact (hsegment.append (.unit rfl .nil)).append (ih hsegments)

lemma wellFormed_of_intercalate (h : WellFormed ([0x2F].intercalate segments)) :
    ∀ segment ∈ segments, WellFormed segment := by
  induction segments with
  | nil => exact fun _ hmem => absurd hmem List.not_mem_nil
  | cons segment segments ih =>
    cases segments with
    | nil =>
      rw [List.intercalate_singleton] at h
      exact List.forall_mem_singleton.mpr h
    | cons next segments =>
      rw [List.intercalate_cons_cons, List.append_assoc, List.singleton_append] at h
      obtain ⟨hsegment, hsegments⟩ := h.of_append_cons rfl
      exact List.forall_mem_cons.mpr ⟨hsegment, ih hsegments⟩

lemma keyOf_map_utf8 (h : ∀ segment ∈ segments, WellFormed segment) :
    keyOf (segments.map utf8) = [0x2F].intercalate segments := by
  have hread : segments.map (fromUtf8 ∘ utf8) = segments.map id :=
    List.map_congr_left fun segment hsegment => fromUtf8_utf8 (h segment hsegment)
  rw [keyOf, List.map_map, hread, List.map_id]

/-- A key is listed when it is written as its file is read back. -/
lemma Rooted.mem_list_iff (hroot : store.Rooted host disk) :
    (∃ keys, store.list host disk [] = .ok keys ∧ key ∈ keys) ↔
      key = [0x2F].intercalate (Path.segments key) ∧ WellFormed key ∧
      ∃ data, disk.status (store.place host key) = some (.file data) := by
  obtain ⟨keys, hlist, hmem⟩ := hroot.list
  have hkeys : (∃ keys, store.list host disk [] = .ok keys ∧ key ∈ keys) ↔ key ∈ keys := by
    constructor
    · rintro ⟨keys', hlist', hkey⟩
      rw [hlist] at hlist'
      cases hlist'
      exact hkey
    · exact fun hkey => ⟨keys, hlist, hkey⟩
  rw [hkeys, hmem]
  constructor
  · rintro ⟨names, data, hfile, rfl⟩
    have hne : names ≠ [] := by
      rintro rfl
      rw [List.append_nil, hroot.directory] at hfile
      cases hfile
    obtain ⟨hplain, hutf8, -⟩ := hroot.read_names hne hfile
    have hsegments : Path.segments (keyOf names) = names.map fromUtf8 :=
      Path.segments_intercalate fun segment hsegment => (hplain segment hsegment).1
    refine ⟨by rw [hsegments, keyOf], ?_, data, ?_⟩
    · refine wellFormed_intercalate fun segment hsegment => ?_
      rw [← hutf8, List.map_map, List.mem_map] at hsegment
      obtain ⟨segment', -, rfl⟩ := hsegment
      rw [Function.comp_apply, fromUtf8_utf8_eq]
      exact (scalars_flatMap_unitsOf isScalar_of_mem_scalars).2
    · rwa [place, hsegments, hutf8]
  · rintro ⟨hkey, hwell, data, hfile⟩
    rw [hkey] at hwell
    refine ⟨_, data, hfile, ?_⟩
    rwa [keyOf_map_utf8 (wellFormed_of_intercalate hwell)]

/-! ### When the readers agree -/

/-- A key of segments between single slashes. -/
structure IsCanonical (key : JsString) : Prop where
  parts : ∀ part ∈ key.splitOn 0x2F, part ≠ [] ∧ part ≠ "." ∧ part ≠ ".."
  noBackslash : 0x5C ∉ key

lemma IsCanonical.isPlain (h : IsCanonical key) : ∀ part ∈ key.splitOn 0x2F, IsPlain part := by
  intro part hpart
  obtain ⟨hnil, hdot, hup⟩ := h.parts part hpart
  refine ⟨⟨JsString.not_mem_of_mem_splitOn hpart, ?_⟩, hup⟩
  rintro (hnil' | hdot')
  · exact hnil hnil'
  · exact hdot hdot'

lemma IsCanonical.segments_eq (h : IsCanonical key) : Path.segments key = key.splitOn 0x2F := by
  rw [Path.segments, List.filter_eq_self]
  intro part hpart
  simpa using (h.isPlain part hpart).1.2

lemma IsCanonical.segments_ne_nil (h : IsCanonical key) : Path.segments key ≠ [] := by
  rw [h.segments_eq]
  exact List.splitOn_ne_nil _ _

lemma IsCanonical.intercalate (h : IsCanonical key) :
    key = [0x2F].intercalate (Path.segments key) := by
  rw [h.segments_eq, List.intercalate_splitOn]

lemma IsCanonical.getLast? (h : IsCanonical key) : key.getLast? ≠ some 0x2F := by
  intro hlast
  obtain ⟨init, rfl⟩ := List.getLast?_eq_some_iff.mp hlast
  have hempty : [] ∈ (init ++ [0x2F]).splitOn (0x2F : UInt16) := by
    rw [List.splitOn_append_cons_self, List.splitOn_nil]
    simp
  exact (h.parts [] hempty).1 rfl

lemma IsCanonical.resolveKey (h : IsCanonical key) :
    store.resolveKey key = .ok (store.text (Path.segments key) false) := by
  have hne := h.segments_ne_nil
  have habsolute : Path.isAbsolute key = false := by
    rw [Path.isAbsolute, decide_eq_false_iff_not]
    intro hhead
    obtain ⟨rest, rfl⟩ := List.head?_eq_some_iff.mp hhead
    have hempty : [] ∈ (0x2F :: rest).splitOn (0x2F : UInt16) := by
      rw [← List.nil_append (0x2F :: rest), List.splitOn_append_cons_self, List.splitOn_nil]
      simp
    exact (h.parts [] hempty).1 rfl
  have hup : ∀ part ∈ key.splitOnP isSeparator, part ≠ ".." := by
    intro part hpart
    rw [JsString.splitOnP_eq_flatMap (c := 0x2F) rfl, List.mem_flatMap] at hpart
    obtain ⟨segment, hsegment, hpart⟩ := hpart
    have hwhole : segment.splitOnP isSeparator = [segment] := by
      refine List.splitOnP_eq_singleton fun c hc => ?_
      have hslash : c ≠ 0x2F := by
        rintro rfl
        exact JsString.not_mem_of_mem_splitOn hsegment hc
      have hbackslash : c ≠ 0x5C := by
        rintro rfl
        exact h.noBackslash (JsString.mem_of_mem_splitOn hsegment hc)
      simp [isSeparator, hslash, hbackslash]
    rw [hwhole, List.mem_singleton] at hpart
    exact hpart ▸ (h.parts segment hsegment).2.2
  have hresolve := (@resolveKey_eq store key _).mpr ⟨rfl, habsolute, hup⟩
  rw [hresolve, resolveKey_text_of_ne_nil hresolve hne]
  simp [h.getLast?]

/-- The readers agree on a key. -/
structure Agree (store : FilesystemObjectStore) (host : Host) (disk : FileSystem)
    (key : JsString) : Prop where
  existsGet : store.exists host disk key = .ok true ↔ ∃ data, store.get host disk key = .ok data
  getList : (∃ data, store.get host disk key = .ok data) ↔
    ∃ keys, store.list host disk [] = .ok keys ∧ key ∈ keys
  missing : (¬ ∃ data, store.get host disk key = .ok data) →
    store.get host disk key = .error (.objectNotFound key) ∧
      store.exists host disk key = .ok false

/-- The path of the key is not refused, nothing is in the way to its place, and there stands
nothing, or a file whose name is read back. -/
structure Unobstructed (store : FilesystemObjectStore) (host : Host) (disk : FileSystem)
    (key : JsString) : Prop where
  accepted : host.refusal? (Path.join store.root key) = none
  clear : Host.Clear host disk (store.location host) ((Path.segments key).map utf8)
  noDirectory : disk.status (store.place host key) ≠ some .directory
  wellFormed : ∀ data, disk.status (store.place host key) = some (.file data) → WellFormed key

lemma get_of_stat_error {errno : Errno} (h : store.resolveKey key = .ok path)
    (hstat : host.stat disk path = .error errno) : store.get host disk key =
      .error (if errno = .noEntry then .objectNotFound key else .system errno) := by
  rw [get, h]
  dsimp only
  rw [Host.readFile, hstat]
  cases errno <;> rfl

lemma exists_of_stat_error {errno : Errno} (h : store.resolveKey key = .ok path)
    (hstat : host.stat disk path = .error errno) : store.exists host disk key =
      if errno = .noEntry then .ok false else .error (.system errno) := by
  rw [«exists», h]
  dsimp only
  rw [hstat]
  cases errno <;> rfl

/-- Other failures than that nothing is there are passed on. -/
lemma not_agree_of_error {errno : Errno} (h : store.resolveKey key = .ok path)
    (hstat : host.stat disk path = .error errno) (herrno : errno ≠ .noEntry) :
    ¬ store.Agree host disk key := by
  intro hagree
  have hget := get_of_stat_error h hstat
  rw [if_neg herrno] at hget
  have hmissing := (hagree.missing (by rw [hget]; simp)).1
  rw [hget] at hmissing
  cases hmissing

/-- Where nothing stands the readers all say so. -/
lemma Rooted.agree_of_none (hroot : store.Rooted host disk) (h : store.resolveKey key = .ok path)
    (hstat : host.stat disk path = .error .noEntry)
    (hnone : disk.status (store.place host key) = none) : store.Agree host disk key := by
  have hget := get_of_stat_error h hstat
  have hexists := exists_of_stat_error h hstat
  rw [if_pos rfl] at hget hexists
  have hfails : ¬ ∃ data, store.get host disk key = .ok data := by simp [hget]
  refine ⟨iff_of_false (by simp [hexists]) hfails, ?_, fun _ => ⟨hget, hexists⟩⟩
  rw [hroot.mem_list_iff]
  refine iff_of_false hfails ?_
  rintro ⟨-, -, data, hfile⟩
  rw [hnone] at hfile
  cases hfile

/-- Where a directory stands `exists` finds it, and `get` does not read it. -/
lemma not_agree_of_directory (h : store.resolveKey key = .ok path)
    (hstat : host.stat disk path = .ok .directory) : ¬ store.Agree host disk key := by
  intro hagree
  have hexists : store.exists host disk key = .ok true := by
    rw [«exists», h]
    dsimp only
    rw [hstat]
  obtain ⟨data, hget⟩ := hagree.existsGet.mp hexists
  rw [get_of_resolveKey h, Host.readFile, hstat] at hget
  cases hget

/-- Where a file stands it is a matter of its name. -/
lemma Rooted.agree_of_file (hroot : store.Rooted host disk) (hkey : IsCanonical key)
    (h : store.resolveKey key = .ok path) (hstat : host.stat disk path = .ok (.file data))
    (hfile : disk.status (store.place host key) = some (.file data)) :
    store.Agree host disk key ↔ WellFormed key := by
  have hexists : store.exists host disk key = .ok true := by
    rw [«exists», h]
    dsimp only
    rw [hstat]
  have hget : ∃ data, store.get host disk key = .ok data := by
    refine ⟨data, (get_of_resolveKey h).mpr ?_⟩
    rw [Host.readFile, hstat]
  have hlist : (∃ keys, store.list host disk [] = .ok keys ∧ key ∈ keys) ↔ WellFormed key := by
    rw [hroot.mem_list_iff]
    exact ⟨fun h => h.2.1, fun hwell => ⟨hkey.intercalate, hwell, data, hfile⟩⟩
  constructor
  · exact fun hagree => hlist.mp (hagree.getList.mp hget)
  · intro hwell
    exact ⟨iff_of_true hexists hget, iff_of_true hget (hlist.mpr hwell), fun hno => absurd hget hno⟩

lemma Rooted.agree_iff_unobstructed (hroot : store.Rooted host disk) (hkey : IsCanonical key) :
    store.Agree host disk key ↔ store.Unobstructed host disk key := by
  have hresolve := @IsCanonical.resolveKey store key hkey
  have hplain := isPlain_of_resolveKey hresolve
  have hjoin := (resolveKey_eq.mp hresolve).1
  by_cases hway : host.refusal? (store.text (Path.segments key) false) = none ∧
      Host.Clear host disk (store.location host) ((Path.segments key).map utf8)
  · have hstat := hroot.hasRoot.stat_of_clear hplain hkey.segments_ne_nil hway.1 hway.2
    have hunobstructed (hdirectory : disk.status (store.place host key) ≠ some .directory)
        (hwell : ∀ data, disk.status (store.place host key) = some (.file data) →
          WellFormed key) : store.Unobstructed host disk key :=
      ⟨hjoin ▸ hway.1, hway.2, hdirectory, hwell⟩
    cases hstatus : disk.status (store.place host key) with
    | none =>
      rw [← place, hstatus] at hstat
      refine iff_of_true (hroot.agree_of_none hresolve hstat hstatus) (hunobstructed ?_ ?_)
      · simp [hstatus]
      · simp [hstatus]
    | some node =>
      rw [← place, hstatus] at hstat
      cases node with
      | directory =>
        exact iff_of_false (not_agree_of_directory hresolve hstat) fun h => h.noDirectory hstatus
      | file data =>
        rw [hroot.agree_of_file hkey hresolve hstat hstatus]
        refine ⟨fun hwell => hunobstructed ?_ fun _ _ => hwell, fun h => h.wellFormed data hstatus⟩
        simp [hstatus]
  · obtain ⟨errno, herrno, hstat⟩ := hroot.hasRoot.stat_of_blocked hplain hway
    refine iff_of_false (not_agree_of_error hresolve hstat herrno) fun h => hway ⟨?_, h.clear⟩
    exact hjoin ▸ h.accepted

/-- The readers agree on a canonical key exactly when it is unobstructed, after any calls on an
empty root. -/
theorem agree_iff (hempty : host.readdir disk store.root = .ok []) (hkey : IsCanonical key)
    (calls : List Call) : store.Agree host (store.after host disk calls) key ↔
      store.Unobstructed host (store.after host disk calls) key :=
  ((rooted_of_readdir hempty).1.after calls).agree_iff_unobstructed hkey

theorem agree_iff_notes : (mk "/").Agree ⟨[], 255, 4095⟩
      ((mk "/").after ⟨[], 255, 4095⟩ Disk.empty [.put "a/b" (.text "x"), .delete "a/b"]) "notes" ↔
    (mk "/").Unobstructed ⟨[], 255, 4095⟩
      ((mk "/").after ⟨[], 255, 4095⟩ Disk.empty [.put "a/b" (.text "x"), .delete "a/b"]) "notes" :=
  @agree_iff (mk "/") ⟨[], 255, 4095⟩ Disk.empty "notes" rfl
    ⟨by decide +kernel, by decide +kernel⟩ _

/-- The directory of a key that was put is found by `exists`, and by no other reader. -/
theorem directory_disagrees : ∃ (disk : FileSystem) (host : Host),
    host.readdir disk "/" = .ok [] ∧ ((mk "/").put host disk "a/b" (.text "x")).2 = .ok () ∧
    IsCanonical "a" ∧
    ¬ (mk "/").Agree host ((mk "/").after host disk [.put "a/b" (.text "x")]) "a" := by
  refine ⟨Disk.empty, ⟨[], 255, 4095⟩, rfl, rfl, ⟨by decide +kernel, by decide +kernel⟩, ?_⟩
  exact not_agree_of_directory rfl rfl

end FilesystemObjectStore

end WorkspaceOs
