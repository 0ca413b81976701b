import WorkspaceOs.Posix.Calls

/-!
# The object store on a file system

A key is a path below the root of the store. The store checks a key for parts that lead up and joins
it to the root; everything else is left to the paths and the calls. What it writes is returned with
the disk, also when it fails.
-/

namespace WorkspaceOs

open Js Posix

/-- What the calls of an object store throw. -/
inductive ObjectStoreError where
  | invalidObjectKey (key : JsString)
  | objectNotFound (key : JsString)
  /-- What a call on the disk fails with. -/
  | system (errno : Errno)
deriving DecidableEq

/-- `Uint8Array | string`. -/
inductive ObjectData where
  | bytes (data : Bytes)
  | text (data : JsString)

def ObjectData.toBytes : ObjectData → Bytes
  | .bytes data => data
  | .text data => utf8 data

/-- The order of `Array.prototype.sort`. -/
def notAfter : JsString → JsString → Bool
  | [], _ => true
  | _ :: _, [] => false
  | c :: s, d :: t => if c = d then notAfter s t else c < d

structure FilesystemObjectStore where
  root : JsString

namespace FilesystemObjectStore

variable (store : FilesystemObjectStore) (host : Host) (disk : FileSystem)

/-- The separators that the check of a key knows. -/
def isSeparator (c : UInt16) : Bool := c == 0x5C || c == 0x2F

/-- `resolveKey`. -/
def resolveKey (key : JsString) : Except ObjectStoreError JsString :=
  if Path.isAbsolute key || (key.splitOnP isSeparator).any fun part => part = ".." then
    .error (.invalidObjectKey key)
  else .ok (Path.join store.root key)

/-- `put`. -/
def put (key : JsString) (data : ObjectData) : FileSystem × Except ObjectStoreError Unit :=
  match store.resolveKey key with
  | .error error => (disk, .error error)
  | .ok path =>
    let made := host.mkdir disk (Path.dirname path)
    match made.2 with
    | .error errno => (made.1, .error (.system errno))
    | .ok () =>
      let written := host.writeFile made.1 path data.toBytes
      (written.1, written.2.mapError .system)

/-- `get`. -/
def get (key : JsString) : Except ObjectStoreError Bytes :=
  match store.resolveKey key with
  | .error error => .error error
  | .ok path =>
    match host.readFile disk path with
    | .ok data => .ok data
    | .error .noEntry => .error (.objectNotFound key)
    | .error errno => .error (.system errno)

/-- `delete`. -/
def delete (key : JsString) : FileSystem × Except ObjectStoreError Unit :=
  match store.resolveKey key with
  | .error error => (disk, .error error)
  | .ok path =>
    let removed := host.rm disk path
    (removed.1, removed.2.mapError .system)

/-- `exists`. -/
def «exists» (key : JsString) : Except ObjectStoreError Bool :=
  match store.resolveKey key with
  | .error error => .error error
  | .ok path =>
    match host.stat disk path with
    | .ok _ => .ok true
    | .error .noEntry => .ok false
    | .error errno => .error (.system errno)

/-- What a loop that may fail adds to the results, entry by entry. -/
def gather {α : Type} (visit : α → Except Errno (List JsString)) :
    List α → Except Errno (List JsString)
  | [] => .ok []
  | entry :: entries =>
    match visit entry, gather visit entries with
    | .ok results, .ok more => .ok (results ++ more)
    | .error errno, _ => .error errno
    | .ok _, .error errno => .error errno

/-- `walk`. It goes down at most as many levels as there are on the disk. -/
def walk : ℕ → JsString → Except Errno (List JsString)
  | 0, _ => .ok []
  | levels + 1, dir =>
    match host.readdir disk dir with
    | .error .noEntry => .ok []
    | .error errno => .error errno
    | .ok entries =>
      gather (fun entry =>
        let fullPath := Path.join dir (fromUtf8 entry.name)
        if entry.isDirectory then walk levels fullPath
        else
          let path := Path.relative host.cwd store.root fullPath
          .ok [[0x2F].intercalate (path.splitOn 0x2F)]) entries

/-- `list`. -/
def list (keyPrefix : JsString) : Except ObjectStoreError (List JsString) :=
  match store.walk host disk (disk.height + 1) store.root with
  | .error errno => .error (.system errno)
  | .ok results =>
    .ok ((results.filter fun key => keyPrefix.isPrefixOf key).mergeSort notAfter)

/-! ### Keys and paths -/

variable {store} {host} {disk} {key path : JsString}

lemma resolveKey_eq : store.resolveKey key = .ok path ↔ path = Path.join store.root key ∧
    Path.isAbsolute key = false ∧ ∀ part ∈ key.splitOnP isSeparator, part ≠ ".." := by
  rw [resolveKey]
  split_ifs with h
  · simp only [Bool.or_eq_true, List.any_eq_true, decide_eq_true_eq] at h
    simp only [false_iff, not_and, not_forall, not_not]
    rintro - habsolute
    rcases h with h | ⟨part, hpart, hup⟩
    · rw [habsolute] at h
      cases h
    · exact ⟨part, hpart, hup⟩
  · simp only [Bool.or_eq_true, List.any_eq_true, decide_eq_true_eq, not_or, not_exists,
      Bool.not_eq_true, not_and] at h
    simp only [Except.ok.injEq]
    exact ⟨fun hpath => ⟨hpath.symm, h.1, h.2⟩, fun hpath => hpath.1.symm⟩

/-- A key that passes the check does not lead up, whatever its slashes are. -/
lemma descends_of_resolveKey (h : store.resolveKey key = .ok path) : Path.Descends key := by
  obtain ⟨-, habsolute, hparts⟩ := resolveKey_eq.mp h
  refine ⟨habsolute, fun hup => hparts ".." ?_ rfl⟩
  rw [JsString.splitOnP_eq_flatMap (c := 0x2F) rfl]
  exact List.mem_flatMap.mpr ⟨_, (Path.mem_segments.mp hup).1, by decide⟩

/-- The text of a path below the root. -/
def text (store : FilesystemObjectStore) (segments : List JsString) (trailing : Bool) : JsString :=
  Path.render (Path.isAbsolute store.root)
    (Path.reduce (!Path.isAbsolute store.root) (Path.segments store.root) ++ segments) trailing

lemma resolveKey_text (h : store.resolveKey key = .ok path) :
    ∃ trailing, path = store.text (Path.segments key) trailing ∧
      (key ≠ [] → trailing = decide (key.getLast? = some 0x2F)) := by
  obtain ⟨rfl, -⟩ := resolveKey_eq.mp h
  by_cases hempty : key = []
  · subst hempty
    by_cases hroot : store.root = []
    · refine ⟨false, ?_, by simp⟩
      rw [Path.join_nil, text, hroot]
      rfl
    · refine ⟨store.root.getLast? = some 0x2F, ?_, by simp⟩
      rw [Path.join_nil, Path.normalize_eq hroot, text, Path.segments_nil, List.append_nil]
  · exact ⟨key.getLast? = some 0x2F, Path.join_eq (descends_of_resolveKey h) hempty, fun _ => rfl⟩

/-- What the text of a path is made of. -/
lemma isSegment_of_mem_text {segments : List JsString}
    (h : ∀ segment ∈ segments, Path.IsSegment segment) :
    ∀ part ∈ Path.reduce (!Path.isAbsolute store.root) (Path.segments store.root) ++ segments,
      Path.IsSegment part := by
  intro part hpart
  rcases List.mem_append.mp hpart with hpart | hpart
  · exact Path.isSegment_of_mem_reduce hpart
  · exact h part hpart

/-- The position of the root. -/
def location (store : FilesystemObjectStore) (host : Host) : List Bytes :=
  (Path.resolve host.cwd store.root).map utf8

/-- The position that a key stands for. -/
def place (store : FilesystemObjectStore) (host : Host) (key : JsString) : List Bytes :=
  store.location host ++ (Path.segments key).map utf8

lemma resolve_resolveKey (h : store.resolveKey key = .ok path) :
    (Path.resolve host.cwd path).map utf8 = store.place host key := by
  have hdescends := descends_of_resolveKey h
  obtain ⟨rfl, -⟩ := resolveKey_eq.mp h
  rw [Path.resolve_join hdescends, List.map_append]
  rfl

/-! ### Staying below the root -/

/-- What leads to the directory of a path below the root leads to the root, or is below it. -/
lemma prefix_of_dirname {p : List Bytes} (h : store.resolveKey key = .ok path)
    (hp : p <+: (Path.resolve host.cwd (Path.dirname path)).map utf8) :
    p <+: store.location host ∨ store.location host <+: p := by
  have hplace := @resolve_resolveKey store host key path h
  have hlocation : store.location host <+: store.place host key := List.prefix_append _ _
  rw [← hplace] at hlocation
  obtain ⟨trailing, rfl, -⟩ := resolveKey_text h
  rcases Path.resolve_dirname (isSegment_of_mem_text fun segment => Path.isSegment_of_mem) with
    habove | hbelow
  · exact List.prefix_or_prefix_of_prefix (hp.trans (habove.map utf8)) hlocation
  · exact List.prefix_or_prefix_of_prefix hp (hlocation.trans (hbelow.map utf8))

lemma upsFirst_dirname (h : store.resolveKey key = .ok path) :
    Path.UpsFirst (Path.segments (Path.dirname path)) := by
  have hdescends := descends_of_resolveKey h
  obtain ⟨trailing, rfl, -⟩ := resolveKey_text h
  rw [text, Path.segments_dirname (isSegment_of_mem_text fun segment => Path.isSegment_of_mem)]
  refine List.Pairwise.sublist (List.dropLast_sublist _) ?_
  exact Path.upsFirst_reduce.append fun part hpart => (hdescends.isSegment part hpart).2

lemma put_outside {data : ObjectData} {p : List Bytes} (h : store.resolveKey key = .ok path)
    (hp : ¬ store.location host <+: p) :
    (store.put host disk key data).1.status p = disk.status p ∨
      disk.status p = none ∧ (store.put host disk key data).1.status p = some .directory ∧
        p <+: store.location host := by
  have hplace : p ≠ (Path.resolve host.cwd path).map utf8 := by
    rw [resolve_resolveKey h]
    rintro rfl
    exact hp (List.prefix_append _ _)
  have hmade : (store.put host disk key data).1.status p =
      (host.mkdir disk (Path.dirname path)).1.status p := by
    rw [put, h]
    dsimp only
    split
    · rfl
    · exact Host.status_writeFile hplace
  rw [hmade]
  rcases @Host.status_mkdir host disk _ p (upsFirst_dirname h) with
    hsame | ⟨hnone, hdirectory, hprefix⟩
  · exact .inl hsame
  · exact .inr ⟨hnone, hdirectory, (prefix_of_dirname h hprefix).resolve_right hp⟩

lemma delete_outside {p : List Bytes} (h : store.resolveKey key = .ok path)
    (hp : ¬ store.location host <+: p) :
    (store.delete host disk key).1.status p = disk.status p := by
  rw [delete, h]
  apply Host.status_rm
  rw [resolve_resolveKey h]
  rintro rfl
  exact hp (List.prefix_append _ _)

lemma get_inside {data : Bytes} (h : store.resolveKey key = .ok path)
    (hget : store.get host disk key = .ok data) :
    disk.status (store.place host key) = some (.file data) := by
  rw [get, h] at hget
  dsimp only at hget
  split at hget
  · rename_i hread
    cases hget
    rw [← resolve_resolveKey h]
    exact Host.readFile_eq_ok hread
  · cases hget
  · cases hget

lemma exists_inside (h : store.resolveKey key = .ok path)
    (hexists : store.exists host disk key = .ok true) :
    ∃ node, disk.status (store.place host key) = some node := by
  rw [«exists», h] at hexists
  dsimp only at hexists
  split at hexists
  · rename_i node hstat
    rw [← resolve_resolveKey h]
    exact ⟨node, Host.stat_eq_ok hstat⟩
  · cases hexists
  · cases hexists

/-- What the calls with a key change on a disk is at the root or below it, and what they find is at
the place of the key. Where the root is missing, `put` also makes the directories that lead to
it. -/
structure WithinRoot (store : FilesystemObjectStore) (host : Host) (disk : FileSystem)
    (key : JsString) : Prop where
  put : disk.status (store.location host) ≠ none → ∀ data p, ¬ store.location host <+: p →
    (store.put host disk key data).1.status p = disk.status p
  putMissing : ∀ data p, ¬ store.location host <+: p →
    (store.put host disk key data).1.status p = disk.status p ∨
      disk.status p = none ∧ (store.put host disk key data).1.status p = some .directory ∧
        p <+: store.location host
  delete : ∀ p, ¬ store.location host <+: p →
    (store.delete host disk key).1.status p = disk.status p
  get : ∀ data, store.get host disk key = .ok data →
    disk.status (store.place host key) = some (.file data)
  «exists» : store.exists host disk key = .ok true →
    ∃ node, disk.status (store.place host key) = some node
  below : store.location host <+: store.place host key

lemma withinRoot (h : store.resolveKey key = .ok path) : store.WithinRoot host disk key where
  put := by
    intro hroot data p hp
    rcases @put_outside store host disk key path data p h hp with hsame | ⟨hnone, -, rest, hrest⟩
    · exact hsame
    · rw [← hrest, Disk.status_append_of_none hnone] at hroot
      exact absurd rfl hroot
  putMissing := fun data p => put_outside h
  delete := fun p => delete_outside h
  get := fun data => get_inside h
  «exists» := exists_inside h
  below := List.prefix_append _ _

/-- A key that passes the check cannot leave the root: its path goes on from the segments of the
root without leading up, and no call with the key touches anything else. -/
theorem resolveKey_contained (h : store.resolveKey key = .ok path) :
    Path.isAbsolute path = Path.isAbsolute store.root ∧
    (∃ rest, Path.segments path = Path.segments (Path.normalize store.root) ++ rest ∧
      ∀ segment ∈ rest, segment ≠ "..") ∧
    ∀ host disk, store.WithinRoot host disk key := by
  have hdescends := descends_of_resolveKey h
  refine ⟨?_, ⟨Path.segments key, ?_, fun segment hsegment => ?_⟩, fun host disk => withinRoot h⟩
  · rw [(resolveKey_eq.mp h).1, Path.isAbsolute_join hdescends.1]
  · rw [(resolveKey_eq.mp h).1, Path.segments_join hdescends]
  · exact (hdescends.isSegment segment hsegment).2

theorem resolveKey_contained_nested :
    Path.isAbsolute "../data/a/b\\c" = Path.isAbsolute "x/../../data/" ∧
    (∃ rest, Path.segments "../data/a/b\\c" =
      Path.segments (Path.normalize "x/../../data/") ++ rest ∧ ∀ segment ∈ rest, segment ≠ "..") ∧
    ∀ host disk, (FilesystemObjectStore.mk "x/../../data/").WithinRoot host disk "./a//b\\c" :=
  @resolveKey_contained ⟨"x/../../data/"⟩ "./a//b\\c" "../data/a/b\\c" (by decide +kernel)

/-- On a disk with nothing on it, the first `put` also makes the directory that the root is in. -/
theorem put_makes_ancestors : (mk "/data/store").resolveKey "a" = .ok "/data/store/a" ∧
    ¬ ∀ data p, ¬ (mk "/data/store").location ⟨[], 255, 4095⟩ <+: p →
      ((mk "/data/store").put ⟨[], 255, 4095⟩ Disk.empty "a" data).1.status p =
        Disk.empty.status p := by
  refine ⟨by decide +kernel, fun h => ?_⟩
  have hmade : ((mk "/data/store").put ⟨[], 255, 4095⟩ Disk.empty "a" (.bytes [])).1.status
      [utf8 (JsString.ofString "data")] = some .directory := by
    decide +kernel
  rw [h _ _ (by decide +kernel)] at hmade
  cases hmade

end FilesystemObjectStore

end WorkspaceOs
