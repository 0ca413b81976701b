import WorkspaceOs.Adapters.FilesystemObjectStore

/-!
# The tree below the root

Below a root that was empty there stands only what keys name: directories that `put` can reach, and
the files that it wrote.
-/

namespace WorkspaceOs

open Js Posix

/-! ### Names and texts -/

/-- A segment that leads down. -/
def IsPlain (segment : JsString) : Prop := Path.IsSegment segment ∧ segment ≠ ".."

/-- What a name is read back as leads down as well. -/
lemma IsPlain.fromUtf8_utf8 {segment : JsString} (h : IsPlain segment) :
    IsPlain (fromUtf8 (utf8 segment)) := by
  -- what is read back has the same bytes, and a string of ASCII has them for itself
  have hascii {s : JsString} (hs : IsAscii s) (hne : segment ≠ s) :
      fromUtf8 (utf8 segment) ≠ s := by
    rintro rfl
    exact hne (eq_of_utf8_eq hs utf8_fromUtf8_utf8.symm)
  obtain ⟨⟨hslash, hidle⟩, hup⟩ := h
  refine ⟨⟨?_, ?_⟩, hascii (.of_all rfl) hup⟩
  · rwa [mem_fromUtf8_utf8 (by decide)]
  · rintro (hnil | hdot)
    · exact hascii (.of_all rfl) (fun hnil => hidle (.inl hnil)) hnil
    · exact hascii (.of_all rfl) (fun hdot => hidle (.inr hdot)) hdot

lemma utf8_intercalate {parts parts' : List JsString} (h : parts.map utf8 = parts'.map utf8) :
    utf8 ([0x2F].intercalate parts) = utf8 ([0x2F].intercalate parts') := by
  induction parts generalizing parts' with
  | nil => rw [List.map_eq_nil_iff.mp h.symm]
  | cons part parts ih =>
    obtain ⟨part', parts', rfl⟩ : ∃ part' parts'', parts' = part' :: parts'' := by
      cases parts' with
      | nil => cases h
      | cons part' parts' => exact ⟨part', parts', rfl⟩
    rw [List.map_cons, List.map_cons, List.cons.injEq] at h
    obtain ⟨hpart, hparts⟩ := h
    have hrest := ih hparts
    cases parts with
    | nil =>
      obtain rfl := List.map_eq_nil_iff.mp hparts.symm
      simpa using hpart
    | cons next parts =>
      cases parts' with
      | nil => cases hparts
      | cons next' parts' =>
        simp only [List.intercalate_cons_cons, List.append_assoc, List.singleton_append]
        rw [utf8_append_cons (by decide), utf8_append_cons (by decide), hpart, hrest]

lemma utf8_render {absolute trailing : Bool} {parts parts' : List JsString}
    (h : parts.map utf8 = parts'.map utf8) :
    utf8 (Path.render absolute parts trailing) = utf8 (Path.render absolute parts' trailing) := by
  have hempty : parts = [] ↔ parts' = [] := by
    rw [← List.map_eq_nil_iff (f := utf8), h, List.map_eq_nil_iff]
  have hparts := utf8_intercalate h
  have hbefore {s t : JsString} (h : utf8 s = utf8 t) : utf8 (0x2F :: s) = utf8 (0x2F :: t) := by
    have hs (s : JsString) : utf8 (0x2F :: s) = _ := utf8_append_cons (s := []) (t := s) (by decide)
    rw [hs, hs, h]
  have hafter {s t : JsString} (h : utf8 s = utf8 t) : utf8 (s ++ [0x2F]) = utf8 (t ++ [0x2F]) := by
    rw [utf8_append_cons (by decide), utf8_append_cons (by decide), h]
  simp only [Path.render]
  by_cases hnil : parts = []
  · rw [if_pos hnil, if_pos (hempty.mp hnil)]
  · rw [if_neg hnil, if_neg (hempty.not.mp hnil)]
    cases absolute <;> cases trailing
    · simpa using hparts
    · simpa using hafter hparts
    · simpa using hbefore hparts
    · simpa using hafter (hbefore hparts)

namespace FilesystemObjectStore

variable {store : FilesystemObjectStore} {host : Host} {disk : FileSystem}
  {key path segment : JsString} {segments segments' : List JsString} {trailing : Bool}

lemma isPlain_of_resolveKey (h : store.resolveKey key = .ok path) :
    ∀ segment ∈ Path.segments key, IsPlain segment :=
  (descends_of_resolveKey h).isSegment

/-- The segments of the directory of a key. -/
lemma isPlain_dropLast (h : store.resolveKey key = .ok path) :
    ∀ segment ∈ (Path.segments key).dropLast, IsPlain segment :=
  fun segment hsegment => isPlain_of_resolveKey h segment (List.dropLast_subset _ hsegment)

lemma isSegment_text (hplain : ∀ segment ∈ segments, IsPlain segment) :
    ∀ part ∈ Path.reduce (!Path.isAbsolute store.root) (Path.segments store.root) ++ segments,
      Path.IsSegment part :=
  isSegment_of_mem_text fun segment hsegment => (hplain segment hsegment).1

lemma segments_text (hplain : ∀ segment ∈ segments, IsPlain segment) :
    Path.segments (store.text segments trailing) =
      Path.reduce (!Path.isAbsolute store.root) (Path.segments store.root) ++ segments :=
  Path.segments_render (isSegment_text hplain)

lemma isAbsolute_text (hplain : ∀ segment ∈ segments, IsPlain segment) :
    Path.isAbsolute (store.text segments trailing) = Path.isAbsolute store.root :=
  Path.isAbsolute_render (isSegment_text hplain)

lemma start_text (hplain : ∀ segment ∈ segments, IsPlain segment) :
    host.start (store.text segments trailing) = host.start store.root := by
  rw [Host.start, Host.start, isAbsolute_text hplain]

lemma endsIdle_text (hplain : ∀ segment ∈ segments, IsPlain segment) (hne : segments ≠ []) :
    Path.endsIdle (store.text segments trailing) = trailing := by
  rw [Bool.eq_iff_iff, text, Path.endsIdle_render (isSegment_text hplain)]
  simp [hne]

lemma dirname_text (hplain : ∀ segment ∈ segments, IsPlain segment) (hne : segments ≠ []) :
    Path.dirname (store.text segments trailing) = store.text segments.dropLast false := by
  rw [text, Path.dirname_render (isSegment_text hplain), List.dropLast_append_of_ne_nil hne, text]

lemma utf8_text (h : segments.map utf8 = segments'.map utf8) :
    utf8 (store.text segments trailing) = utf8 (store.text segments' trailing) := by
  apply utf8_render
  rw [List.map_append, List.map_append, h]

/-- When a path is not refused, its directory is not refused. -/
lemma refusal?_text_dropLast (hplain : ∀ segment ∈ segments, IsPlain segment)
    (hne : segments ≠ []) (h : host.refusal? (store.text segments trailing) = none) :
    host.refusal? (store.text segments.dropLast false) = none := by
  obtain ⟨segments, segment, rfl⟩ := (List.eq_nil_or_concat segments).resolve_left hne
  rw [List.concat_eq_append] at hplain h ⊢
  have hbefore : ∀ segment ∈ segments, IsPlain segment :=
    fun segment hsegment => hplain segment (List.mem_append_left _ hsegment)
  rw [List.dropLast_concat]
  by_cases hempty : Path.reduce (!Path.isAbsolute store.root) (Path.segments store.root) ++
      segments = []
  · obtain ⟨-, hpath, hlength⟩ := Host.refusal?_eq_none.mp h
    have hone : 1 ≤ host.pathMax := by
      refine le_trans (List.length_pos_of_ne_nil fun hnil => hpath ?_) hlength
      exact eq_of_utf8_eq (by simp [IsAscii]) hnil
    rw [text, hempty]
    cases Path.isAbsolute store.root
    · exact Host.refusal?_eq_none.mpr ⟨by decide, by decide, hone⟩
    · exact Host.refusal?_eq_none.mpr ⟨by decide, by decide, hone⟩
  · rw [text, ← List.append_assoc, Path.render_concat_of_ne_nil hempty] at h
    exact Host.refusal?_before_slash h (Path.render_ne_nil (isSegment_text hbefore))

/-- The same for every path above. -/
lemma refusal?_text_append (hplain : ∀ segment ∈ segments ++ segments', IsPlain segment)
    (hne : segments' ≠ [])
    (h : host.refusal? (store.text (segments ++ segments') trailing) = none) :
    host.refusal? (store.text segments false) = none := by
  induction segments' using List.reverseRecOn generalizing trailing with
  | nil => exact absurd rfl hne
  | append_singleton segments' segment ih =>
    have hdirectory := refusal?_text_dropLast hplain (by simp) h
    rw [← List.append_assoc, List.dropLast_concat] at hdirectory
    by_cases hempty : segments' = []
    · rwa [hempty, List.append_nil] at hdirectory
    · refine ih (fun segment hsegment => hplain segment ?_) hempty hdirectory
      rw [← List.append_assoc]
      exact List.mem_append_left _ hsegment

/-! ### Ways from the root -/

/-- The root of the store is a directory, which its normalized path leads to. -/
structure HasRoot (store : FilesystemObjectStore) (host : Host) (disk : FileSystem) : Prop where
  reached : host.follow disk (host.start store.root)
    (Path.reduce (!Path.isAbsolute store.root) (Path.segments store.root)) =
      .ok (store.location host)
  directory : disk.status (store.location host) = some .directory

/-- Below the root a path is followed from there. -/
lemma HasRoot.locate (hroot : store.HasRoot host disk)
    (hplain : ∀ segment ∈ segments, IsPlain segment)
    (h : host.refusal? (store.text segments trailing) = none) :
    host.locate disk (store.text segments trailing) =
      host.follow disk (store.location host) segments := by
  rw [Host.locate, h, start_text hplain, segments_text hplain]
  exact Host.follow_append hroot.reached

/-- The directories on the way to the root are there. -/
lemma HasRoot.mkdir (hroot : store.HasRoot host disk)
    (hplain : ∀ segment ∈ segments, IsPlain segment)
    (h : host.refusal? (store.text segments trailing) = none) :
    host.mkdir disk (store.text segments trailing) =
      host.mkdirs disk (store.location host) segments := by
  rw [Host.mkdir, h, start_text hplain, segments_text hplain]
  exact Host.mkdirs_append_of_follow hroot.reached hroot.directory

lemma HasRoot.mono {disk' : FileSystem} (hroot : store.HasRoot host disk)
    (hkept : ∀ p, disk.status p = some .directory → disk'.status p = some .directory) :
    store.HasRoot host disk' :=
  ⟨Host.follow_mono hkept hroot.reached, hkept _ hroot.directory⟩

lemma resolveKey_text_of_ne_nil (h : store.resolveKey key = .ok path)
    (hne : Path.segments key ≠ []) :
    path = store.text (Path.segments key) (key.getLast? = some 0x2F) := by
  obtain ⟨trailing, hpath, htrailing⟩ := resolveKey_text h
  rw [hpath, htrailing]
  rintro rfl
  exact hne Path.segments_nil

/-! ### What the calls do -/

variable {data : Bytes}

/-- A file is written at the end of its path, where no directory stands. -/
lemma HasRoot.writeFile_cases (hroot : store.HasRoot host disk)
    (hplain : ∀ segment ∈ segments, IsPlain segment) :
    (∃ errno, host.writeFile disk (store.text segments trailing) data = (disk, .error errno)) ∨
      host.refusal? (store.text segments trailing) = none ∧ segments ≠ [] ∧ trailing = false ∧
      (∀ segment ∈ segments, (utf8 segment).length ≤ host.nameMax) ∧
      disk.status (store.location host ++ segments.map utf8) ≠ some .directory ∧
      host.writeFile disk (store.text segments trailing) data =
        (disk.put (store.location host ++ segments.map utf8) (.file data), .ok ()) := by
  cases hrefusal : host.refusal? (store.text segments trailing) with
  | some errno =>
    left
    rw [Host.writeFile, Host.locate, hrefusal]
    exact ⟨errno, rfl⟩
  | none =>
    rw [Host.writeFile, hroot.locate hplain hrefusal]
    cases hfollow : host.follow disk (store.location host) segments with
    | error errno => exact .inl ⟨errno, rfl⟩
    | ok position =>
      obtain ⟨rfl, hshort⟩ := Host.follow_eq_ok (fun segment h => (hplain segment h).2) hfollow
      dsimp only
      split_ifs with hidle hdirectory
      · exact .inl ⟨_, rfl⟩
      · exact .inl ⟨_, rfl⟩
      · have hne : segments ≠ [] := by
          rintro rfl
          rw [List.map_nil, List.append_nil] at hdirectory
          exact hdirectory hroot.directory
        rw [endsIdle_text hplain hne, Bool.not_eq_true] at hidle
        exact .inr ⟨rfl, hne, hidle, hshort, hdirectory, rfl⟩

/-- The directories on the way to the directory of the root are there, too. -/
lemma HasRoot.mkdir_dirname_root (hroot : store.HasRoot host disk) :
    (∃ errno, host.mkdir disk (Path.dirname (store.text [] trailing)) = (disk, .error errno)) ∨
      host.mkdir disk (Path.dirname (store.text [] trailing)) = (disk, .ok ()) := by
  have hparts := @isSegment_text store [] (by simp)
  cases hrefusal : host.refusal? (Path.dirname (store.text [] trailing)) with
  | some errno =>
    left
    rw [Host.mkdir, hrefusal]
    exact ⟨errno, rfl⟩
  | none =>
    right
    rw [Host.mkdir, hrefusal, text, Path.segments_dirname hparts, Host.start,
      Path.isAbsolute_dirname hparts, List.append_nil]
    exact Host.mkdirs_dropLast hroot.reached hroot.directory

/-- The path of the root is written by no call. -/
lemma HasRoot.put_of_empty {data : ObjectData} (hroot : store.HasRoot host disk)
    (h : store.resolveKey key = .ok path) (hempty : Path.segments key = []) :
    ∃ error, store.put host disk key data = (disk, .error error) := by
  obtain ⟨trailing, rfl, -⟩ := resolveKey_text h
  rw [hempty] at h
  rw [put, h]
  dsimp only
  rcases hroot.mkdir_dirname_root with ⟨errno, hmkdir⟩ | hmkdir
  · rw [hmkdir]
    exact ⟨.system errno, rfl⟩
  · rw [hmkdir]
    dsimp only
    rcases @HasRoot.writeFile_cases store host disk [] trailing data.toBytes hroot (by simp) with
      ⟨errno, hwrite⟩ | ⟨-, hne, -⟩
    · rw [hwrite]
      exact ⟨.system errno, rfl⟩
    · exact absurd rfl hne

/-- A call of `put` writes nothing, or makes directories, or also writes its file. -/
lemma HasRoot.put_cases {data : ObjectData} (hroot : store.HasRoot host disk)
    (h : store.resolveKey key = .ok path) :
    (∃ error, store.put host disk key data = (disk, .error error)) ∨
      Path.segments key ≠ [] ∧
      host.refusal? (store.text (Path.segments key).dropLast false) = none ∧
      ((∃ error, store.put host disk key data =
        ((host.mkdirs disk (store.location host) (Path.segments key).dropLast).1, .error error)) ∨
      host.refusal? path = none ∧ key.getLast? ≠ some 0x2F ∧
      (∀ segment ∈ Path.segments key, (utf8 segment).length ≤ host.nameMax) ∧
      (host.mkdirs disk (store.location host) (Path.segments key).dropLast).2 = .ok () ∧
      (host.mkdirs disk (store.location host) (Path.segments key).dropLast).1.status
        (store.place host key) ≠ some .directory ∧
      store.put host disk key data =
        ((host.mkdirs disk (store.location host) (Path.segments key).dropLast).1.put
          (store.place host key) (.file data.toBytes), .ok ())) := by
  have hplain := isPlain_of_resolveKey h
  by_cases hempty : Path.segments key = []
  · exact .inl (hroot.put_of_empty h hempty)
  · obtain rfl := resolveKey_text_of_ne_nil h hempty
    have hinit := isPlain_dropLast h
    rw [put, h]
    dsimp only
    rw [dirname_text hplain hempty]
    cases hrefusal : host.refusal? (store.text (Path.segments key).dropLast false) with
    | some errno =>
      left
      rw [Host.mkdir, hrefusal]
      exact ⟨.system errno, rfl⟩
    | none =>
      refine .inr ⟨hempty, rfl, ?_⟩
      rw [hroot.mkdir hinit hrefusal]
      have hmade : store.HasRoot host
          (host.mkdirs disk (store.location host) (Path.segments key).dropLast).1 :=
        hroot.mono fun p => Host.status_mkdirs_of_some
          fun segment hsegment => (hinit segment hsegment).2
      generalize host.mkdirs disk (store.location host) (Path.segments key).dropLast = made at *
      obtain ⟨made, result⟩ := made
      cases result with
      | error errno => exact .inl ⟨_, rfl⟩
      | ok _ =>
        rcases @HasRoot.writeFile_cases store host made (Path.segments key)
          (key.getLast? = some 0x2F) data.toBytes hmade hplain with
          ⟨errno, hwrite⟩ | ⟨hpath, -, htrailing, hshort, hdirectory, hwrite⟩
        · refine .inl ⟨.system errno, ?_⟩
          dsimp only
          rw [hwrite]
          rfl
        · refine .inr ⟨hpath, by simpa using htrailing, hshort, rfl, hdirectory, ?_⟩
          dsimp only
          rw [hwrite]
          rfl

/-- Where the directories for a key could be made its file stands after it is put. -/
lemma status_put_place {made : FileSystem} {node : Node Bytes} (hne : Path.segments key ≠ [])
    (hparent : made.status (store.location host ++ (Path.segments key).dropLast.map utf8) =
      some .directory)
    (hfree : made.status (store.place host key) ≠ some .directory) (p : List Bytes) :
    (made.put (store.place host key) node).status p =
      if p = store.place host key then some node else made.status p := by
  refine Disk.status_put ?_ hfree p
  rwa [place, List.dropLast_append_of_ne_nil (by simpa using hne), ← List.map_dropLast]

/-- A call of `delete` does nothing, or removes its file. -/
lemma HasRoot.delete_cases (hroot : store.HasRoot host disk)
    (h : store.resolveKey key = .ok path) :
    (store.delete host disk key).1 = disk ∨
      host.refusal? path = none ∧ key.getLast? ≠ some 0x2F ∧
      (∃ data, disk.status (store.place host key) = some (.file data)) ∧
      store.delete host disk key = (disk.unlink (store.place host key), .ok ()) := by
  have hplain := isPlain_of_resolveKey h
  rw [delete, h]
  dsimp only
  rw [Host.rm]
  split
  · exact .inl rfl
  · exact .inl rfl
  · rename_i position hlocate
    obtain ⟨hrefusal, -⟩ := Host.locate_eq_ok hlocate
    rw [Host.locate_resolve hlocate, resolve_resolveKey h]
    split
    · exact .inl rfl
    · rename_i data hfile
      split_ifs with hidle
      · exact .inl rfl
      · refine .inr ⟨hrefusal, ?_, ⟨data, hfile⟩, rfl⟩
        have hne : Path.segments key ≠ [] := by
          intro hempty
          rw [place, hempty, List.map_nil, List.append_nil, hroot.directory] at hfile
          cases hfile
        obtain rfl := resolveKey_text_of_ne_nil h hne
        rw [endsIdle_text hplain hne] at hidle
        simpa using hidle
    · exact .inl rfl

/-! ### Runs -/

/-- A call that writes. -/
inductive Call where
  | put (key : JsString) (data : ObjectData)
  | delete (key : JsString)

def run (store : FilesystemObjectStore) (host : Host) (disk : FileSystem) :
    Call → FileSystem × Except ObjectStoreError Unit
  | .put key data => store.put host disk key data
  | .delete key => store.delete host disk key

/-- The disk after some calls, each of which may have failed. -/
def after (store : FilesystemObjectStore) (host : Host) (disk : FileSystem) (calls : List Call) :
    FileSystem :=
  calls.foldl (fun disk call => (store.run host disk call).1) disk

/-- The names are those of a path that can be below the root. -/
def Named (store : FilesystemObjectStore) (host : Host) (names : List Bytes) (node : Node Bytes) :
    Prop :=
  ∃ segments : List JsString, names = segments.map utf8 ∧ (∀ segment ∈ segments, IsPlain segment) ∧
    (∀ segment ∈ segments, (utf8 segment).length ≤ host.nameMax) ∧
    (node = .directory → host.refusal? (store.text segments false) = none)

/-- The root is there, and what is below it is named. -/
structure Rooted (store : FilesystemObjectStore) (host : Host) (disk : FileSystem) : Prop where
  located : host.locate disk store.root = .ok (store.location host)
  directory : disk.status (store.location host) = some .directory
  named : ∀ names node, names ≠ [] → disk.status (store.location host ++ names) = some node →
    store.Named host names node

lemma Rooted.hasRoot (hroot : store.Rooted host disk) : store.HasRoot host disk :=
  ⟨Host.follow_normalize hroot.located, hroot.directory⟩

/-- An empty root, by what `readdir` says of it. -/
lemma rooted_of_readdir (h : host.readdir disk store.root = .ok []) : store.Rooted host disk ∧
    ∀ names, names ≠ [] → disk.status (store.location host ++ names) = none := by
  rw [Host.readdir] at h
  split at h
  · cases h
  · rename_i position hlocate
    obtain rfl := Host.locate_resolve hlocate
    split at h
    · cases h
    · cases h
    · rename_i hdirectory
      have hempty : ∀ names, names ≠ [] → disk.status (store.location host ++ names) = none := by
        intro names hne
        obtain ⟨name, rest, rfl⟩ := List.exists_cons_of_ne_nil hne
        have hnone : disk.status (store.location host ++ [name]) = none := by
          cases hstatus : disk.status (store.location host ++ [name]) with
          | none => rfl
          | some node =>
            have hmem : ⟨name, node.isDirectory⟩ ∈ disk.children (store.location host) :=
              Disk.mem_children.mpr ⟨node, hstatus, rfl⟩
            rw [location, Except.ok.inj h] at hmem
            exact absurd hmem List.not_mem_nil
        rw [List.append_cons]
        exact Disk.status_append_of_none hnone
      refine ⟨⟨hlocate, hdirectory, fun names node hne hnode => ?_⟩, hempty⟩
      rw [hempty names hne] at hnode
      cases hnode

lemma Rooted.mono {disk' : FileSystem} (hroot : store.Rooted host disk)
    (hkept : ∀ p, disk.status p = some .directory → disk'.status p = some .directory)
    (hnamed : ∀ names node, disk'.status (store.location host ++ names) = some node →
      disk.status (store.location host ++ names) = some node ∨ store.Named host names node) :
    store.Rooted host disk' := by
  refine ⟨?_, hkept _ hroot.directory, fun names node hne hnode => ?_⟩
  · obtain ⟨hrefusal, hfollow⟩ := Host.locate_eq_ok hroot.located
    rw [Host.locate, hrefusal]
    exact Host.follow_mono hkept hfollow
  · rcases hnamed names node hnode with hold | hnew
    · exact hroot.named names node hne hold
    · exact hnew

/-- Directories that are made below the root are named. -/
lemma Rooted.mkdirs (hroot : store.Rooted host disk)
    (hplain : ∀ segment ∈ segments, IsPlain segment)
    (hrefusal : host.refusal? (store.text segments false) = none) :
    store.Rooted host (host.mkdirs disk (store.location host) segments).1 := by
  have hup : ∀ segment ∈ segments, segment ≠ ".." := fun segment h => (hplain segment h).2
  refine hroot.mono (fun p => Host.status_mkdirs_of_some hup) fun names node hnode => ?_
  rcases @Host.status_mkdirs host disk (store.location host) segments hup
    (store.location host ++ names) with hsame | ⟨-, hmade, taken, rest, rfl, -, hp, hshort⟩
  · exact .inl (hsame ▸ hnode)
  · obtain rfl := List.append_cancel_left hp
    refine .inr ⟨taken, rfl, fun segment h => hplain segment (List.mem_append_left _ h), hshort, ?_⟩
    intro _
    by_cases hempty : rest = []
    · rwa [hempty, List.append_nil] at hrefusal
    · exact refusal?_text_append hplain hempty hrefusal

/-- A call keeps the root and what is named below it. -/
lemma Rooted.put {data : ObjectData} (hroot : store.Rooted host disk) :
    store.Rooted host (store.put host disk key data).1 := by
  cases h : store.resolveKey key with
  | error error =>
    rw [FilesystemObjectStore.put, h]
    exact hroot
  | ok path =>
    have hplain := isPlain_of_resolveKey h
    have hinit := isPlain_dropLast h
    rcases @HasRoot.put_cases store host disk key path data hroot.hasRoot h with
      ⟨error, hput⟩ | ⟨hne, hrefusal, ⟨error, hput⟩ | ⟨-, -, hshort, hok, hfree, hput⟩⟩
    · rwa [hput]
    · rw [hput]
      exact hroot.mkdirs hinit hrefusal
    · rw [hput]
      have hmade := hroot.mkdirs hinit hrefusal
      have hparent := Host.status_mkdirs_of_ok (fun segment h => (hinit segment h).2) hok
      have hstatus := @status_put_place store host key _ (.file data.toBytes) hne hparent hfree
      refine hmade.mono (fun p hp => ?_) fun names node hnode => ?_
      · rw [hstatus, if_neg, hp]
        rintro rfl
        exact hfree hp
      · rw [hstatus] at hnode
        split_ifs at hnode with hplace
        · obtain rfl := List.append_cancel_left hplace
          cases hnode
          exact .inr ⟨Path.segments key, rfl, hplain, hshort, by simp⟩
        · exact .inl hnode

lemma Rooted.delete (hroot : store.Rooted host disk) :
    store.Rooted host (store.delete host disk key).1 := by
  cases h : store.resolveKey key with
  | error error =>
    rw [FilesystemObjectStore.delete, h]
    exact hroot
  | ok path =>
    rcases hroot.hasRoot.delete_cases h with hsame | ⟨-, -, ⟨data, hfile⟩, hdelete⟩
    · rwa [hsame]
    · rw [hdelete]
      have hstatus := @Disk.status_unlink _ _ _ disk (store.place host key) (by simp [hfile])
      refine hroot.mono (fun p hp => ?_) fun names node hnode => ?_
      · rw [hstatus, if_neg, hp]
        rintro rfl
        rw [hp] at hfile
        cases hfile
      · rw [hstatus] at hnode
        split_ifs at hnode
        exact .inl hnode

lemma Rooted.after (hroot : store.Rooted host disk) (calls : List Call) :
    store.Rooted host (store.after host disk calls) := by
  induction calls generalizing disk with
  | nil => exact hroot
  | cons call calls ih =>
    apply ih
    cases call with
    | put key data => exact hroot.put
    | delete key => exact hroot.delete

end FilesystemObjectStore

end WorkspaceOs
