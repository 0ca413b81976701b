import WorkspaceOs.Adapters.ObjectReaders

/-!
# Keys of the object store

A key stands for the place that its segments name. Keys that are written differently can have the
same place, and a key that is not written as `list` writes it is not found there.
-/

namespace WorkspaceOs

open Js Posix

namespace FilesystemObjectStore

variable {store : FilesystemObjectStore} {host : Host} {disk disk' : FileSystem}
  {key key₁ key₂ path path₁ path₂ : JsString} {data : ObjectData} {bytes : Bytes}

/-- A key that can be put below an empty root. -/
structure Storable (store : FilesystemObjectStore) (host : Host) (key : JsString) : Prop where
  segments : Path.segments key ≠ []
  file : key.getLast? ≠ some 0x2F
  accepted : host.refusal? (Path.join store.root key) = none
  short : ∀ segment ∈ Path.segments key, (utf8 segment).length ≤ host.nameMax

/-- The second key is a file with the names of the first. -/
def SamePlace (key₁ key₂ : JsString) : Prop :=
  (Path.segments key₁).map utf8 = (Path.segments key₂).map utf8 ∧ key₂.getLast? ≠ some 0x2F

/-- What a call with the first key does to the second, and to the first itself. -/
structure Independent (store : FilesystemObjectStore) (host : Host) (disk : FileSystem)
    (key₁ key₂ : JsString) (data : ObjectData) : Prop where
  put : ∀ disk', store.put host disk key₁ data = (disk', .ok ()) →
    (∀ bytes, store.get host disk' key₂ = .ok bytes ↔ store.get host disk key₂ = .ok bytes) ∧
    (∃ keys, store.list host disk' [] = .ok keys ∧ key₁ ∈ keys) ∧
    store.get host disk' key₁ = .ok data.toBytes
  delete : ∀ disk', store.delete host disk key₁ = (disk', .ok ()) →
    ∀ bytes, store.get host disk' key₂ = .ok bytes ↔ store.get host disk key₂ = .ok bytes

/-! ### What a call does to the files -/

/-- Making directories makes no file, and removes none. -/
lemma status_mkdirs_file {position : List Bytes} {segments : List JsString}
    (hplain : ∀ segment ∈ segments, segment ≠ "..") (p : List Bytes) :
    (host.mkdirs disk position segments).1.status p = some (.file bytes) ↔
      disk.status p = some (.file bytes) := by
  constructor
  · intro hfile
    rcases @Host.status_mkdirs host disk position segments hplain p with hsame | ⟨-, hmade, -⟩
    · rw [← hsame, hfile]
    · rw [hfile] at hmade
      cases hmade
  · exact Host.status_mkdirs_of_some hplain

lemma HasRoot.put_ok (hroot : store.HasRoot host disk) (h : store.resolveKey key = .ok path)
    (hput : store.put host disk key data = (disk', .ok ())) :
    store.Storable host key ∧ ∀ p bytes, disk'.status p = some (.file bytes) ↔
      if p = store.place host key then bytes = data.toBytes
      else disk.status p = some (.file bytes) := by
  have hup : ∀ segment ∈ (Path.segments key).dropLast, segment ≠ ".." :=
    fun segment hsegment => (isPlain_dropLast h segment hsegment).2
  rcases @HasRoot.put_cases store host disk key path data hroot h with ⟨error, herror⟩ |
    ⟨hne, -, ⟨error, herror⟩ | ⟨hrefusal, hfile, hshort, hok, hfree, hput'⟩⟩
  · rw [hput] at herror
    cases herror
  · rw [hput] at herror
    cases herror
  · refine ⟨⟨hne, hfile, (resolveKey_eq.mp h).1 ▸ hrefusal, hshort⟩, fun p bytes => ?_⟩
    rw [hput, Prod.mk.injEq] at hput'
    have hparent := Host.status_mkdirs_of_ok hup hok
    rw [hput'.1, status_put_place hne hparent hfree]
    split_ifs
    · simp [eq_comm]
    · exact status_mkdirs_file hup p

lemma Rooted.delete_ok (hroot : store.Rooted host disk) (h : store.resolveKey key = .ok path) :
    (store.delete host disk key).1 = disk ∨
      store.Storable host key ∧ ∀ p bytes,
        (store.delete host disk key).1.status p = some (.file bytes) ↔
          p ≠ store.place host key ∧ disk.status p = some (.file bytes) := by
  rcases hroot.hasRoot.delete_cases h with hsame | ⟨hrefusal, hlast, ⟨bytes', hfile⟩, hdelete⟩
  · exact .inl hsame
  · have hshort := hroot.short hfile
    refine .inr ⟨⟨hroot.segments_ne_nil hfile, hlast, (resolveKey_eq.mp h).1 ▸ hrefusal,
      by simpa using hshort⟩, fun p bytes => ?_⟩
    rw [hdelete, Disk.status_unlink (by simp [hfile])]
    split_ifs with hp
    · simp [hp]
    · simp [hp]

/-! ### Putting below an empty root -/

lemma Storable.text_eq (hkey : store.Storable host key) (h : store.resolveKey key = .ok path) :
    path = store.text (Path.segments key) false := by
  rw [resolveKey_text_of_ne_nil h hkey.segments]
  simp [hkey.file]

/-- Where the directories stand a file is written. -/
lemma HasRoot.writeFile_ok (hroot : store.HasRoot host disk)
    (h : store.resolveKey key = .ok path) (hkey : store.Storable host key)
    (hparent : disk.status (store.location host ++ (Path.segments key).dropLast.map utf8) =
      some .directory)
    (hfree : disk.status (store.place host key) ≠ some .directory) :
    (host.writeFile disk path bytes).2 = .ok () := by
  have hplain := isPlain_of_resolveKey h
  have hinit : ∀ segment ∈ (Path.segments key).dropLast, segment ≠ ".." :=
    fun segment hsegment => (isPlain_dropLast h segment hsegment).2
  have hlast := List.getLast_mem hkey.segments
  have hdirectory : host.follow disk (store.location host) (Path.segments key).dropLast =
      .ok (store.location host ++ (Path.segments key).dropLast.map utf8) := by
    have hclear := @Host.clear_of_status host disk (store.location host) _ _ hparent (by
      rw [List.forall_mem_map]
      exact fun segment hsegment => hkey.short segment (List.dropLast_subset _ hsegment))
    refine (Host.follow_of_clear hinit hclear).resolve_right fun hnone => ?_
    rw [hnone.2] at hparent
    cases hparent
  have hfollow : host.follow disk (store.location host) (Path.segments key) =
      .ok (store.place host key) := by
    rw [place]
    nth_rewrite 1 [← List.dropLast_append_getLast hkey.segments]
    refine Host.follow_concat_eq_ok.mpr ⟨_, hdirectory, ?_⟩
    rw [Host.enter_segment hparent (hplain _ hlast).2 (hkey.short _ hlast), List.append_assoc,
      ← List.map_singleton, ← List.map_append, List.dropLast_append_getLast]
  have hrefusal := hkey.accepted
  rw [← (resolveKey_eq.mp h).1] at hrefusal
  obtain rfl := hkey.text_eq h
  rw [Host.writeFile, hroot.locate hplain hrefusal, hfollow]
  dsimp only
  rw [endsIdle_text hplain hkey.segments, if_neg Bool.false_ne_true, if_neg hfree]

/-- Below an empty root every storable key can be put. -/
lemma put_of_storable (hroot : store.Rooted host disk)
    (hempty : ∀ names, names ≠ [] → disk.status (store.location host ++ names) = none)
    (h : store.resolveKey key = .ok path) (hkey : store.Storable host key) (data : ObjectData) :
    (store.put host disk key data).2 = .ok () := by
  have hplain := isPlain_of_resolveKey h
  have hinit := isPlain_dropLast h
  have hup : ∀ segment ∈ (Path.segments key).dropLast, segment ≠ ".." :=
    fun segment hsegment => (hinit segment hsegment).2
  have hrefusal := hkey.accepted
  rw [← (resolveKey_eq.mp h).1, hkey.text_eq h] at hrefusal
  have hdirname := refusal?_text_dropLast hplain hkey.segments hrefusal
  have hok : (host.mkdirs disk (store.location host) (Path.segments key).dropLast).2 = .ok () := by
    refine Host.mkdirs_ok hup
      (fun segment hsegment => hkey.short segment (List.dropLast_subset _ hsegment))
      hroot.directory fun taken rest data _ => ?_
    by_cases htaken : taken = []
    · simp [htaken, hroot.directory]
    · simp [hempty (taken.map utf8) (by simpa using htaken)]
  have hparent := Host.status_mkdirs_of_ok hup hok
  have hfree : (host.mkdirs disk (store.location host) (Path.segments key).dropLast).1.status
      (store.place host key) ≠ some .directory := by
    rcases @Host.status_mkdirs host disk (store.location host) _ hup (store.place host key) with
      hsame | ⟨-, -, taken, rest, htaken, -, hp, -⟩
    · rw [hsame, place, hempty _ (by simpa using hkey.segments)]
      simp
    · -- the place is below every directory that is made
      have hlength := congrArg List.length (List.append_cancel_left hp)
      have hbefore := congrArg List.length htaken
      have hpos := List.length_pos_of_ne_nil hkey.segments
      simp only [List.length_map, List.length_dropLast, List.length_append] at hlength hbefore
      omega
  have hmade := hroot.hasRoot.mono fun p => @Host.status_mkdirs_of_some host disk
    (store.location host) (Path.segments key).dropLast .directory p hup
  have hwrite := @HasRoot.writeFile_ok store host _ key path data.toBytes hmade h hkey hparent hfree
  rw [put, h]
  dsimp only
  rw [hkey.text_eq h, dirname_text hplain hkey.segments, hroot.hasRoot.mkdir hinit hdirname, hok]
  dsimp only
  rw [← hkey.text_eq h, hwrite]
  rfl

/-! ### Independence -/

/-- What `get` returns for a key depends on the file at its place. -/
lemma get_iff_of_file (hroot : store.Rooted host disk) (hroot' : store.Rooted host disk')
    (h : store.resolveKey key = .ok path)
    (hfile : key.getLast? ≠ some 0x2F → (disk'.status (store.place host key) = some (.file bytes) ↔
      disk.status (store.place host key) = some (.file bytes))) :
    store.get host disk' key = .ok bytes ↔ store.get host disk key = .ok bytes := by
  rw [hroot.get_eq_ok_iff h, hroot'.get_eq_ok_iff h]
  exact and_congr_right fun _ => and_congr_right hfile

lemma ne_place_of_not_samePlace (h : ¬ SamePlace key₁ key₂) (hlast : key₂.getLast? ≠ some 0x2F) :
    store.place host key₂ ≠ store.place host key₁ := by
  intro hplace
  exact h ⟨(List.append_cancel_left hplace).symm, hlast⟩

lemma Rooted.independent (hroot : store.Rooted host disk)
    (h₁ : store.resolveKey key₁ = .ok path₁) (h₂ : store.resolveKey key₂ = .ok path₂)
    (hkeys : store.Storable host key₁ →
      key₁ = [0x2F].intercalate (Path.segments key₁) ∧ WellFormed key₁ ∧ ¬ SamePlace key₁ key₂) :
    store.Independent host disk key₁ key₂ data where
  put := by
    intro disk' hput
    have hroot' : store.Rooted host disk' := by
      have hput' := @Rooted.put store host disk key₁ data hroot
      rwa [hput] at hput'
    obtain ⟨hstorable, hfiles⟩ := hroot.hasRoot.put_ok h₁ hput
    obtain ⟨hcanonical, hwell, hplace⟩ := hkeys hstorable
    have hfile := (hfiles (store.place host key₁) data.toBytes).mpr (by rw [if_pos rfl])
    refine ⟨fun bytes => ?_, ?_, ?_⟩
    · apply get_iff_of_file hroot hroot' h₂
      intro hlast
      rw [hfiles, if_neg (ne_place_of_not_samePlace hplace hlast)]
    · exact hroot'.mem_list_iff.mpr ⟨hcanonical, hwell, _, hfile⟩
    · exact (hroot'.get_eq_ok_iff h₁).mpr
        ⟨(resolveKey_eq.mp h₁).1 ▸ hstorable.accepted, hstorable.file, hfile⟩
  delete := by
    intro disk' hdelete bytes
    have hroot' : store.Rooted host disk' := by
      have hdelete' := @Rooted.delete store host disk key₁ hroot
      rwa [hdelete] at hdelete'
    have hcases := hroot.delete_ok h₁
    rw [hdelete] at hcases
    rcases hcases with rfl | ⟨hstorable, hfiles⟩
    · rfl
    · apply get_iff_of_file hroot hroot' h₂
      intro hlast
      rw [hfiles, and_iff_right]
      exact ne_place_of_not_samePlace (hkeys hstorable).2.2 hlast

/-- What a first call of `put` shows of a key. -/
lemma of_independent (hempty : host.readdir disk store.root = .ok [])
    (h₁ : store.resolveKey key₁ = .ok path₁) (h₂ : store.resolveKey key₂ = .ok path₂)
    (hkey : store.Storable host key₁) (h : store.Independent host disk key₁ key₂ data) :
    key₁ = [0x2F].intercalate (Path.segments key₁) ∧ WellFormed key₁ ∧ ¬ SamePlace key₁ key₂ := by
  obtain ⟨hroot, hnone⟩ := rooted_of_readdir hempty
  have hput : store.put host disk key₁ data = ((store.put host disk key₁ data).1, .ok ()) :=
    Prod.ext rfl (put_of_storable hroot hnone h₁ hkey data)
  obtain ⟨hother, hlist, -⟩ := h.put _ hput
  have hroot' := @Rooted.put store host disk key₁ data hroot
  obtain ⟨hcanonical, hwell, -⟩ := hroot'.mem_list_iff.mp hlist
  refine ⟨hcanonical, hwell, ?_⟩
  rintro ⟨hnames, hlast⟩
  have hne : Path.segments key₂ ≠ [] := by
    rw [ne_eq, ← List.map_eq_nil_iff (f := utf8), ← hnames, List.map_eq_nil_iff]
    exact hkey.segments
  have hplace : store.place host key₁ = store.place host key₂ :=
    congrArg (store.location host ++ ·) hnames
  have hrefusal := hkey.accepted
  rw [← (resolveKey_eq.mp h₁).1, hkey.text_eq h₁] at hrefusal
  have hpath₂ : path₂ = store.text (Path.segments key₂) false := by
    rw [resolveKey_text_of_ne_nil h₂ hne]
    simp [hlast]
  have hget : store.get host (store.put host disk key₁ data).1 key₂ = .ok data.toBytes := by
    refine (hroot'.get_eq_ok_iff h₂).mpr ⟨?_, hlast, ?_⟩
    · rw [hpath₂]
      exact Host.refusal?_eq_none_of_utf8 hrefusal (utf8_text hnames.symm)
    · rw [← hplace]
      exact ((hroot.hasRoot.put_ok h₁ hput).2 _ _).mpr (by rw [if_pos rfl])
  have hbefore := get_inside h₂ ((hother _).mp hget)
  rw [place, hnone _ (by simpa using hne)] at hbefore
  cases hbefore

/-- A key is independent of another after every run exactly when it cannot be stored, or is written
as it is listed and does not have the place of the other. -/
theorem independent_iff (hempty : host.readdir disk store.root = .ok [])
    (h₁ : store.resolveKey key₁ = .ok path₁) (h₂ : store.resolveKey key₂ = .ok path₂) :
    (∀ calls data, store.Independent host (store.after host disk calls) key₁ key₂ data) ↔
      (store.Storable host key₁ → key₁ = [0x2F].intercalate (Path.segments key₁) ∧
        WellFormed key₁ ∧ ¬ SamePlace key₁ key₂) := by
  constructor
  · exact fun h hkey => of_independent hempty h₁ h₂ hkey (h [] (.bytes []))
  · exact fun h calls data => ((rooted_of_readdir hempty).1.after calls).independent h₁ h₂ h

theorem independent_iff_notes : (∀ calls data, (mk "/").Independent ⟨[], 255, 4095⟩
      ((mk "/").after ⟨[], 255, 4095⟩ Disk.empty calls) "notes/a" "notes" data) ↔
    ((mk "/").Storable ⟨[], 255, 4095⟩ "notes/a" →
      "notes/a" = [0x2F].intercalate (Path.segments "notes/a") ∧ WellFormed "notes/a" ∧
        ¬ SamePlace "notes/a" "notes") :=
  @independent_iff (mk "/") ⟨[], 255, 4095⟩ Disk.empty "notes/a" "notes" "/notes/a" "/notes" rfl
    (by decide +kernel) (by decide +kernel)

/-- Writing a key with a doubled slash writes the file of the key with one. -/
theorem doubled_slash_shares : ∃ (disk : FileSystem) (host : Host),
    host.readdir disk "/" = .ok [] ∧ (mk "/").resolveKey "a//b" = .ok "/a/b" ∧
    (mk "/").resolveKey "a/b" = .ok "/a/b" ∧ JsString.ofString "a//b" ≠ "a/b" ∧
    ¬ (mk "/").Independent host disk "a//b" "a/b" (.text "x") := by
  refine ⟨Disk.empty, ⟨[], 255, 4095⟩, rfl, by decide +kernel, by decide +kernel, by decide, ?_⟩
  intro hindependent
  obtain ⟨hother, -⟩ := hindependent.put _ rfl
  cases (hother (utf8 "x")).mp rfl

end FilesystemObjectStore

end WorkspaceOs
