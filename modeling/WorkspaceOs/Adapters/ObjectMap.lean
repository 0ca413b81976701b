import Mathlib.Logic.Function.Basic
import WorkspaceOs.Adapters.ObjectKeys
import WorkspaceOs.Effect.Refinement

/-!
# The object store is a map

What the store is for is a map from names to bytes. The names of a key are those of its segments,
and the directories that the store makes on the way, and leaves behind, are no part of the map.
Every call answers what the map answers, or fails and leaves the map as it is.
-/

namespace WorkspaceOs

open Js Posix Effect

/-- A call of the store. -/
inductive ObjectOp where
  | put (key : JsString) (data : ObjectData)
  | get (key : JsString)
  | delete (key : JsString)
  | «exists» (key : JsString)
  | list (keyPrefix : JsString)

/-- What a call returns. -/
abbrev ObjectAns : ObjectOp → Type
  | .put _ _ => Unit
  | .get _ => Bytes
  | .delete _ => Unit
  | .exists _ => Bool
  | .list _ => List JsString

/-- A call with its answer. -/
abbrev ObjectLabel := Label ObjectOp ObjectAns ObjectStoreError

/-- What is kept, by the names of the keys. -/
abbrev ObjectMap := List Bytes → Option Bytes

namespace ObjectMap

/-- The names that a key stands for. -/
def names (key : JsString) : List Bytes := (Path.segments key).map utf8

/-- What a call does to a map, and returns. A call that fails does nothing, and a key is not found
only where there is nothing. A list never fails, and its keys are in order. -/
def call : Semantics ObjectOp ObjectAns ObjectStoreError ObjectMap
  | _, .put key data, map, .ok _, map' => map' = Function.update map (names key) (some data.toBytes)
  | _, .get key, map, .ok data, map' => map (names key) = some data ∧ map' = map
  | _, .get key, map, .error (.objectNotFound key'), map' =>
    key' = key ∧ map (names key) = none ∧ map' = map
  | _, .delete key, map, .ok _, map' => map' = Function.update map (names key) none
  | _, .exists key, map, .ok found, map' => (found = false → map (names key) = none) ∧ map' = map
  | _, .list keyPrefix, map, .ok keys, map' => (keys.Pairwise fun k k' => notAfter k k' = true) ∧
      (∀ k, k ∈ keys ↔ keyPrefix <+: k ∧
        ∃ ns data, map ns = some data ∧ k = FilesystemObjectStore.keyOf ns) ∧ map' = map
  | _, .list _, _, .error _, _ => False
  | _, _, map, .error _, map' => map' = map

end ObjectMap

namespace FilesystemObjectStore

variable (store : FilesystemObjectStore) (host : Host)

/-- The calls on a disk. -/
def perform : (op : ObjectOp) → FileSystem → FileSystem × Except ObjectStoreError (ObjectAns op)
  | .put key data, disk => store.put host disk key data
  | .get key, disk => (disk, store.get host disk key)
  | .delete key, disk => store.delete host disk key
  | .exists key, disk => (disk, store.exists host disk key)
  | .list keyPrefix, disk => (disk, store.list host disk keyPrefix)

/-- The calls one after the other, whoever makes them. -/
def calls : Semantics ObjectOp ObjectAns ObjectStoreError FileSystem :=
  fun _ op disk a disk' => store.perform host op disk = (disk', a)

/-- The files below the root, as a map. -/
def objects (disk : FileSystem) : ObjectMap := fun names =>
  match disk.status (store.location host ++ names) with
  | some (.file data) => some data
  | _ => none

variable {store host} {disk disk' : FileSystem} {key path keyPrefix : JsString} {data : Bytes}
  {names : List Bytes}

lemma objects_eq_some : store.objects host disk names = some data ↔
    disk.status (store.location host ++ names) = some (.file data) := by
  rw [objects]
  split
  · rename_i hfile
    rw [hfile, Option.some_inj, Option.some_inj, Node.file.injEq]
  · rename_i hno
    exact iff_of_false (by simp) (hno data)

lemma objects_eq_none : store.objects host disk names = none ↔
    ∀ data, disk.status (store.location host ++ names) ≠ some (.file data) := by
  simp only [ne_eq, ← objects_eq_some, Option.eq_none_iff_forall_ne_some]

/-- Disks with the same files are the same map. -/
lemma objects_congr (h : ∀ p data, disk'.status p = some (.file data) ↔
    disk.status p = some (.file data)) : store.objects host disk' = store.objects host disk := by
  funext names
  refine Option.ext fun data => ?_
  rw [objects_eq_some, objects_eq_some, h]

/-- Writing or removing the file of a place updates the map there. -/
lemma objects_update {content : Option Bytes} (h : ∀ p data, disk'.status p = some (.file data) ↔
      if p = store.place host key then some data = content
      else disk.status p = some (.file data)) :
    store.objects host disk' =
      Function.update (store.objects host disk) (ObjectMap.names key) content := by
  funext names
  refine Option.ext fun data => ?_
  have hplace : store.location host ++ names = store.place host key ↔ names = ObjectMap.names key :=
    List.append_right_inj _
  rw [objects_eq_some, h, Function.update_apply]
  by_cases hnames : names = ObjectMap.names key
  · rw [if_pos (hplace.mpr hnames), if_pos hnames, eq_comm]
  · rw [if_neg (hplace.not.mpr hnames), if_neg hnames, objects_eq_some]

/-! ### What the calls do to the map -/

lemma Rooted.objects_put {content : ObjectData} (hroot : store.Rooted host disk)
    {a : Except ObjectStoreError Unit} (h : store.put host disk key content = (disk', a)) :
    store.objects host disk' = if a = .ok () then
      Function.update (store.objects host disk) (ObjectMap.names key) (some content.toBytes)
    else store.objects host disk := by
  cases hresolve : store.resolveKey key with
  | error error =>
    rw [FilesystemObjectStore.put, hresolve] at h
    cases h
    rfl
  | ok path =>
    cases a with
    | ok =>
      refine objects_update fun p data => ?_
      simp only [Option.some_inj]
      exact (hroot.hasRoot.put_ok hresolve h).2 p data
    | error error =>
      rcases @HasRoot.put_cases store host disk key path content hroot.hasRoot hresolve with
        ⟨_, hput⟩ | ⟨-, -, ⟨_, hput⟩ | ⟨-, -, -, -, -, hput⟩⟩
      · cases h.symm.trans hput
        rfl
      · cases h.symm.trans hput
        have hup : ∀ segment ∈ (Path.segments key).dropLast, segment ≠ ".." :=
          fun segment hsegment => (isPlain_dropLast hresolve segment hsegment).2
        exact objects_congr fun p data => status_mkdirs_file hup p
      · cases h.symm.trans hput

/-- The path of a file leads to it, or is refused; it is never said that nothing is there. -/
lemma Rooted.locate_of_file (hroot : store.Rooted host disk) (h : store.resolveKey key = .ok path)
    (hfile : disk.status (store.place host key) = some (.file data)) :
    host.locate disk path = .ok (store.place host key) ∨
      ∃ errno, errno ≠ .noEntry ∧ host.locate disk path = .error errno := by
  have hplain := isPlain_of_resolveKey h
  have hne := hroot.segments_ne_nil hfile
  obtain rfl := resolveKey_text_of_ne_nil h hne
  cases hrefusal : host.refusal? (store.text (Path.segments key) (key.getLast? = some 0x2F)) with
  | none => exact .inl (hroot.locate_of_status hplain hrefusal hfile)
  | some errno =>
    refine .inr ⟨errno, ?_, by rw [Host.locate, hrefusal]⟩
    rintro rfl
    exact Host.refusal?_ne_noEntry (Path.render_ne_nil (isSegment_text hplain)) hrefusal

/-- Nothing is kept where nothing is found. -/
lemma Rooted.objects_of_stat (hroot : store.Rooted host disk) (h : store.resolveKey key = .ok path)
    (hstat : host.stat disk path = .error .noEntry) :
    store.objects host disk (ObjectMap.names key) = none := by
  rw [objects_eq_none]
  intro data hfile
  rw [Host.stat] at hstat
  rcases hroot.locate_of_file h hfile with hlocate | ⟨errno, hne, hlocate⟩
  · rw [hlocate] at hstat
    dsimp only at hstat
    rw [place, ← ObjectMap.names, hfile] at hstat
    dsimp only at hstat
    split_ifs at hstat
    cases hstat
  · rw [hlocate] at hstat
    exact hne (Except.error.inj hstat)

lemma Rooted.delete_of_file (hroot : store.Rooted host disk) (h : store.resolveKey key = .ok path)
    (hfile : disk.status (store.place host key) = some (.file data)) :
    (∃ error, store.delete host disk key = (disk, .error error)) ∨
      store.delete host disk key = (disk.unlink (store.place host key), .ok ()) := by
  rw [FilesystemObjectStore.delete, h]
  dsimp only
  rw [Host.rm]
  rcases hroot.locate_of_file h hfile with hlocate | ⟨errno, hne, hlocate⟩
  · rw [hlocate]
    dsimp only
    rw [hfile]
    dsimp only
    split_ifs
    · exact .inl ⟨_, rfl⟩
    · exact .inr rfl
  · rw [hlocate]
    cases errno with
    | noEntry => exact absurd rfl hne
    | _ => exact .inl ⟨_, rfl⟩

lemma Rooted.objects_delete (hroot : store.Rooted host disk) {a : Except ObjectStoreError Unit}
    (h : store.delete host disk key = (disk', a)) :
    store.objects host disk' = if a = .ok () then
      Function.update (store.objects host disk) (ObjectMap.names key) none
    else store.objects host disk := by
  cases hresolve : store.resolveKey key with
  | error error =>
    rw [FilesystemObjectStore.delete, hresolve] at h
    cases h
    rfl
  | ok path =>
    by_cases hfile : ∃ data, disk.status (store.place host key) = some (.file data)
    · obtain ⟨data, hfile⟩ := hfile
      rcases hroot.delete_of_file hresolve hfile with ⟨_, hdelete⟩ | hdelete
      · cases h.symm.trans hdelete
        rfl
      · cases h.symm.trans hdelete
        refine objects_update fun p data => ?_
        rw [Disk.status_unlink (by simp [hfile])]
        split_ifs <;> simp
    · have hsame : disk' = disk := by
        rcases hroot.hasRoot.delete_cases hresolve with hsame | ⟨-, -, hfile', -⟩
        · rwa [h] at hsame
        · exact absurd hfile' hfile
      have hnone : store.objects host disk (ObjectMap.names key) = none :=
        objects_eq_none.mpr fun data hdata => hfile ⟨data, hdata⟩
      rw [hsame, Function.update_eq_self_iff.mpr hnone.symm, ite_self]

lemma Rooted.get_objects (hroot : store.Rooted host disk) (h : store.get host disk key = .ok data) :
    store.objects host disk (ObjectMap.names key) = some data := by
  cases hresolve : store.resolveKey key with
  | error error =>
    rw [FilesystemObjectStore.get, hresolve] at h
    cases h
  | ok path => exact objects_eq_some.mpr ((hroot.get_eq_ok_iff hresolve).mp h).2.2

lemma resolveKey_error {error : ObjectStoreError} (h : store.resolveKey key = .error error) :
    error = .invalidObjectKey key := by
  rw [resolveKey] at h
  split_ifs at h
  exact (Except.error.inj h).symm

lemma Rooted.get_notFound (hroot : store.Rooted host disk) {key' : JsString}
    (h : store.get host disk key = .error (.objectNotFound key')) :
    key' = key ∧ store.objects host disk (ObjectMap.names key) = none := by
  rw [FilesystemObjectStore.get] at h
  cases hresolve : store.resolveKey key with
  | error error =>
    rw [hresolve, resolveKey_error hresolve] at h
    cases h
  | ok path =>
    rw [hresolve] at h
    dsimp only at h
    split at h
    · cases h
    · rename_i hread
      cases h
      refine ⟨rfl, hroot.objects_of_stat hresolve ?_⟩
      rw [Host.readFile] at hread
      split at hread
      · rename_i hstat
        cases hread
        exact hstat
      · cases hread
      · cases hread
    · cases h

lemma Rooted.exists_objects (hroot : store.Rooted host disk)
    (h : store.exists host disk key = .ok false) :
    store.objects host disk (ObjectMap.names key) = none := by
  rw [«exists»] at h
  cases hresolve : store.resolveKey key with
  | error error =>
    rw [hresolve] at h
    cases h
  | ok path =>
    rw [hresolve] at h
    dsimp only at h
    split at h
    · cases h
    · rename_i hstat
      exact hroot.objects_of_stat hresolve hstat
    · cases h

lemma notAfter_cons {c d : UInt16} {s t : JsString} : notAfter (c :: s) (d :: t) = true ↔
    c < d ∨ c = d ∧ notAfter s t = true := by
  rw [notAfter]
  split_ifs with hsame
  · simp [hsame]
  · simp [hsame]

lemma notAfter_total (s t : JsString) : (notAfter s t || notAfter t s) = true := by
  rw [Bool.or_eq_true]
  induction s generalizing t with
  | nil => exact .inl rfl
  | cons c s ih =>
    cases t with
    | nil => exact .inr rfl
    | cons d t =>
      rw [notAfter_cons, notAfter_cons]
      by_cases hsame : c = d
      · exact (ih t).imp (fun h => .inr ⟨hsame, h⟩) fun h => .inr ⟨hsame.symm, h⟩
      · exact (UInt16.lt_or_lt_of_ne hsame).imp .inl .inl

lemma notAfter_trans (s t u : JsString) (hst : notAfter s t = true) (htu : notAfter t u = true) :
    notAfter s u = true := by
  induction s generalizing t u with
  | nil => rfl
  | cons c s ih =>
    cases t with
    | nil => cases hst
    | cons d t =>
      cases u with
      | nil => cases htu
      | cons e u =>
        rw [notAfter_cons] at hst htu ⊢
        rcases hst with hcd | ⟨rfl, hst⟩ <;> rcases htu with hde | ⟨rfl, htu⟩
        · exact .inl (UInt16.lt_trans hcd hde)
        · exact .inl hcd
        · exact .inl hde
        · exact .inr ⟨rfl, ih t u hst htu⟩

/-- `list` gives the keys of the files that begin with the prefix, in order. -/
lemma Rooted.list_objects (hroot : store.Rooted host disk) : ∃ keys,
    store.list host disk keyPrefix = .ok keys ∧ (keys.Pairwise fun k k' => notAfter k k' = true) ∧
      ∀ k, k ∈ keys ↔ keyPrefix <+: k ∧
        ∃ ns data, store.objects host disk ns = some data ∧ k = keyOf ns := by
  obtain ⟨results, hwalk, hmem⟩ := @Rooted.walk store host disk store.root [] hroot
    (disk.height + 1) (.inl ⟨rfl, rfl⟩) (by rw [List.append_nil]; exact hroot.directory) (by omega)
  refine ⟨_, by rw [FilesystemObjectStore.list, hwalk], ?_, fun k => ?_⟩
  · exact List.pairwise_mergeSort notAfter_trans notAfter_total _
  · rw [List.mem_mergeSort, List.mem_filter, hmem, List.isPrefixOf_iff_prefix, and_comm]
    simp only [KeyBelow, objects_eq_some, List.nil_append]

/-- On a disk with a root every call answers what the map answers. -/
lemma refines_objectMap : Refines (store.calls host) ObjectMap.call (store.Rooted host)
    (store.objects host) where
  keeps := by
    rintro i op disk a disk' hroot h
    have hdisk : disk' = (store.perform host op disk).1 := (congrArg Prod.fst h).symm
    rw [hdisk]
    cases op with
    | put key data => exact hroot.put
    | delete key => exact hroot.delete
    | _ => exact hroot
  step := by
    rintro i op disk a disk' hroot h
    cases op with
    | put key content =>
      have hobjects := hroot.objects_put h
      cases a with
      | ok => rwa [if_pos rfl] at hobjects
      | error error => rwa [if_neg (by simp)] at hobjects
    | delete key =>
      have hobjects := hroot.objects_delete h
      cases a with
      | ok => rwa [if_pos rfl] at hobjects
      | error error => rwa [if_neg (by simp)] at hobjects
    | get key =>
      obtain ⟨rfl, hget⟩ := Prod.mk.inj h
      cases a with
      | ok data => exact ⟨hroot.get_objects hget, rfl⟩
      | error error =>
        cases error with
        | objectNotFound key' =>
          obtain ⟨rfl, hnone⟩ := hroot.get_notFound hget
          exact ⟨rfl, hnone, rfl⟩
        | _ => rfl
    | «exists» key =>
      obtain ⟨rfl, hexists⟩ := Prod.mk.inj h
      cases a with
      | ok found =>
        refine ⟨?_, rfl⟩
        rintro rfl
        exact hroot.exists_objects hexists
      | error error => rfl
    | list keyPrefix =>
      obtain ⟨rfl, hlist⟩ := Prod.mk.inj h
      obtain ⟨keys, hkeys, hsorted, hmem⟩ := @Rooted.list_objects store host disk keyPrefix hroot
      cases hlist.symm.trans hkeys
      exact ⟨hsorted, hmem, rfl⟩

/-- Every run of calls on an empty root, with whatever keys and data, and whatever of it fails, is a
run of the same calls on an empty map, with the same answers. -/
theorem objects_refine (hempty : host.readdir disk store.root = .ok []) {ls : List ObjectLabel}
    (trace : Trace (store.calls host) disk ls disk') :
    Trace ObjectMap.call (fun _ => none) ls (store.objects host disk') := by
  obtain ⟨hroot, hnone⟩ := rooted_of_readdir hempty
  have hobjects : store.objects host disk = fun _ => none := by
    funext names
    rw [objects_eq_none]
    intro data hfile
    by_cases hnames : names = []
    · rw [hnames, List.append_nil, hroot.directory] at hfile
      cases hfile
    · rw [hnone names hnames] at hfile
      cases hfile
  rw [← hobjects]
  exact refines_objectMap.trace hroot trace

/-- A run with two objects, one of which is deleted again. -/
def someCalls : List (ℕ × Unit × ObjectOp) :=
  [(0, (), .put "notes/a" (.text "x")), (0, (), .put "notes" (.text "y")), (0, (), .get "notes//a"),
    (0, (), .put "b" (.text "z")), (0, (), .list []), (0, (), .delete "notes/a"),
    (0, (), .exists "notes/a"), (0, (), .list [])]

theorem objects_refine_notes : ∃ ls disk',
    Trace ((mk "/").calls ⟨[], 255, 4095⟩) Disk.empty ls disk' ∧ ls.length = 8 ∧
      Trace ObjectMap.call (fun _ => none) ls ((mk "/").objects ⟨[], 255, 4095⟩ disk') := by
  have hrun : ((carryOut (fun _ op disk => some ((mk "/").perform ⟨[], 255, 4095⟩ op disk).swap)
      someCalls Disk.empty).map fun (ls, _) => ls.length) = some 8 := by
    rfl
  obtain ⟨⟨ls, disk'⟩, hrun, hlength⟩ := Option.map_eq_some_iff.mp hrun
  have trace : Trace ((mk "/").calls ⟨[], 255, 4095⟩) Disk.empty ls disk' := by
    refine Trace.of_carryOut (fun i x op disk a disk' h => ?_) hrun
    exact congrArg Prod.swap (Option.some.inj h)
  exact ⟨ls, disk', trace, hlength, objects_refine rfl trace⟩

end FilesystemObjectStore

end WorkspaceOs
