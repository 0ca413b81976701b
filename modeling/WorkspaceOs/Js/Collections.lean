import WorkspaceOs.Js.Text
import Mathlib.Data.List.Nodup

/-!
# Maps, sets and plain objects

`Map` and `Set` compare strings by their code units. A map built from entries keeps the last entry
of each key; a set keeps the first occurrence of each element.
-/

namespace Js

section Map

variable {α : Type*} {key : α → JsString} {xs : List α} {x : α} {k : JsString}

/-- `new Map(xs.map((x) => [key(x), x])).get(k)`. -/
def mapGet (key : α → JsString) (xs : List α) (k : JsString) : Option α :=
  xs.reverse.find? fun x => key x = k

lemma mapGet_some (h : mapGet key xs k = some x) : x ∈ xs ∧ key x = k :=
  ⟨List.mem_reverse.mp (List.mem_of_find?_eq_some h), by simpa using List.find?_some h⟩

lemma mapGet_eq_none : mapGet key xs k = none ↔ ∀ x ∈ xs, key x ≠ k := by
  simp [mapGet, List.find?_eq_none]

/-- Where the keys are distinct, every entry is found under its key. -/
lemma mapGet_eq_some_iff (hkeys : (xs.map key).Nodup) :
    mapGet key xs k = some x ↔ x ∈ xs ∧ key x = k := by
  refine ⟨mapGet_some, fun ⟨hmem, hkey⟩ => ?_⟩
  cases h : mapGet key xs k with
  | none => exact absurd hkey (mapGet_eq_none.mp h x hmem)
  | some y =>
    obtain ⟨hmem', hkey'⟩ := mapGet_some h
    rw [List.inj_on_of_nodup_map hkeys hmem' hmem (hkey'.trans hkey.symm)]

end Map

/-- `[...new Set(xs)]`. -/
def newSet (xs : List JsString) : List JsString := xs.eraseDups

@[simp] lemma mem_newSet {x : JsString} {xs : List JsString} : x ∈ newSet xs ↔ x ∈ xs := by
  simp [newSet]

/-- A set of the elements of a set is the set itself. -/
lemma newSet_newSet : (xs : List JsString) → newSet (newSet xs) = newSet xs
  | [] => rfl
  | x :: xs => by
    have hne : ∀ y ∈ newSet (xs.filter fun y => !y == x), (!y == x) = true := fun y hy =>
      (List.mem_filter.mp (mem_newSet.mp hy)).2
    have hcons : newSet (x :: xs) = x :: newSet (xs.filter fun y => !y == x) := List.eraseDups_cons
    rw [hcons]
    show (x :: newSet (xs.filter fun y => !y == x)).eraseDups = _
    rw [List.eraseDups_cons, List.filter_eq_self.mpr hne]
    exact congrArg (x :: ·) (newSet_newSet _)
termination_by xs => xs.length
decreasing_by exact Nat.lt_succ_of_le (List.length_filter_le _ xs)

/-- `Record<string, string>`, with its own properties in the order they were made. -/
abbrev StringRecord := List (JsString × JsString)

namespace StringRecord

/-- `record[name] = value` on an object literal. The setter that the name `__proto__` stands for
ignores strings. -/
def assign (record : StringRecord) (name value : JsString) : StringRecord :=
  if name = "__proto__" then record
  else (name, value) :: record.filter fun entry => entry.1 ≠ name

lemma mem_assign {record : StringRecord} {name value : JsString} {entry : JsString × JsString}
    (h : entry ∈ record.assign name value) : entry = (name, value) ∨ entry ∈ record := by
  simp only [assign] at h
  split_ifs at h with hproto
  · exact .inr h
  · rcases List.mem_cons.mp h with h | h
    · exact .inl h
    · exact .inr (List.mem_of_mem_filter h)

end StringRecord

/-- What `record[key]` finds: a property of the object itself, one that every object inherits, or
nothing. -/
inductive Property (α : Type*) where
  | own (value : α)
  | inherited
  | absent
deriving DecidableEq

/-- What is found, if anything; an inherited property has none of the fields of an `α`. -/
def Property.found? {α : Type*} : Property α → Option (Option α)
  | .own value => some (some value)
  | .inherited => some none
  | .absent => none

/-- The properties of `Object.prototype`. -/
def objectPrototype : List JsString :=
  ["constructor", "hasOwnProperty", "isPrototypeOf", "propertyIsEnumerable", "toLocaleString",
    "toString", "valueOf", "__proto__", "__defineGetter__", "__defineSetter__", "__lookupGetter__",
    "__lookupSetter__"]

/-- `Record<string, α>`, with its own properties. -/
abbrev Record (α : Type*) := List (JsString × α)

namespace Record

/-- `record[key]`. -/
def get {α : Type*} (record : Record α) (key : JsString) : Property α :=
  match record.find? fun entry => entry.1 = key with
  | some entry => .own entry.2
  | none => if objectPrototype.contains key then .inherited else .absent

end Record

end Js
