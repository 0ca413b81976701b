import WorkspaceOs.Js.Text
import WorkspaceOs.Js.Number

/-!
# JSON values

What `JSON.parse` can return, and what the language makes of such a value when code that expects
something else coerces it. A property that is absent reads as `undefined`, which is `none` here.
-/

namespace Js

/-- A JSON value. The fields of an object have distinct names. -/
inductive Json where
  | null
  | bool (b : Bool)
  | num (x : Float)
  | str (s : JsString)
  | arr (elements : List Json)
  | obj (fields : List (JsString × Json))

namespace Json

/-- `v.key` for a key that no built-in prototype defines. -/
def prop? (v : Json) (key : JsString) : Option Json :=
  match v with
  | .obj fields => fields.lookup key
  | _ => none

/-- `v ?? {}` for a value that may be `undefined`. -/
def orEmpty : Option Json → Json
  | none | some .null => .obj []
  | some v => v

/-- `v === s` for a string `s`. -/
def isStr (s : JsString) : Json → Bool
  | .str t => t == s
  | _ => false

@[simp] lemma isStr_iff {s : JsString} {v : Json} : v.isStr s = true ↔ v = .str s := by
  cases v <;> simp [isStr]

/-- SameValueZero, the comparison of `Set`. Two parsed objects are never the same object. -/
def sameValueZero : Json → Json → Bool
  | .null, .null => true
  | .bool a, .bool b => a == b
  | .num x, .num y => x == y || (x.isNaN && y.isNaN)
  | .str s, .str t => s == t
  | _, _ => false

/-- `[...new Set(vs)]`: the first of each group of same values, in order. -/
def dedupe (vs : List Json) : List Json :=
  vs.foldl (fun kept v => if kept.any (sameValueZero v) then kept else kept ++ [v]) []

/-- A string survives the formation of a `Set`, and no other string appears. -/
lemma str_mem_dedupe {s : JsString} {vs : List Json} : .str s ∈ dedupe vs ↔ .str s ∈ vs := by
  suffices h : ∀ kept, .str s ∈ vs.foldl
      (fun kept v => if kept.any (sameValueZero v) then kept else kept ++ [v]) kept ↔
      .str s ∈ kept ∨ .str s ∈ vs by
    have h₀ := h []
    simp only [List.not_mem_nil, false_or] at h₀
    exact h₀
  induction vs with
  | nil => simp
  | cons v vs ih =>
    intro kept
    rw [List.foldl_cons, ih]
    split_ifs with hany
    · constructor
      · rintro (h | h)
        · exact .inl h
        · exact .inr (.tail _ h)
      · rintro (h | h)
        · exact .inl h
        · rcases List.mem_cons.mp h with rfl | h
          · -- the new string was already kept
            obtain ⟨w, hw, hsame⟩ := List.any_eq_true.mp hany
            have hws : w = .str s := by
              cases w <;> simp_all [sameValueZero]
            exact .inl (hws ▸ hw)
          · exact .inr h
    · simp only [List.mem_append, List.mem_cons, List.not_mem_nil, or_false, or_assoc]

/-! ### Coercion to a string -/

variable (numberToString : Float → JsString)

mutual

/-- `String(v)`, or `none` where the coercion throws a `TypeError`: an object with an own
`toString`, which in JSON is never callable. -/
def toText : Json → Option JsString
  | .null => some "null"
  | .bool b => some (if b then "true" else "false")
  | .num x => some (numberToString x)
  | .str s => some s
  | .arr vs => (elementTexts vs).map ([(0x2C : UInt16)].intercalate)
  | .obj fields =>
    if (fields.lookup ("toString" : JsString)).isSome then none else some "[object Object]"

/-- The texts `Array.prototype.join` puts between the commas; `null` gives the empty text. -/
def elementTexts : List Json → Option (List JsString)
  | [] => some []
  | .null :: vs => (elementTexts vs).map ([] :: ·)
  | v :: vs => do
    let t ← toText v
    let ts ← elementTexts vs
    return t :: ts

end

/-- `String(v)` for a value that may be `undefined`. -/
def coerce : Option Json → Option JsString
  | none => some "undefined"
  | some v => v.toText numberToString

end Json

/-- Library functions of the language whose tables are not spelled out here. -/
structure Runtime where
  /-- `String.prototype.toLowerCase`. -/
  toLowerCase : JsString → JsString
  /-- `Number.prototype.toString`. -/
  numberToString : Float → JsString

/-- A runtime that knows the letters of ASCII and the decimal digits of integers. -/
def Runtime.ascii : Runtime where
  toLowerCase s := s.map fun c => if 0x41 ≤ c ∧ c ≤ 0x5A then c + 0x20 else c
  numberToString x := (integer? x).elim "NaN" fun n => toString n

end Js
