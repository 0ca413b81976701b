import WorkspaceOs.Js.Json
import WorkspaceOs.Js.Number
import WorkspaceOs.Js.Utf8
import WorkspaceOs.Core.Errors

/-!
# Columns

What the columns of the database keep of the values that the driver sends. A text is sent as UTF-8,
a number as its digits, and the value of a `jsonb` column as `JSON.stringify` writes it.
-/

namespace WorkspaceOs

open Js

/-- The range of an `integer` column. -/
def IsInt32 (n : ℤ) : Prop := -2147483648 ≤ n ∧ n ≤ 2147483647

instance (n : ℤ) : Decidable (IsInt32 n) := inferInstanceAs (Decidable (_ ∧ _))

lemma IsInt32.natAbs_lt {n : ℤ} (h : IsInt32 n) : n.natAbs < 2 ^ 53 := by
  simp only [IsInt32] at h
  omega

lemma IsInt32.isInteger_ofInt {n : ℤ} (h : IsInt32 n) : isInteger (ofInt n) := by
  rw [isInteger, integer?_ofInt h.natAbs_lt, Option.isSome_some]

namespace Column

/-- A `text` column. Unpaired surrogates are lost on the way. -/
def text (s : JsString) : Except Thrown JsString :=
  if s.contains 0 then .error (.foreign "invalid byte sequence for encoding \"UTF8\": 0x00")
  else .ok (fromUtf8 (utf8 s))

/-- An `integer` column. A number from `1e21` on is sent with an exponent. -/
def integer (x : Float) : Except Thrown { n : ℤ // IsInt32 n } :=
  match integer? x with
  | none => .error (.database .invalidTextRepresentation)
  | some n =>
    if h : IsInt32 n then .ok ⟨n, h⟩
    else if n.natAbs < 10 ^ 21 then .error (.database .numericValueOutOfRange)
    else .error (.database .invalidTextRepresentation)

/-- A string of a `jsonb` column. `JSON.stringify` writes an unpaired surrogate as an escape. -/
def jsonString (s : JsString) : Except Thrown JsString :=
  if s.contains 0 then .error (.foreign "unsupported Unicode escape sequence")
  else if fromUtf8 (utf8 s) = s then .ok s
  else .error (.database .invalidTextRepresentation)

/-- A number of a `jsonb` column, or `null`. The sign of zero is not written. -/
def jsonNumber (x : Float) : Option Float :=
  if x.isFinite then some (if x == 0 then 0 else x) else none

/-- What may be `NULL`, or absent. -/
def optional {α β : Type} (write : α → Except Thrown β) : Option α → Except Thrown (Option β)
  | none => .ok none
  | some a => (write a).map some

def elements {α β : Type} (write : α → Except Thrown β) : List α → Except Thrown (List β)
  | [] => .ok []
  | a :: as => do
    let b ← write a
    let bs ← elements write as
    return b :: bs

mutual

/-- A value of a `jsonb` column. The order of the fields of an object is not observed. -/
def json : Json → Except Thrown Json
  | .null => .ok .null
  | .bool b => .ok (.bool b)
  | .num x => .ok ((jsonNumber x).elim .null .num)
  | .str s => (jsonString s).map .str
  | .arr vs => (jsonElements vs).map .arr
  | .obj fields => (jsonFields fields).map .obj

def jsonElements : List Json → Except Thrown (List Json)
  | [] => .ok []
  | v :: vs => do
    let w ← json v
    let ws ← jsonElements vs
    return w :: ws

def jsonFields : List (JsString × Json) → Except Thrown (List (JsString × Json))
  | [] => .ok []
  | (key, v) :: fields => do
    let key' ← jsonString key
    let w ← json v
    let rest ← jsonFields fields
    return (key', w) :: rest

end

/-! ### What is kept -/

/-- A text that the database can hold. -/
def IsText (s : JsString) : Prop := 0 ∉ s ∧ WellFormed s

/-- A number that JSON can hold. -/
def IsJsonNumber (x : Float) : Prop := x.isFinite = true ∧ ((x == 0) = true → x = 0)

/-- A number that an `integer` column can hold. -/
def IsInteger (x : Float) : Prop := ∃ n, IsInt32 n ∧ x = ofInt n

mutual

def IsJson : Json → Prop
  | .null => True
  | .bool _ => True
  | .num x => IsJsonNumber x
  | .str s => IsText s
  | .arr vs => AreJson vs
  | .obj fields => AreFields fields

def AreJson : List Json → Prop
  | [] => True
  | v :: vs => IsJson v ∧ AreJson vs

def AreFields : List (JsString × Json) → Prop
  | [] => True
  | (key, v) :: fields => IsText key ∧ IsJson v ∧ AreFields fields

end

variable {s : JsString} {x : Float}

lemma IsText.of_all (h : s.all (fun u => u != 0 && !isSurrogate u) = true) : IsText s := by
  simp only [List.all_eq_true, Bool.and_eq_true, bne_iff_ne, Bool.not_eq_true'] at h
  exact ⟨fun hzero => (h 0 hzero).1 rfl, .of_forall fun u hu => (h u hu).2⟩

lemma IsText.append {t : JsString} (hs : IsText s) (ht : IsText t) : IsText (s ++ t) :=
  ⟨fun hzero => (List.mem_append.mp hzero).elim hs.1 ht.1, hs.2.append ht.2⟩

lemma text_eq_ok_iff : text s = .ok s ↔ IsText s := by
  simp only [text, IsText]
  split_ifs with hzero
  · simp [List.contains_iff_mem.mp hzero]
  · rw [List.contains_iff_mem] at hzero
    simp [hzero, fromUtf8_utf8_iff]

/-- What a `text` column holds is a text. -/
lemma isText_of_text {t : JsString} (h : text s = .ok t) : IsText t := by
  rw [text] at h
  split_ifs at h with hzero
  cases h
  refine ⟨fun hmem => hzero ?_, fromUtf8_utf8_iff.mp (congrArg fromUtf8 utf8_fromUtf8_utf8)⟩
  exact List.contains_iff_mem.mpr ((mem_fromUtf8_utf8 (by decide)).mp hmem)

/-- What is visible stays so. -/
lemma visible_of_text {t : JsString} (h : text s = .ok t) (hs : ¬ s.IsBlank) : ¬ t.IsBlank := by
  rw [text] at h
  split_ifs at h
  cases h
  exact fun ht => hs (isBlank_of_fromUtf8_utf8 ht)

/-- A text is refused for U+0000 only. -/
lemma text_eq_error {e : Thrown} (h : text s = .error e) :
    0 ∈ s ∧ ∃ message, e = .foreign message := by
  rw [text] at h
  split_ifs at h with hzero
  exact ⟨List.contains_iff_mem.mp hzero, _, (Except.error.inj h).symm⟩

lemma not_mem_of_text {t : JsString} (h : text s = .ok t) : 0 ∉ s := by
  rw [text] at h
  split_ifs at h with hzero
  exact fun hmem => hzero (List.contains_iff_mem.mpr hmem)

/-- A text is kept in front of anything. -/
lemma text_append {t : JsString} (hs : IsText s) : text (s ++ t) = (text t).map (s ++ ·) := by
  have hzero : (s ++ t).contains 0 = t.contains 0 := by
    rw [Bool.eq_iff_iff]
    simp [hs.1]
  simp only [text, hzero, hs.2.fromUtf8_utf8_append]
  split_ifs <;> rfl

lemma text_eq_nil_iff : text s = .ok [] ↔ s = [] := by
  constructor
  · intro h
    rw [text] at h
    split_ifs at h
    have hscalars : scalars s = [] := by
      rw [← scalars_fromUtf8_utf8, Except.ok.inj h]
      rfl
    match s with
    | [] => rfl
    | [u] => cases hscalars
    | u :: v :: s =>
      rw [scalars] at hscalars
      split_ifs at hscalars
  · rintro rfl
    rfl

lemma jsonString_eq_ok_iff {t : JsString} : jsonString s = .ok t ↔ t = s ∧ IsText s := by
  simp only [jsonString, IsText]
  split_ifs with hzero hwell
  · simp [List.contains_iff_mem.mp hzero]
  · rw [List.contains_iff_mem] at hzero
    simp [hzero, fromUtf8_utf8_iff.mp hwell, eq_comm]
  · rw [fromUtf8_utf8_iff] at hwell
    simp [hwell]

lemma jsonNumber_eq_some_iff : jsonNumber x = some x ↔ IsJsonNumber x := by
  simp only [jsonNumber, IsJsonNumber]
  split_ifs with hfinite hzero
  · simp [hfinite, hzero, eq_comm]
  · simp [hfinite, hzero]
  · simp [hfinite]

/-- A positive integer is a number of JSON. -/
lemma isJsonNumber_of_isInteger (h : isInteger x) (hpositive : ¬ x < 1) : IsJsonNumber x :=
  ⟨isFinite_of_isInteger h, fun hzero => absurd (lt_one_of_beq_zero hzero) hpositive⟩

lemma integer_ofInt {n : ℤ} (h : IsInt32 n) : integer (ofInt n) = .ok ⟨n, h⟩ := by
  rw [integer, integer?_ofInt h.natAbs_lt]
  exact dif_pos h

lemma integer_eq_ok {n : { n : ℤ // IsInt32 n }} (h : integer x = .ok n) :
    integer? x = some n.1 := by
  simp only [integer] at h
  cases hx : integer? x with
  | none =>
    rw [hx] at h
    cases h
  | some m =>
    rw [hx] at h
    dsimp only at h
    split_ifs at h
    cases h
    rfl

lemma integer_eq_error {e : Thrown} (h : integer x = .error e) :
    (∀ n, integer? x = some n → ¬ IsInt32 n) ∧
      (e = .database .numericValueOutOfRange ∨ e = .database .invalidTextRepresentation) := by
  simp only [integer] at h
  cases hx : integer? x with
  | none =>
    rw [hx] at h
    exact ⟨by simp, .inr (Except.error.inj h).symm⟩
  | some n =>
    rw [hx] at h
    dsimp only at h
    split_ifs at h with hint
    · refine ⟨fun _ hn => ?_, .inl (Except.error.inj h).symm⟩
      rwa [← Option.some.inj hn]
    · refine ⟨fun _ hn => ?_, .inr (Except.error.inj h).symm⟩
      rwa [← Option.some.inj hn]

lemma isText_of_optional_text {o t : Option JsString} (h : optional text o = .ok t) :
    ∀ s, t = some s → IsText s := by
  cases o with
  | none =>
    cases h
    simp
  | some s =>
    obtain ⟨s', hs, rfl⟩ := map_eq_ok.mp h
    rintro _ ⟨⟩
    exact isText_of_text hs

lemma optional_text_eq_error {o : Option JsString} {e : Thrown} (h : optional text o = .error e) :
    ∃ s, o = some s ∧ 0 ∈ s ∧ ∃ message, e = .foreign message := by
  cases o with
  | none => cases h
  | some s =>
    cases hs : text s with
    | ok t =>
      rw [optional, hs] at h
      cases h
    | error e' =>
      rw [optional, hs] at h
      cases h
      exact ⟨s, rfl, text_eq_error hs⟩

lemma mem_of_elements {α β : Type} {write : α → Except Thrown β} {as : List α} {bs : List β} {b : β}
    (h : elements write as = .ok bs) : b ∈ bs ↔ ∃ a ∈ as, write a = .ok b := by
  induction as generalizing bs with
  | nil =>
    cases h
    simp
  | cons a as ih =>
    obtain ⟨b', hb', h⟩ := bind_eq_ok.mp h
    obtain ⟨bs', hbs', h⟩ := bind_eq_ok.mp h
    cases h
    simp [hb', ih hbs', eq_comm]

/-- The elements are written one by one. -/
lemma forall₂_of_elements {α β : Type} {write : α → Except Thrown β} {as : List α} {bs : List β}
    (h : elements write as = .ok bs) : List.Forall₂ (fun a b => write a = .ok b) as bs := by
  induction as generalizing bs with
  | nil =>
    cases h
    exact .nil
  | cons a as ih =>
    obtain ⟨b, hb, h⟩ := bind_eq_ok.mp h
    obtain ⟨bs', hbs', h⟩ := bind_eq_ok.mp h
    cases h
    exact .cons hb (ih hbs')

lemma elements_eq_error {α β : Type} {write : α → Except Thrown β} {as : List α} {e : Thrown}
    (h : elements write as = .error e) : ∃ a ∈ as, write a = .error e := by
  induction as with
  | nil => cases h
  | cons a as ih =>
    rcases bind_eq_error.mp h with h | ⟨b, -, h⟩
    · exact ⟨a, List.mem_cons_self, h⟩
    · rcases bind_eq_error.mp h with h | ⟨bs, -, h⟩
      · obtain ⟨a', hmem, ha'⟩ := ih h
        exact ⟨a', List.mem_cons_of_mem _ hmem, ha'⟩
      · cases h

section Optional

variable {α : Type} {write : α → Except Thrown α}

lemma optional_eq_ok_iff {o : Option α} :
    optional write o = .ok o ↔ ∀ a, o = some a → write a = .ok a := by
  cases o with
  | none => simp [optional]
  | some a => cases h : write a <;> simp [optional, Except.map, h]

lemma elements_eq_ok_iff {as : List α} :
    elements write as = .ok as ↔ ∀ a ∈ as, write a = .ok a := by
  induction as with
  | nil => simp [elements]
  | cons a as ih =>
    rw [List.forall_mem_cons, ← ih, elements]
    simp only [bind_eq_ok]
    constructor
    · rintro ⟨b, hb, bs, hbs, h⟩
      cases h
      exact ⟨hb, hbs⟩
    · rintro ⟨ha, has⟩
      exact ⟨a, ha, as, has, rfl⟩

lemma optional_text_eq_ok_iff {o : Option JsString} :
    optional text o = .ok o ↔ ∀ s, o = some s → IsText s := by
  simp only [optional_eq_ok_iff, text_eq_ok_iff]

end Optional

mutual

lemma json_eq_ok_iff : (v : Json) → (json v = .ok v ↔ IsJson v)
  | .null => by simp [json, IsJson]
  | .bool b => by simp [json, IsJson]
  | .num x => by
    rw [json, IsJson, ← jsonNumber_eq_some_iff]
    cases jsonNumber x <;> simp
  | .str s => by
    rw [json, IsJson]
    have h := @jsonString_eq_ok_iff s s
    cases hs : jsonString s with
    | error e => simpa [Except.map, hs] using h
    | ok t =>
      obtain ⟨rfl, htext⟩ := jsonString_eq_ok_iff.mp hs
      simpa [Except.map] using htext
  | .arr vs => by
    rw [json, IsJson, ← jsonElements_eq_ok_iff vs]
    cases jsonElements vs <;> simp [Except.map]
  | .obj fields => by
    rw [json, IsJson, ← jsonFields_eq_ok_iff fields]
    cases jsonFields fields <;> simp [Except.map]

lemma jsonElements_eq_ok_iff : (vs : List Json) → (jsonElements vs = .ok vs ↔ AreJson vs)
  | [] => by simp [jsonElements, AreJson]
  | v :: vs => by
    rw [AreJson, ← json_eq_ok_iff v, ← jsonElements_eq_ok_iff vs, jsonElements]
    simp only [bind_eq_ok]
    constructor
    · rintro ⟨w, hw, ws, hws, h⟩
      cases h
      exact ⟨hw, hws⟩
    · rintro ⟨hv, hvs⟩
      exact ⟨v, hv, vs, hvs, rfl⟩

lemma jsonFields_eq_ok_iff :
    (fields : List (JsString × Json)) → (jsonFields fields = .ok fields ↔ AreFields fields)
  | [] => by simp [jsonFields, AreFields]
  | (key, v) :: fields => by
    rw [AreFields, ← json_eq_ok_iff v, ← jsonFields_eq_ok_iff fields, jsonFields]
    simp only [bind_eq_ok]
    constructor
    · rintro ⟨key', hkey, w, hw, rest, hrest, h⟩
      cases h
      exact ⟨(jsonString_eq_ok_iff.mp hkey).2, hw, hrest⟩
    · rintro ⟨hkey, hv, hfields⟩
      exact ⟨key, jsonString_eq_ok_iff.mpr ⟨rfl, hkey⟩, v, hv, fields, hfields, rfl⟩

end

end Column

end WorkspaceOs
