import WorkspaceOs.Js.Json
import WorkspaceOs.Js.Utf8
import Mathlib.Data.Nat.Digits.Lemmas

/-!
# JSON texts

What `JSON.stringify` writes for strings and time values, and `JSON.parse`: a pass over the code
units that finds the tokens, then a pass over the tokens with a stack of what is still open. Both
end in `none` where the parser throws a `SyntaxError`.
-/

namespace Js

namespace JsonText

/-! ### Writing -/

def hexDigit (n : ℕ) : UInt16 := UInt16.ofNat (if n < 10 then 0x30 + n else 0x61 + (n - 10))

/-- `\uXXXX`. -/
def unicodeEscape (u : UInt16) : JsString :=
  [0x5C, 0x75, hexDigit (u.toNat / 4096), hexDigit (u.toNat / 256 % 16),
    hexDigit (u.toNat / 16 % 16), hexDigit (u.toNat % 16)]

/-- What a code unit that is not part of a pair is written as. -/
def escapeUnit (u : UInt16) : JsString :=
  if u = 0x08 then [0x5C, 0x62]
  else if u = 0x09 then [0x5C, 0x74]
  else if u = 0x0A then [0x5C, 0x6E]
  else if u = 0x0C then [0x5C, 0x66]
  else if u = 0x0D then [0x5C, 0x72]
  else if u = 0x22 ∨ u = 0x5C then [0x5C, u]
  else if u.toNat < 0x20 ∨ isSurrogate u then unicodeEscape u
  else [u]

def escape : JsString → JsString
  | [] => []
  | [u] => escapeUnit u
  | u :: v :: s =>
    if isHighSurrogate u && isLowSurrogate v then u :: v :: escape s
    else escapeUnit u ++ escape (v :: s)

/-- `JSON.stringify` of a string. -/
def quote (s : JsString) : JsString := 0x22 :: (escape s ++ [0x22])

def digit (n : ℕ) : UInt16 := UInt16.ofNat (0x30 + n)

def decimal (n : ℕ) : JsString :=
  if n = 0 then [0x30] else (Nat.digits 10 n).reverse.map digit

/-- `JSON.stringify` of a time value. All its digits are written out, and NaN is `null`. -/
def timeText : TimeValue → JsString
  | some t => if t < 0 then 0x2D :: decimal t.natAbs else decimal t.natAbs
  | none => "null"

/-- What a time value is read back as. -/
def ofTime : TimeValue → Json
  | some t => .num (ofInt t)
  | none => .null

/-! ### Numbers -/

def isDigit (u : UInt16) : Bool := 0x30 ≤ u.toNat && u.toNat ≤ 0x39

def valueOf (digits : JsString) : ℕ := digits.foldl (fun n u => n * 10 + (u.toNat - 0x30)) 0

/-- Digits, at least one, and what follows them. -/
def digits? (s : JsString) : Option (JsString × JsString) :=
  if s.takeWhile isDigit = [] then none else some (s.takeWhile isDigit, s.dropWhile isDigit)

/-- The digits after the point, if there is one. -/
def fraction? (s : JsString) : Option (JsString × JsString) :=
  if s.head? = some 0x2E then digits? s.tail else some ([], s)

/-- The exponent with its sign, if there is one. -/
def exponent? (s : JsString) : Option (Option (Bool × JsString) × JsString) :=
  if s.head? = some 0x45 ∨ s.head? = some 0x65 then
    let negative := s.tail.head? = some 0x2D
    let unsigned := if negative ∨ s.tail.head? = some 0x2B then s.tail.tail else s.tail
    (digits? unsigned).map fun (digits, rest) => (some (negative, digits), rest)
  else some (none, s)

/-- The number that a literal without fraction and exponent denotes. -/
def integerValue (negative : Bool) (n : ℕ) : Float :=
  if negative then if n = 0 then -0 else ofInt (-n) else ofInt n

/-- The number that a literal with a fraction or an exponent denotes. -/
def decimalValue (negative : Bool) (whole fraction : JsString) (exponent : Bool × JsString) :
    Float :=
  let shift : ℤ := if exponent.1 then -(valueOf exponent.2 : ℤ) else valueOf exponent.2
  let power := shift - fraction.length
  let x := Float.ofScientific (valueOf (whole ++ fraction)) (power < 0) power.natAbs
  if negative then -x else x

def number? (s : JsString) : Option Float :=
  let negative : Bool := s.head? = some 0x2D
  (digits? (if negative then s.tail else s)).bind fun (whole, s) =>
    if whole.head? = some 0x30 ∧ whole.length ≠ 1 then none
    else
      (fraction? s).bind fun (fraction, s) =>
        (exponent? s).bind fun (exponent, s) =>
          if s ≠ [] then none
          else if fraction = [] ∧ exponent = none then
            some (integerValue negative (valueOf whole))
          else some (decimalValue negative whole fraction (exponent.getD (false, [])))

/-! ### Tokens -/

inductive Token where
  | leftBrace
  | rightBrace
  | leftBracket
  | rightBracket
  | colon
  | comma
  | string (s : JsString)
  | scalar (v : Json)

def punctuator? (u : UInt16) : Option Token :=
  if u = 0x7B then some .leftBrace
  else if u = 0x7D then some .rightBrace
  else if u = 0x5B then some .leftBracket
  else if u = 0x5D then some .rightBracket
  else if u = 0x3A then some .colon
  else if u = 0x2C then some .comma
  else none

/-- The code units of numbers and of `null`, `true` and `false`. -/
def isWord (u : UInt16) : Bool :=
  isDigit u || (0x41 ≤ u.toNat && u.toNat ≤ 0x5A) || (0x61 ≤ u.toNat && u.toNat ≤ 0x7A) ||
    u == 0x2B || u == 0x2D || u == 0x2E

def word? (w : JsString) : Option Json :=
  match number? w with
  | some x => some (.num x)
  | none =>
    if w = "null" then some .null
    else if w = "true" then some (.bool true)
    else if w = "false" then some (.bool false)
    else none

def hexValue? (u : UInt16) : Option ℕ :=
  if isDigit u then some (u.toNat - 0x30)
  else if 0x41 ≤ u.toNat ∧ u.toNat ≤ 0x46 then some (u.toNat - 0x41 + 10)
  else if 0x61 ≤ u.toNat ∧ u.toNat ≤ 0x66 then some (u.toNat - 0x61 + 10)
  else none

/-- What stands after a backslash, other than `u`. -/
def escaped? (u : UInt16) : Option UInt16 :=
  if u = 0x22 ∨ u = 0x5C ∨ u = 0x2F then some u
  else if u = 0x62 then some 0x08
  else if u = 0x66 then some 0x0C
  else if u = 0x6E then some 0x0A
  else if u = 0x72 then some 0x0D
  else if u = 0x74 then some 0x09
  else none

/-- Between tokens, or within one with what has been read of it. -/
inductive Lexer where
  | start
  | word (w : JsString)
  | string (s : JsString)
  | escape (s : JsString)
  | unicode (s : JsString) (missing value : ℕ)

/-- The first code unit of a token, or white space. -/
def firstUnit (ts : List Token) (u : UInt16) : Option (List Token × Lexer) :=
  if u = 0x20 ∨ u = 0x09 ∨ u = 0x0A ∨ u = 0x0D then some (ts, .start)
  else if u = 0x22 then some (ts, .string [])
  else if isWord u then some (ts, .word [u])
  else (punctuator? u).map fun t => (ts ++ [t], .start)

def lex : List Token × Lexer → UInt16 → Option (List Token × Lexer)
  | (ts, .start), u => firstUnit ts u
  | (ts, .word w), u =>
    if isWord u then some (ts, .word (w ++ [u]))
    else (word? w).bind fun v => firstUnit (ts ++ [.scalar v]) u
  | (ts, .string s), u =>
    if u = 0x22 then some (ts ++ [.string s], .start)
    else if u = 0x5C then some (ts, .escape s)
    else if u.toNat < 0x20 then none
    else some (ts, .string (s ++ [u]))
  | (ts, .escape s), u =>
    if u = 0x75 then some (ts, .unicode s 4 0)
    else (escaped? u).map fun v => (ts, .string (s ++ [v]))
  | (ts, .unicode s missing value), u =>
    (hexValue? u).map fun d =>
      if missing = 1 then (ts, .string (s ++ [UInt16.ofNat (value * 16 + d)]))
      else (ts, .unicode s (missing - 1) (value * 16 + d))

/-- The tokens of a text that ends here. -/
def endOfText : List Token × Lexer → Option (List Token)
  | (ts, .start) => some ts
  | (ts, .word w) => (word? w).map fun v => ts ++ [.scalar v]
  | _ => none

def tokens? (s : JsString) : Option (List Token) := (s.foldlM lex ([], .start)).bind endOfText

/-! ### Values -/

/-- An array or an object that is not closed yet. -/
inductive Frame where
  | elements (vs : List Json)
  | field (fs : List (JsString × Json)) (key : JsString)

/-- What comes next. Right after the opening bracket or brace the closing one may come as well. -/
inductive Expected where
  | value (mayClose : Bool)
  | key (fs : List (JsString × Json)) (mayClose : Bool)
  | colon (fs : List (JsString × Json)) (key : JsString)
  | after (v : Json)

/-- A key that comes again has its last value. -/
def setField (fs : List (JsString × Json)) (key : JsString) (v : Json) : List (JsString × Json) :=
  if fs.any (·.1 == key) then fs.map fun f => if f.1 = key then (key, v) else f
  else fs ++ [(key, v)]

def accept : List Frame × Expected → Token → Option (List Frame × Expected)
  | (stack, .value _), .scalar v => some (stack, .after v)
  | (stack, .value _), .string s => some (stack, .after (.str s))
  | (stack, .value _), .leftBracket => some (.elements [] :: stack, .value true)
  | (stack, .value _), .leftBrace => some (stack, .key [] true)
  | (.elements _ :: stack, .value true), .rightBracket => some (stack, .after (.arr []))
  | (stack, .key fs _), .string key => some (stack, .colon fs key)
  | (stack, .key _ true), .rightBrace => some (stack, .after (.obj []))
  | (stack, .colon fs key), .colon => some (.field fs key :: stack, .value false)
  | (.elements vs :: stack, .after v), .comma => some (.elements (vs ++ [v]) :: stack, .value false)
  | (.elements vs :: stack, .after v), .rightBracket => some (stack, .after (.arr (vs ++ [v])))
  | (.field fs key :: stack, .after v), .comma => some (stack, .key (setField fs key v) false)
  | (.field fs key :: stack, .after v), .rightBrace =>
    some (stack, .after (.obj (setField fs key v)))
  | _, _ => none

def endOfTokens : List Frame × Expected → Option Json
  | ([], .after v) => some v
  | _ => none

end JsonText

/-- `JSON.parse`. -/
def parseJson (s : JsString) : Option Json :=
  (JsonText.tokens? s).bind fun ts =>
    (ts.foldlM JsonText.accept ([], .value false)).bind JsonText.endOfTokens

namespace JsonText

variable {ts : List Token} {r s t w : JsString} {u : UInt16}

/-! ### Strings are read back -/

lemma hexValue?_hexDigit : ∀ n < 16, hexValue? (hexDigit n) = some n := by decide

lemma lex_unicode {missing value n : ℕ} (hn : n < 16) (hmissing : missing ≠ 1) :
    lex (ts, .unicode r missing value) (hexDigit n) =
      some (ts, .unicode r (missing - 1) (value * 16 + n)) := by
  show (hexValue? (hexDigit n)).map _ = _
  rw [hexValue?_hexDigit n hn, Option.map_some, if_neg hmissing]

lemma lex_unicode_last {value n : ℕ} (hn : n < 16) : lex (ts, .unicode r 1 value) (hexDigit n) =
    some (ts, .string (r ++ [UInt16.ofNat (value * 16 + n)])) := by
  show (hexValue? (hexDigit n)).map _ = _
  rw [hexValue?_hexDigit n hn, Option.map_some, if_pos rfl]

lemma foldlM_lex_cons {state state' : List Token × Lexer} (h : lex state u = some state') :
    (u :: t).foldlM lex state = t.foldlM lex state' := by
  rw [List.foldlM_cons, h]
  rfl

lemma foldlM_lex_append {state state' : List Token × Lexer} (h : s.foldlM lex state = some state') :
    (s ++ t).foldlM lex state = t.foldlM lex state' := by
  rw [List.foldlM_append, h]
  rfl

lemma foldlM_lex_unicodeEscape : (unicodeEscape u ++ t).foldlM lex (ts, .string r) =
    t.foldlM lex (ts, .string (r ++ [u])) := by
  have hbound : u.toNat < 65536 := u.toNat_lt
  have hvalue : ((u.toNat / 4096 * 16 + u.toNat / 256 % 16) * 16 + u.toNat / 16 % 16) * 16 +
      u.toNat % 16 = u.toNat := by omega
  have hslash : lex (ts, .string r) 0x5C = some (ts, .escape r) := rfl
  have hletter : lex (ts, .escape r) 0x75 = some (ts, .unicode r 4 0) := rfl
  simp only [unicodeEscape, List.cons_append, List.nil_append]
  rw [foldlM_lex_cons hslash, foldlM_lex_cons hletter,
    foldlM_lex_cons (lex_unicode (by omega) (by omega)),
    foldlM_lex_cons (lex_unicode (by omega) (by omega)),
    foldlM_lex_cons (lex_unicode (by omega) (by omega)),
    foldlM_lex_cons (lex_unicode_last (by omega)), Nat.zero_mul, Nat.zero_add, hvalue,
    UInt16.ofNat_toNat]

lemma lex_plain (hquote : u ≠ 0x22) (hslash : u ≠ 0x5C) (hcontrol : ¬ u.toNat < 0x20) :
    lex (ts, .string r) u = some (ts, .string (r ++ [u])) := by
  show (if _ then _ else if _ then _ else if _ then _ else _) = _
  rw [if_neg hquote, if_neg hslash, if_neg hcontrol]

lemma foldlM_lex_escapeUnit : (escapeUnit u ++ t).foldlM lex (ts, .string r) =
    t.foldlM lex (ts, .string (r ++ [u])) := by
  rw [escapeUnit]
  split_ifs with h₁ h₂ h₃ h₄ h₅ h₆ h₇
  · rw [h₁]
    rfl
  · rw [h₂]
    rfl
  · rw [h₃]
    rfl
  · rw [h₄]
    rfl
  · rw [h₅]
    rfl
  · rcases h₆ with rfl | rfl <;> rfl
  · exact foldlM_lex_unicodeEscape
  · rw [not_or] at h₆ h₇
    exact foldlM_lex_cons (lex_plain h₆.1 h₆.2 h₇.1)

lemma lex_surrogate (h : isHighSurrogate u = true ∨ isLowSurrogate u = true) :
    lex (ts, .string r) u = some (ts, .string (r ++ [u])) := by
  rw [isHighSurrogate_iff, isLowSurrogate_iff] at h
  refine lex_plain ?_ ?_ (by omega)
  · rintro rfl
    exact absurd h (by decide)
  · rintro rfl
    exact absurd h (by decide)

lemma foldlM_lex_escape : (escape s ++ t).foldlM lex (ts, .string r) =
    t.foldlM lex (ts, .string (r ++ s)) := by
  induction s using escape.induct generalizing r with
  | case1 => rw [escape, List.nil_append, List.append_nil]
  | case2 u => rw [escape, foldlM_lex_escapeUnit]
  | case3 u v s hpair ih =>
    obtain ⟨hu, hv⟩ := Bool.and_eq_true_iff.mp hpair
    rw [escape, if_pos hpair, List.cons_append, List.cons_append,
      foldlM_lex_cons (lex_surrogate (.inl hu)), foldlM_lex_cons (lex_surrogate (.inr hv)), ih,
      List.append_assoc, List.append_assoc]
    rfl
  | case4 u v s hpair ih =>
    rw [escape, if_neg hpair, List.append_assoc, foldlM_lex_escapeUnit, ih, List.append_assoc]
    rfl

/-- A quoted string is one token. -/
lemma foldlM_lex_quote : (quote s ++ t).foldlM lex (ts, .start) =
    t.foldlM lex (ts ++ [.string s], .start) := by
  have hopen : lex (ts, .start) 0x22 = some (ts, .string []) := rfl
  rw [quote, List.cons_append, List.append_assoc, foldlM_lex_cons hopen, foldlM_lex_escape,
    List.nil_append]
  exact foldlM_lex_cons rfl

lemma isSurrogate_hexDigit : ∀ n < 16, isSurrogate (hexDigit n) = false := by decide

lemma wellFormed_escapeUnit : WellFormed (escapeUnit u) := by
  have hslash : isSurrogate 0x5C = false := rfl
  have hletter {v : UInt16} (h : isSurrogate v = false) : WellFormed [0x5C, v] :=
    .unit hslash (.unit h .nil)
  rw [escapeUnit]
  split_ifs with h₁ h₂ h₃ h₄ h₅ h₆ h₇
  · exact hletter rfl
  · exact hletter rfl
  · exact hletter rfl
  · exact hletter rfl
  · exact hletter rfl
  · rcases h₆ with rfl | rfl
    · exact hletter rfl
    · exact hletter rfl
  · have hbound : u.toNat < 65536 := u.toNat_lt
    refine .unit hslash (.unit rfl (.unit ?_ (.unit ?_ (.unit ?_ (.unit ?_ .nil)))))
    all_goals exact isSurrogate_hexDigit _ (by omega)
  · rw [not_or, Bool.not_eq_true] at h₇
    exact .unit h₇.2 .nil

/-- A quoted string has no unpaired surrogates, whatever the string has. -/
lemma wellFormed_quote : WellFormed (quote s) := by
  refine .unit rfl (.append ?_ (.unit rfl .nil))
  induction s using escape.induct with
  | case1 => exact .nil
  | case2 u => exact wellFormed_escapeUnit
  | case3 u v s hpair ih =>
    obtain ⟨hu, hv⟩ := Bool.and_eq_true_iff.mp hpair
    rw [escape, if_pos hpair]
    exact .pair hu hv ih
  | case4 u v s hpair ih =>
    rw [escape, if_neg hpair]
    exact wellFormed_escapeUnit.append ih

/-! ### Numbers are read back -/

lemma foldlM_lex_word_append (hw : ∀ u ∈ w, isWord u = true) :
    (w ++ t).foldlM lex (ts, .word r) = t.foldlM lex (ts, .word (r ++ w)) := by
  induction w generalizing r with
  | nil => rw [List.nil_append, List.append_nil]
  | cons u w ih =>
    have hstep : lex (ts, .word r) u = some (ts, .word (r ++ [u])) := if_pos (hw u (.head _))
    rw [List.cons_append, foldlM_lex_cons hstep, ih fun v hv => hw v (.tail _ hv),
      List.append_assoc]
    rfl

/-- A word is one token, where something else follows. -/
lemma foldlM_lex_word {v : Json} (hne : w ≠ []) (hw : ∀ u ∈ w, isWord u = true)
    (hu : isWord u = false) (hv : word? w = some v) :
    (w ++ u :: t).foldlM lex (ts, .start) =
      (u :: t).foldlM lex (ts ++ [.scalar v], .start) := by
  obtain ⟨u₀, w, rfl⟩ := List.exists_cons_of_ne_nil hne
  have hfirst : lex (ts, .start) u₀ = some (ts, .word [u₀]) := by
    have hword := hw u₀ (.head _)
    have hblank : ¬ (u₀ = 0x20 ∨ u₀ = 0x09 ∨ u₀ = 0x0A ∨ u₀ = 0x0D) := by
      rintro (rfl | rfl | rfl | rfl) <;> exact absurd hword (by decide)
    have hquote : u₀ ≠ 0x22 := by
      rintro rfl
      exact absurd hword (by decide)
    show firstUnit ts u₀ = _
    rw [firstUnit, if_neg hblank, if_neg hquote, if_pos hword]
  have hend : lex (ts, .word (u₀ :: w)) u = lex (ts ++ [.scalar v], .start) u := by
    show (if _ then _ else _) = firstUnit _ u
    rw [if_neg (by rw [hu]; exact Bool.false_ne_true), hv, Option.bind_some]
  rw [List.cons_append, foldlM_lex_cons hfirst,
    foldlM_lex_word_append fun v hv => hw v (.tail _ hv)]
  show (u :: t).foldlM lex (ts, .word (u₀ :: w)) = _
  rw [List.foldlM_cons, hend, List.foldlM_cons]

lemma digit_spec : ∀ n < 10, isDigit (digit n) = true ∧ isWord (digit n) = true ∧
    (digit n).toNat - 0x30 = n ∧ isSurrogate (digit n) = false ∧ digit n ≠ 0x2D := by decide

lemma digit_ne_zero : ∀ n < 10, n ≠ 0 → digit n ≠ 0x30 := by decide

variable {n : ℕ}

lemma mem_decimal (hu : u ∈ decimal n) : ∃ d < 10, u = digit d := by
  rw [decimal] at hu
  split_ifs at hu
  · exact ⟨0, by decide, List.mem_singleton.mp hu⟩
  · obtain ⟨d, hd, rfl⟩ := List.mem_map.mp hu
    exact ⟨d, Nat.digits_lt_base (by decide) (List.mem_reverse.mp hd), rfl⟩

lemma decimal_ne_nil : decimal n ≠ [] := by
  rw [decimal]
  split_ifs with hn
  · exact List.cons_ne_nil _ _
  · intro h
    have hnil := List.reverse_eq_nil_iff.mp (List.map_eq_nil_iff.mp h)
    exact Nat.digits_ne_nil_iff_ne_zero.mpr hn hnil

lemma valueOf_decimal : valueOf (decimal n) = n := by
  rw [decimal]
  split_ifs with hn
  · exact hn.symm
  · have hfold : ∀ ds : List ℕ, (∀ d ∈ ds, d < 10) →
        (ds.map digit).foldr (fun u n => n * 10 + (u.toNat - 0x30)) 0 = Nat.ofDigits 10 ds := by
      intro ds hds
      induction ds with
      | nil => rfl
      | cons d ds ih =>
        rw [List.map_cons, List.foldr_cons, ih fun d hd => hds d (.tail _ hd),
          (digit_spec d (hds d (.head _))).2.2.1, Nat.ofDigits_cons, mul_comm, add_comm]
    rw [valueOf, List.map_reverse, List.foldl_reverse,
      hfold _ fun d hd => Nat.digits_lt_base (by decide) hd, Nat.ofDigits_digits]

/-- No zero stands before another digit. -/
lemma decimal_head (h : (decimal n).head? = some 0x30) : (decimal n).length = 1 := by
  rw [decimal] at h ⊢
  split_ifs at h ⊢ with hn
  · rfl
  · have hne : Nat.digits 10 n ≠ [] := Nat.digits_ne_nil_iff_ne_zero.mpr hn
    rw [List.map_reverse, List.head?_reverse, List.getLast?_map,
      List.getLast?_eq_getLast_of_ne_nil hne] at h
    have hzero := Option.some.inj h
    exact absurd hzero (digit_ne_zero _ (Nat.digits_lt_base (by decide) (List.getLast_mem hne))
      (Nat.getLast_digit_ne_zero 10 hn))

lemma digits?_decimal : digits? (decimal n) = some (decimal n, []) := by
  have hdigits : ∀ u ∈ decimal n, isDigit u = true := by
    intro u hu
    obtain ⟨d, hd, rfl⟩ := mem_decimal hu
    exact (digit_spec d hd).1
  rw [digits?, List.takeWhile_eq_self_iff.mpr hdigits, List.dropWhile_eq_nil_iff.mpr hdigits,
    if_neg decimal_ne_nil]

lemma number?_of_digits (h : (if decide (s.head? = some 0x2D) then s.tail else s) = decimal n) :
    number? s = some (integerValue (s.head? = some 0x2D) n) := by
  have hzero : ¬ ((decimal n).head? = some 0x30 ∧ (decimal n).length ≠ 1) :=
    fun hzero => hzero.2 (decimal_head hzero.1)
  show (digits? _).bind _ = _
  rw [h, digits?_decimal]
  show (if _ then none else some (integerValue _ (valueOf (decimal n)))) = _
  rw [if_neg hzero, valueOf_decimal]

/-- The digits of a time value are a number again. -/
lemma number?_timeText {i : ℤ} : number? (timeText (some i)) = some (ofInt i) := by
  have hhead : (decimal i.natAbs).head? ≠ some 0x2D := by
    intro h
    obtain ⟨d, hd, hu⟩ := mem_decimal (List.mem_of_head? h)
    exact (digit_spec d hd).2.2.2.2 hu.symm
  rw [timeText]
  split_ifs with hi
  · have hne : i.natAbs ≠ 0 := by omega
    have hneg : -(i.natAbs : ℤ) = i := by omega
    rw [number?_of_digits (n := i.natAbs) rfl]
    show some (if i.natAbs = 0 then _ else _) = _
    rw [if_neg hne, hneg]
  · have hpos : (i.natAbs : ℤ) = i := by omega
    rw [number?_of_digits (n := i.natAbs) (by rw [decide_eq_false hhead]; rfl),
      decide_eq_false hhead]
    show some (ofInt _) = _
    rw [hpos]

lemma mem_timeText {i : ℤ} (hu : u ∈ timeText (some i)) :
    isWord u = true ∧ isSurrogate u = false := by
  have hdecimal (hu : u ∈ decimal i.natAbs) : isWord u = true ∧ isSurrogate u = false := by
    obtain ⟨d, hd, rfl⟩ := mem_decimal hu
    exact ⟨(digit_spec d hd).2.1, (digit_spec d hd).2.2.2.1⟩
  rw [timeText] at hu
  split_ifs at hu
  · rcases List.mem_cons.mp hu with rfl | hu
    · exact ⟨rfl, rfl⟩
    · exact hdecimal hu
  · exact hdecimal hu

lemma wellFormed_timeText {time : TimeValue} : WellFormed (timeText time) := by
  cases time with
  | none => exact .of_all rfl
  | some i => exact .of_forall fun u hu => (mem_timeText hu).2

/-- The text of a time value is one token, where something else follows. -/
lemma foldlM_lex_timeText {time : TimeValue} (hu : isWord u = false) :
    (timeText time ++ u :: t).foldlM lex (ts, .start) =
      (u :: t).foldlM lex (ts ++ [.scalar (ofTime time)], .start) := by
  cases time with
  | none => exact foldlM_lex_word (List.cons_ne_nil _ _) (List.all_eq_true.mp rfl) hu rfl
  | some i =>
    have hne : timeText (some i) ≠ [] := by
      rw [timeText]
      split_ifs
      · exact List.cons_ne_nil _ _
      · exact decimal_ne_nil
    have hword : word? (timeText (some i)) = some (ofTime (some i)) := by
      rw [word?, number?_timeText]
      rfl
    exact foldlM_lex_word hne (fun u hu => (mem_timeText hu).1) hu hword

end JsonText

end Js
