import WorkspaceOs.Js.JsonText

/-!
# Hexadecimal

`buffer.toString("hex")` and `Buffer.from(s, "hex")`. Decoding stops at the first pair that is not
two digits of either case, and drops a digit without a second one.
-/

namespace Js

open JsonText

def toHex (bs : Bytes) : JsString :=
  bs.flatMap fun b => [hexDigit (b.toNat / 16), hexDigit (b.toNat % 16)]

/-- `Buffer.from(s, "hex")`, as it is documented. Node reads the low byte of a code unit above
U+00FF, which may be a digit. -/
def fromHex : JsString → Bytes
  | u :: v :: s =>
    match hexValue? u, hexValue? v with
    | some m, some n => UInt8.ofNat (m * 16 + n) :: fromHex s
    | _, _ => []
  | _ => []

variable {bs : Bytes}

@[simp] lemma toHex_nil : toHex [] = [] := rfl

@[simp] lemma toHex_cons {b : UInt8} : toHex (b :: bs) =
    hexDigit (b.toNat / 16) :: hexDigit (b.toNat % 16) :: toHex bs := rfl

@[simp] lemma length_toHex : (toHex bs).length = 2 * bs.length := by
  induction bs with
  | nil => rfl
  | cons b bs ih => simp [ih, Nat.mul_succ]

lemma fromHex_toHex : fromHex (toHex bs) = bs := by
  induction bs with
  | nil => rfl
  | cons b bs ih =>
    have hb : b.toNat < 256 := b.toNat_lt
    rw [toHex_cons, fromHex, hexValue?_hexDigit _ (by omega), hexValue?_hexDigit _ (by omega)]
    dsimp only
    rw [ih, Nat.div_add_mod', UInt8.ofNat_toNat]

lemma hexDigit_ne_dollar : ∀ n < 16, hexDigit n ≠ 0x24 := by decide

lemma dollar_not_mem_toHex : 0x24 ∉ toHex bs := by
  intro h
  obtain ⟨b, -, h⟩ := List.mem_flatMap.mp h
  have hb : b.toNat < 256 := b.toNat_lt
  rcases List.mem_pair.mp h with h | h
  · exact hexDigit_ne_dollar _ (by omega) h.symm
  · exact hexDigit_ne_dollar _ (by omega) h.symm

end Js
