import WorkspaceOs.Js.Utf8

/-!
# base64url

Three bytes are four digits of six bits, written without padding. The decoder takes the digits of
both alphabets and skips what is no digit; an equals sign ends the text.
-/

namespace Js

namespace Base64

/-- The digit of six bits. -/
def digit (n : ℕ) : UInt16 :=
  if n < 26 then UInt16.ofNat (0x41 + n)
  else if n < 52 then UInt16.ofNat (0x61 + (n - 26))
  else if n < 62 then UInt16.ofNat (0x30 + (n - 52))
  else if n = 62 then 0x2D
  else 0x5F

/-- The six bits of a digit; `+` and `/` are digits of the other alphabet. -/
def sextet? (u : UInt16) : Option ℕ :=
  let c := u.toNat
  if 0x41 ≤ c ∧ c ≤ 0x5A then some (c - 0x41)
  else if 0x61 ≤ c ∧ c ≤ 0x7A then some (c - 0x61 + 26)
  else if 0x30 ≤ c ∧ c ≤ 0x39 then some (c - 0x30 + 52)
  else if c = 0x2B ∨ c = 0x2D then some 62
  else if c = 0x2F ∨ c = 0x5F then some 63
  else none

/-- The bits of the bytes, six by six. The last group is filled up with zeros. -/
def sextets : Bytes → List ℕ
  | [] => []
  | [a] => [a.toNat / 4, a.toNat % 4 * 16]
  | [a, b] => [a.toNat / 4, a.toNat % 4 * 16 + b.toNat / 16, b.toNat % 16 * 4]
  | a :: b :: c :: bs =>
    a.toNat / 4 :: (a.toNat % 4 * 16 + b.toNat / 16) :: (b.toNat % 16 * 4 + c.toNat / 64) ::
      c.toNat % 64 :: sextets bs

/-- The whole bytes in a sequence of six-bit groups. -/
def octets : List ℕ → Bytes
  | a :: b :: c :: d :: ns =>
    UInt8.ofNat (a * 4 + b / 16) :: UInt8.ofNat (b % 16 * 16 + c / 4) ::
      UInt8.ofNat (c % 4 * 64 + d) :: octets ns
  | [a, b, c] => [UInt8.ofNat (a * 4 + b / 16), UInt8.ofNat (b % 16 * 16 + c / 4)]
  | [a, b] => [UInt8.ofNat (a * 4 + b / 16)]
  | _ => []

end Base64

/-- `buffer.toString("base64url")`. -/
def toBase64url (bs : Bytes) : JsString := (Base64.sextets bs).map Base64.digit

/-- `Buffer.from(s, "base64url")`, as it is documented. Node reads the low byte of a code unit above
U+00FF, which may be a digit. -/
def fromBase64url (s : JsString) : Bytes :=
  Base64.octets ((s.takeWhile (· != 0x3D)).filterMap Base64.sextet?)

/-! ### Reading what was written -/

namespace Base64

lemma sextet?_digit : ∀ n < 64, sextet? (digit n) = some n := by decide

lemma digit_not_space : ∀ n < 64, JsString.isSpace (digit n) = false := by decide

lemma digit_ascii : ∀ n < 64, (digit n).toNat < 0x80 ∧ digit n ≠ 0x2E ∧ digit n ≠ 0x3D := by decide

variable {bs : Bytes}

lemma lt_of_mem_sextets : ∀ n ∈ sextets bs, n < 64 := by
  have hbyte (b : UInt8) : b.toNat < 256 := b.toNat_lt
  induction bs using sextets.induct with
  | case1 => exact fun n hn => absurd hn List.not_mem_nil
  | case2 a =>
    have ha := hbyte a
    simp only [sextets, List.forall_mem_cons]
    exact ⟨by omega, by omega, fun n hn => absurd hn List.not_mem_nil⟩
  | case3 a b =>
    have ha := hbyte a
    have hb := hbyte b
    simp only [sextets, List.forall_mem_cons]
    exact ⟨by omega, by omega, by omega, fun n hn => absurd hn List.not_mem_nil⟩
  | case4 a b c bs ih =>
    have ha := hbyte a
    have hb := hbyte b
    have hc := hbyte c
    simp only [sextets, List.forall_mem_cons]
    exact ⟨by omega, by omega, by omega, by omega, ih⟩

lemma ofNat_eq {b : UInt8} {n : ℕ} (h : n = b.toNat) : UInt8.ofNat n = b := by
  rw [h, UInt8.ofNat_toNat]

lemma octets_sextets : octets (sextets bs) = bs := by
  have hbyte (b : UInt8) : b.toNat < 256 := b.toNat_lt
  induction bs using sextets.induct with
  | case1 => rfl
  | case2 a =>
    have ha := hbyte a
    simp only [sextets, octets]
    rw [ofNat_eq (b := a) (by omega)]
  | case3 a b =>
    have ha := hbyte a
    have hb := hbyte b
    simp only [sextets, octets]
    rw [ofNat_eq (b := a) (by omega), ofNat_eq (b := b) (by omega)]
  | case4 a b c bs ih =>
    have ha := hbyte a
    have hb := hbyte b
    have hc := hbyte c
    simp only [sextets, octets]
    rw [ofNat_eq (b := a) (by omega), ofNat_eq (b := b) (by omega), ofNat_eq (b := c) (by omega),
      ih]

end Base64

variable {bs : Bytes}

lemma mem_toBase64url {u : UInt16} (h : u ∈ toBase64url bs) :
    u.toNat < 0x80 ∧ u ≠ 0x2E ∧ u ≠ 0x3D := by
  obtain ⟨n, hn, rfl⟩ := List.mem_map.mp h
  exact Base64.digit_ascii n (Base64.lt_of_mem_sextets n hn)

lemma not_isSpace_of_mem_toBase64url {u : UInt16} (h : u ∈ toBase64url bs) :
    JsString.isSpace u = false := by
  obtain ⟨n, hn, rfl⟩ := List.mem_map.mp h
  exact Base64.digit_not_space n (Base64.lt_of_mem_sextets n hn)

lemma isAscii_toBase64url : IsAscii (toBase64url bs) := fun _ h => (mem_toBase64url h).1

lemma fromBase64url_toBase64url : fromBase64url (toBase64url bs) = bs := by
  have hdigits : (toBase64url bs).takeWhile (· != 0x3D) = toBase64url bs :=
    List.takeWhile_eq_self_iff.mpr fun u hu => bne_iff_ne.mpr (mem_toBase64url hu).2.2
  have hread : ∀ ns : List ℕ, (∀ n ∈ ns, n < 64) →
      (ns.map Base64.digit).filterMap Base64.sextet? = ns := by
    intro ns hns
    induction ns with
    | nil => rfl
    | cons n ns ih =>
      rw [List.map_cons, List.filterMap_cons, Base64.sextet?_digit n (hns n (.head _)),
        ih fun m hm => hns m (.tail _ hm)]
  rw [fromBase64url, hdigits, toBase64url, hread _ Base64.lt_of_mem_sextets, Base64.octets_sextets]

end Js
