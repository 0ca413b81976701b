import WorkspaceOs.Js.Hex
import WorkspaceOs.Core.Errors

/-!
# Password hashes

A stored password is `scrypt$`, the salt and the key, both in hexadecimal. The verification takes
the length of the key from what is stored, and what it decodes need not have been encoded.
-/

namespace WorkspaceOs.Auth

open Js

/-- `scrypt`, which returns as many bytes as it is asked for. -/
structure Scrypt where
  derive : JsString → Bytes → ℕ → Bytes
  length_derive : ∀ password salt keylen, (derive password salt keylen).length = keylen

/-- A function that gives the key where it has its length, and zeros elsewhere. -/
def Scrypt.constant (key : Bytes) : Scrypt where
  derive _ _ keylen := if keylen = key.length then key else List.replicate keylen 0
  length_derive _ _ keylen := by
    split_ifs with h
    · exact h.symm
    · exact List.length_replicate

def keyLen : ℕ := 64

/-- `timingSafeEqual`. -/
def timingSafeEqual (a b : Bytes) : Except Thrown Bool :=
  if a.length = b.length then .ok (a == b)
  else .error (.foreign "Input buffers must have the same byte length")

variable (scrypt : Scrypt)

/-- `hashPassword`, with the salt that `randomBytes(16)` gives. -/
def hashPassword (salt : Bytes) (password : JsString) : JsString :=
  "scrypt$" ++ toHex salt ++ "$" ++ toHex (scrypt.derive password salt keyLen)

def verifyPassword (password stored : JsString) : Except Thrown Bool :=
  match stored.splitOn 0x24 with
  | [scheme, saltHex, keyHex] =>
    if scheme ≠ "scrypt" then .ok false
    else
      let salt := fromHex saltHex
      let expected := fromHex keyHex
      let derived := scrypt.derive password salt expected.length
      if expected.length = derived.length then timingSafeEqual expected derived
      else .ok false
  | _ => .ok false

/-! ### What is accepted -/

/-- The string has three parts, the first of them `scrypt`, and the other two decode to a salt and a
key. -/
def ReadAs (stored : JsString) (salt key : Bytes) : Prop :=
  ∃ saltHex keyHex, 0x24 ∉ saltHex ∧ 0x24 ∉ keyHex ∧
    stored = "scrypt$" ++ saltHex ++ "$" ++ keyHex ∧ fromHex saltHex = salt ∧ fromHex keyHex = key

/-- The string is a salt of 16 bytes and a key of 64 bytes as they are written. -/
def Encoded (stored : JsString) : Prop :=
  ∃ salt key : Bytes, salt.length = 16 ∧ key.length = 64 ∧
    stored = "scrypt$" ++ toHex salt ++ "$" ++ toHex key

/-- The string is what is written for the password with some salt. -/
def Hashes (password stored : JsString) : Prop :=
  ∃ salt : Bytes, salt.length = 16 ∧ stored = hashPassword scrypt salt password

/-- Exactly the hashes of the password are accepted, and nothing makes the verification throw. -/
def VerifiesExactly (password stored : JsString) : Prop :=
  (verifyPassword scrypt password stored = .ok true ↔ Hashes scrypt password stored) ∧
    (¬ Hashes scrypt password stored → verifyPassword scrypt password stored = .ok false)

variable {scrypt} {password stored : JsString} {salt key : Bytes}

lemma splitOn_eq_scrypt {saltHex keyHex : JsString} :
    stored.splitOn 0x24 = (["scrypt", saltHex, keyHex] : List JsString) ↔
      0x24 ∉ saltHex ∧ 0x24 ∉ keyHex ∧ stored = "scrypt$" ++ saltHex ++ "$" ++ keyHex := by
  have hscheme : (0x24 : UInt16) ∉ ("scrypt" : JsString) := by decide
  have hscrypt : ("scrypt$" : JsString) = ("scrypt" : JsString) ++ [0x24] := rfl
  have hdollar : ("$" : JsString) = [0x24] := rfl
  rw [JsString.splitOn_eq_three, hscrypt, hdollar]
  simp [hscheme]

/-- A string is read as one salt and one key. -/
lemma ReadAs.unique {salt' key' : Bytes} (h : ReadAs stored salt key)
    (h' : ReadAs stored salt' key') : salt = salt' ∧ key = key' := by
  obtain ⟨saltHex, keyHex, hs, hk, hstored, rfl, rfl⟩ := h
  obtain ⟨saltHex', keyHex', hs', hk', hstored', rfl, rfl⟩ := h'
  have hsplit := splitOn_eq_scrypt.mpr ⟨hs, hk, hstored⟩
  rw [splitOn_eq_scrypt.mpr ⟨hs', hk', hstored'⟩] at hsplit
  cases hsplit
  exact ⟨rfl, rfl⟩

/-- What is written is read back. -/
lemma readAs_encoded : ReadAs ("scrypt$" ++ toHex salt ++ "$" ++ toHex key) salt key :=
  ⟨toHex salt, toHex key, dollar_not_mem_toHex, dollar_not_mem_toHex, rfl, fromHex_toHex,
    fromHex_toHex⟩

/-- The verification compares the key that is read with as many bytes of the function. -/
lemma verifyPassword_eq (h : ReadAs stored salt key) :
    verifyPassword scrypt password stored =
      .ok (key == scrypt.derive password salt key.length) := by
  obtain ⟨saltHex, keyHex, hs, hk, hstored, rfl, rfl⟩ := h
  rw [verifyPassword]
  rw [splitOn_eq_scrypt.mpr ⟨hs, hk, hstored⟩]
  dsimp only
  rw [if_neg (not_not.mpr rfl), if_pos (scrypt.length_derive ..).symm, timingSafeEqual,
    if_pos (scrypt.length_derive ..).symm]

/-- The verification of a password against what another one was hashed to. -/
lemma verifyPassword_hashPassword {password' : JsString} :
    verifyPassword scrypt password' (hashPassword scrypt salt password) =
      .ok (scrypt.derive password salt keyLen == scrypt.derive password' salt keyLen) := by
  have hread :
      ReadAs (hashPassword scrypt salt password) salt (scrypt.derive password salt keyLen) :=
    readAs_encoded
  rw [verifyPassword_eq hread, scrypt.length_derive]

lemma verifyPassword_of_not_readAs (h : ¬ ∃ salt key, ReadAs stored salt key) :
    verifyPassword scrypt password stored = .ok false := by
  rw [verifyPassword]
  split
  · rename_i scheme saltHex keyHex hsplit
    split_ifs with hscheme
    · rfl
    · rw [not_not.mp hscheme] at hsplit
      obtain ⟨hs, hk, hstored⟩ := splitOn_eq_scrypt.mp hsplit
      exact absurd ⟨_, _, saltHex, keyHex, hs, hk, hstored, rfl, rfl⟩ h
  · rfl

lemma verifyPassword_ok : verifyPassword scrypt password stored = .ok true ∨
    verifyPassword scrypt password stored = .ok false := by
  by_cases h : ∃ salt key, ReadAs stored salt key
  · obtain ⟨salt, key, h⟩ := h
    rw [verifyPassword_eq h]
    cases key == scrypt.derive password salt key.length <;> simp
  · exact .inr (verifyPassword_of_not_readAs h)

lemma verifyPassword_iff : verifyPassword scrypt password stored = .ok true ↔
    ∃ salt key, ReadAs stored salt key ∧ scrypt.derive password salt key.length = key := by
  constructor
  · intro h
    by_cases hread : ∃ salt key, ReadAs stored salt key
    · obtain ⟨salt, key, hread⟩ := hread
      rw [verifyPassword_eq hread] at h
      exact ⟨salt, key, hread, (eq_of_beq (Except.ok.inj h)).symm⟩
    · rw [verifyPassword_of_not_readAs hread] at h
      cases h
  · rintro ⟨salt, key, hread, hkey⟩
    rw [verifyPassword_eq hread, hkey, beq_self_eq_true]

/-- The hashes of a password are the encoded strings that are accepted for it. -/
lemma hashes_iff : Hashes scrypt password stored ↔
    verifyPassword scrypt password stored = .ok true ∧ Encoded stored := by
  constructor
  · rintro ⟨salt, hsalt, rfl⟩
    refine ⟨verifyPassword_iff.mpr ⟨salt, _, readAs_encoded, ?_⟩, salt, _, hsalt, ?_, rfl⟩
    · rw [scrypt.length_derive]
    · exact scrypt.length_derive ..
  · rintro ⟨haccepted, salt, key, hsalt, hlength, rfl⟩
    obtain ⟨salt', key', hread, hkey⟩ := verifyPassword_iff.mp haccepted
    obtain ⟨rfl, rfl⟩ := hread.unique readAs_encoded
    rw [hlength] at hkey
    exact ⟨salt', hsalt, by rw [hashPassword, keyLen, hkey]⟩

lemma verifiesExactly_iff : VerifiesExactly scrypt password stored ↔
    (verifyPassword scrypt password stored = .ok true → Encoded stored) := by
  rw [VerifiesExactly, hashes_iff]
  constructor
  · exact fun h haccepted => (h.1.mp haccepted).2
  · intro h
    refine ⟨⟨fun haccepted => ⟨haccepted, h haccepted⟩, And.left⟩, fun hnot => ?_⟩
    exact verifyPassword_ok.resolve_left fun haccepted => hnot ⟨haccepted, h haccepted⟩

/-- The verification is exact for a password unless the string is read as a salt and a key that the
function gives, although it is not how they are written. Whatever the function is, it is exact for
the strings that are not read at all and for those that are written so. -/
theorem verifyPassword_exact_iff (stored : JsString) :
    (∀ scrypt password, VerifiesExactly scrypt password stored ↔
      ¬ ∃ salt key, ReadAs stored salt key ∧ ¬ Encoded stored ∧
        scrypt.derive password salt key.length = key) ∧
    ((∀ scrypt password, VerifiesExactly scrypt password stored) ↔
      ((∃ salt key, ReadAs stored salt key) → Encoded stored)) := by
  refine ⟨fun scrypt password => ?_, ?_⟩
  · rw [verifiesExactly_iff, verifyPassword_iff]
    constructor
    · rintro h ⟨salt, key, hread, hnot, hkey⟩
      exact hnot (h ⟨salt, key, hread, hkey⟩)
    · rintro h ⟨salt, key, hread, hkey⟩
      by_contra hnot
      exact h ⟨salt, key, hread, hnot, hkey⟩
  · constructor
    · rintro h ⟨salt, key, hread⟩
      -- the function may be the one that gives the key that is read
      have hkey : (Scrypt.constant key).derive [] salt key.length = key := if_pos rfl
      exact verifiesExactly_iff.mp (h (.constant key) [])
        (verifyPassword_iff.mpr ⟨_, _, hread, hkey⟩)
    · intro h scrypt password
      refine verifiesExactly_iff.mpr fun haccepted => h ?_
      obtain ⟨salt, key, hread, -⟩ := verifyPassword_iff.mp haccepted
      exact ⟨salt, key, hread⟩

/-- Two empty parts are read as an empty key, which every function gives where no bytes are asked
for. -/
lemma verifyPassword_empty (scrypt : Scrypt) (password : JsString) :
    verifyPassword scrypt password "scrypt$$" = .ok true := by
  have hread : ReadAs "scrypt$$" [] [] := @readAs_encoded [] []
  refine verifyPassword_iff.mpr ⟨[], [], hread, ?_⟩
  exact List.eq_nil_of_length_eq_zero (scrypt.length_derive ..)

/-- So that string, which no password was hashed to, is a hash of every password. -/
theorem empty_hash_accepted :
    ¬ VerifiesExactly (.constant (List.replicate keyLen 7)) "guess" "scrypt$$" := by
  rw [verifiesExactly_iff]
  intro h
  obtain ⟨salt, key, hsalt, -, hstored⟩ := h (verifyPassword_empty _ _)
  have hlength := congrArg List.length hstored
  rw [List.length_append, List.length_append, List.length_append, length_toHex, hsalt] at hlength
  have hempty : ("scrypt$$" : JsString).length = 8 := rfl
  omega

end WorkspaceOs.Auth
