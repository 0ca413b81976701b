import Mathlib.Data.Int.Init
import Mathlib.Tactic.Linarith

/-!
# JavaScript numbers and time values

A JavaScript number is an IEEE 754 binary64 value, which is what Lean's `Float` is; arithmetic on
it rounds, and every comparison with NaN is false. The time value of a `Date` is an integral number
of milliseconds, or NaN, written `none` here.
-/

namespace Js

open Float.Model

/-- The value of an unpacked number that is an integer. -/
def unpackedInteger? : UnpackedFloat → Option ℤ
  | .zero _ => some 0
  | .finite s m e _ =>
    if m * 2 ^ e.toNat % 2 ^ (-e).toNat = 0 then some (s.apply (m * 2 ^ e.toNat / 2 ^ (-e).toNat))
    else none
  | .infinity _ | .notANumber => none

/-- The value of a number that is an integer. -/
def integer? (x : Float) : Option ℤ := unpackedInteger? x.toModel.unpack

/-- `Number.isInteger`. -/
def isInteger (x : Float) : Bool := (integer? x).isSome

lemma integer?_zero : integer? 0 = some 0 := by decide +kernel

/-- The number nearest to an integer. -/
def ofInt (n : ℤ) : Float := .ofModel (Float.Model.ofInt n)

/-! ### Small integers are numbers -/

section Exact

variable {s : UnpackedFloat.Sign} {m k : ℕ}

private lemma log2_scaled (hm : 0 < m) (hk : m.log2 + k = 52) : (m * 2 ^ k).log2 = 52 := by
  have hne : m ≠ 0 := hm.ne'
  have hpos : 0 < m * 2 ^ k := Nat.mul_pos hm (Nat.two_pow_pos _)
  rw [Nat.log2_eq_iff hpos.ne', ← hk, Nat.add_right_comm, pow_add, pow_add]
  exact ⟨Nat.mul_le_mul_right _ (Nat.log2_self_le hne),
    Nat.mul_lt_mul_of_pos_right ((Nat.log2_lt hne).mp (Nat.lt_succ_self _)) (Nat.two_pow_pos _)⟩

private lemma targetExponent_binary64 {e : ℤ} (hle : m.log2 + e ≤ 52) (hge : -52 ≤ m.log2 + e) :
    Format.binary64.targetExponent (totalExponent m e) = m.log2 + e - 52 := by
  show max ((m.log2 + 1 + e : ℤ) - 53) (-1074) = _
  omega

private lemma shiftToTargetExponent_exact {e : ℤ}
    (h : Format.binary64.targetExponent (totalExponent m e) = e) :
    UnpackedFloat.shiftToTargetExponent Format.binary64 m e .exact = (⟨m, false, false⟩, e) := by
  simp [UnpackedFloat.shiftToTargetExponent, UnpackedFloat.shiftToExponent, h,
    UnpackedFloat.ExtendedMantissa.ofMantissaAndAccuracy, HShiftRight.hShiftRight, Nat.repeat]

/-- A mantissa of 53 bits is not rounded any further. -/
private lemma round_of_shift {a b : ℕ} {e e' : ℤ} (hm : 0 < m) (hk : m.log2 + k = 52)
    (htarget : Format.binary64.targetExponent (totalExponent a e) = -k)
    (hdecrease : UnpackedFloat.decreaseExponent a e (-k) = (b, e'))
    (hshift : UnpackedFloat.shiftToTargetExponent Format.binary64 b e' .exact =
      (⟨m * 2 ^ k, false, false⟩, -(k : ℤ))) :
    UnpackedFloat.round Format.binary64 s a e =
      .finite s (m * 2 ^ k) (-k) (Nat.mul_pos hm (Nat.two_pow_pos _)) := by
  have hlog := log2_scaled hm hk
  have hpos : m * 2 ^ k ≠ 0 := (Nat.mul_pos hm (Nat.two_pow_pos _)).ne'
  have htarget' : Format.binary64.targetExponent (totalExponent (m * 2 ^ k) (-k)) = -k := by
    rw [targetExponent_binary64] <;> omega
  have hrounded : (⟨m * 2 ^ k, false, false⟩ : UnpackedFloat.ExtendedMantissa).roundedMantissa =
      m * 2 ^ k := rfl
  unfold UnpackedFloat.round
  rw [htarget]
  dsimp only
  rw [hdecrease]
  unfold UnpackedFloat.roundWithAccuracy
  rw [hshift]
  dsimp only
  rw [hrounded, shiftToTargetExponent_exact htarget']
  exact dif_neg hpos

/-- Rounding an integer of at most 53 bits only normalizes its mantissa. -/
private lemma round_exact (s : UnpackedFloat.Sign) (hm : 0 < m) (hk : m.log2 + k = 52) :
    UnpackedFloat.round Format.binary64 s m 0 =
      .finite s (m * 2 ^ k) (-k) (Nat.mul_pos hm (Nat.two_pow_pos _)) := by
  have hlog := log2_scaled hm hk
  have htarget' : Format.binary64.targetExponent (totalExponent (m * 2 ^ k) (-k)) = -k := by
    rw [targetExponent_binary64] <;> omega
  apply round_of_shift hm hk _ _ (shiftToTargetExponent_exact htarget')
  · rw [targetExponent_binary64] <;> omega
  · simp [UnpackedFloat.decreaseExponent, Nat.shiftLeft_eq]

private lemma unpackSign_packComponents {spec : Format} {exponent mantissa} :
    UnpackedFloat.unpackSign (UnpackedFloat.packComponents spec s exponent mantissa) =
      s.toBitVec := by
  ext i hi
  obtain rfl : i = 0 := by omega
  show ((UnpackedFloat.packComponents spec s exponent mantissa).extractLsb _ _).getLsbD 0 = _
  simp [UnpackedFloat.packComponents, BitVec.getLsbD_append, BitVec.getElem_append]

private lemma pack_normal (hk : k ≤ 52) (hlog : m.log2 = 52) (hm : 0 < m) :
    UnpackedFloat.pack Format.binary64 (.finite s m (-k) hm) =
      UnpackedFloat.packComponents Format.binary64 s (BitVec.ofNat _ (1075 - k))
        (BitVec.ofNat _ m) := by
  have hbiased : (-(k : ℤ) + Format.binary64.exponentBias
      + Format.binary64.mantissaBitsWithoutImplicit).toNat = 1075 - k := by
    simp [Format.exponentBias]
    omega
  have hfits : ¬ 2 ^ Format.binary64.exponentBits ≤ (1075 - k) + 1 := by
    simp
    omega
  unfold UnpackedFloat.pack
  rw [hbiased, if_neg hfits, hlog]
  exact if_pos rfl

private lemma finite_congr {s s' : UnpackedFloat.Sign} {m m' : ℕ} {e e' : ℤ} {h : 0 < m}
    {h' : 0 < m'} (hs : s = s') (hm : m = m') (he : e = e') :
    UnpackedFloat.finite s m e h = .finite s' m' e' h' := by
  subst hs hm he
  rfl

private lemma unpack_packComponents {spec : Format} {exponent : BitVec spec.exponentBits}
    {mantissa : BitVec spec.mantissaBitsWithoutImplicit} (hinfinite : exponent ≠ -1#_)
    (hsubnormal : exponent ≠ 0#_) (hm : 0 < m) {e : ℤ} (hmantissa : (1#1 ++ mantissa).toNat = m)
    (he : exponent.toNat - (spec.exponentBias + spec.mantissaBitsWithoutImplicit) = e) :
    UnpackedFloat.unpack spec (UnpackedFloat.packComponents spec s exponent mantissa) =
      .finite s m e hm := by
  have hsign : UnpackedFloat.Sign.ofBitVec s.toBitVec = s := by cases s <;> rfl
  have hexponent := @UnpackedFloat.unpackExponent_packComponents spec s exponent mantissa
  refine (if_neg (by rwa [hexponent])).trans ((if_neg (by rwa [hexponent])).trans ?_)
  refine finite_congr ?_ ?_ ?_
  · rw [unpackSign_packComponents, hsign]
  · rw [UnpackedFloat.unpackMantissa_packComponents, hmantissa]
  · rw [hexponent, he]

/-- A normal number of magnitude below `2 ^ 53` is what unpacking its packed form gives back. -/
private lemma unpack_pack (hk : k ≤ 52) (hlog : m.log2 = 52) (hm : 0 < m) :
    UnpackedFloat.unpack Format.binary64
        (UnpackedFloat.pack Format.binary64 (.finite s m (-k) hm)) =
      .finite s m (-k) hm := by
  have hbounds : 2 ^ 52 ≤ m ∧ m < 2 ^ 53 := (Nat.log2_eq_iff hm.ne').mp hlog
  have hexp : (BitVec.ofNat 11 (1075 - k)).toNat = 1075 - k := by
    simp
    omega
  have hinfinite : BitVec.ofNat 11 (1075 - k) ≠ -1#11 := by
    intro h
    have := congrArg BitVec.toNat h
    rw [hexp, show (-1#11).toNat = 2047 from rfl] at this
    omega
  have hsubnormal : BitVec.ofNat 11 (1075 - k) ≠ 0#11 := by
    intro h
    have := congrArg BitVec.toNat h
    rw [hexp, show (0#11).toNat = 0 from rfl] at this
    omega
  have hmantissa : (1#1 ++ BitVec.ofNat 52 m).toNat = m := by
    have hlt : m % 2 ^ 52 < 2 ^ 52 := Nat.mod_lt _ (by norm_num)
    have hor := Nat.two_pow_add_eq_or_of_lt hlt 1
    have hmod : m % 2 ^ 52 = m - 2 ^ 52 := by
      rw [Nat.mod_eq_sub_mod hbounds.1, Nat.mod_eq_of_lt (by omega)]
    rw [BitVec.toNat_append, BitVec.toNat_ofNat, BitVec.toNat_ofNat, Nat.shiftLeft_eq,
      show 1 % 2 ^ 1 * 2 ^ 52 = 2 ^ 52 * 1 by norm_num, ← hor]
    omega
  have hbias : Format.binary64.exponentBias = 1023 := rfl
  have hbits : Format.binary64.mantissaBitsWithoutImplicit = 52 := rfl
  have hexponent : ((BitVec.ofNat 11 (1075 - k)).toNat : ℤ) - (Format.binary64.exponentBias
      + Format.binary64.mantissaBitsWithoutImplicit) = -k := by
    rw [hexp, hbias, hbits]
    omega
  rw [pack_normal hk hlog hm]
  exact unpack_packComponents hinfinite hsubnormal hm hmantissa hexponent

private lemma unpackedInteger?_scaled (h : 0 < m * 2 ^ k) :
    unpackedInteger? (.finite s (m * 2 ^ k) (-k) h) = some (s.apply m) := by
  have hdiv : m * 2 ^ k * 2 ^ (-k : ℤ).toNat % 2 ^ (-(-k : ℤ)).toNat = 0 := by simp
  have hpow : ((2 : ℤ) ^ k) ≠ 0 := by positivity
  have hquot : ((m * 2 ^ k : ℕ) : ℤ) * 2 ^ (-k : ℤ).toNat / 2 ^ (-(-k : ℤ)).toNat = m := by
    simp [hpow]
  apply (if_pos hdiv).trans
  rw [hquot]

/-- An integer below `2 ^ 53` in magnitude survives the trip through a number. -/
lemma integer?_ofInt {n : ℤ} (h : n.natAbs < 2 ^ 53) : integer? (ofInt n) = some n := by
  have hunpack : (ofInt n).toModel.unpack = UnpackedFloat.unpack Format.binary64
      (UnpackedFloat.pack Format.binary64
        (UnpackedFloat.normalize Format.binary64 n 0 .positive)) :=
    rfl
  have hlog (hn : n ≠ 0) : ∃ k, n.natAbs.log2 + k = 52 := by
    have := (Nat.log2_lt (by omega : n.natAbs ≠ 0)).mpr h
    exact ⟨52 - n.natAbs.log2, by omega⟩
  rw [integer?]
  rw [hunpack]
  rcases lt_trichotomy n 0 with hn | rfl | hn
  · obtain ⟨k, hk⟩ := hlog hn.ne
    clear hlog
    have habs : (-n).toNat = n.natAbs := by omega
    have hvalue : -(n.natAbs : ℤ) = n := by omega
    simp only [UnpackedFloat.normalize, compare_lt_iff_lt.mpr hn, habs]
    rw [round_exact _ (by omega) hk, unpack_pack (by omega) (log2_scaled (by omega) hk),
      unpackedInteger?_scaled]
    exact congrArg some hvalue
  · decide
  · obtain ⟨k, hk⟩ := hlog hn.ne'
    clear hlog
    have habs : n.toNat = n.natAbs := by omega
    have hvalue : (n.natAbs : ℤ) = n := by omega
    simp only [UnpackedFloat.normalize, compare_gt_iff_gt.mpr hn, habs]
    rw [round_exact _ (by omega) hk, unpack_pack (by omega) (log2_scaled (by omega) hk),
      unpackedInteger?_scaled]
    exact congrArg some hvalue

/-- Halving drops the zeros at the end of a mantissa, and nothing else. -/
private lemma repeat_shiftRightOne (j : ℕ) :
    Nat.repeat UnpackedFloat.ExtendedMantissa.shiftRightOne j ⟨m * 2 ^ j, false, false⟩ =
      ⟨m, false, false⟩ := by
  induction j generalizing m with
  | zero => simp [Nat.repeat]
  | succ j ih =>
    have hdouble : m * 2 ^ (j + 1) = m * 2 * 2 ^ j := by rw [pow_succ', mul_assoc]
    rw [Nat.repeat, hdouble, ih]
    simp [UnpackedFloat.ExtendedMantissa.shiftRightOne]

/-- Rounding an integer of at most 53 bits that is written with zeros after the point. -/
private lemma round_scaled (s : UnpackedFloat.Sign) (hm : 0 < m) (hk : m.log2 + k = 52) {j : ℕ}
    (hj : k ≤ j) :
    UnpackedFloat.round Format.binary64 s (m * 2 ^ j) (-j) =
      .finite s (m * 2 ^ k) (-k) (Nat.mul_pos hm (Nat.two_pow_pos _)) := by
  have hlog : (m * 2 ^ j).log2 = m.log2 + j := by
    have hpos : 0 < m * 2 ^ j := Nat.mul_pos hm (Nat.two_pow_pos _)
    rw [Nat.log2_eq_iff hpos.ne', Nat.add_right_comm, pow_add, pow_add]
    exact ⟨Nat.mul_le_mul_right _ (Nat.log2_self_le hm.ne'),
      Nat.mul_lt_mul_of_pos_right ((Nat.log2_lt hm.ne').mp (Nat.lt_succ_self _))
        (Nat.two_pow_pos _)⟩
  have htarget : Format.binary64.targetExponent (totalExponent (m * 2 ^ j) (-j)) = -k := by
    rw [targetExponent_binary64] <;> omega
  have hdecrease : UnpackedFloat.decreaseExponent (m * 2 ^ j) (-j) (-k) =
      (m * 2 ^ j, -(j : ℤ)) := by
    have hshift : (-(j : ℤ) - -k).toNat = 0 := by omega
    simp only [UnpackedFloat.decreaseExponent, hshift, Nat.shiftLeft_zero, Int.ofNat_zero, sub_zero]
  refine round_of_shift hm hk htarget hdecrease ?_
  have hamount : (-(k : ℤ) - -j).toNat = j - k := by omega
  have hsplit : m * 2 ^ j = m * 2 ^ k * 2 ^ (j - k) := by
    rw [mul_assoc, ← pow_add, Nat.add_sub_cancel' hj]
  have hexponent : -(j : ℤ) + (j - k : ℕ) = -k := by omega
  simp only [UnpackedFloat.shiftToTargetExponent, UnpackedFloat.shiftToExponent, htarget,
    UnpackedFloat.ExtendedMantissa.ofMantissaAndAccuracy, HShiftRight.hShiftRight, hamount]
  rw [hexponent, hsplit, repeat_shiftRightOne]

private lemma normalize_of_pos {a e : ℤ} (ha : 0 < a) :
    UnpackedFloat.normalize Format.binary64 a e .positive =
      UnpackedFloat.round Format.binary64 .positive a.toNat e := by
  simp only [UnpackedFloat.normalize, compare_gt_iff_gt.mpr ha]

private lemma normalize_scaled (hm : 0 < m) (hk : m.log2 + k = 52) {j : ℕ} (hj : k ≤ j)
    {a : ℤ} (ha : a = (m * 2 ^ j : ℕ)) :
    UnpackedFloat.normalize Format.binary64 a (-j) .positive =
      .finite .positive (m * 2 ^ k) (-k) (Nat.mul_pos hm (Nat.two_pow_pos _)) := by
  have hpos : 0 < a := by
    rw [ha]
    exact Int.natCast_pos.mpr (Nat.mul_pos hm (Nat.two_pow_pos _))
  have htoNat : a.toNat = m * 2 ^ j := by omega
  rw [normalize_of_pos hpos, htoNat]
  exact round_scaled .positive hm hk hj

private lemma toModel_ofInt (hm : 0 < m) (hk : m.log2 + k = 52) :
    (ofInt m).toModel = Float.Model.pack
      (.finite .positive (m * 2 ^ k) (-k) (Nat.mul_pos hm (Nat.two_pow_pos _))) := by
  have hnormalize : UnpackedFloat.normalize Format.binary64 (m : ℤ) 0 .positive =
      .finite .positive (m * 2 ^ k) (-k) (Nat.mul_pos hm (Nat.two_pow_pos _)) := by
    rw [normalize_of_pos (Int.natCast_pos.mpr hm), Int.toNat_natCast]
    exact round_exact .positive hm hk
  rw [← hnormalize]
  rfl

private lemma unpack_ofInt (hm : 0 < m) (hk : m.log2 + k = 52) :
    (ofInt m).toModel.unpack =
      .finite .positive (m * 2 ^ k) (-k) (Nat.mul_pos hm (Nat.two_pow_pos _)) := by
  rw [toModel_ofInt hm hk]
  exact unpack_pack (by omega) (log2_scaled hm hk) _

lemma ofInt_zero : ofInt 0 = 0 := by decide +kernel

lemma ofInt_one : ofInt 1 = 1 := by decide +kernel

lemma isInteger_one : isInteger 1 := by decide +kernel

private lemma unpack_one : (1 : Float).toModel.unpack =
    .finite .positive (2 ^ 52) (-52) (Nat.two_pow_pos _) := by
  rw [← ofInt_one]
  exact unpack_ofInt (k := 52) Nat.one_pos (by decide)

private lemma exists_log2 (hm : 0 < m) (h : m < 2 ^ 53) : ∃ k, m.log2 + k = 52 :=
  ⟨52 - m.log2, by have := (Nat.log2_lt hm.ne').mpr h; omega⟩

/-- Adding one to a small integer is exact. -/
lemma ofInt_add_one {n : ℕ} (hn : 0 < n) (h : n + 1 < 2 ^ 53) :
    ofInt n + 1 = ofInt (n + 1 : ℕ) := by
  obtain ⟨k, hk⟩ := exists_log2 hn (by omega)
  obtain ⟨k', hk'⟩ := exists_log2 (Nat.succ_pos n) h
  have hadd :
      UnpackedFloat.add Format.binary64 (ofInt n).toModel.unpack (1 : Float).toModel.unpack =
      .finite .positive ((n + 1) * 2 ^ k') (-k') (Nat.mul_pos (Nat.succ_pos n)
        (Nat.two_pow_pos _)) := by
    have hmin : min (-(k : ℤ)) (-52) = -(52 : ℕ) := by omega
    have hamount : (-(k : ℤ) - -(52 : ℕ)).toNat = 52 - k := by omega
    have hleft : (n * 2 ^ k) <<< (-(k : ℤ) - -(52 : ℕ)).toNat = n * 2 ^ 52 := by
      rw [hamount, Nat.shiftLeft_eq, mul_assoc, ← pow_add, Nat.add_sub_cancel' (by omega)]
    have hright : 2 ^ 52 <<< (-52 - -(52 : ℕ) : ℤ).toNat = 2 ^ 52 := rfl
    have hsum : UnpackedFloat.Sign.positive.apply (n * 2 ^ 52 : ℕ) +
        UnpackedFloat.Sign.positive.apply (2 ^ 52 : ℕ) = ((n + 1) * 2 ^ 52 : ℕ) := by
      simp only [UnpackedFloat.Sign.apply]
      omega
    rw [unpack_ofInt hn hk, unpack_one]
    refine Eq.trans ?_ (normalize_scaled (Nat.succ_pos n) hk' (by omega) hsum)
    show UnpackedFloat.normalize _ (_ + _) (min _ _) _ = _
    rw [hmin, hleft, hright]
  show Float.ofModel (Float.Model.pack _) = ofInt (n + 1 : ℕ)
  rw [hadd, ← toModel_ofInt (Nat.succ_pos n) hk']

private lemma normalize_of_neg {a e : ℤ} (ha : a < 0) :
    UnpackedFloat.normalize Format.binary64 a e .positive =
      UnpackedFloat.round Format.binary64 .negative (-a).toNat e := by
  simp only [UnpackedFloat.normalize, compare_lt_iff_lt.mpr ha]

private lemma unpack_ofInt_neg (hm : 0 < m) (hk : m.log2 + k = 52) :
    (ofInt (-m)).toModel.unpack =
      .finite .negative (m * 2 ^ k) (-k) (Nat.mul_pos hm (Nat.two_pow_pos _)) := by
  have habs : (- -(m : ℤ)).toNat = m := by omega
  have hnormalize : UnpackedFloat.normalize Format.binary64 (-m) 0 .positive =
      .finite .negative (m * 2 ^ k) (-k) (Nat.mul_pos hm (Nat.two_pow_pos _)) := by
    rw [normalize_of_neg (by omega), habs]
    exact round_exact .negative hm hk
  show (Float.Model.pack (UnpackedFloat.normalize Format.binary64 (-m) 0 .positive)).unpack = _
  rw [hnormalize]
  exact unpack_pack (by omega) (log2_scaled hm hk) _

private lemma unpack_ofInt_zero : (ofInt 0).toModel.unpack = .zero .positive := rfl

/-- Mantissas of the same length compare like the numbers, after the exponents. -/
private lemma compare_scaled {m' k' : ℕ} (hm : 0 < m) (hm' : 0 < m') (hk : m.log2 + k = 52)
    (hk' : m'.log2 + k' = 52) :
    (compare (-k : ℤ) (-k')).then (compare (m * 2 ^ k) (m' * 2 ^ k')) = compare m m' := by
  have hlog {a b : ℕ} (ha : 0 < a) (h : a.log2 < b.log2) : a < b := by
    by_contra hle
    have hb : b ≠ 0 := by
      rintro rfl
      simp at h
    have := (Nat.le_log2 ha.ne').mpr ((Nat.log2_self_le hb).trans (not_lt.mp hle))
    omega
  rcases lt_trichotomy k k' with hlt | rfl | hgt
  · rw [compare_gt_iff_gt.mpr (by omega), compare_gt_iff_gt.mpr (hlog hm' (by omega))]
    rfl
  · have hscale : compare (m * 2 ^ k) (m' * 2 ^ k) = compare m m' := by
      rcases lt_trichotomy m m' with hlt | rfl | hgt
      · rw [compare_lt_iff_lt.mpr hlt, compare_lt_iff_lt.mpr (by gcongr)]
      · rw [compare_eq_iff_eq.mpr rfl, compare_eq_iff_eq.mpr rfl]
      · rw [compare_gt_iff_gt.mpr hgt, compare_gt_iff_gt.mpr (by gcongr)]
    rw [compare_eq_iff_eq.mpr rfl, hscale]
    rfl
  · rw [compare_lt_iff_lt.mpr (by omega), compare_lt_iff_lt.mpr (hlog hm (by omega))]
    rfl

private lemma exists_unpack_of_neg {a : ℤ} (ha : a < 0) (h : a.natAbs < 2 ^ 53) :
    ∃ k hpos, a.natAbs.log2 + k = 52 ∧
      (ofInt a).toModel.unpack = .finite .negative (a.natAbs * 2 ^ k) (-k : ℤ) hpos := by
  obtain ⟨k, hk⟩ := exists_log2 (by omega) h
  have hvalue : -(a.natAbs : ℤ) = a := by omega
  have hunpack := unpack_ofInt_neg (by omega) hk
  rw [hvalue] at hunpack
  exact ⟨k, _, hk, hunpack⟩

private lemma exists_unpack_of_pos {a : ℤ} (ha : 0 < a) (h : a.natAbs < 2 ^ 53) :
    ∃ k hpos, a.natAbs.log2 + k = 52 ∧
      (ofInt a).toModel.unpack = .finite .positive (a.natAbs * 2 ^ k) (-k : ℤ) hpos := by
  obtain ⟨k, hk⟩ := exists_log2 (by omega) h
  have hvalue : (a.natAbs : ℤ) = a := by omega
  have hunpack := unpack_ofInt (by omega) hk
  rw [hvalue] at hunpack
  exact ⟨k, _, hk, hunpack⟩

/-- Small integers compare as numbers the way they compare as integers. -/
private lemma compare_ofInt {a b : ℤ} (ha : a.natAbs < 2 ^ 53) (hb : b.natAbs < 2 ^ 53) :
    (ofInt a).toModel.unpack.compare (ofInt b).toModel.unpack = some (compare a b) := by
  rcases lt_trichotomy a 0 with hneg | rfl | hpos
  · obtain ⟨k, _, hk, hunpack⟩ := exists_unpack_of_neg hneg ha
    rw [hunpack]
    rcases lt_or_ge b 0 with hneg' | hnonneg
    · obtain ⟨k', _, hk', hunpack'⟩ := exists_unpack_of_neg hneg' hb
      have hswap : compare a b = (compare a.natAbs b.natAbs).swap := by
        rcases lt_trichotomy a b with hlt | rfl | hgt
        · rw [compare_lt_iff_lt.mpr hlt, compare_gt_iff_gt.mpr (by omega)]
          rfl
        · rw [compare_eq_iff_eq.mpr rfl, compare_eq_iff_eq.mpr rfl]
          rfl
        · rw [compare_gt_iff_gt.mpr hgt, compare_lt_iff_lt.mpr (by omega)]
          rfl
      rw [hunpack', hswap, ← compare_scaled (by omega) (by omega) hk hk']
      rfl
    · rw [compare_lt_iff_lt.mpr (hneg.trans_le hnonneg)]
      rcases hnonneg.eq_or_lt with rfl | hpos'
      · rw [unpack_ofInt_zero]
        rfl
      · obtain ⟨k', _, -, hunpack'⟩ := exists_unpack_of_pos hpos' hb
        rw [hunpack']
        rfl
  · rw [unpack_ofInt_zero]
    rcases lt_trichotomy b 0 with hneg' | rfl | hpos'
    · obtain ⟨k', _, -, hunpack'⟩ := exists_unpack_of_neg hneg' hb
      rw [hunpack', compare_gt_iff_gt.mpr hneg']
      rfl
    · rw [unpack_ofInt_zero]
      rfl
    · obtain ⟨k', _, -, hunpack'⟩ := exists_unpack_of_pos hpos' hb
      rw [hunpack', compare_lt_iff_lt.mpr hpos']
      rfl
  · obtain ⟨k, _, hk, hunpack⟩ := exists_unpack_of_pos hpos ha
    rw [hunpack]
    rcases le_or_gt b 0 with hnonpos | hpos'
    · rw [compare_gt_iff_gt.mpr (hnonpos.trans_lt hpos)]
      rcases hnonpos.eq_or_lt with rfl | hneg'
      · rw [unpack_ofInt_zero]
        rfl
      · obtain ⟨k', _, -, hunpack'⟩ := exists_unpack_of_neg hneg' hb
        rw [hunpack']
        rfl
    · obtain ⟨k', _, hk', hunpack'⟩ := exists_unpack_of_pos hpos' hb
      have hsame : compare a b = compare a.natAbs b.natAbs := by
        rcases lt_trichotomy a b with hlt | rfl | hgt
        · rw [compare_lt_iff_lt.mpr hlt, compare_lt_iff_lt.mpr (by omega)]
        · rw [compare_eq_iff_eq.mpr rfl, compare_eq_iff_eq.mpr rfl]
        · rw [compare_gt_iff_gt.mpr hgt, compare_gt_iff_gt.mpr (by omega)]
      rw [hunpack', hsame, ← compare_scaled (by omega) (by omega) hk hk']
      rfl

lemma ofInt_le_ofInt_iff {a b : ℤ} (ha : a.natAbs < 2 ^ 53) (hb : b.natAbs < 2 ^ 53) :
    ofInt a ≤ ofInt b ↔ a ≤ b := by
  have hle : UnpackedFloat.le (ofInt a).toModel.unpack (ofInt b).toModel.unpack =
      (compare a b).isLE := by
    rw [UnpackedFloat.le, compare_ofInt ha hb, Option.any_some]
  rw [← compare_le_iff_le, ne_eq, Ordering.ne_gt_iff_isLE, ← hle]
  exact ⟨of_decide_eq_true, decide_eq_true⟩

lemma ofInt_lt_ofInt_iff {a b : ℤ} (ha : a.natAbs < 2 ^ 53) (hb : b.natAbs < 2 ^ 53) :
    ofInt a < ofInt b ↔ a < b := by
  have hlt : UnpackedFloat.lt (ofInt a).toModel.unpack (ofInt b).toModel.unpack =
      (compare a b == .lt) := by
    rw [UnpackedFloat.lt, compare_ofInt ha hb]
    rfl
  rw [← compare_lt_iff_lt, ← beq_iff_eq, ← hlt]
  exact ⟨of_decide_eq_true, decide_eq_true⟩

/-- A positive integer is not below one. -/
lemma not_ofInt_lt_one {n : ℕ} (hn : 0 < n) (h : n < 2 ^ 53) : ¬ ofInt n < 1 := by
  rw [← ofInt_one, ofInt_lt_ofInt_iff (by simpa using h) (by decide)]
  omega

lemma isFinite_of_isInteger {x : Float} (h : isInteger x) : x.isFinite := by
  show x.toModel.unpack.isFinite = true
  rw [isInteger, integer?] at h
  cases hx : x.toModel.unpack with
  | zero | finite => rfl
  | infinity | notANumber =>
    rw [hx] at h
    cases h

/-- Both zeros are below one. -/
lemma lt_one_of_beq_zero {x : Float} (h : x == 0) : x < 1 := by
  have hzero : (0 : Float).toModel.unpack = .zero .positive := by
    rw [← ofInt_zero, unpack_ofInt_zero]
  have heq : UnpackedFloat.beq x.toModel.unpack (0 : Float).toModel.unpack = true := h
  rw [hzero] at heq
  have hlt : UnpackedFloat.lt x.toModel.unpack (1 : Float).toModel.unpack = true := by
    rw [unpack_one]
    cases hx : x.toModel.unpack with
    | zero s => rfl
    | finite s | infinity s =>
      rw [hx] at heq
      cases s <;> cases heq
    | notANumber =>
      rw [hx] at heq
      cases heq
  exact decide_eq_true hlt

/-- An integer that is not below one is positive. -/
lemma pos_of_integer? {x : Float} {n : ℤ} (h : integer? x = some n) (hone : ¬ x < 1) : 0 < n := by
  have hlt : UnpackedFloat.lt x.toModel.unpack (1 : Float).toModel.unpack = false :=
    Bool.eq_false_iff.mpr fun hlt => hone (decide_eq_true hlt)
  rw [unpack_one] at hlt
  rw [integer?] at h
  cases hx : x.toModel.unpack with
  | zero s =>
    rw [hx] at hlt
    cases hlt
  | infinity | notANumber =>
    rw [hx] at h
    cases h
  | finite s m e hm =>
    rw [hx] at h hlt
    cases s with
    | negative => cases hlt
    | positive =>
      dsimp only [unpackedInteger?] at h
      split_ifs at h with hexact
      have hpos : 0 < m * 2 ^ e.toNat := Nat.mul_pos hm (Nat.two_pow_pos _)
      have hquotient := Nat.div_pos
        (Nat.le_of_dvd hpos (Nat.dvd_of_mod_eq_zero hexact)) (Nat.two_pow_pos (-e).toNat)
      cases h
      exact Int.natCast_pos.mpr hquotient

end Exact

/-! ### Time values -/

/-- `Date.prototype.getTime`: milliseconds since the epoch, `none` for an invalid date. -/
abbrev TimeValue := Option ℤ

/-- The largest magnitude of a time value, 100,000,000 days. -/
def maxTime : ℕ := 8640000000000000

/-- `TimeClip`: what `new Date(x)` keeps of a number. Not finite or out of range gives NaN, and a
fraction is cut off towards zero. -/
def timeClip (x : Float) : TimeValue :=
  match x.toModel.unpack with
  | .zero _ => some 0
  | .finite s m e _ =>
    if m * 2 ^ e.toNat ≤ maxTime * 2 ^ (-e).toNat then
      some (s.apply (m * 2 ^ e.toNat / 2 ^ (-e).toNat))
    else none
  | .infinity _ | .notANumber => none

namespace TimeValue

/-- The time value as a number, NaN for an invalid date. -/
def toNumber : TimeValue → Float
  | some t => ofInt t
  | none => 0 / 0

/-- `a - b` on time values. -/
def sub : TimeValue → TimeValue → TimeValue
  | some a, some b => some (a - b)
  | _, _ => none

/-- `a <= b`, false when either side is NaN. -/
def le : TimeValue → TimeValue → Bool
  | some a, some b => a ≤ b
  | _, _ => false

/-- `a > b`, false when either side is NaN. -/
def gt : TimeValue → TimeValue → Bool
  | some a, some b => b < a
  | _, _ => false

/-- `a >= b`, false when either side is NaN. -/
def ge (a b : TimeValue) : Bool := le b a

@[simp] lemma sub_some (a b : ℤ) : sub (some a) (some b) = some (a - b) := rfl
@[simp] lemma sub_none_left (b : TimeValue) : sub none b = none := rfl
@[simp] lemma le_some (a b : ℤ) : le (some a) (some b) = decide (a ≤ b) := rfl
@[simp] lemma le_none_left (b : TimeValue) : le none b = false := rfl
@[simp] lemma le_none_right (a : TimeValue) : le a none = false := by cases a <;> rfl
@[simp] lemma gt_some (a b : ℤ) : gt (some a) (some b) = decide (b < a) := rfl
@[simp] lemma gt_none_left (b : TimeValue) : gt none b = false := rfl
@[simp] lemma ge_some (a b : ℤ) : ge (some a) (some b) = decide (b ≤ a) := rfl
@[simp] lemma ge_none_right (a : TimeValue) : ge a none = false := rfl

end TimeValue

/-- `Date`. -/
structure Date where
  getTime : TimeValue
  inRange : ∀ t, getTime = some t → t.natAbs ≤ maxTime

/-- `new Date(x)`. -/
def Date.ofNumber (x : Float) : Date where
  getTime := timeClip x
  inRange := by
    intro t ht
    simp only [timeClip] at ht
    split at ht
    · cases ht
      exact Nat.zero_le _
    · rename_i s m e _ _
      split_ifs at ht with hrange
      cases ht
      have hquotient : m * 2 ^ e.toNat / 2 ^ (-e).toNat ≤ maxTime :=
        Nat.div_le_of_le_mul (by rwa [mul_comm (2 ^ _)])
      have hcast : (m : ℤ) * 2 ^ e.toNat / 2 ^ (-e).toNat =
          (m * 2 ^ e.toNat / 2 ^ (-e).toNat : ℕ) := by
        push_cast
        rfl
      have habs (q : ℕ) : (s.apply q).natAbs = q := by
        cases s <;> simp [UnpackedFloat.Sign.apply]
      rwa [hcast, habs]
    · cases ht
    · cases ht

/-- A small integer is kept where it is in range. -/
lemma timeClip_ofInt {n : ℤ} (h : n.natAbs < 2 ^ 53) :
    timeClip (ofInt n) = if n.natAbs ≤ maxTime then some n else none := by
  have hclip {s : UnpackedFloat.Sign} {k : ℕ} {hpos : 0 < n.natAbs * 2 ^ k}
      (hunpack : (ofInt n).toModel.unpack = .finite s (n.natAbs * 2 ^ k) (-k : ℤ) hpos) :
      timeClip (ofInt n) = if n.natAbs ≤ maxTime then some (s.apply n.natAbs) else none := by
    have hpow : (2 : ℤ) ^ k ≠ 0 := by positivity
    have hrange : n.natAbs * 2 ^ k ≤ maxTime * 2 ^ k ↔ n.natAbs ≤ maxTime :=
      Nat.mul_le_mul_right_iff (Nat.two_pow_pos k)
    rw [timeClip, hunpack]
    simp only [Int.toNat_neg_natCast, neg_neg, Int.toNat_natCast, pow_zero, mul_one, hrange]
    simp [hpow]
  rcases lt_trichotomy n 0 with hneg | rfl | hpos
  · obtain ⟨k, _, -, hunpack⟩ := exists_unpack_of_neg hneg h
    have hvalue : UnpackedFloat.Sign.negative.apply n.natAbs = n := by
      simp only [UnpackedFloat.Sign.apply]
      omega
    rw [hclip hunpack, hvalue]
  · rw [timeClip, unpack_ofInt_zero]
    rfl
  · obtain ⟨k, _, -, hunpack⟩ := exists_unpack_of_pos hpos h
    have hvalue : UnpackedFloat.Sign.positive.apply n.natAbs = n := by
      simp only [UnpackedFloat.Sign.apply]
      omega
    rw [hclip hunpack, hvalue]

/-- A date is not before another one exactly when it is not before it as a number. -/
lemma Date.toNumber_le_iff {a b : Date} {t u : ℤ} (ha : a.getTime = some t)
    (hb : b.getTime = some u) : ofInt t ≤ b.getTime.toNumber ↔ t ≤ u := by
  have hat := a.inRange t ha
  have hbu := b.inRange u hb
  have hmax : maxTime < 2 ^ 53 := by decide
  rw [hb]
  exact ofInt_le_ofInt_iff (hat.trans_lt hmax) (hbu.trans_lt hmax)

end Js
