import Rollup.Proofs.Number.Exact

namespace Rollup

def towardZero (q : ℚ) : Int := if 0 ≤ q then ⌊q⌋ else ⌈q⌉

theorem towardZero_intCast (n : Int) : towardZero n = n := by
  unfold towardZero
  split
  · exact Int.floor_intCast n
  · exact Int.ceil_intCast n

theorem towardZero_neg (q : ℚ) : towardZero (-q) = -towardZero q := by
  unfold towardZero
  rcases lt_trichotomy q 0 with h | rfl | h
  · rw [if_pos (neg_pos.2 h).le, if_neg h.not_ge, Int.floor_neg]
  · simp
  · rw [if_neg (neg_neg_iff_pos.2 h).not_ge, if_pos h.le, Int.ceil_neg]

namespace Double

open Float.Model
open UnpackedFloat (Sign roundToInt)

theorem towardZero_apply (s : Sign) {q : ℚ} (hq : 0 ≤ q) :
    towardZero (s.apply 1 * q) = s.apply ⌊q⌋ := by
  have hfloor : towardZero q = ⌊q⌋ := if_pos hq
  cases s with
  | positive => rw [Sign.apply, Int.cast_one, one_mul, hfloor, Sign.apply]
  | negative =>
    rw [Sign.apply, Int.cast_neg, Int.cast_one, neg_one_mul, towardZero_neg, hfloor, Sign.apply]

theorem truncate?_of_isFinite {x : Float} (hx : x.isFinite = true) :
    truncate? x = some (towardZero (value x)) := by
  change x.toModel.unpack.isFinite = true at hx
  unfold truncate? value
  cases hunpack : x.toModel.unpack with
  | infinity | notANumber => rw [hunpack] at hx; cases hx
  | zero s => exact congrArg some (towardZero_intCast 0).symm
  | finite s m e hm =>
    have hpos : (0 : ℚ) ≤ m * 2 ^ e := mul_nonneg m.cast_nonneg (two_zpow_pos e).le
    rw [valueOf_finite, towardZero_apply s hpos, ← roundToInt_eq]

theorem truncate?_eq_none {x : Float} (hx : x.isFinite = false) : truncate? x = none := by
  change x.toModel.unpack.isFinite = false at hx
  unfold truncate?
  cases hunpack : x.toModel.unpack with
  | infinity | notANumber => rfl
  | zero | finite => rw [hunpack] at hx; cases hx

theorem truncate?_eq_some {x : Float} {n : Int} :
    truncate? x = some n ↔ x.isFinite = true ∧ n = towardZero (value x) := by
  cases hx : x.isFinite with
  | true => rw [truncate?_of_isFinite hx, Option.some_inj, eq_comm, and_iff_right rfl]
  | false => rw [truncate?_eq_none hx]; exact ⟨nofun, fun h => nomatch h.1⟩

def singleValue (x : Float32) : ℚ := valueOf x.toModel.unpack

theorem hasValue_ofSingle {x : Float32} (hx : x.isFinite = true) :
    HasValue (ofSingle x) (singleValue x) := by
  change x.toModel.unpack.isFinite = true at hx
  unfold ofSingle singleValue
  cases hunpack : x.toModel.unpack with
  | infinity | notANumber => rw [hunpack] at hx; cases hx
  | zero s => exact hasValue_pack_zero s
  | finite s m e hm =>
    obtain ⟨hlt, hleast, hmost⟩ := bounds_single hunpack
    have habs : |s.apply (m : Int)| = m := by cases s <;> simp [Sign.apply]
    obtain ⟨y, hnum, hy⟩ := exists_hasValue (z := s.apply m) (k := e) (by omega) (by omega)
      (by omega)
    have hvalue : value y = s.apply 1 * (m * 2 ^ e) := by
      rw [hy, cast_apply, Int.cast_natCast, mul_assoc]
    have hnearest := isNearest_round s e hm
    rw [← hvalue] at hnearest
    rw [valueOf_finite, ← hvalue]
    exact ⟨hnearest.isNumber, hnearest.value_eq hnum⟩

theorem truncate?_ofSingle_eq_some {x : Float32} {n : Int} :
    truncate? (ofSingle x) = some n ↔ x.isFinite = true ∧ n = towardZero (singleValue x) := by
  rw [truncate?_eq_some, isFinite_ofSingle]
  exact and_congr_right fun hx => by rw [(hasValue_ofSingle hx).value_eq]

theorem HasValue.isFinite_of_int {x : Float} {n : Int} (h : HasValue x n) (hn : |n| ≤ 2 ^ 53) :
    x.isFinite = true := by
  have hsmall : |(n : ℚ)| ≤ 2 ^ 53 := by exact_mod_cast hn
  have hlimit : (2 : ℚ) ^ 53 < limit := by
    rw [limit_eq, ← zpow_natCast]
    exact zpow_lt_zpow_right₀ (by norm_num) (by norm_num)
  exact isFinite_iff.2 ⟨h.isNumber, h.value_eq ▸ hsmall.trans_lt hlimit⟩

theorem HasValue.towardZero_eq {x : Float} {n : Int} (h : HasValue x n) :
    towardZero (value x) = n := by
  rw [h.value_eq, towardZero_intCast]

theorem ofScientific_zero {m : Nat} (hm : 0 < m) :
    ofScientific m 0 =
      .ofModel (.pack (UnpackedFloat.roundWithAccuracy .binary64 .positive
        (m <<< 53) (-53) .exact)) := by
  change Float.ofModel (.pack (UnpackedFloat.ofScientific .binary64 m 0)) = _
  have hsmall : ¬ (0 : Int) > 2 ^ Format.binary64.exponentBits := by decide
  have hlarge : ¬ (0 : Int) < -(2 ^ Format.binary64.exponentBits + m.log2) := by
    have hpow : (2 : Int) ^ Format.binary64.exponentBits = 2048 := rfl
    omega
  rw [UnpackedFloat.ofScientific, dif_neg hm.ne', if_neg hsmall, if_neg hlarge,
    if_pos le_rfl, UnpackedFloat.mul, Int.toNat_zero, pow_zero, mul_one]
  rfl

theorem isNearest_ofScientific_zero (m : Nat) : IsNearest m (ofScientific m 0) := by
  rcases Nat.eq_zero_or_pos m with rfl | hm
  · rw [Nat.cast_zero]
    exact .of_hasValue (hasValue_pack_zero .positive)
  · have hlog := log2_shiftLeft hm 53
    have hunit : (-53 : Int) ≤ unitExponent (m <<< 53) (-53) := by
      unfold unitExponent
      omega
    have hpos : 0 < m <<< 53 := by
      rw [Nat.shiftLeft_eq]
      positivity
    have hvalue : ((m <<< 53 : Nat) : ℚ) * 2 ^ (-53 : Int) = m := by
      have hshift := cast_shiftLeft m (e := 0) (t := -53) (by decide)
      rwa [zpow_zero, mul_one] at hshift
    have hround := isNearest_roundWithAccuracy .positive hpos hunit
    rwa [hvalue, Sign.apply, Int.cast_one, one_mul, ← ofScientific_zero hm] at hround

theorem hasValue_ofScientific_zero {n : Nat} (hn : n ≤ 2 ^ 53) : HasValue (ofScientific n 0) n := by
  obtain ⟨hnum, hvalue⟩ := hasValue_ofNat hn
  have hnearest := isNearest_ofScientific_zero n
  rw [← hvalue] at hnearest ⊢
  exact ⟨hnearest.isNumber, hnearest.value_eq hnum⟩

end Double

end Rollup
