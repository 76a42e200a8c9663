import Rollup.Proofs.Number.Nearest

namespace Rollup.Double

open Float.Model UnpackedFloat

theorem hasValue_pack_neg {x : UnpackedFloat} (hx : IsCanonical x) (hnum : x.isNaN = false) :
    HasValue (.ofModel (.pack x.neg)) (-valueOf x) := by
  rw [← valueOf_neg]
  cases x with
  | notANumber => cases hnum
  | infinity s => exact .of_unpack (y := .infinity (-s)) (by cases s <;> rfl) rfl
  | zero s => exact hasValue_pack (x := .zero (-s)) trivial rfl
  | finite s m e hm => exact hasValue_pack (x := .finite (-s) m e hm) hx rfl

theorem hasValue_neg {x : Float} (hx : x.isNaN = false) : HasValue (-x) (-value x) :=
  hasValue_pack_neg (isCanonical_unpack _) hx

theorem hasValue_clamp {lower upper x : Float} (hlower : lower.isNaN = false)
    (hupper : upper.isNaN = false) (hx : x.isNaN = false) (h : value lower ≤ value upper) :
    HasValue (clamp lower upper x) (Max.max (value lower) (Min.min (value upper) (value x))) := by
  unfold clamp
  split
  · rename_i hlt
    rw [lt_iff hx hlower] at hlt
    exact ⟨hlower, (max_eq_left ((min_le_right _ _).trans hlt.le)).symm⟩
  · rename_i hge
    rw [lt_iff hx hlower, not_lt] at hge
    split
    · rename_i hgt
      rw [lt_iff hupper hx] at hgt
      exact ⟨hupper, by rw [min_eq_left hgt.le, max_eq_right h]⟩
    · rename_i hle
      rw [lt_iff hupper hx, not_lt] at hle
      exact ⟨hx, by rw [min_eq_right hle, max_eq_right hge]⟩

theorem isFinite_iff {x : Float} : x.isFinite = true ↔ x.isNaN = false ∧ |value x| < limit := by
  have hcanonical := isCanonical_unpack x.toModel.toBits.toBitVec
  change x.toModel.unpack.isFinite = true ↔ x.toModel.unpack.isNaN = false ∧
    |valueOf x.toModel.unpack| < limit
  change IsCanonical x.toModel.unpack at hcanonical
  cases hunpack : x.toModel.unpack with
  | notANumber => exact ⟨nofun, fun h => nomatch h.1⟩
  | infinity s =>
    rw [abs_valueOf_infinity]
    exact ⟨nofun, fun h => absurd h.2 (lt_irrefl _)⟩
  | zero s =>
    rw [valueOf_zero, abs_zero]
    exact iff_of_true rfl ⟨rfl, limit_pos⟩
  | finite s m e hm =>
    rw [hunpack] at hcanonical
    rw [abs_valueOf_finite]
    exact iff_of_true rfl ⟨rfl, hcanonical.mul_zpow_lt_limit⟩

theorem exists_hasValue_of_lt (s : Sign) {m : Nat} (hpos : 0 < m) (hlt : m < 2 ^ 53)
    {k : Int} (hk : -1074 ≤ k) :
    ∃ x, HasValue x (s.apply 1 * Min.min (m * 2 ^ k : ℚ) limit) := by
  -- Multiples of a power of two are packed with its exponent, or with a smaller one that gives
  -- them 53 digits.
  have hlog : m.log2 < 53 := (Nat.log2_lt hpos.ne').2 hlt
  have hunit : unitExponent m k ≤ k := by
    unfold unitExponent
    omega
  have hlog' := log2_shiftLeft hpos (k - unitExponent m k).toNat
  have hpos' : 0 < m <<< (k - unitExponent m k).toNat := by
    rw [Nat.shiftLeft_eq]
    positivity
  rw [← cast_shiftLeft m hunit]
  refine ⟨_, hasValue_pack_finite hpos' ?_ (le_max_right _ _) ?_⟩
  · rw [← Nat.log2_lt hpos'.ne', hlog']
    unfold unitExponent
    omega
  · rw [or_iff_not_imp_left, ← Nat.le_log2 hpos'.ne', hlog']
    unfold unitExponent
    omega

theorem exists_hasValue {z k : Int} (hz : |z| ≤ 2 ^ 53) (hk : -1074 ≤ k) (hk' : k ≤ 971) :
    ∃ x, HasValue x (z * 2 ^ k) := by
  obtain ⟨s, hs⟩ : ∃ s : Sign, z = s.apply z.natAbs := by
    rcases le_total 0 z with hpos | hneg
    · exact ⟨.positive, (Int.natAbs_of_nonneg hpos).symm⟩
    · exact ⟨.negative, by rw [Sign.apply, Int.ofNat_natAbs_of_nonpos hneg, neg_neg]⟩
  have hle : z.natAbs ≤ 2 ^ 53 := by
    have := abs_le.1 hz
    omega
  rw [hs, cast_apply, mul_assoc, Int.cast_natCast]
  generalize z.natAbs = m at hle ⊢
  have hlimit : (m : ℚ) * 2 ^ k ≤ limit := by
    calc (m : ℚ) * 2 ^ k ≤ 2 ^ 53 * 2 ^ (971 : Int) := by
          gcongr
          · exact_mod_cast hle
          · decide
      _ = limit := by
        rw [two_pow_mul_zpow, limit_eq]
        rfl
  rw [← min_eq_left hlimit]
  rcases Nat.eq_zero_or_pos m with rfl | hpos
  · rw [Nat.cast_zero, zero_mul, min_eq_left limit_pos.le, mul_zero]
    exact ⟨_, hasValue_pack_zero s⟩
  · rcases hle.eq_or_lt with rfl | hlt
    · rw [carry_mul_zpow]
      exact ⟨_, hasValue_pack_finite (by decide) (by decide) (by omega) (.inr le_rfl)⟩
    · exact exists_hasValue_of_lt s hpos hlt hk

theorem exists_hasValue_two_zpow {k : Int} (hleast : -1074 ≤ k) (hmost : k ≤ 1024) :
    ∃ x, HasValue x (2 ^ k) := by
  rcases le_or_gt k 971 with hle | hgt
  · obtain ⟨x, hx⟩ := exists_hasValue (z := 1) (by decide) hleast hle
    exact ⟨x, by rwa [Int.cast_one, one_mul] at hx⟩
  · obtain ⟨x, hx⟩ := exists_hasValue (z := 2 ^ 53) (k := k - 53) (by decide) (by omega) (by omega)
    rw [Int.cast_pow, Int.cast_ofNat, two_pow_mul_zpow, Nat.cast_ofNat, add_sub_cancel] at hx
    exact ⟨x, hx⟩

namespace IsNearest

variable {v w : ℚ} {x y : Float}

theorem neg (h : IsNearest v x) : IsNearest (-v) (-x) := by
  obtain ⟨hnum, hvalue⟩ := hasValue_neg h.isNumber
  refine ⟨hnum, fun y hy => ?_⟩
  obtain ⟨hnum', hvalue'⟩ := hasValue_neg hy
  have hle := h.le (-y) hnum'
  rw [hvalue', ← abs_neg, ← abs_neg (-value y - v)] at hle
  rw [hvalue]
  convert hle using 2 <;> ring

theorem abs_value_le (h : IsNearest v x) (hy : y.isNaN = false) (hv : |v| ≤ |value y|) :
    |value x| ≤ |value y| := by
  obtain ⟨hnum, hneg⟩ := hasValue_neg hy
  have hv := abs_le.1 hv
  rcases abs_cases (value y) with ⟨habs, -⟩ | ⟨habs, -⟩ <;> rw [habs] at hv ⊢ <;> apply abs_le.2
  · exact ⟨hneg ▸ h.le_value hnum (hneg ▸ hv.1), h.value_le hy hv.2⟩
  · rw [neg_neg] at hv ⊢
    exact ⟨h.le_value hy hv.1, hneg ▸ h.value_le hnum (hneg ▸ hv.2)⟩

theorem not_isFinite (h : IsNearest v x) (hv : limit ≤ v) : x.isFinite = false := by
  obtain ⟨y, hy⟩ := exists_hasValue_two_zpow (k := 1024) (by decide) le_rfl
  rw [← limit_eq] at hy
  rw [Bool.eq_false_iff, ne_eq, isFinite_iff, not_and, not_lt]
  intro
  exact (h.ge_of_hasValue hy hv).trans (le_abs_self _)

theorem isFinite_of_abs_le (h : IsNearest v x) (hy : y.isFinite = true) (hv : |v| ≤ |value y|) :
    x.isFinite = true := by
  obtain ⟨hnum, hlt⟩ := isFinite_iff.1 hy
  exact isFinite_iff.2 ⟨h.isNumber, (h.abs_value_le hnum hv).trans_lt hlt⟩

theorem le_add (h : IsNearest v x) {t : ℚ} {k : Int} (hvt : v ≤ t) (ht : |t| ≤ 2 ^ 53 * 2 ^ k)
    (hk : -1074 ≤ k) (hk' : k ≤ 971) : value x ≤ t + 2 ^ k / 2 := by
  have hu := two_zpow_pos k
  -- The multiple of `2 ^ k` next to `t`.
  obtain ⟨z, hz⟩ : ∃ z : Int, z = ⌊t / 2 ^ k + 1 / 2⌋ := ⟨_, rfl⟩
  have hfloor : (z : ℚ) ≤ t / 2 ^ k + 1 / 2 := hz ▸ Int.floor_le _
  have hfloor' : t / 2 ^ k + 1 / 2 < z + 1 := hz ▸ Int.lt_floor_add_one _
  have hquotient : t / 2 ^ k * 2 ^ k = t := div_mul_cancel₀ t hu.ne'
  generalize t / 2 ^ k = q at hfloor hfloor' hquotient
  have hq : |q| ≤ 2 ^ 53 := by
    rw [← hquotient, abs_mul, abs_of_pos hu] at ht
    exact le_of_mul_le_mul_right ht hu
  have hz : |z| ≤ 2 ^ 53 := by
    have hq := abs_le.1 hq
    have hlower : (-2 ^ 53 - 1 : ℚ) < z := by linarith
    have hupper : (z : ℚ) < 2 ^ 53 + 1 := by linarith
    have hlower : (-2 ^ 53 - 1 : Int) < z := by exact_mod_cast hlower
    have hupper : z < 2 ^ 53 + 1 := by exact_mod_cast hupper
    exact abs_le.2 ⟨by omega, by omega⟩
  obtain ⟨y, hnum, hy⟩ := exists_hasValue hz hk hk'
  have hupper : value y ≤ t + 2 ^ k / 2 := by
    have := mul_le_mul_of_nonneg_right hfloor hu.le
    rw [hy]
    linarith
  have hlower : t - 2 ^ k / 2 ≤ value y := by
    have := mul_le_mul_of_nonneg_right hfloor'.le hu.le
    rw [hy]
    linarith
  rcases le_or_gt v (value y) with hle | hlt
  · exact (h.value_le hnum hle).trans hupper
  · have hnear := h.le y hnum
    rw [abs_of_neg (sub_neg.2 hlt)] at hnear
    have := le_abs_self (value x - v)
    linarith

theorem sub_le (h : IsNearest v x) {t : ℚ} {k : Int} (htv : t ≤ v) (ht : |t| ≤ 2 ^ 53 * 2 ^ k)
    (hk : -1074 ≤ k) (hk' : k ≤ 971) : t - 2 ^ k / 2 ≤ value x := by
  have hneg := h.neg.le_add (neg_le_neg htv) (by rwa [abs_neg]) hk hk'
  rw [(hasValue_neg h.isNumber).value_eq] at hneg
  linarith

end IsNearest

theorem hasValue_ofInt {n : Int} (h : |n| ≤ 2 ^ 53) : HasValue (ofInt n) n := by
  obtain ⟨y, hnum, hy⟩ := exists_hasValue (k := 0) h (by decide) (by decide)
  have hnearest := isNearest_ofInt n
  rw [zpow_zero, mul_one] at hy
  rw [← hy] at hnearest ⊢
  exact ⟨hnearest.isNumber, hnearest.value_eq hnum⟩

theorem hasValue_ofNat {n : Nat} (h : n ≤ 2 ^ 53) : HasValue (ofNat n) n := by
  have hint := hasValue_ofInt (n := n) (by rw [Nat.abs_cast]; exact_mod_cast h)
  exact_mod_cast hint

theorem hasValue_zero : HasValue (ofNat 0) 0 := by
  exact_mod_cast hasValue_ofNat (n := 0) (by decide)

theorem hasValue_one : HasValue (ofNat 1) 1 := by exact_mod_cast hasValue_ofNat (n := 1) (by decide)

theorem IsNearest.nonneg {v : ℚ} {x : Float} (h : IsNearest v x) (hv : 0 ≤ v) : 0 ≤ value x :=
  h.ge_of_hasValue hasValue_zero hv

theorem IsNearest.eq_zero {x : Float} (h : IsNearest 0 x) : value x = 0 :=
  h.eq_of_hasValue hasValue_zero

theorem isFinite_ofNat {n : Nat} (h : n ≤ 2 ^ 64) : (ofNat n).isFinite = true :=
  isFinite_ofInt (by rwa [Int.natAbs_natCast])

theorem roundToInt_eq (s : Sign) (m : Nat) (e : Int) :
    UnpackedFloat.roundToInt s m e = s.apply ⌊(m : ℚ) * 2 ^ e⌋ := by
  -- An exponent below zero cuts the fraction off, and one above zero leaves the number whole.
  have hmantissa : UnpackedFloat.roundToInt s m e =
      s.apply ((m <<< (e - 0).toNat) / 2 ^ (0 - (e - (e - 0).toNat)).toNat : Nat) :=
    congrArg (fun n : Nat => s.apply n) (mantissa_shiftRight _ _)
  have hvalue : (m : ℚ) * 2 ^ e =
      (m <<< (e - 0).toNat : Nat) / (2 ^ (0 - (e - (e - 0).toNat)).toNat : Nat) := by
    obtain ⟨k, rfl | rfl⟩ := Int.eq_nat_or_neg e
    · have hleft : ((k : Int) - 0).toNat = k := by omega
      have hright : (0 - ((k : Int) - k)).toNat = 0 := by omega
      rw [hleft, hright, Nat.shiftLeft_eq, zpow_natCast]
      push_cast
      ring
    · have hleft : (-(k : Int) - 0).toNat = 0 := by omega
      have hright : (0 - (-(k : Int) - (0 : Nat))).toNat = k := by omega
      rw [hleft, hright, Nat.shiftLeft_zero, zpow_neg, zpow_natCast, div_eq_mul_inv]
      push_cast
      rfl
  rw [hmantissa, hvalue, Rat.floor_natCast_div_natCast, Int.natCast_div]

theorem toInt_eq_floor {x : UnpackedFloat} (hx : x.isFinite = true) (hpos : 0 ≤ valueOf x)
    (below above : Int) :
    x.toInt below above = ⌊valueOf x⌋ := by
  cases x with
  | infinity | notANumber => cases hx
  | zero s => exact Int.floor_zero.symm
  | finite s m e hm =>
    obtain rfl := eq_positive_of_valueOf_nonneg hpos
    rw [valueOf_finite, Sign.apply, Int.cast_one, one_mul]
    exact roundToInt_eq .positive m e

theorem toUInt64_eq_floor {x : Float} (hx : x.isFinite = true) (hpos : 0 ≤ value x)
    (hlt : value x < 2 ^ 64) :
    (x.toUInt64.toNat : Int) = ⌊value x⌋ := by
  have hfloor : x.toModel.unpack.toInt 0 (UInt64.size - 1) = ⌊value x⌋ := toInt_eq_floor hx hpos _ _
  have hsize : ⌊value x⌋ < 2 ^ 64 := Int.floor_lt.2 (by exact_mod_cast hlt)
  have hnonneg : 0 ≤ ⌊value x⌋ := Int.floor_nonneg.2 hpos
  have hfits : ⌊value x⌋.toNat < UInt64.size := by
    change _ < 2 ^ 64
    omega
  change ((UInt64.ofNatClamp (x.toModel.unpack.toInt 0 (UInt64.size - 1)).toNat).toNat : Int) = _
  rw [hfloor, UInt64.ofNatClamp_eq_ofNat _ hfits, UInt64.toNat_ofNat_of_lt' hfits,
    Int.toNat_of_nonneg hnonneg]

end Rollup.Double
