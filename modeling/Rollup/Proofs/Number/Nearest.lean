import Rollup.Proofs.Number.Value

/-!
Arithmetic on doubles as rounded arithmetic on rational numbers.

Integers, and the sums, differences and products of finite doubles, are doubles to which no other is
nearer than to the exact result (`isNearest_ofInt`, `isNearest_add`, `isNearest_sub`,
`isNearest_mul`). An infinity counts as the power of two at which rounding overflows.
-/

namespace Rollup.Double

open Float.Model UnpackedFloat

/-- A double that stands for a number. -/
structure HasValue (x : Float) (v : ℚ) : Prop where
  isNumber : x.isNaN = false
  value_eq : value x = v

/-- A double that is as near to a number as any other. -/
structure IsNearest (v : ℚ) (x : Float) : Prop where
  isNumber : x.isNaN = false
  le : ∀ y : Float, y.isNaN = false → |value x - v| ≤ |value y - v|

namespace IsNearest

variable {v w : ℚ} {x y : Float}

theorem of_hasValue (h : HasValue x v) : IsNearest v x :=
  ⟨h.isNumber, fun y _ => by rw [h.value_eq, sub_self, abs_zero]; exact abs_nonneg _⟩

theorem value_le (h : IsNearest v x) (hy : y.isNaN = false) (hv : v ≤ value y) :
    value x ≤ value y := by
  by_contra hlt
  have := h.le y hy
  rw [abs_of_nonneg (by linarith), abs_of_nonneg (by linarith)] at this
  linarith

theorem le_value (h : IsNearest v x) (hy : y.isNaN = false) (hv : value y ≤ v) :
    value y ≤ value x := by
  by_contra hlt
  have := h.le y hy
  rw [abs_of_nonpos (by linarith), abs_of_nonpos (by linarith)] at this
  linarith

theorem value_eq (h : IsNearest (value y) x) (hy : y.isNaN = false) : value x = value y :=
  le_antisymm (h.value_le hy le_rfl) (h.le_value hy le_rfl)

theorem le_of_hasValue (h : IsNearest v x) (hy : HasValue y w) (hv : v ≤ w) : value x ≤ w := by
  obtain ⟨hnum, rfl⟩ := hy
  exact h.value_le hnum hv

theorem ge_of_hasValue (h : IsNearest v x) (hy : HasValue y w) (hv : w ≤ v) : w ≤ value x := by
  obtain ⟨hnum, rfl⟩ := hy
  exact h.le_value hnum hv

theorem eq_of_hasValue (h : IsNearest v x) (hy : HasValue y v) : value x = v :=
  le_antisymm (h.le_of_hasValue hy le_rfl) (h.ge_of_hasValue hy le_rfl)

end IsNearest

theorem abs_apply_one (s : Sign) : |(s.apply 1 : ℚ)| = 1 := by
  cases s <;> simp [Sign.apply]

theorem abs_valueOf_finite (s : Sign) (m : Nat) (e : Int) (hm : 0 < m) :
    |valueOf (.finite s m e hm)| = m * 2 ^ e := by
  rw [valueOf_finite, abs_mul, abs_apply_one, one_mul,
    abs_of_pos (mul_pos (mod_cast hm) (two_zpow_pos e))]

theorem eq_positive_of_valueOf_nonneg {s : Sign} {m : Nat} {e : Int} {hm : 0 < m}
    (h : 0 ≤ valueOf (.finite s m e hm)) : s = .positive := by
  cases s with
  | positive => rfl
  | negative =>
    rw [valueOf_finite, Sign.apply, Int.cast_neg, Int.cast_one, neg_one_mul] at h
    exact absurd h (not_le.2 (neg_neg_of_pos (mul_pos (mod_cast hm) (two_zpow_pos e))))

theorem abs_valueOf_infinity (s : Sign) : |valueOf (.infinity s)| = limit := by
  rw [valueOf, abs_mul, abs_apply_one, one_mul, abs_of_pos limit_pos]

theorem abs_valueOf_le {x : UnpackedFloat} (hx : IsCanonical x) : |valueOf x| ≤ limit := by
  cases x with
  | finite s m e hm =>
    rw [abs_valueOf_finite]
    exact hx.mul_zpow_lt_limit.le
  | infinity s => rw [abs_valueOf_infinity]
  | zero | notANumber => simpa [valueOf] using limit_pos.le

theorem two_pow_mul_zpow (n : Nat) (e : Int) : (2 : ℚ) ^ n * 2 ^ e = 2 ^ (n + e) := by
  rw [two_zpow_add, zpow_natCast]

theorem two_zpow_pred (e : Int) : (2 : ℚ) ^ (e - 1) = 2 ^ e / 2 := by
  rw [zpow_sub_one₀ (by decide), div_eq_mul_inv]

def IsMultiple (e : Int) (v : ℚ) : Prop := ∃ z : Int, v = z * 2 ^ e

theorem isMultiple_zpow {e e' : Int} (h : e ≤ e') : IsMultiple e (2 ^ e') := by
  obtain ⟨k, rfl⟩ := Int.le.dest h
  refine ⟨2 ^ k, ?_⟩
  rw [two_zpow_add, mul_comm]
  norm_num

theorem IsMultiple.mul_int {e : Int} {v : ℚ} (h : IsMultiple e v) (z : Int) :
    IsMultiple e (z * v) := by
  obtain ⟨y, rfl⟩ := h
  exact ⟨z * y, by push_cast; ring⟩

theorem IsMultiple.add {e : Int} {a b : ℚ} (ha : IsMultiple e a) (hb : IsMultiple e b) :
    IsMultiple e (a + b) := by
  obtain ⟨z, rfl⟩ := ha
  obtain ⟨z', rfl⟩ := hb
  exact ⟨z + z', by push_cast; ring⟩

theorem IsMultiple.mono {e e' : Int} {a : ℚ} (ha : IsMultiple e' a) (h : e ≤ e') :
    IsMultiple e a := by
  obtain ⟨z, rfl⟩ := ha
  exact (isMultiple_zpow h).mul_int z

theorem IsMultiple.add_le {e : Int} {a b : ℚ} (ha : IsMultiple e a) (hb : IsMultiple e b)
    (h : a < b) :
    a + 2 ^ e ≤ b := by
  obtain ⟨z, rfl⟩ := ha
  obtain ⟨z', rfl⟩ := hb
  have hlt : z < z' := by exact_mod_cast lt_of_mul_lt_mul_right h (two_zpow_pos e).le
  calc (z : ℚ) * 2 ^ e + 2 ^ e = (z + 1 : Int) * 2 ^ e := by push_cast; ring
    _ ≤ z' * 2 ^ e := mul_le_mul_of_nonneg_right (by exact_mod_cast hlt) (two_zpow_pos e).le

theorem isMultiple_limit {e : Int} (h : e ≤ 1024) : IsMultiple e limit :=
  limit_eq ▸ isMultiple_zpow h

theorem isMultiple_valueOf {x : UnpackedFloat} (hx : IsCanonical x) {e : Int}
    (he : e = -1074 ∨ 2 ^ 52 * 2 ^ e ≤ |valueOf x|) : IsMultiple e (valueOf x) := by
  cases x with
  | finite s m e' hm =>
    have hle : e ≤ e' := by
      rcases he with rfl | he
      · exact hx.least
      · rw [abs_valueOf_finite] at he
        by_contra hlt
        exact absurd (mul_zpow_lt hx.lt (le_refl (2 ^ 52)) (Int.lt_of_not_ge hlt))
          (by push_cast; exact he.not_gt)
    exact (isMultiple_zpow hle).mul_int (s.apply m)
  | infinity s =>
    refine (isMultiple_limit ?_).mul_int (s.apply 1)
    rcases he with rfl | he
    · decide
    · rw [abs_valueOf_infinity, limit_eq, two_pow_mul_zpow] at he
      have := (zpow_le_zpow_iff_right₀ (by decide : (1 : ℚ) < 2)).1 he
      omega
  | zero | notANumber => exact ⟨0, by simp [valueOf]⟩

theorem abs_mul_sub_le {i : Int} {u v : ℚ} (hu : 0 < u) (h : |i * u - v| ≤ u / 2) (z : Int) :
    |i * u - v| ≤ |z * u - v| := by
  rcases eq_or_ne z i with rfl | hne
  · exact le_rfl
  · have hone : (1 : ℚ) ≤ |(z - i : ℚ)| := by exact_mod_cast Int.one_le_abs (sub_ne_zero.2 hne)
    have hdist : u ≤ |z * u - i * u| := by
      rw [← sub_mul, abs_mul, abs_of_pos hu]
      nlinarith
    have := abs_sub_le (z * u) v (i * u)
    rw [abs_sub_comm v] at this
    linarith

theorem abs_roundedMantissa_sub_le (n k : Nat) :
    |((uncut n >>> k).roundedMantissa : ℚ) * 2 ^ k - n| ≤ 2 ^ k / 2 := by
  cases k with
  | zero =>
    have hrounded : (uncut n >>> 0).roundedMantissa = n := rfl
    rw [hrounded]
    norm_num
  | succ k =>
    obtain ⟨hlower, hupper, -⟩ := nearest_roundedMantissa n k
    have hlower : 2 * ((uncut n >>> (k + 1)).roundedMantissa : ℚ) * 2 ^ k ≤ n + 2 ^ k :=
      mod_cast hlower
    have hupper : (n : ℚ) ≤ 2 * ((uncut n >>> (k + 1)).roundedMantissa : ℚ) * 2 ^ k + 2 ^ k :=
      mod_cast hupper
    rw [abs_le, pow_succ]
    constructor <;> linarith

structure OnGrid (w : ℚ) : Prop where
  le_limit : |w| ≤ limit
  isMultiple : ∀ e : Int, e = -1074 ∨ 2 ^ 52 * 2 ^ e ≤ |w| → IsMultiple e w

theorem onGrid_valueOf {x : UnpackedFloat} (hx : IsCanonical x) : OnGrid (valueOf x) :=
  ⟨abs_valueOf_le hx, fun _ => isMultiple_valueOf hx⟩

theorem OnGrid.mul_sign {w : ℚ} (h : OnGrid w) (s : Sign) : OnGrid (s.apply 1 * w) := by
  have habs : |s.apply 1 * w| = |w| := by rw [abs_mul, abs_apply_one, one_mul]
  exact ⟨habs ▸ h.le_limit, fun e he => (h.isMultiple e (habs ▸ he)).mul_int (s.apply 1)⟩

theorem two_zpow_log2_le {m : Nat} (hm : 0 < m) (e : Int) :
    (2 : ℚ) ^ ((m.log2 : Int) + e) ≤ m * 2 ^ e := by
  rw [two_zpow_add, zpow_natCast]
  exact mul_le_mul_of_nonneg_right (mod_cast Nat.log2_self_le hm.ne') (two_zpow_pos e).le

section

variable {r : Nat} {t : Int} {v : ℚ} (hr : |(r : ℚ) * 2 ^ t - v| ≤ 2 ^ t / 2)
    (hunit : t = -1074 ∨ 2 ^ 52 * 2 ^ t ≤ v)

include hr

theorem abs_sub_le_of_isMultiple {b : ℚ} (hb : IsMultiple t b) :
    |(r : ℚ) * 2 ^ t - v| ≤ |b - v| := by
  obtain ⟨z, rfl⟩ := hb
  exact abs_mul_sub_le (i := r) (two_zpow_pos t) (by push_cast; exact hr) z

include hunit

theorem abs_sub_le_of_abs_lt {w : ℚ} (hne : t ≠ -1074) (hlt : |w| < 2 ^ 52 * 2 ^ t) :
    |(r : ℚ) * 2 ^ t - v| ≤ |w - v| := by
  -- Smaller numbers, which may have a smaller unit, are farther than the first number with this
  -- unit.
  have hfirst := hunit.resolve_left hne
  rw [two_pow_mul_zpow, Nat.cast_ofNat] at hlt hfirst
  have hbound := abs_sub_le_of_isMultiple hr (isMultiple_zpow (by omega : t ≤ 52 + t))
  rw [abs_of_nonpos (by linarith : (2 : ℚ) ^ (52 + t) - v ≤ 0)] at hbound
  have hw := le_abs_self w
  rw [abs_of_nonpos (by linarith : w - v ≤ 0)]
  linarith

theorem limit_le_of_lt (hgt : limit < (r : ℚ) * 2 ^ t) : limit ≤ v := by
  by_contra hlt
  rw [not_le] at hlt
  have hexponent : t ≤ 1024 := by
    rcases hunit with rfl | hfirst
    · decide
    · rw [two_pow_mul_zpow, Nat.cast_ofNat] at hfirst
      have hpow := hfirst.trans_lt hlt
      rw [limit_eq, zpow_lt_zpow_iff_right₀ (by decide : (1 : ℚ) < 2)] at hpow
      omega
  have hbound := abs_sub_le_of_isMultiple hr (isMultiple_limit hexponent)
  rw [abs_of_nonneg (by linarith), abs_of_nonneg (by linarith)] at hbound
  linarith

theorem abs_min_sub_le {w : ℚ} (hw : OnGrid w) : |Min.min (r * 2 ^ t : ℚ) limit - v| ≤ |w - v| := by
  rcases le_or_gt ((r : ℚ) * 2 ^ t) limit with hle | hgt
  · rw [min_eq_left hle]
    by_cases hmultiple : t = -1074 ∨ 2 ^ 52 * 2 ^ t ≤ |w|
    · exact abs_sub_le_of_isMultiple hr (hw.isMultiple t hmultiple)
    · obtain ⟨hne, hlt⟩ := not_or.1 hmultiple
      exact abs_sub_le_of_abs_lt hr hunit hne (not_le.1 hlt)
  · have hlimit := limit_le_of_lt hr hunit hgt
    have hw' := (le_abs_self w).trans hw.le_limit
    rw [min_eq_right hgt.le, abs_of_nonpos (by linarith), abs_of_nonpos (by linarith)]
    linarith

end

theorem unpack_pack_subnormal {s : Sign} {m : Nat} (hm : 0 < m) (h : m < 2 ^ 52) :
    (Float.Model.pack (.finite s m (-1074) hm)).unpack = .finite s m (-1074) hm := by
  have hbias : Format.binary64.exponentBias = 1023 := rfl
  have hlog : m.log2 + 1 ≠ Format.binary64.mantissaBits := by
    have := (Nat.log2_lt hm.ne').2 h
    change m.log2 + 1 ≠ 53
    omega
  have hpack : UnpackedFloat.pack .binary64 (.finite s m (-1074) hm) =
      packComponents .binary64 s 0#11 (BitVec.ofNat 52 m) := by
    rw [UnpackedFloat.pack]
    simp [hbias, hlog]
  have hbits : (BitVec.ofNat 52 m).toNat = m := by rw [BitVec.toNat_ofNat, Nat.mod_eq_of_lt h]
  have hne : BitVec.ofNat 52 m ≠ 0#52 := by
    intro hzero
    rw [hzero] at hbits
    exact hm.ne hbits
  change UnpackedFloat.unpack .binary64 (UnpackedFloat.pack .binary64 _) = _
  rw [hpack]
  simp [UnpackedFloat.unpack, hne, hbits, hbias]

theorem unpack_pack_infinity {s : Sign} {m : Nat} {e : Int} (hm : 0 < m) (he : 972 ≤ e) :
    (Float.Model.pack (.finite s m e hm)).unpack = .infinity s := by
  have hbias : Format.binary64.exponentBias = 1023 := rfl
  have hpack : UnpackedFloat.pack .binary64 (.finite s m e hm) =
      packComponents .binary64 s (-1#11) 0#52 := by
    have hfits : 2 ^ 11 ≤ (e + 1023 + 52).toNat + 1 := by omega
    rw [UnpackedFloat.pack]
    simp only [hbias, Nat.cast_ofNat, hfits, if_true]
    rfl
  change UnpackedFloat.unpack .binary64 (UnpackedFloat.pack .binary64 _) = _
  rw [hpack]
  simp [UnpackedFloat.unpack]

theorem HasValue.of_unpack {x : Float.Model} {y : UnpackedFloat} (h : x.unpack = y)
    (hy : y.isNaN = false) :
    HasValue (.ofModel x) (valueOf y) :=
  ⟨(congrArg UnpackedFloat.isNaN h).trans hy, congrArg valueOf h⟩

theorem hasValue_pack_zero (s : Sign) : HasValue (.ofModel (.pack (.zero s))) 0 :=
  .of_unpack (y := .zero s) (by cases s <;> rfl) rfl

theorem hasValue_pack_finite {s : Sign} {m : Nat} {e : Int} (hm : 0 < m)
    (hlt : m < 2 ^ 53) (he : -1074 ≤ e) (hfull : e = -1074 ∨ 2 ^ 52 ≤ m) :
    HasValue (.ofModel (.pack (.finite s m e hm))) (s.apply 1 * Min.min (m * 2 ^ e : ℚ) limit) := by
  rcases Int.lt_or_le e 972 with hsmall | hlarge
  · have hcanonical : Canonical m e := ⟨hlt, he, by omega, hfull⟩
    have hunpack : (Float.Model.pack (.finite s m e hm)).unpack = .finite s m e hm := by
      rcases Nat.lt_or_ge m (2 ^ 52) with hshort | hlong
      · obtain rfl := hfull.resolve_right (Nat.not_le.2 hshort)
        exact unpack_pack_subnormal hm hshort
      · exact unpack_pack hlong hlt (by omega) hsmall
    rw [min_eq_left hcanonical.mul_zpow_lt_limit.le, ← valueOf_finite s m e hm]
    exact .of_unpack hunpack rfl
  · have hlimit : limit ≤ m * 2 ^ e := by
      have hlong : 2 ^ 52 ≤ m := hfull.resolve_left (by omega)
      have hpow : limit = 2 ^ 52 * 2 ^ (972 : Int) := by
        rw [two_pow_mul_zpow, limit_eq]
        rfl
      rw [hpow]
      have hlong : (2 : ℚ) ^ 52 ≤ m := mod_cast hlong
      gcongr
      decide
    rw [min_eq_right hlimit]
    exact .of_unpack (unpack_pack_infinity hm hlarge) rfl

theorem mantissa_le_roundedMantissa (em : ExtendedMantissa) : em.mantissa ≤ em.roundedMantissa := by
  obtain ⟨m, round, sticky⟩ := em
  cases round with
  | false => exact (roundedMantissa_below m sticky).ge
  | true =>
    cases sticky with
    | false => exact Nat.le_add_right m _
    | true => exact Nat.le_succ m

def unitExponent (m : Nat) (e : Int) : Int := Max.max ((m.log2 : Int) - 52 + e) (-1074)

def cut (m : Nat) (e : Int) : Nat := (uncut m >>> (unitExponent m e - e).toNat).roundedMantissa

theorem abs_cut_sub_le {m : Nat} {e : Int} (h : e ≤ unitExponent m e) :
    |(cut m e : ℚ) * 2 ^ unitExponent m e - m * 2 ^ e| ≤ 2 ^ unitExponent m e / 2 := by
  obtain ⟨k, hk⟩ := Int.le.dest h
  have hshift : (unitExponent m e - e).toNat = k := by omega
  have hrounded := abs_roundedMantissa_sub_le m k
  have hmul := mul_le_mul_of_nonneg_right hrounded (two_zpow_pos e).le
  rw [cut, hshift, ← hk, two_zpow_add, zpow_natCast]
  calc |((uncut m >>> k).roundedMantissa : ℚ) * (2 ^ e * 2 ^ k) - m * 2 ^ e|
      = |((uncut m >>> k).roundedMantissa : ℚ) * 2 ^ k - m| * 2 ^ e := by
        rw [← abs_of_pos (two_zpow_pos e), ← abs_mul, abs_of_pos (two_zpow_pos e)]
        congr 1
        ring
    _ ≤ 2 ^ k / 2 * 2 ^ e := hmul
    _ = 2 ^ e * 2 ^ k / 2 := by ring

theorem shiftToTargetExponent_of_le {m : Nat} {e : Int} (h : e ≤ unitExponent m e) :
    shiftToTargetExponent .binary64 m e .exact =
      (uncut m >>> (unitExponent m e - e).toNat, unitExponent m e) := by
  have htarget : Format.binary64.targetExponent (totalExponent m e) = unitExponent m e :=
    targetExponent_eq m e
  simp only [shiftToTargetExponent, shiftToExponent, htarget]
  exact Prod.ext rfl (by dsimp only; omega)

theorem cut_le {m : Nat} {e : Int} (h : e ≤ unitExponent m e) : cut m e ≤ 2 ^ 53 := by
  have hle := roundedMantissa_shiftToTargetExponent_le m e
  rwa [shiftToTargetExponent_of_le h] at hle

theorem cut_full {m : Nat} {e : Int} (hm : 0 < m) (h : e ≤ unitExponent m e) :
    unitExponent m e = -1074 ∨ 2 ^ 52 ≤ cut m e := by
  by_cases hleast : unitExponent m e = -1074
  · exact .inl hleast
  · right
    obtain ⟨k, hk⟩ := Int.le.dest h
    have hshift : (unitExponent m e - e).toNat = k := by omega
    have hlog : m.log2 = 52 + k := by
      unfold unitExponent at hk hleast
      omega
    calc 2 ^ 52 ≤ m / 2 ^ k := by
          rw [Nat.le_div_iff_mul_le (Nat.two_pow_pos k), ← Nat.pow_add, ← hlog]
          exact Nat.log2_self_le hm.ne'
      _ = (uncut m >>> k).mantissa := (mantissa_shiftRight m k).symm
      _ ≤ cut m e := by
        rw [cut, hshift]
        exact mantissa_le_roundedMantissa _

theorem shiftToTargetExponent_of_cut {r : Nat} {t : Int} (hr : r ≤ 2 ^ 53) (ht : -1074 ≤ t) :
    shiftToTargetExponent .binary64 r t .exact = if r = 2 ^ 53 then (uncut r >>> 1, t + 1)
      else (uncut r, t) := by
  -- The second cut takes away the last digit of a carry, and nothing else.
  simp only [shiftToTargetExponent, shiftToExponent, targetExponent_eq]
  split
  · subst r
    have hlog : (2 ^ 53).log2 = 53 := Nat.log2_two_pow
    have hshift : (Max.max (((2 ^ 53).log2 : Int) - 52 + t) (-1074) - t).toNat = 1 := by omega
    rw [hshift]
    rfl
  · have hlog : r.log2 ≤ 52 := by
      by_cases hzero : r = 0
      · simp [hzero]
      · exact Nat.le_of_lt_succ ((Nat.log2_lt hzero).2 (by omega))
    have hshift : (Max.max ((r.log2 : Int) - 52 + t) (-1074) - t).toNat = 0 := by omega
    rw [hshift]
    exact Prod.ext rfl (Int.add_zero t)

theorem carry_mul_zpow (t : Int) : ((2 ^ 53 : Nat) : ℚ) * 2 ^ t = (2 ^ 52 : Nat) * 2 ^ (t + 1) := by
  rw [two_zpow_add]
  push_cast
  ring

theorem hasValue_pack_roundWithAccuracy (s : Sign) {m : Nat} {e : Int} (hm : 0 < m)
    (he : e ≤ unitExponent m e) :
    HasValue (.ofModel (.pack (roundWithAccuracy .binary64 s m e .exact)))
      (s.apply 1 * Min.min (cut m e * 2 ^ unitExponent m e : ℚ) limit) := by
  have hfirst := shiftToTargetExponent_of_le he
  have hle := cut_le he
  have hfull := cut_full hm he
  have hleast : -1074 ≤ unitExponent m e := le_max_right _ _
  have hsecond := shiftToTargetExponent_of_cut hle hleast
  unfold cut at hle hfull hsecond ⊢
  generalize uncut m >>> (unitExponent m e - e).toNat = first at *
  generalize hr : first.roundedMantissa = r at *
  generalize unitExponent m e = t at *
  rcases Nat.eq_zero_or_pos r with rfl | hpos
  · have hround : roundWithAccuracy .binary64 s m e .exact = .zero s := by
      simp only [roundWithAccuracy, hfirst, hr, hsecond]
      rfl
    rw [hround, Nat.cast_zero, zero_mul, min_eq_left limit_pos.le, mul_zero]
    exact hasValue_pack_zero s
  · rcases hle.eq_or_lt with rfl | hlt
    · have hround : roundWithAccuracy .binary64 s m e .exact =
          .finite s (2 ^ 52) (t + 1) (by decide) := by
        simp only [roundWithAccuracy, hfirst, hr, hsecond]
        rfl
      rw [hround, carry_mul_zpow]
      exact hasValue_pack_finite (by decide) (by decide) (by omega) (.inr le_rfl)
    · have hround : roundWithAccuracy .binary64 s m e .exact = .finite s r t hpos := by
        simp only [roundWithAccuracy, hfirst, hr, hsecond, hlt.ne, if_false]
        exact dif_neg hpos.ne'
      rw [hround]
      exact hasValue_pack_finite hpos hlt hleast hfull

theorem abs_sign_mul_sub (s : Sign) (a b : ℚ) : |s.apply 1 * a - s.apply 1 * b| = |a - b| := by
  rw [← mul_sub, abs_mul, abs_apply_one, one_mul]

theorem sign_mul_sign_mul (s : Sign) (a : ℚ) : s.apply 1 * (s.apply 1 * a) = a := by
  cases s <;> simp [Sign.apply]

theorem unitExponent_spec {m : Nat} (hm : 0 < m) (e : Int) :
    unitExponent m e = -1074 ∨ 2 ^ 52 * 2 ^ unitExponent m e ≤ (m : ℚ) * 2 ^ e := by
  rw [or_iff_not_imp_left]
  intro hne
  have hexponent : (52 : Nat) + unitExponent m e = m.log2 + e := by
    unfold unitExponent at hne ⊢
    omega
  rw [two_pow_mul_zpow, hexponent]
  exact two_zpow_log2_le hm e

theorem isNearest_of_abs_cut_sub_le (s : Sign) {m : Nat} {e : Int} {v : ℚ} (hm : 0 < m)
    (he : e ≤ unitExponent m e)
    (hcut : |(cut m e : ℚ) * 2 ^ unitExponent m e - v| ≤ 2 ^ unitExponent m e / 2)
    (hunit : unitExponent m e = -1074 ∨ 2 ^ 52 * 2 ^ unitExponent m e ≤ v) :
    IsNearest (s.apply 1 * v) (.ofModel (.pack (roundWithAccuracy .binary64 s m e .exact))) := by
  obtain ⟨hnum, hvalue⟩ := hasValue_pack_roundWithAccuracy s hm he
  refine ⟨hnum, fun y _ => ?_⟩
  have hgrid : OnGrid (s.apply 1 * value y) := (onGrid_valueOf (isCanonical_unpack _)).mul_sign s
  rw [hvalue, abs_sign_mul_sub, ← sign_mul_sign_mul s (value y), abs_sign_mul_sub]
  exact abs_min_sub_le hcut hunit hgrid

theorem isNearest_roundWithAccuracy (s : Sign) {m : Nat} {e : Int} (hm : 0 < m)
    (he : e ≤ unitExponent m e) :
    IsNearest (s.apply 1 * (m * 2 ^ e))
      (.ofModel (.pack (roundWithAccuracy .binary64 s m e .exact))) :=
  isNearest_of_abs_cut_sub_le s hm he (abs_cut_sub_le he) (unitExponent_spec hm e)

theorem cast_shiftLeft (m : Nat) {e t : Int} (h : t ≤ e) :
    ((m <<< (e - t).toNat : Nat) : ℚ) * 2 ^ t = m * 2 ^ e := by
  obtain ⟨k, rfl⟩ := Int.le.dest h
  have hshift : (t + k - t).toNat = k := by omega
  rw [hshift, Nat.shiftLeft_eq, two_zpow_add, zpow_natCast]
  push_cast
  ring

theorem isNearest_round (s : Sign) {m : Nat} (e : Int) (hm : 0 < m) :
    IsNearest (s.apply 1 * (m * 2 ^ e)) (.ofModel (.pack (.round .binary64 s m e))) := by
  -- A number is shifted to a small enough exponent before it is cut.
  have htarget : Format.binary64.targetExponent (totalExponent m e) = unitExponent m e :=
    targetExponent_eq m e
  unfold UnpackedFloat.round decreaseExponent
  simp only [htarget]
  generalize hk : (e - unitExponent m e).toNat = k
  have hpos : 0 < m <<< k := by
    rw [Nat.shiftLeft_eq]
    positivity
  have hlog : (m <<< k).log2 = m.log2 + k := log2_shiftLeft hm k
  have hle : e - k ≤ unitExponent (m <<< k) (e - k) := by
    unfold unitExponent at hk ⊢
    omega
  have hvalue := cast_shiftLeft m (e := e) (t := e - k) (by omega)
  have hshift : (e - (e - k)).toNat = k := by omega
  rw [hshift] at hvalue
  rw [← hvalue]
  exact isNearest_roundWithAccuracy s hpos hle

theorem isNearest_normalize (z e : Int) (zeroSign : Sign) :
    IsNearest (z * 2 ^ e) (.ofModel (.pack (.normalize .binary64 z e zeroSign))) := by
  unfold UnpackedFloat.normalize
  split
  · rename_i hneg
    rw [Int.compare_eq_lt] at hneg
    have hround := isNearest_round .negative (m := (-z).toNat) e (by omega)
    have habs : (((-z).toNat : Nat) : ℚ) = -z := by
      rw [← Int.cast_natCast, Int.toNat_of_nonneg (by omega), Int.cast_neg]
    rwa [habs, Sign.apply, Int.cast_neg, Int.cast_one, neg_one_mul, neg_mul, neg_neg] at hround
  · rename_i hzero
    rw [Int.compare_eq_eq] at hzero
    rw [hzero, Int.cast_zero, zero_mul]
    exact .of_hasValue (hasValue_pack_zero zeroSign)
  · rename_i hpos
    rw [Int.compare_eq_gt] at hpos
    have hround := isNearest_round .positive (m := z.toNat) e (by omega)
    have habs : ((z.toNat : Nat) : ℚ) = z := by
      rw [← Int.cast_natCast, Int.toNat_of_nonneg (by omega)]
    rwa [habs, Sign.apply, Int.cast_one, one_mul] at hround

theorem isNearest_ofInt (n : Int) : IsNearest n (ofInt n) := by
  have hround := isNearest_normalize n 0 .positive
  rwa [zpow_zero, mul_one] at hround

theorem cast_apply (s : Sign) (n : Int) : ((s.apply n : Int) : ℚ) = s.apply 1 * n := by
  cases s <;> simp [Sign.apply]

theorem cast_apply_mul (s s' : Sign) : (((s * s').apply 1 : Int) : ℚ) = s.apply 1 * s'.apply 1 := by
  rw [← Int.cast_mul]
  congr 1
  cases s <;> cases s' <;> rfl

theorem hasValue_pack {x : UnpackedFloat} (hx : IsCanonical x) (h : x.isFinite = true) :
    HasValue (.ofModel (.pack x)) (valueOf x) := by
  cases x with
  | zero s => exact hasValue_pack_zero s
  | finite s m e hm =>
    have hpack := hasValue_pack_finite (s := s) hm hx.lt hx.least hx.full
    rwa [min_eq_left hx.mul_zpow_lt_limit.le, ← valueOf_finite s m e hm] at hpack
  | infinity | notANumber => cases h

theorem valueOf_neg (x : UnpackedFloat) : valueOf x.neg = -valueOf x := by
  cases x with
  | finite s m e hm => cases s <;> simp [UnpackedFloat.neg, valueOf, Sign.apply]
  | infinity s => cases s <;> simp [UnpackedFloat.neg, valueOf, Sign.apply]
  | zero | notANumber => simp [UnpackedFloat.neg, valueOf]

theorem valueOf_zero (s : Sign) : valueOf (.zero s) = 0 := rfl

theorem isCanonical_neg {x : UnpackedFloat} (hx : IsCanonical x) : IsCanonical x.neg := by
  cases x <;> exact hx

theorem isFinite_neg {x : UnpackedFloat} (hx : x.isFinite = true) : x.neg.isFinite = true := by
  cases x <;> exact hx

theorem sub_eq_add (x y : UnpackedFloat) :
    UnpackedFloat.sub .binary64 x y = .add .binary64 x y.neg := by
  cases x with
  | notANumber => rfl
  | infinity s =>
    cases y with
    | infinity s' => cases s <;> cases s' <;> rfl
    | notANumber | zero | finite => rfl
  | zero s =>
    cases y with
    | zero s' => cases s <;> cases s' <;> rfl
    | notANumber | infinity | finite => rfl
  | finite s m e hm =>
    cases y with
    | finite s' m' e' hm' =>
      have hneg (n : Int) : (-s').apply n = -s'.apply n := by cases s' <;> simp [Sign.apply]
      simp only [UnpackedFloat.sub, UnpackedFloat.add, UnpackedFloat.neg, hneg, Int.sub_eq_add_neg]
    | notANumber | infinity | zero => rfl

section

variable {x y : UnpackedFloat} (hx : IsCanonical x) (hy : IsCanonical y) (hx' : x.isFinite = true)
  (hy' : y.isFinite = true)

include hx hy hx' hy'

theorem isNearest_pack_add :
    IsNearest (valueOf x + valueOf y) (.ofModel (.pack (.add .binary64 x y))) := by
  cases x with
  | infinity | notANumber => cases hx'
  | zero s =>
    cases y with
    | infinity | notANumber => cases hy'
    | zero s' =>
      rw [valueOf_zero, valueOf_zero, add_zero, UnpackedFloat.add]
      split <;> exact .of_hasValue (hasValue_pack_zero _)
    | finite s' m' e' hm' =>
      rw [valueOf_zero, zero_add]
      exact .of_hasValue (hasValue_pack hy hy')
  | finite s m e hm =>
    cases y with
    | infinity | notANumber => cases hy'
    | zero s' =>
      rw [valueOf_zero, add_zero]
      exact .of_hasValue (hasValue_pack hx hx')
    | finite s' m' e' hm' =>
      have hsum := isNearest_normalize (s.apply (m <<< (e - Min.min e e').toNat : Nat) +
        s'.apply (m' <<< (e' - Min.min e e').toNat : Nat)) (Min.min e e') .positive
      rwa [Int.cast_add, cast_apply, cast_apply s', Int.cast_natCast, Int.cast_natCast,
        add_mul, mul_assoc, mul_assoc, cast_shiftLeft m (min_le_left e e'),
        cast_shiftLeft m' (min_le_right e e'), ← valueOf_finite s m e hm,
        ← valueOf_finite s' m' e' hm'] at hsum

theorem isNearest_pack_sub :
    IsNearest (valueOf x - valueOf y) (.ofModel (.pack (.sub .binary64 x y))) := by
  rw [sub_eq_add, sub_eq_add_neg, ← valueOf_neg]
  exact isNearest_pack_add hx (isCanonical_neg hy) hx' (isFinite_neg hy')

theorem isNearest_pack_mul :
    IsNearest (valueOf x * valueOf y) (.ofModel (.pack (.mul .binary64 x y))) := by
  cases x with
  | infinity | notANumber => cases hx'
  | zero s =>
    rw [valueOf_zero, zero_mul]
    cases y with
    | infinity | notANumber => cases hy'
    | zero | finite => exact .of_hasValue (hasValue_pack_zero _)
  | finite s m e hm =>
    cases y with
    | infinity | notANumber => cases hy'
    | zero s' =>
      rw [valueOf_zero, mul_zero]
      exact .of_hasValue (hasValue_pack_zero _)
    | finite s' m' e' hm' =>
      have hpos : 0 < m * m' := Nat.mul_pos hm hm'
      have hlog (h : 2 ^ 52 ≤ m * m') : 52 ≤ (m * m').log2 := (Nat.le_log2 hpos.ne').2 h
      have hle : e + e' ≤ unitExponent (m * m') (e + e') := by
        unfold unitExponent
        rcases hx.full with rfl | hfull
        · rcases hy.full with rfl | hfull
          · omega
          · have := hlog (hfull.trans (Nat.le_mul_of_pos_left m' hm))
            omega
        · have := hlog (hfull.trans (Nat.le_mul_of_pos_right m hm'))
          omega
      have hproduct := isNearest_roundWithAccuracy (s * s') hpos hle
      have hvalue : ((s * s').apply 1 : ℚ) * ((m * m' : Nat) * 2 ^ (e + e')) =
          valueOf (.finite s m e hm) * valueOf (.finite s' m' e' hm') := by
        rw [valueOf_finite, valueOf_finite, cast_apply_mul, two_zpow_add]
        push_cast
        ring
      rwa [hvalue] at hproduct

end

section

variable {x y : Float} (hx : x.isFinite = true) (hy : y.isFinite = true)

include hx hy

theorem isNearest_add : IsNearest (value x + value y) (x + y) :=
  isNearest_pack_add (isCanonical_unpack _) (isCanonical_unpack _) hx hy

theorem isNearest_sub : IsNearest (value x - value y) (x - y) :=
  isNearest_pack_sub (isCanonical_unpack _) (isCanonical_unpack _) hx hy

theorem isNearest_mul : IsNearest (value x * value y) (x * y) :=
  isNearest_pack_mul (isCanonical_unpack _) (isCanonical_unpack _) hx hy

end

end Rollup.Double
