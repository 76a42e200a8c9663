import Rollup.Proofs.Number.Exact

namespace Rollup.Double

open Float.Model UnpackedFloat

theorem two_zpow_double (e : Int) : (2 : ℚ) ^ (e - 1) = 2 * 2 ^ (e - 2) := by
  rw [show e - 1 = 1 + (e - 2) by omega, two_zpow_add, zpow_one]

/-- A number of quarters in the place of what is cut off. -/
def quarters : Accuracy → Nat
  | .exact => 0
  | .inexact .lt => 1
  | .inexact .eq => 2
  | .inexact .gt => 3

theorem quarters_lt (acc : Accuracy) : quarters acc < 4 := by
  rcases acc with _ | _ | _ | _ <;> decide

/-- A number that lies as far above an integer as an accuracy says. -/
def Lies (m : Nat) : Accuracy → ℚ → Prop
  | .exact, v => v = m
  | .inexact .lt, v => m < v ∧ v < m + 1 / 2
  | .inexact .eq, v => v = m + 1 / 2
  | .inexact .gt, v => m + 1 / 2 < v ∧ v < m + 1

namespace Lies

variable {m : Nat} {acc : Accuracy} {v : ℚ} {z : Int}

theorem half_le (h : Lies m acc v) (hz : 2 * z ≤ 4 * m + quarters acc) : (z : ℚ) / 2 ≤ v := by
  have hcast {k : Int} (hle : z ≤ k) : (z : ℚ) ≤ k := mod_cast hle
  rcases acc with _ | _ | _ | _ <;> simp only [Lies, quarters] at h hz
  · have := hcast (k := 2 * m) (by omega)
    push_cast at this
    linarith
  · have := hcast (k := 2 * m) (by omega)
    push_cast at this
    linarith
  · have := hcast (k := 2 * m + 1) (by omega)
    push_cast at this
    linarith
  · have := hcast (k := 2 * m + 1) (by omega)
    push_cast at this
    linarith

theorem le_half (h : Lies m acc v) (hz : 4 * m + quarters acc ≤ 2 * z) : v ≤ (z : ℚ) / 2 := by
  have hcast {k : Int} (hle : k ≤ z) : (k : ℚ) ≤ z := mod_cast hle
  rcases acc with _ | _ | _ | _ <;> simp only [Lies, quarters] at h hz
  · have := hcast (k := 2 * m) (by omega)
    push_cast at this
    linarith
  · have := hcast (k := 2 * m + 1) (by omega)
    push_cast at this
    linarith
  · have := hcast (k := 2 * m + 1) (by omega)
    push_cast at this
    linarith
  · have := hcast (k := 2 * m + 2) (by omega)
    push_cast at this
    linarith

theorem quarters_pos (h : Lies m acc v) (hv : 0 < v) : 0 < 4 * m + quarters acc := by
  by_contra hzero
  have := h.le_half (z := 0) (by omega)
  rw [Int.cast_zero, zero_div] at this
  exact absurd this (not_le.2 hv)

theorem of_div (a : Nat) {b : Nat} (hb : 0 < b) :
    Lies (a / b) (accuracyOfFraction (a % b) b) (a / b : ℚ) := by
  have hb' : (0 : ℚ) < b := mod_cast hb
  have hdiv : (a : ℚ) = a / b * b := (div_mul_cancel₀ _ hb'.ne').symm
  have hsum : (a : ℚ) = (a / b : Nat) * b + (a % b : Nat) := mod_cast (Nat.div_add_mod' a b).symm
  have hlt : ((a % b : Nat) : ℚ) < b := mod_cast Nat.mod_lt a hb
  generalize (a : ℚ) / b = v at hdiv ⊢
  generalize a / b = m at hsum ⊢
  generalize a % b = r at hsum hlt ⊢
  have hrest : (v - m) * b = r := by linarith
  unfold accuracyOfFraction
  split
  · rename_i hzero
    rw [hzero, Nat.cast_zero, mul_eq_zero, or_iff_left hb'.ne', sub_eq_zero] at hrest
    exact hrest
  · rename_i hne
    have hpos : (0 : ℚ) < r := mod_cast Nat.pos_of_ne_zero hne
    rcases lt_trichotomy (2 * r) b with hless | heq | hmore
    · rw [compare_lt_iff_lt.2 hless]
      have hless : 2 * (r : ℚ) < b := mod_cast hless
      constructor <;> nlinarith
    · rw [compare_eq_iff_eq.2 heq]
      have heq : 2 * (r : ℚ) = b := mod_cast heq
      change v = m + 1 / 2
      nlinarith
    · rw [compare_gt_iff_gt.2 hmore]
      have hmore : (b : ℚ) < 2 * r := mod_cast hmore
      constructor <;> nlinarith

theorem scaled_le (h : Lies m acc v) {e : Int} {b : ℚ} (hb : IsMultiple (e - 1) b)
    (hle : b ≤ (4 * m + quarters acc : Nat) * 2 ^ (e - 2)) : b ≤ v * 2 ^ e := by
  obtain ⟨z, rfl⟩ := hb
  have hu := two_zpow_pos (e - 2)
  rw [two_zpow_double, ← mul_assoc] at hle
  have hz : (z : ℚ) * 2 ≤ (4 * m + quarters acc : Nat) := le_of_mul_le_mul_right hle hu
  have hhalf := h.half_le (z := z) (by rw [mul_comm]; exact_mod_cast hz)
  have := mul_le_mul_of_nonneg_right hhalf (two_zpow_pos e).le
  rw [two_zpow_pred]
  linarith

theorem le_scaled (h : Lies m acc v) {e : Int} {b : ℚ} (hb : IsMultiple (e - 1) b)
    (hle : (4 * m + quarters acc : Nat) * 2 ^ (e - 2) ≤ b) : v * 2 ^ e ≤ b := by
  obtain ⟨z, rfl⟩ := hb
  have hu := two_zpow_pos (e - 2)
  rw [two_zpow_double, ← mul_assoc] at hle
  have hz : ((4 * m + quarters acc : Nat) : ℚ) ≤ z * 2 := le_of_mul_le_mul_right hle hu
  have hhalf := h.le_half (z := z) (by rw [mul_comm 2 z]; exact_mod_cast hz)
  have := mul_le_mul_of_nonneg_right hhalf (two_zpow_pos e).le
  rw [two_zpow_pred]
  linarith

end Lies

theorem shiftRight_add (em : ExtendedMantissa) (j k : Nat) : em >>> (j + k) = em >>> j >>> k := by
  induction k with
  | zero => rfl
  | succ k ih => exact congrArg ExtendedMantissa.shiftRightOne ih

theorem ofMantissaAndAccuracy_eq (m : Nat) (acc : Accuracy) :
    ExtendedMantissa.ofMantissaAndAccuracy m acc = uncut (4 * m + quarters acc) >>> 2 := by
  have hshift : uncut (4 * m + quarters acc) >>> 2 =
      ⟨(4 * m + quarters acc) / 4, (4 * m + quarters acc) / 2 % 2 != 0,
      (4 * m + quarters acc) % 2 != 0⟩ :=
    shiftRight_succ _ 1
  have hlt := quarters_lt acc
  have hmantissa : (4 * m + quarters acc) / 4 = m := by omega
  have hround : (4 * m + quarters acc) / 2 % 2 = quarters acc / 2 := by omega
  have hsticky : (4 * m + quarters acc) % 2 = quarters acc % 2 := by omega
  rw [hshift, hmantissa, hround, hsticky]
  rcases acc with _ | _ | _ | _ <;> rfl

section

variable {m : Nat} {e : Int} (acc : Accuracy) (hfull : e ≤ -1074 ∨ 2 ^ 52 ≤ m)

include hfull

theorem unitExponent_quarters : unitExponent (4 * m + quarters acc) (e - 2) = unitExponent m e := by
  have hlt := quarters_lt acc
  rcases Nat.eq_zero_or_pos m with rfl | hpos
  · have hleast := hfull.resolve_right (by decide)
    have hlog : (4 * 0 + quarters acc).log2 < 2 := by
      rcases Nat.eq_zero_or_pos (quarters acc) with hzero | hpos
      · simp [hzero]
      · exact (Nat.log2_lt (by omega)).2 (by omega)
    have hzero : Nat.log2 0 = 0 := rfl
    unfold unitExponent
    omega
  · have hlower := Nat.log2_self_le hpos.ne'
    have hupper : m < 2 ^ (m.log2 + 1) := Nat.lt_log2_self
    have hlog : (4 * m + quarters acc).log2 = m.log2 + 2 :=
      log2_eq_of_bounds (by rw [Nat.pow_add]; omega)
        (by rw [Nat.add_right_comm, Nat.pow_add]; omega)
    unfold unitExponent
    omega

theorem le_unitExponent : e ≤ unitExponent m e := by
  have hlog (h : 2 ^ 52 ≤ m) : 52 ≤ m.log2 := (Nat.le_log2 (by omega)).2 h
  unfold unitExponent
  omega

theorem roundWithAccuracy_quarters (s : Sign) :
    roundWithAccuracy .binary64 s m e acc = roundWithAccuracy .binary64 s (4 * m + quarters acc)
      (e - 2) .exact := by
  have hunit := unitExponent_quarters acc hfull
  have hle := le_unitExponent hfull
  have htarget : Format.binary64.targetExponent (totalExponent m e) = unitExponent m e :=
    targetExponent_eq m e
  have hfirst : shiftToTargetExponent .binary64 m e acc =
      shiftToTargetExponent .binary64 (4 * m + quarters acc) (e - 2) .exact := by
    obtain ⟨k, hk⟩ := Int.le.dest hle
    have hshift : (unitExponent m e - e).toNat = k := by omega
    have hshift' : (unitExponent m e - (e - 2)).toNat = 2 + k := by omega
    rw [shiftToTargetExponent_of_le (by omega), hunit, hshift', shiftRight_add,
      ← ofMantissaAndAccuracy_eq]
    simp only [shiftToTargetExponent, shiftToExponent, htarget, hshift, hk]
  simp only [roundWithAccuracy, hfirst]

variable {acc} (hpos : 0 < 4 * m + quarters acc) (s : Sign)

include hpos

theorem isNearest_quarters :
    IsNearest (s.apply 1 * ((4 * m + quarters acc : Nat) * 2 ^ (e - 2)))
      (.ofModel (.pack (roundWithAccuracy .binary64 s m e acc))) := by
  have hle := le_unitExponent hfull
  rw [roundWithAccuracy_quarters acc hfull]
  exact isNearest_roundWithAccuracy s hpos (by rw [unitExponent_quarters acc hfull]; omega)

theorem isNearest_of_lies {v : ℚ} (h : Lies m acc v) :
    IsNearest (s.apply 1 * (v * 2 ^ e))
      (.ofModel (.pack (roundWithAccuracy .binary64 s m e acc))) := by
  have hunit := unitExponent_quarters acc hfull
  have he := le_unitExponent hfull
  rw [roundWithAccuracy_quarters acc hfull]
  have hcut := abs_cut_sub_le (m := 4 * m + quarters acc) (e := e - 2) (by omega)
  have hspec := unitExponent_spec hpos (e - 2)
  rw [hunit] at hcut hspec
  have hunits (z : Int) : IsMultiple (e - 1) (z * 2 ^ unitExponent m e) :=
    (isMultiple_zpow (by omega)).mul_int z
  have hhalf (z : Int) : IsMultiple (e - 1) (z * (2 ^ unitExponent m e / 2)) := by
    rw [← two_zpow_pred]
    exact (isMultiple_zpow (by omega)).mul_int z
  generalize hcut' : cut (4 * m + quarters acc) (e - 2) = r at hcut
  obtain ⟨hlower, hupper⟩ := abs_le.1 hcut
  refine isNearest_of_abs_cut_sub_le s hpos (by omega) ?_ ?_ <;> rw [hunit]
  · rw [hcut']
    have hbelow := h.scaled_le ((hunits r).add (hhalf (-1))) (by push_cast at hupper ⊢; linarith)
    have habove := h.le_scaled ((hunits r).add (hhalf 1)) (by push_cast at hlower ⊢; linarith)
    push_cast at hbelow habove
    exact abs_le.2 ⟨by linarith, by linarith⟩
  · exact hspec.imp_right fun hfull => by
      have := h.scaled_le (hunits (2 ^ 52)) (by exact_mod_cast hfull)
      exact_mod_cast this

end

theorem shiftLeft_pos {m : Nat} (hm : 0 < m) (k : Nat) : 0 < m <<< k := by
  rw [Nat.shiftLeft_eq]
  positivity

theorem isFull_div {m m' : Nat} {e t : Int} (hm : 0 < m) (hm' : 0 < m')
    (ht : t ≤ (m.log2 : Int) - m'.log2 + e - 53 ∨ t ≤ -1074) :
    t ≤ -1074 ∨ 2 ^ 52 ≤ m <<< (e - t).toNat / m' := by
  -- A quotient is shifted until it has all digits, or until its unit is the least.
  refine ht.symm.imp_right fun ht => ?_
  have hpos := shiftLeft_pos hm (e - t).toNat
  have hlog := log2_shiftLeft hm (e - t).toNat
  rw [Nat.le_div_iff_mul_le hm']
  calc 2 ^ 52 * m' ≤ 2 ^ 52 * 2 ^ (m'.log2 + 1) := Nat.mul_le_mul_left _ Nat.lt_log2_self.le
    _ = 2 ^ (52 + (m'.log2 + 1)) := (Nat.pow_add 2 52 _).symm
    _ ≤ 2 ^ (m <<< (e - t).toNat).log2 := Nat.pow_le_pow_right Nat.two_pos (by omega)
    _ ≤ m <<< (e - t).toNat := Nat.log2_self_le hpos.ne'

theorem valueOf_div (s s' : Sign) {m m' : Nat} {e e' : Int} (hm : 0 < m) (hm' : 0 < m') :
    valueOf (.finite s m e hm) / valueOf (.finite s' m' e' hm') =
      (s / s').apply 1 * (m * 2 ^ (e - e') / m') := by
  have hm' : (m' : ℚ) ≠ 0 := by exact_mod_cast hm'.ne'
  have he' := (two_zpow_pos e').ne'
  rw [valueOf_finite, valueOf_finite, zpow_sub₀ two_ne_zero]
  have hone : (s'.apply 1 : ℚ) ≠ 0 := by cases s' <;> simp [Sign.apply]
  have hsign : (s / s').apply 1 * s'.apply 1 = s.apply 1 := by cases s <;> cases s' <;> rfl
  have hsign : ((s / s').apply 1 : ℚ) = s.apply 1 / s'.apply 1 :=
    eq_div_of_mul_eq hone (by exact_mod_cast hsign)
  rw [hsign]
  field_simp

section

variable {x y : Float} (hx : x.isFinite = true) (hy : y.isFinite = true) (hne : value y ≠ 0)

include hx hy hne

theorem isNearest_div : IsNearest (value x / value y) (x / y) := by
  change IsNearest _ (.ofModel (.pack (.div .binary64 x.toModel.unpack y.toModel.unpack)))
  unfold value at hne ⊢
  change x.toModel.unpack.isFinite = true at hx
  change y.toModel.unpack.isFinite = true at hy
  generalize x.toModel.unpack = x at *
  generalize y.toModel.unpack = y at *
  cases y with
  | infinity | notANumber => cases hy
  | zero => exact absurd rfl hne
  | finite s' m' e' hm' =>
    cases x with
    | infinity | notANumber => cases hx
    | zero s =>
      rw [valueOf_zero, zero_div]
      exact .of_hasValue (hasValue_pack_zero _)
    | finite s m e hm =>
      have htarget : Format.binary64.targetExponent (totalExponent m e - totalExponent m' e') =
          Max.max ((m.log2 : Int) - m'.log2 + (e - e') - 53) (-1074) := by
        have hbits : Format.binary64.mantissaBits = 53 := rfl
        have hleast : Format.binary64.minExponent = -1074 := rfl
        rw [Format.targetExponent, hbits, hleast, totalExponent, totalExponent]
        omega
      unfold UnpackedFloat.div
      simp only [divCore, htarget]
      generalize ht : Min.min (e - e') _ = t
      have hfull := isFull_div (e := e - e') (t := t) hm hm' (by omega)
      have hshift := cast_shiftLeft m (e := e - e') (t := t) (by omega)
      have hpos := shiftLeft_pos hm (e - e' - t).toNat
      generalize m <<< (e - e' - t).toNat = a at *
      have hlies := Lies.of_div a hm'
      have hquotient : (0 : ℚ) < a / m' := div_pos (mod_cast hpos) (mod_cast hm')
      have hnearest := isNearest_of_lies hfull (hlies.quarters_pos hquotient) (s / s') hlies
      rwa [div_mul_eq_mul_div, hshift, ← valueOf_div] at hnearest

end

theorem exists_unpack_eq_zero {x : Float} (hx : x.isFinite = true) (hzero : value x = 0) :
    ∃ s, x.toModel.unpack = .zero s := by
  change x.toModel.unpack.isFinite = true at hx
  unfold value at hzero
  cases hunpack : x.toModel.unpack with
  | infinity | notANumber => rw [hunpack] at hx; cases hx
  | zero s => exact ⟨s, rfl⟩
  | finite s m e hm =>
    have habs := abs_valueOf_finite s m e hm
    rw [← hunpack, hzero, abs_zero] at habs
    exact absurd habs (mul_pos (mod_cast hm) (two_zpow_pos e)).ne

theorem hasValue_zero_div {x y : Float} (hx : x.isFinite = true) (hzero : value x = 0)
    (hy : y.isNaN = false) (hne : value y ≠ 0) : HasValue (x / y) 0 := by
  obtain ⟨s, hs⟩ := exists_unpack_eq_zero hx hzero
  change y.toModel.unpack.isNaN = false at hy
  change HasValue (.ofModel (.pack (.div .binary64 x.toModel.unpack y.toModel.unpack))) 0
  unfold value at hne
  rw [hs]
  generalize y.toModel.unpack = y at *
  cases y with
  | notANumber => cases hy
  | zero => exact absurd rfl hne
  | infinity | finite => exact hasValue_pack_zero _

theorem hasValue_div_infinity {x y : Float} (hx : x.isFinite = true) (hy : y.isNaN = false)
    (hinfinite : y.isFinite = false) : HasValue (x / y) 0 := by
  change x.toModel.unpack.isFinite = true at hx
  change y.toModel.unpack.isNaN = false at hy
  change y.toModel.unpack.isFinite = false at hinfinite
  change HasValue (.ofModel (.pack (.div .binary64 x.toModel.unpack y.toModel.unpack))) 0
  generalize x.toModel.unpack = x at *
  generalize y.toModel.unpack = y at *
  cases y with
  | notANumber => cases hy
  | zero | finite => cases hinfinite
  | infinity s =>
    cases x with
    | infinity | notANumber => cases hx
    | zero | finite => exact hasValue_pack_zero _

theorem hasValue_pack_infinity : HasValue (.ofModel (.pack (.infinity .positive))) limit := by
  have hvalue : valueOf (.infinity .positive) = limit := by simp [valueOf, Sign.apply]
  rw [← hvalue]
  exact .of_unpack rfl rfl

theorem hasValue_div_zero {x y : Float} (hx : x.isFinite = true) (hpos : 0 < value x)
    (hy : y.toModel.unpack = .zero .positive) : HasValue (x / y) limit := by
  change x.toModel.unpack.isFinite = true at hx
  change HasValue (.ofModel (.pack (.div .binary64 x.toModel.unpack y.toModel.unpack))) limit
  unfold value at hpos
  rw [hy]
  generalize x.toModel.unpack = x at *
  cases x with
  | infinity | notANumber => cases hx
  | zero => exact absurd hpos (lt_irrefl _)
  | finite s m e hm =>
    obtain rfl := eq_positive_of_valueOf_nonneg hpos.le
    exact hasValue_pack_infinity

end Rollup.Double
