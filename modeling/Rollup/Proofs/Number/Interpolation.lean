import Rollup.Proofs.Number.Exact

/-!
Interpolation between two doubles.

A sum of two products is rounded three times, so it may miss the doubles that it should lie between.
It does not miss them by more than one double (`interpolated_le`, `le_interpolated`).
-/

namespace Rollup.Double

structure Weights (w w' : ℚ) : Prop where
  nonneg : 0 ≤ w
  nonneg' : 0 ≤ w'
  le_one : w ≤ 1
  le_one' : w' ≤ 1
  near : |w + w' - 1| ≤ 1 / 2 ^ 54
  half : w ≤ 1 / 2 ∨ w' ≤ 1 / 2

theorem Weights.symm {w w' : ℚ} (h : Weights w w') : Weights w' w :=
  ⟨h.nonneg', h.nonneg, h.le_one', h.le_one, by rw [add_comm]; exact h.near, h.half.symm⟩

theorem Weights.mul_add_le {w w' : ℚ} (h : Weights w w') (d : ℚ) :
    d * w + d * w' ≤ d + |d| / 2 ^ 54 := by
  have hle : d * (w + w' - 1) ≤ |d| * (1 / 2 ^ 54) :=
    (le_abs_self _).trans ((abs_mul _ _).trans_le (mul_le_mul_of_nonneg_left h.near (abs_nonneg d)))
  linarith

theorem isMultiple_value {x : Float} {e : Int} (h : e = -1074 ∨ 2 ^ 52 * 2 ^ e ≤ |value x|) :
    IsMultiple e (value x) :=
  isMultiple_valueOf (isCanonical_unpack _) h

theorem exists_unit {z : Float} (hz : z.isFinite = true) :
    ∃ e : Int, -1074 ≤ e ∧ e ≤ 971 ∧ |value z| < 2 ^ 53 * 2 ^ e ∧
      (e = -1074 ∨ 2 ^ 52 * 2 ^ e ≤ |value z|) := by
  have hcanonical : IsCanonical z.toModel.unpack := isCanonical_unpack _
  change z.toModel.unpack.isFinite = true at hz
  unfold value
  cases hunpack : z.toModel.unpack with
  | infinity | notANumber => rw [hunpack] at hz; cases hz
  | zero s =>
    refine ⟨-1074, le_rfl, by decide, ?_, .inl rfl⟩
    rw [valueOf_zero, abs_zero]
    exact mul_pos (by norm_num) (two_zpow_pos _)
  | finite s m e hm =>
    rw [hunpack] at hcanonical
    rw [abs_valueOf_finite]
    refine ⟨e, hcanonical.least, hcanonical.most, ?_, hcanonical.full.imp_right fun hfull => ?_⟩
    · exact mul_lt_mul_of_pos_right (by exact_mod_cast hcanonical.lt) (two_zpow_pos e)
    · exact mul_le_mul_of_nonneg_right (by exact_mod_cast hfull) (two_zpow_pos e).le

theorem add_le_value {d : ℚ} {k : Int} (hd : IsMultiple k d) (hroom : d + 2 ^ k ≤ -(2 ^ 52 * 2 ^ k))
    {y : Float} (h : d < value y) : d + 2 ^ k ≤ value y := by
  rcases le_or_gt (2 ^ 52 * 2 ^ k) |value y| with hle | hlt
  · exact hd.add_le (isMultiple_value (.inr hle)) h
  · have := neg_abs_le (value y)
    linarith

namespace IsNearest

theorem value_le_of_gap {v d h s : ℚ} {x y : Float} (hx : IsNearest v x)
    (hnext : ∀ y : Float, y.isNaN = false → d < value y → d + h ≤ value y)
    (hnext' : ∀ y : Float, y.isNaN = false → d + h < value y → d + h + s ≤ value y)
    (hv : v < d + h + s / 2) (hy : y.isNaN = false) (hlt : d < value y) : value x ≤ value y := by
  by_contra hgt
  rw [not_le] at hgt
  have hy' := hnext y hy hlt
  have hx' := hnext' x hx.isNumber (hy'.trans_lt hgt)
  rcases le_or_gt v (value y) with hle | hlt'
  · exact absurd (hx.value_le hy hle) (not_le.2 hgt)
  · have hnear := hx.le y hy
    rw [abs_of_neg (sub_neg.2 hlt')] at hnear
    have := le_abs_self (value x - v)
    linarith

section

variable {v d w : ℚ} {p : Float} {k : Int} (hp : IsNearest v p) (hv : v ≤ d * w) (hw : 0 ≤ w)
  (hd : |d| ≤ 2 ^ 53 * 2 ^ k) (hk' : k ≤ 971)

include hp hv hw hd hk'

theorem le_mul_add (hw' : w ≤ 1) (hk : -1074 ≤ k) : value p ≤ d * w + 2 ^ k / 2 := by
  refine hp.le_add hv ?_ hk hk'
  rw [abs_mul, abs_of_nonneg hw]
  exact (mul_le_of_le_one_right (abs_nonneg d) hw').trans hd

theorem le_mul_add_half (hw' : w ≤ 1 / 2) (hk : -1074 < k) : value p ≤ d * w + 2 ^ k / 4 := by
  -- With a small weight, the product has a smaller unit.
  have hle := hp.le_add hv (k := k - 1) ?_ (by omega) (by omega)
  · rw [two_zpow_pred] at hle
    linarith
  · rw [abs_mul, abs_of_nonneg hw, two_zpow_pred]
    calc |d| * w ≤ |d| * (1 / 2) := mul_le_mul_of_nonneg_left hw' (abs_nonneg d)
      _ ≤ 2 ^ 53 * (2 ^ k / 2) := by linarith

end

end IsNearest

section

variable {c d w w' : ℚ} {p q : Float} {k : Int} (hw : Weights w w') (hc : c ≤ d)
    (hp : IsNearest (c * w) p)
  (hq : IsNearest (d * w') q) (hd : |d| ≤ 2 ^ 53 * 2 ^ k) (hk' : k ≤ 971)

include hw hc hp hq hd hk'

theorem sum_le (hk : -1074 ≤ k) : value p + value q ≤ d + |d| / 2 ^ 54 + 2 ^ k := by
  have hp' := hp.le_mul_add (mul_le_mul_of_nonneg_right hc hw.nonneg) hw.nonneg hd hk' hw.le_one hk
  have hq' := hq.le_mul_add le_rfl hw.nonneg' hd hk' hw.le_one' hk
  have hsum := hw.mul_add_le d
  linarith

theorem sum_le_of_half (hk : -1074 < k) :
    value p + value q ≤ d + |d| / 2 ^ 54 + 2 ^ k * (3 / 4) := by
  -- One of the weights is small.
  have hle := mul_le_mul_of_nonneg_right hc hw.nonneg
  have hsum := hw.mul_add_le d
  rcases hw.half with hhalf | hhalf
  · have hp' := hp.le_mul_add_half hle hw.nonneg hd hk' hhalf hk
    have hq' := hq.le_mul_add le_rfl hw.nonneg' hd hk' hw.le_one' hk.le
    linarith
  · have hp' := hp.le_mul_add hle hw.nonneg hd hk' hw.le_one hk.le
    have hq' := hq.le_mul_add_half le_rfl hw.nonneg' hd hk' hhalf hk
    linarith

end

section

variable {c w w' : ℚ} {p q x y z : Float} (hw : Weights w w') (hc : c ≤ value z)
  (hp : IsNearest (c * w) p) (hq : IsNearest (value z * w') q)
    (hx : IsNearest (value p + value q) x)
  (hy : y.isNaN = false) (hlt : value z < value y)

include hw hc hp hq hx hy hlt

theorem interpolated_le_of_least (hd : |value z| ≤ 2 ^ 53 * 2 ^ (-1074 : Int)) :
    value x ≤ value y := by
  -- Small numbers are all on one grid, and so is the sum of the products.
  have hmultiple (x : Float) : IsMultiple (-1074) (value x) := isMultiple_value (.inl rfl)
  have hu := two_zpow_pos (-1074)
  have hsum := sum_le hw hc hp hq hd (by decide) le_rfl
  have hnext := (hmultiple z).add_le (hmultiple y) hlt
  apply hx.value_le hy
  by_contra hgt
  have hgrid := (hmultiple y).add_le ((hmultiple p).add (hmultiple q)) (not_le.1 hgt)
  linarith

variable {e : Int} (hleast : -1074 < e) (hmost : e ≤ 971)

include hleast hmost

theorem interpolated_le_of_pos (hpos : 0 < value z) (hfull : 2 ^ 52 * 2 ^ e ≤ value z)
    (hd : value z < 2 ^ 53 * 2 ^ e) : value x ≤ value y := by
  -- Above a positive double the unit is the same, or larger.
  have hu := two_zpow_pos e
  have habs : |value z| = value z := abs_of_pos hpos
  have hsum := sum_le hw hc hp hq (habs.trans_le hd.le) hmost hleast.le
  have hmultiple {x : Float} (h : value z ≤ value x) : IsMultiple e (value x) :=
    isMultiple_value (.inr ((hfull.trans h).trans (le_abs_self _)))
  have hz := hmultiple le_rfl
  refine hx.value_le_of_gap (d := value z) (h := 2 ^ e) (s := 2 ^ e) (fun y _ h =>
    hz.add_le (hmultiple h.le) h)
    (fun y _ h => ?_) (by rw [habs] at hsum; linarith) hy hlt
  exact (hz.add (isMultiple_zpow le_rfl)).add_le (hmultiple (by linarith)) h

theorem interpolated_le_of_neg (hfull : 2 ^ 52 * 2 ^ e < -value z)
    (hd : -value z < 2 ^ 53 * 2 ^ e) :
    value x ≤ value y := by
  -- Above a negative double the unit is the same, and from the second next one on it may be half
  -- of it.
  have hu := two_zpow_pos e
  have habs : |value z| = -value z := abs_of_neg (by linarith)
  have hsum := sum_le_of_half hw hc hp hq (habs.trans_le hd.le) hmost hleast
  have hz : IsMultiple e (value z) := isMultiple_value (.inr (habs ▸ hfull.le))
  have hroom : value z + 2 ^ e ≤ -(2 ^ 52 * 2 ^ e) := by
    refine hz.add_le ?_ (by linarith)
    exact ⟨-2 ^ 52, by push_cast; ring⟩
  have hz' : IsMultiple (e - 1) (value z + 2 ^ e) :=
    (hz.mono (by omega)).add (isMultiple_zpow (by omega))
  refine hx.value_le_of_gap (fun y _ h => add_le_value hz hroom h) (fun y _ h =>
    add_le_value hz' ?_ h) ?_ hy hlt
  · rw [two_zpow_pred]
    linarith
  · rw [habs] at hsum
    rw [two_zpow_pred]
    linarith

theorem interpolated_le_of_power (hd : -value z = 2 ^ 53 * 2 ^ e) : value x ≤ value y := by
  -- Above the opposite of a power of two the unit is half of what it is below.
  have hu := two_zpow_pos e
  have habs : |value z| = -value z := abs_of_neg (by linarith)
  have hsum := sum_le_of_half hw hc hp hq (habs.trans_le hd.le) hmost hleast
  have hz : IsMultiple e (value z) := isMultiple_value (.inr (by rw [habs, hd]; linarith))
  have hz' := hz.add (isMultiple_zpow le_rfl)
  refine hx.value_le_of_gap (fun y _ h => add_le_value hz (by linarith) h)
    (fun y _ h => add_le_value hz' (by linarith) h) ?_ hy hlt
  rw [habs, hd] at hsum
  linarith

end

section

variable {w w' : ℚ} {p q x y z : Float} (hw : Weights w w') (hz : z.isFinite = true)
  (hx : IsNearest (value p + value q) x) (hy : y.isNaN = false)

include hw hz hx hy

theorem interpolated_le {c : ℚ} (hc : c ≤ value z) (hp : IsNearest (c * w) p)
    (hq : IsNearest (value z * w') q) (hlt : value z < value y) : value x ≤ value y := by
  obtain ⟨e, hleast, hmost, hd, hfull⟩ := exists_unit hz
  by_cases hsmall : |value z| ≤ 2 ^ 53 * 2 ^ (-1074 : Int)
  · exact interpolated_le_of_least hw hc hp hq hx hy hlt hsmall
  · have hne : e ≠ -1074 := by
      rintro rfl
      exact hsmall hd.le
    have hfull := hfull.resolve_left hne
    have hleast : -1074 < e := lt_of_le_of_ne hleast hne.symm
    rcases lt_trichotomy (value z) 0 with hneg | hzero | hpos
    · rw [abs_of_neg hneg] at hsmall hd hfull
      rcases hfull.eq_or_lt with heq | hlt'
      · have hhalf : -value z = 2 ^ 53 * 2 ^ (e - 1) := by
          rw [← heq, two_zpow_pred]
          ring
        have hexponent : -1074 < e - 1 := by
          rw [hhalf, not_le] at hsmall
          exact (zpow_lt_zpow_iff_right₀ (by decide : (1 : ℚ) < 2)).1
            (lt_of_mul_lt_mul_left hsmall (by norm_num))
        exact interpolated_le_of_power hw hc hp hq hx hy hlt hexponent (by omega) hhalf
      · exact interpolated_le_of_neg hw hc hp hq hx hy hlt hleast hmost hlt' hd
    · rw [hzero, abs_zero] at hsmall
      exact absurd (mul_pos (by norm_num) (two_zpow_pos _)).le hsmall
    · rw [abs_of_pos hpos] at hd hfull
      exact interpolated_le_of_pos hw hc hp hq hx hy hlt hleast hmost hpos hfull hd

theorem le_interpolated {d : ℚ} (hd : value z ≤ d) (hp : IsNearest (value z * w) p)
    (hq : IsNearest (d * w') q) (hlt : value y < value z) : value y ≤ value x := by
  have hzneg := hasValue_neg (isFinite_iff.1 hz).1
  have hpneg := hasValue_neg hp.isNumber
  have hqneg := hasValue_neg hq.isNumber
  have hyneg := hasValue_neg hy
  have hz' : (-z).isFinite = true := by
    rw [isFinite_iff, hzneg.value_eq, abs_neg]
    exact ⟨hzneg.isNumber, (isFinite_iff.1 hz).2⟩
  have hx' := hx.neg
  have hp' := hp.neg
  have hq' := hq.neg
  rw [neg_add_rev, ← hpneg.value_eq, ← hqneg.value_eq] at hx'
  rw [← neg_mul, ← hzneg.value_eq] at hp'
  rw [← neg_mul] at hq'
  have hle := interpolated_le hw.symm hz' hx' hyneg.isNumber (c := -d)
    (by rw [hzneg.value_eq]; linarith) hq' hp'
    (by rw [hzneg.value_eq, hyneg.value_eq]; linarith)
  rw [(hasValue_neg hx.isNumber).value_eq, hyneg.value_eq] at hle
  linarith

end

structure IsFraction (f : Float) : Prop where
  isNumber : f.isNaN = false
  nonneg : 0 ≤ value f
  le_one : value f ≤ 1

namespace IsFraction

variable {f : Float}

theorem abs_le_one (h : IsFraction f) : |value f| ≤ 1 := (abs_of_nonneg h.nonneg).trans_le h.le_one

theorem isFinite (h : IsFraction f) : f.isFinite = true :=
  isFinite_iff.2 ⟨h.isNumber,
    h.abs_le_one.trans_lt (limit_eq ▸ one_lt_zpow₀ (by decide) (by decide))⟩

theorem of_isNearest {v : ℚ} (h : IsNearest v f) (hv : 0 ≤ v) (hv' : v ≤ 1) : IsFraction f where
  isNumber := h.isNumber
  nonneg := hasValue_zero.value_eq ▸ h.le_value hasValue_zero.isNumber
    (hasValue_zero.value_eq.trans_le hv)
  le_one := hasValue_one.value_eq ▸ h.value_le hasValue_one.isNumber
    (hv'.trans_eq hasValue_one.value_eq.symm)

theorem one : IsFraction (ofNat 1) := .of_isNearest (.of_hasValue hasValue_one) zero_le_one le_rfl

theorem isNearest_complement (h : IsFraction f) : IsNearest (1 - value f) (ofNat 1 - f) :=
  hasValue_one.value_eq ▸ isNearest_sub one.isFinite h.isFinite

theorem complement (h : IsFraction f) : IsFraction (ofNat 1 - f) :=
  .of_isNearest h.isNearest_complement (sub_nonneg.2 h.le_one) (sub_le_self _ h.nonneg)

theorem weights (h : IsFraction f) : Weights (value (ofNat 1 - f)) (value f) := by
  have hnearest := h.isNearest_complement
  refine ⟨h.complement.nonneg, h.nonneg, h.complement.le_one, h.le_one, ?_, ?_⟩
  · have habs : |1 - value f| ≤ 2 ^ 53 * 2 ^ (-53 : Int) := by
      rw [abs_of_nonneg (sub_nonneg.2 h.le_one)]
      have := h.nonneg
      norm_num
      linarith
    have hupper := hnearest.le_add le_rfl habs (by decide) (by decide)
    have hlower := hnearest.sub_le le_rfl habs (by decide) (by decide)
    norm_num at hupper hlower ⊢
    exact abs_le.2 ⟨by linarith, by linarith⟩
  · rcases le_or_gt (value f) (1 / 2) with hle | hlt
    · exact .inr hle
    · obtain ⟨y, hy⟩ := exists_hasValue (z := 1) (k := -1) (by decide) (by decide) (by decide)
      have hhalf : value y = 1 / 2 := by
        rw [hy.value_eq]
        norm_num
      exact .inl (hhalf ▸ hnearest.value_le hy.isNumber (by linarith))

theorem isFinite_mul (h : IsFraction f) {a : Float} (ha : a.isFinite = true) :
    (a * f).isFinite = true := by
  refine (isNearest_mul ha h.isFinite).isFinite_of_abs_le ha ?_
  rw [abs_mul]
  exact mul_le_of_le_one_right (abs_nonneg _) h.abs_le_one

end IsFraction

/-- A number that is at most one double away from those between two others. -/
structure IsNear (a b x : Float) : Prop where
  isNumber : x.isNaN = false
  le : ∀ y, b < y → x ≤ y
  ge : ∀ y, y < a → y ≤ x

theorem IsNear.self {x : Float} (hx : x.isNaN = false) : IsNear x x x where
  isNumber := hx
  le _ h := (le_iff hx (not_isNaN_of_lt h).2).2 ((lt_iff hx (not_isNaN_of_lt h).2).1 h).le
  ge _ h := (le_iff (not_isNaN_of_lt h).1 hx).2 ((lt_iff (not_isNaN_of_lt h).1 hx).1 h).le

section

variable {a b f : Float} (ha : a.isFinite = true) (hb : b.isFinite = true) (hf : IsFraction f)

include ha hb hf

theorem isNearest_interpolation :
    IsNearest (value (a * (ofNat 1 - f)) + value (b * f)) (a * (ofNat 1 - f) + b * f) :=
  isNearest_add (hf.complement.isFinite_mul ha) (hf.isFinite_mul hb)

theorem isNear_interpolation (hab : a ≤ b) : IsNear a b (a * (ofNat 1 - f) + b * f) := by
  have hp := isNearest_mul ha hf.complement.isFinite
  have hq := isNearest_mul hb hf.isFinite
  have hx := isNearest_interpolation ha hb hf
  rw [le_iff (isFinite_iff.1 ha).1 (isFinite_iff.1 hb).1] at hab
  refine ⟨hx.isNumber, fun y hlt => ?_, fun y hlt => ?_⟩
  · obtain ⟨hbnum, hy⟩ := not_isNaN_of_lt hlt
    rw [lt_iff hbnum hy] at hlt
    exact (le_iff hx.isNumber hy).2 (interpolated_le hf.weights hb hx hy hab hp hq hlt)
  · obtain ⟨hy, hanum⟩ := not_isNaN_of_lt hlt
    rw [lt_iff hy hanum] at hlt
    exact (le_iff hy hx.isNumber).2 (le_interpolated hf.weights ha hx hy hab hp hq hlt)

theorem interpolation_between (hneg : a ≤ ofNat 0) (hpos : ofNat 0 ≤ b) :
    a ≤ a * (ofNat 1 - f) + b * f ∧ a * (ofNat 1 - f) + b * f ≤ b := by
  -- Nothing is missed between numbers of opposite signs, where each of the products lies on its
  -- own side of zero.
  have hp := isNearest_mul ha hf.complement.isFinite
  have hq := isNearest_mul hb hf.isFinite
  have hx := isNearest_interpolation ha hb hf
  obtain ⟨hanum, -⟩ := isFinite_iff.1 ha
  obtain ⟨hbnum, -⟩ := isFinite_iff.1 hb
  obtain ⟨hzero, hvalue⟩ := hasValue_zero
  rw [le_iff hanum hzero, hvalue] at hneg
  rw [le_iff hzero hbnum, hvalue] at hpos
  rw [le_iff hanum hx.isNumber, le_iff hx.isNumber hbnum]
  have hle : value (a * (ofNat 1 - f)) ≤ 0 := by
    rw [← hvalue]
    exact hp.value_le hzero (hvalue ▸ mul_nonpos_of_nonpos_of_nonneg hneg hf.complement.nonneg)
  have hge : value a ≤ value (a * (ofNat 1 - f)) :=
    hp.le_value hanum (le_mul_of_le_one_right hneg hf.complement.le_one)
  have hge' : 0 ≤ value (b * f) := by
    rw [← hvalue]
    exact hq.le_value hzero (hvalue ▸ mul_nonneg hpos hf.nonneg)
  have hle' : value (b * f) ≤ value b := hq.value_le hbnum (mul_le_of_le_one_right hpos hf.le_one)
  exact ⟨hx.le_value hanum (by linarith), hx.value_le hbnum (by linarith)⟩

end

end Rollup.Double
