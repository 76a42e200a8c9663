import Rollup.BigDecimal
import Rollup.Proofs.Number.Closeness
import Rollup.Proofs.Number.Quotient

/-!
Decimals as doubles, and their integral parts.

On its way to a double a decimal goes through at most eight roundings, and so it ends less than one
part in `10 ^ 15` away (`BigDecimal.near_toDouble`). Its fraction can still be dropped if no other
integer is that near to it (`Clear.towardZero_eq`), as none is to a decimal of 15 digits
(`BigDecimal.clear`).
-/

namespace Rollup

open Double (ofNat Within Moderate spread isFinite_iff)

/-- At most one part in `10 ^ 15` away. -/
def Near (u v : ℚ) : Prop := |u - v| ≤ |v| / 10 ^ 15

/-- The number is near to no other integer. -/
def Clear (v : ℚ) : Prop := ∀ z : Int, Near z v → v = z

theorem Near.refl (v : ℚ) : Near v v := by
  rw [Near, sub_self, abs_zero]
  positivity

theorem Near.neg {u v : ℚ} (h : Near u v) : Near (-u) (-v) := by
  unfold Near at h ⊢
  rwa [abs_neg, ← neg_sub', abs_neg]

theorem Clear.neg {v : ℚ} (h : Clear v) : Clear (-v) := by
  intro z hz
  have hopposite := hz.neg
  rw [neg_neg, ← Int.cast_neg] at hopposite
  rw [h (-z) hopposite, Int.cast_neg, neg_neg]

theorem abs_towardZero (q : ℚ) : |towardZero q| = ⌊|q|⌋ := by
  have hnonneg {q : ℚ} (hq : 0 ≤ q) : |towardZero q| = ⌊|q|⌋ := by
    rw [towardZero, if_pos hq, abs_of_nonneg hq, abs_of_nonneg (Int.floor_nonneg.2 hq)]
  rcases le_total 0 q with hq | hq
  · exact hnonneg hq
  · rw [← neg_neg q, towardZero_neg, abs_neg, abs_neg]
    exact hnonneg (neg_nonneg.2 hq)

section

variable {u v : ℚ} (hnear : Near u v)

include hnear

theorem floor_eq_of_clear (hclear : Clear v) (hfraction : ∀ z : Int, v ≠ z) : ⌊u⌋ = ⌊v⌋ := by
  have hfar (z : Int) : |v| / 10 ^ 15 < |z - v| := not_le.1 fun h => hfraction z (hclear z h)
  have hlower := hfar ⌊v⌋
  have hupper := hfar (⌊v⌋ + 1)
  have hfloor := Int.floor_le v
  have hfloor' := Int.lt_floor_add_one v
  rw [abs_of_nonpos (sub_nonpos.2 hfloor)] at hlower
  rw [Int.cast_add, Int.cast_one, abs_of_pos (sub_pos.2 hfloor')] at hupper
  obtain ⟨hge, hle⟩ := abs_le.1 hnear
  rw [Int.floor_eq_iff]
  constructor <;> linarith

theorem Near.nonneg (hpos : 0 ≤ v) : 0 ≤ u := by
  rw [Near, abs_of_nonneg hpos] at hnear
  obtain ⟨hge, -⟩ := abs_le.1 hnear
  linarith

theorem Clear.towardZero_eq (hclear : Clear v) (hfraction : ∀ z : Int, v ≠ z) :
    towardZero u = towardZero v := by
  have hnonneg {u v : ℚ} (hnear : Near u v) (hclear : Clear v) (hfraction : ∀ z : Int, v ≠ z)
    (hpos : 0 ≤ v) :
      towardZero u = towardZero v := by
    rw [towardZero, towardZero, if_pos hpos, if_pos (hnear.nonneg hpos)]
    exact floor_eq_of_clear hnear hclear hfraction
  rcases le_total 0 v with hpos | hneg
  · exact hnonneg hnear hclear hfraction hpos
  · have hopposite := hnonneg hnear.neg hclear.neg
      (fun z heq => hfraction (-z) (by rw [Int.cast_neg, ← heq, neg_neg])) (neg_nonneg.2 hneg)
    rwa [towardZero_neg, towardZero_neg, neg_inj] at hopposite

theorem Near.abs_towardZero_sub_le (hsmall : |v| < 10 ^ 15) :
    |towardZero u - towardZero v| ≤ 1 := by
  have hnonneg {u v : ℚ} (hnear : Near u v) (hsmall : |v| < 10 ^ 15) (hpos : 0 ≤ v) :
      |towardZero u - towardZero v| ≤ 1 := by
    rw [towardZero, towardZero, if_pos hpos, if_pos (hnear.nonneg hpos)]
    obtain ⟨hge, hle⟩ := abs_le.1 hnear
    have hupper : (⌊u⌋ : ℚ) < ⌊v⌋ + 2 := by linarith [Int.floor_le u, Int.lt_floor_add_one v]
    have hlower : (⌊v⌋ : ℚ) < ⌊u⌋ + 2 := by linarith [Int.floor_le v, Int.lt_floor_add_one u]
    have hupper : ⌊u⌋ < ⌊v⌋ + 2 := by exact_mod_cast hupper
    have hlower : ⌊v⌋ < ⌊u⌋ + 2 := by exact_mod_cast hlower
    exact abs_le.2 ⟨by omega, by omega⟩
  rcases le_total 0 v with hpos | hneg
  · exact hnonneg hnear hsmall hpos
  · have hopposite := hnonneg hnear.neg (by rwa [abs_neg]) (neg_nonneg.2 hneg)
    rwa [towardZero_neg, towardZero_neg, ← neg_sub', abs_neg] at hopposite

theorem Near.lt_abs_towardZero (hlarge : 2 ^ 32 ≤ |v|) : 2 ^ 31 < |towardZero u| := by
  rw [abs_towardZero]
  have hsub := abs_sub_abs_le_abs_sub v u
  rw [abs_sub_comm] at hsub
  have hle : |u - v| ≤ |v| / 10 ^ 15 := hnear
  have hfloor := Int.lt_floor_add_one |u|
  have hlt : (2 ^ 31 : ℚ) < ⌊|u|⌋ := by linarith
  exact_mod_cast hlt

end

namespace BigDecimal

def value (d : BigDecimal) : ℚ := d.mantissa / 10 ^ d.scale

theorem within_scaled {k : Nat} {q r P f g p y z w : ℚ} (hf : Within k f q) (hg : Within k g r)
    (hp : Within 1 p P)
    (hy : Within 1 y (g / p)) (hz : Within 1 z (f + y)) (hw : Within 1 w (z * p))
    (hq : 0 ≤ q) (hpos : 0 < p) :
    Within (k + 3) w (q * P + r) := by
  -- The fraction is scaled up again before it is rounded, so its division counts once only.
  have hwhole : Within (k + 1) (f * p) (q * P) := (hf.mul_right hpos.le).trans (hp.mul_left hq)
  have hfraction : Within (k + 1) (y * p) r := by
    have hscaled := hy.mul_right hpos.le
    rw [div_mul_cancel₀ g hpos.ne'] at hscaled
    rw [add_comm]
    exact hscaled.trans hg
  have hsum : Within 1 (z * p) (f * p + y * p) := by
    rw [← add_mul]
    exact hz.mul_right hpos.le
  have hall := hw.trans (hsum.trans (hwhole.add hfraction))
  have hcount : 1 + (1 + (k + 1)) = k + 3 := by omega
  rwa [hcount] at hall

theorem abs_value_round_sub_le {x : Float} {n : Nat} (hx : x.isFinite = true)
    (hpos : 0 ≤ Double.value x)
    (h : Within 4 (Double.value x) n) (hsmall : n ≤ 2 ^ 53 → Within 3 (Double.value x) n) :
    |Double.value (Double.round x) - n| ≤ 2 * (spread ^ 3 - 1) * n := by
  -- Up to `2 ^ 53` the nearest integer is no farther from the double than `n` is, and beyond it
  -- is the double itself.
  have hn : (0 : ℚ) ≤ n := n.cast_nonneg
  rw [(Double.hasValue_round hx hpos).value_eq]
  rcases le_or_gt n (2 ^ 53) with hle | hgt
  · have hfar := (hsmall hle).abs_sub_le hn
    have hnearest := round_le (Double.value x) n
    have htriangle := abs_sub_le (⌊Double.value x + 1 / 2⌋ : ℚ) (Double.value x) n
    rw [round_eq, Int.cast_natCast, abs_sub_comm] at hnearest
    linarith
  · have hfour : spread ^ 4 ≤ 2 := by
      rw [Double.spread_eq]
      norm_num
    have hlarge : 2 ^ 52 * 2 ^ (0 : Int) ≤ |Double.value x| := by
      have hgt : (2 ^ 53 : ℚ) < n := by exact_mod_cast hgt
      have hle := h.ge.trans (mul_le_mul_of_nonneg_left hfour hpos)
      rw [zpow_zero, mul_one, abs_of_nonneg hpos]
      linarith
    obtain ⟨z, hz⟩ := Double.isMultiple_value (.inr hlarge)
    rw [zpow_zero, mul_one] at hz
    have hfloor : ⌊Double.value x + 1 / 2⌋ = z := by
      rw [hz, Int.floor_intCast_add]
      norm_num
    have hfar := h.abs_sub_le hn
    have hfactor : spread ^ 4 - 1 ≤ 2 * (spread ^ 3 - 1) := by
      rw [Double.spread_eq]
      norm_num
    rw [hfloor, ← hz]
    exact hfar.trans (mul_le_mul_of_nonneg_right hfactor hn)

theorem near_quotient {u v n P : ℚ} (hu : Within 2 u (v / P))
    (hround : |v - n| ≤ 2 * (spread ^ 3 - 1) * n)
    (hv : 0 ≤ v) (hn : 0 ≤ n) (hP : 0 < P) : Near u (n / P) := by
  have hnP : 0 ≤ n / P := div_nonneg hn hP.le
  rw [Near, abs_of_nonneg hnP]
  have hquotient := hu.abs_sub_le (div_nonneg hv hP.le)
  have hround : |v / P - n / P| ≤ 2 * (spread ^ 3 - 1) * (n / P) := by
    rw [← sub_div, abs_div, abs_of_pos hP, ← mul_div_assoc]
    exact div_le_div_of_nonneg_right hround hP.le
  have hle := (abs_le.1 hround).2
  have htriangle := abs_sub_le u (v / P) (n / P)
  rw [Double.spread_eq] at hquotient hround hle
  norm_num at hquotient hround hle ⊢
  linarith

def scaled (n P : Nat) : Float := (ofNat (n / P) + ofNat (n % P) / ofNat P) * ofNat P

section

variable {n P : Nat} (hn : n ≤ 10 ^ 29) (hP' : P ≤ 10 ^ 28) (hrest : n % P ≠ 0)

include hn hP' hrest

theorem scaled_spec (hP : 0 < P) {k : Nat}
    (hwhole : Within k (Double.value (ofNat (n / P))) (n / P : Nat))
    (hfraction : Within k (Double.value (ofNat (n % P))) (n % P : Nat)) :
    (scaled n P).isFinite = true ∧ Moderate 91 (Double.value (scaled n P)) ∧
      Within (k + 3) (Double.value (scaled n P)) n := by
  unfold scaled
  have hquotient : n / P ≤ 10 ^ 29 := (Nat.div_le_self _ _).trans hn
  have hremainder : n % P ≤ 10 ^ 28 := (Nat.mod_lt _ hP).le.trans hP'
  have hsplit : ((n / P : Nat) : ℚ) * P + (n % P : Nat) = n := by
    exact_mod_cast Nat.div_add_mod' n P
  generalize n / P = q at *
  generalize n % P = r at *
  obtain ⟨hq, hle⟩ := Double.isFinite_ofNat_of_le hquotient (by norm_num)
  obtain ⟨hr, hr'⟩ := (Double.isNearest_ofNat r).moderate
    (.of_nat (Nat.pos_of_ne_zero hrest) hremainder) (by norm_num)
  obtain ⟨hp, hp'⟩ := (Double.isNearest_ofNat P).moderate (.of_nat hP hP') (by norm_num)
  have hy := Double.isNearest_div hr hp hp'.pos.ne'
  have hysize := hr'.div hp'
  obtain ⟨hy', hysize'⟩ := hy.moderate hysize (by norm_num)
  have hz := Double.isNearest_add hq hy'
  have hzsize := Moderate.add ((Double.isNearest_ofNat q).nonneg q.cast_nonneg)
    (hle.trans (by norm_num)) hysize'
  obtain ⟨hz', hzsize'⟩ := hz.moderate hzsize (by norm_num)
  have hw := Double.isNearest_mul hz' hp
  have hwsize := hzsize'.mul hp'
  obtain ⟨hw', hwsize'⟩ := hw.moderate hwsize (by norm_num)
  have hwithin := within_scaled hwhole hfraction (Double.within_ofNat hP' (by norm_num))
    (hy.within hysize (by norm_num)) (hz.within hzsize (by norm_num))
      (hw.within hwsize (by norm_num)) q.cast_nonneg
    hp'.pos
  rw [hsplit] at hwithin
  exact ⟨hw', hwsize', hwithin⟩

theorem round_scaled_spec (hP : 0 < P) :
    (Double.round (scaled n P)).isNaN = false ∧
      |Double.value (Double.round (scaled n P)) - n| ≤ 2 * (spread ^ 3 - 1) * n := by
  obtain ⟨hw, hwsize, hwithin⟩ := scaled_spec hn hP' hrest hP
    (Double.within_ofNat ((Nat.div_le_self _ _).trans hn) (by norm_num))
    (Double.within_ofNat ((Nat.mod_le _ _).trans hn) (by norm_num))
  -- Both parts of a number up to `2 ^ 53` are doubles, which is one rounding less.
  have hsmall (hle : n ≤ 2 ^ 53) := scaled_spec hn hP' hrest hP
    (.of_eq (Double.hasValue_ofNat ((Nat.div_le_self _ _).trans hle)).value_eq)
    (.of_eq (Double.hasValue_ofNat ((Nat.mod_le _ _).trans hle)).value_eq)
  exact ⟨(Double.hasValue_round hw hwsize.pos.le).isNumber,
    abs_value_round_sub_le hw hwsize.pos.le hwithin fun hle => (hsmall hle).2.2⟩

end

theorem near_value_div {n P : Nat} (hn : n ≤ 10 ^ 29) (hpos : 0 < n) (hP : 0 < P)
    (hP' : P ≤ 10 ^ 28) {v : Float}
    (hnumber : v.isNaN = false) (hround : |Double.value v - n| ≤ 2 * (spread ^ 3 - 1) * n) :
    (v / ofNat P).isFinite = true ∧ Near (Double.value (v / ofNat P)) (n / P) := by
  have hvsize : Moderate 30 (Double.value v) := by
    have hfactor : 2 * (spread ^ 3 - 1) ≤ 1 / 2 := by
      rw [Double.spread_eq]
      norm_num
    have hhalf := mul_le_mul_of_nonneg_right hfactor (n.cast_nonneg : (0 : ℚ) ≤ n)
    exact (Moderate.of_nat hpos hn).of_abs_sub_le (by linarith)
  have hv := Double.isFinite_of_le hnumber hvsize.pos.le hvsize.le (by norm_num)
  obtain ⟨hp, hp'⟩ := (Double.isNearest_ofNat P).moderate (.of_nat hP hP') (by norm_num)
  have hu := Double.isNearest_div hv hp hp'.pos.ne'
  have husize := hvsize.div hp'
  obtain ⟨hu', -⟩ := hu.moderate husize (by norm_num)
  have hdivisor := (Double.within_ofNat hP' (by norm_num)).div_left hp'.pos
    (Nat.cast_pos.2 hP) hvsize.pos.le
  have hwithin := (hu.within husize (by norm_num)).trans hdivisor
  exact ⟨hu', near_quotient hwithin hround hvsize.pos.le n.cast_nonneg (Nat.cast_pos.2 hP)⟩

section

variable (d : BigDecimal)

def magnitude : ℚ := d.mantissa.natAbs / 10 ^ d.scale

theorem magnitude_nonneg : 0 ≤ d.magnitude := by
  unfold magnitude
  positivity

theorem magnitude_of_whole (h : d.mantissa.natAbs % 10 ^ d.scale = 0) :
    d.magnitude = (d.mantissa.natAbs / 10 ^ d.scale : Nat) := by
  rw [magnitude, Nat.cast_div (Nat.dvd_of_mod_eq_zero h) (by positivity)]
  push_cast
  rfl

theorem toDoubleAbs_of_whole (h : d.mantissa.natAbs % 10 ^ d.scale = 0) :
    d.toDoubleAbs = ofNat (d.mantissa.natAbs / 10 ^ d.scale) :=
  if_pos h

theorem toDoubleAbs_of_fraction (h : d.mantissa.natAbs % 10 ^ d.scale ≠ 0) :
    d.toDoubleAbs = Double.round (scaled d.mantissa.natAbs (10 ^ d.scale)) / ofNat (10 ^ d.scale) :=
  if_neg h

theorem natAbs_le : d.mantissa.natAbs ≤ 10 ^ 29 := d.mantissa_lt.le.trans (by norm_num)

theorem toDoubleAbs_spec :
    d.toDoubleAbs.isFinite = true ∧ Near (Double.value d.toDoubleAbs) d.magnitude := by
  by_cases h : d.mantissa.natAbs % 10 ^ d.scale = 0
  · have hwhole : d.mantissa.natAbs / 10 ^ d.scale ≤ 10 ^ 29 :=
      (Nat.div_le_self _ _).trans d.natAbs_le
    have hfar := (Double.within_ofNat hwhole (by norm_num)).abs_sub_le (Nat.cast_nonneg _)
    rw [d.toDoubleAbs_of_whole h, d.magnitude_of_whole h, Near, Nat.abs_cast]
    refine ⟨(Double.isFinite_ofNat_of_le hwhole (by norm_num)).1, hfar.trans ?_⟩
    rw [div_eq_inv_mul, Double.spread_eq]
    exact mul_le_mul_of_nonneg_right (by norm_num) (Nat.cast_nonneg _)
  · have hpower : 0 < 10 ^ d.scale := by positivity
    have hpower' : 10 ^ d.scale ≤ 10 ^ 28 := Nat.pow_le_pow_right (by norm_num) d.scale_le
    have hpos : 0 < d.mantissa.natAbs := Nat.pos_of_ne_zero fun hzero =>
      h (by rw [hzero, Nat.zero_mod])
    obtain ⟨hnumber, hround⟩ := round_scaled_spec d.natAbs_le hpower' h hpower
    have hquotient := near_value_div d.natAbs_le hpos hpower hpower' hnumber hround
    rw [Nat.cast_pow, Nat.cast_ofNat] at hquotient
    rw [d.toDoubleAbs_of_fraction h]
    exact hquotient

theorem value_of_neg (h : d.mantissa < 0) : d.value = -d.magnitude := by
  rw [value, magnitude, Nat.cast_natAbs, abs_of_neg h, Int.cast_neg, neg_div, neg_neg]

theorem value_of_nonneg (h : 0 ≤ d.mantissa) : d.value = d.magnitude := by
  rw [value, magnitude, Nat.cast_natAbs, abs_of_nonneg h]

theorem abs_value : |d.value| = d.magnitude := by
  rcases lt_or_ge d.mantissa 0 with hneg | hpos
  · rw [d.value_of_neg hneg, abs_neg, abs_of_nonneg d.magnitude_nonneg]
  · rw [d.value_of_nonneg hpos, abs_of_nonneg d.magnitude_nonneg]

theorem isFinite_toDouble : d.toDouble.isFinite = true := by
  have hfinite := d.toDoubleAbs_spec.1
  unfold toDouble
  split
  · obtain ⟨hnumber, hlimit⟩ := isFinite_iff.1 hfinite
    obtain ⟨hnumber', hvalue⟩ := Double.hasValue_neg hnumber
    rw [isFinite_iff, hvalue, abs_neg]
    exact ⟨hnumber', hlimit⟩
  · exact hfinite

theorem value_toDouble : Double.value d.toDouble =
    if d.mantissa < 0 then -Double.value d.toDoubleAbs else Double.value d.toDoubleAbs := by
  unfold toDouble
  split
  · exact (Double.hasValue_neg (isFinite_iff.1 d.toDoubleAbs_spec.1).1).value_eq
  · rfl

theorem near_toDouble : Near (Double.value d.toDouble) d.value := by
  have hnear := d.toDoubleAbs_spec.2
  rcases lt_or_ge d.mantissa 0 with hneg | hpos
  · rw [value_toDouble, if_pos hneg, d.value_of_neg hneg]
    exact hnear.neg
  · rw [value_toDouble, if_neg hpos.not_gt, d.value_of_nonneg hpos]
    exact hnear

end

section

variable {d : BigDecimal}

theorem value_toDouble_of_int {z : Int} (h : d.value = z) (hz : |z| ≤ 2 ^ 53) :
    Double.value d.toDouble = z := by
  have hpower : 0 < 10 ^ d.scale := by positivity
  have hmantissa : d.mantissa = z * (10 ^ d.scale : Nat) := by
    rw [value, div_eq_iff (by positivity)] at h
    exact_mod_cast h
  have habs : d.mantissa.natAbs = z.natAbs * 10 ^ d.scale := by
    rw [hmantissa, Int.natAbs_mul, Int.natAbs_natCast]
  have hwhole : d.mantissa.natAbs % 10 ^ d.scale = 0 := by rw [habs, Nat.mul_mod_left]
  have hquotient : d.mantissa.natAbs / 10 ^ d.scale = z.natAbs := by
    rw [habs, Nat.mul_div_cancel _ hpower]
  have hexact : Double.value d.toDoubleAbs = d.magnitude := by
    have hbounds := abs_le.1 hz
    rw [d.toDoubleAbs_of_whole hwhole, d.magnitude_of_whole hwhole, hquotient]
    exact (Double.hasValue_ofNat (by omega)).value_eq
  rw [← h, value_toDouble, hexact]
  rcases lt_or_ge d.mantissa 0 with hneg | hpos
  · rw [if_pos hneg, d.value_of_neg hneg]
  · rw [if_neg hpos.not_gt, d.value_of_nonneg hpos]

theorem clear (h : d.mantissa.natAbs < 10 ^ 15) : Clear d.value := by
  intro z
  contrapose!
  intro hne
  have hpower : (0 : ℚ) < 10 ^ d.scale := by positivity
  have hplace : (1 : ℚ) ≤ |(z * 10 ^ d.scale - d.mantissa : Int)| := by
    refine mod_cast Int.one_le_abs (sub_ne_zero.2 fun heq => hne ?_)
    rw [value, ← heq]
    push_cast
    exact mul_div_cancel_right₀ _ hpower.ne'
  have hdistance : |z - d.value| * 10 ^ d.scale = |(z * 10 ^ d.scale - d.mantissa : Int)| := by
    calc |z - d.value| * 10 ^ d.scale
      _ = |(z - d.value) * 10 ^ d.scale| := by rw [abs_mul, abs_of_pos hpower]
      _ = |(z * 10 ^ d.scale - d.mantissa : Int)| := by
        rw [sub_mul, value, div_mul_cancel₀ _ hpower.ne']
        push_cast
        rfl
  have hsmall : (d.mantissa.natAbs : ℚ) < 10 ^ 15 := by exact_mod_cast h
  rw [Near, not_le, d.abs_value, magnitude, div_div, div_lt_iff₀ (by positivity), ← mul_assoc,
    hdistance]
  linarith

end

end BigDecimal

end Rollup
