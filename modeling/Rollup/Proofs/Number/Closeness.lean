import Rollup.Proofs.Number.Interpolation
import Rollup.Proofs.Number.Truncation

namespace Rollup

namespace Double

open Float.Model
open UnpackedFloat (Sign)

@[irreducible]
def spread : ℚ := 1 + 1 / 2 ^ 53

theorem spread_eq : spread = 1 + 1 / 2 ^ 53 := by unfold spread; rfl

theorem one_le_spread : 1 ≤ spread := by
  rw [spread_eq]
  norm_num

theorem spread_pow_pos (k : Nat) : 0 < spread ^ k := pow_pos (zero_lt_one.trans_le one_le_spread) k

/-- Neither number exceeds the other by more than `k` roundings. -/
structure Within (k : Nat) (a b : ℚ) : Prop where
  le : a ≤ b * spread ^ k
  ge : b ≤ a * spread ^ k

namespace Within

variable {k l : Nat} {a b c d : ℚ}

theorem of_eq (h : a = b) : Within 0 a b := by
  subst h
  constructor <;> rw [pow_zero, mul_one]

theorem trans (h : Within k a b) (h' : Within l b c) : Within (k + l) a c := by
  constructor
  · calc a ≤ b * spread ^ k := h.le
      _ ≤ c * spread ^ l * spread ^ k := mul_le_mul_of_nonneg_right h'.le (spread_pow_pos k).le
      _ = c * spread ^ (k + l) := by ring
  · calc c ≤ b * spread ^ l := h'.ge
      _ ≤ a * spread ^ k * spread ^ l := mul_le_mul_of_nonneg_right h.ge (spread_pow_pos l).le
      _ = a * spread ^ (k + l) := by ring

theorem mono (h : Within k a b) (ha : 0 ≤ a) (hb : 0 ≤ b) (hkl : k ≤ l) : Within l a b := by
  have hpow : spread ^ k ≤ spread ^ l := pow_le_pow_right₀ one_le_spread hkl
  exact ⟨h.le.trans (mul_le_mul_of_nonneg_left hpow hb),
    h.ge.trans (mul_le_mul_of_nonneg_left hpow ha)⟩

theorem add (h : Within k a b) (h' : Within k c d) : Within k (a + c) (b + d) :=
  ⟨by rw [add_mul]; exact add_le_add h.le h'.le, by rw [add_mul]; exact add_le_add h.ge h'.ge⟩

theorem mul_right (h : Within k a b) (hc : 0 ≤ c) : Within k (a * c) (b * c) := by
  constructor
  · rw [mul_right_comm]
    exact mul_le_mul_of_nonneg_right h.le hc
  · rw [mul_right_comm]
    exact mul_le_mul_of_nonneg_right h.ge hc

theorem mul_left (h : Within k a b) (hc : 0 ≤ c) : Within k (c * a) (c * b) := by
  rw [mul_comm c a, mul_comm c b]
  exact h.mul_right hc

theorem div_left (h : Within k a b) (ha : 0 < a) (hb : 0 < b) (hc : 0 ≤ c) :
    Within k (c / a) (c / b) := by
  constructor
  · rw [div_mul_eq_mul_div, div_le_div_iff₀ ha hb, mul_assoc, mul_comm (spread ^ k)]
    exact mul_le_mul_of_nonneg_left h.ge hc
  · rw [div_mul_eq_mul_div, div_le_div_iff₀ hb ha, mul_assoc, mul_comm (spread ^ k)]
    exact mul_le_mul_of_nonneg_left h.le hc

theorem abs_sub_le (h : Within k a b) (hb : 0 ≤ b) : |a - b| ≤ (spread ^ k - 1) * b := by
  have hone : 1 ≤ spread ^ k := one_le_pow₀ one_le_spread
  have hge := h.ge
  rw [abs_le, sub_one_mul]
  constructor
  · rcases le_total a b with hab | hba
    · have := mul_le_mul_of_nonneg_right hab (sub_nonneg.2 hone)
      linarith
    · have := le_mul_of_one_le_left hb hone
      linarith
  · have := h.le
    linarith

end Within

structure Moderate (i : Nat) (v : ℚ) : Prop where
  ge : 1 ≤ v * 10 ^ i
  le : v ≤ 10 ^ i

namespace Moderate

variable {i j : Nat} {v w : ℚ}

theorem pos (h : Moderate i v) : 0 < v :=
  pos_of_mul_pos_left (zero_lt_one.trans_le h.ge) (by positivity)

theorem of_nat {n : Nat} (hpos : 0 < n) (h : n ≤ 10 ^ i) : Moderate i n := by
  have hone : (1 : ℚ) ≤ n := by exact_mod_cast hpos
  exact ⟨one_le_mul_of_one_le_of_one_le hone (one_le_pow₀ (by norm_num)), by exact_mod_cast h⟩

theorem mul (hv : Moderate i v) (hw : Moderate j w) : Moderate (i + j) (v * w) := by
  have := hw.pos
  constructor
  · calc 1 ≤ v * 10 ^ i * (w * 10 ^ j) := one_le_mul_of_one_le_of_one_le hv.ge hw.ge
      _ = v * w * 10 ^ (i + j) := by ring
  · rw [pow_add]
    exact mul_le_mul hv.le hw.le hw.pos.le (by positivity)

theorem inv (h : Moderate i v) : Moderate i v⁻¹ := by
  have hpos := h.pos
  constructor
  · rw [inv_mul_eq_div, one_le_div hpos]
    exact h.le
  · rw [inv_le_iff_one_le_mul₀' hpos]
    exact h.ge

theorem div (hv : Moderate i v) (hw : Moderate j w) : Moderate (i + j) (v / w) := by
  rw [div_eq_mul_inv]
  exact hv.mul hw.inv

theorem add (hv : 0 ≤ v) (hle : v ≤ 10 ^ i) (hw : Moderate i w) : Moderate (i + 1) (v + w) := by
  have hpos := hw.pos
  have hge := hw.ge
  have hle' := hw.le
  rw [← mul_le_mul_iff_left₀ (by norm_num : (0 : ℚ) < 10)] at hle hle'
  constructor
  · rw [pow_succ]
    nlinarith
  · rw [pow_succ]
    linarith

theorem of_abs_sub_le (h : Moderate i v) (hw : |w - v| ≤ v / 2) : Moderate (i + 1) w := by
  obtain ⟨hge, hle⟩ := abs_le.1 hw
  have hpower : (0 : ℚ) < 10 ^ i := by positivity
  constructor
  · have hlarge := h.ge
    have hhalf : v / 2 * 10 ^ i ≤ w * 10 ^ i := mul_le_mul_of_nonneg_right (by linarith) hpower.le
    rw [pow_succ]
    linarith
  · have hsmall := h.le
    rw [pow_succ]
    linarith

theorem within (h : Moderate i v) (hw : Within 1 w v) : Moderate (i + 1) w := by
  have hfactor : spread ^ 1 - 1 ≤ 1 / 2 := by
    rw [spread_eq]
    norm_num
  have hfar := hw.abs_sub_le h.pos.le
  have hhalf := mul_le_mul_of_nonneg_right hfactor h.pos.le
  exact h.of_abs_sub_le (by linarith)

theorem le_zpow (h : v ≤ 10 ^ i) : v ≤ 2 ^ (4 * i : Int) := by
  calc v ≤ 10 ^ i := h
    _ ≤ (2 ^ 4) ^ i := by gcongr; norm_num
    _ = 2 ^ (4 * i : Int) := by rw [← pow_mul, ← zpow_natCast, Nat.cast_mul, Nat.cast_ofNat]

theorem zpow_le (h : Moderate i v) : 2 ^ (-4 * i : Int) ≤ v := by
  rw [neg_mul, zpow_neg, inv_le_comm₀ (two_zpow_pos _) h.pos]
  exact le_zpow h.inv.le

theorem exists_unit (h : Moderate i v) (hi : i ≤ 250) :
    ∃ e : Int, -1074 ≤ e ∧ e ≤ 971 ∧ 2 ^ 52 * 2 ^ e ≤ v ∧ v < 2 ^ 53 * 2 ^ e := by
  obtain ⟨e, hle, hlt⟩ := exists_mem_Ico_zpow h.pos (by norm_num : (1 : ℚ) < 2)
  have hupper := hle.trans (le_zpow h.le)
  have hlower := h.zpow_le.trans_lt hlt
  rw [zpow_le_zpow_iff_right₀ (by norm_num)] at hupper
  rw [zpow_lt_zpow_iff_right₀ (by norm_num)] at hlower
  refine ⟨e - 52, by omega, by omega, ?_, ?_⟩
  · rwa [two_pow_mul_zpow, Nat.cast_ofNat, add_sub_cancel]
  · have hexponent : ((53 : Nat) : Int) + (e - 52) = e + 1 := by omega
    rwa [two_pow_mul_zpow, hexponent]

end Moderate

theorem IsNearest.within {v : ℚ} {x : Float} {i : Nat} (h : IsNearest v x) (hv : Moderate i v)
    (hi : i ≤ 250) :
    Within 1 (value x) v := by
  obtain ⟨e, hleast, hmost, hge, hlt⟩ := hv.exists_unit hi
  have hu := two_zpow_pos e
  have habs : |v| ≤ 2 ^ 53 * 2 ^ e := by
    rw [abs_of_pos hv.pos]
    exact hlt.le
  have hupper := h.le_add le_rfl habs hleast hmost
  have hlower := h.sub_le le_rfl habs hleast hmost
  have hfirst : 2 ^ 52 * 2 ^ e ≤ value x := by
    rw [two_pow_mul_zpow, Nat.cast_ofNat] at hge ⊢
    obtain ⟨y, hy⟩ := exists_hasValue_two_zpow (k := 52 + e) (by omega) (by omega)
    exact h.ge_of_hasValue hy hge
  constructor <;> rw [pow_one, spread_eq] <;> linarith

theorem isFinite_of_le {x : Float} {i : Nat} (hx : x.isNaN = false) (hpos : 0 ≤ value x)
    (h : value x ≤ 10 ^ i) (hi : i ≤ 250) : x.isFinite = true := by
  rw [isFinite_iff, abs_of_nonneg hpos, limit_eq]
  exact ⟨hx, (Moderate.le_zpow h).trans_lt (zpow_lt_zpow_right₀ (by norm_num) (by omega))⟩

theorem IsNearest.moderate {v : ℚ} {x : Float} {i : Nat} (h : IsNearest v x) (hv : Moderate i v)
    (hi : i < 250) :
    x.isFinite = true ∧ Moderate (i + 1) (value x) := by
  have hmoderate := hv.within (h.within hv hi.le)
  exact ⟨isFinite_of_le h.isNumber hmoderate.pos.le hmoderate.le hi, hmoderate⟩

theorem isNearest_ofNat (n : Nat) : IsNearest n (ofNat n) := by
  have hnearest := isNearest_ofInt n
  rwa [Int.cast_natCast] at hnearest

theorem within_ofNat {n i : Nat} (h : n ≤ 10 ^ i) (hi : i ≤ 250) :
    Within 1 (value (ofNat n)) n := by
  rcases Nat.eq_zero_or_pos n with rfl | hpos
  · rw [hasValue_zero.value_eq, Nat.cast_zero]
    exact (Within.of_eq rfl).mono le_rfl le_rfl zero_le_one
  · exact (isNearest_ofNat n).within (.of_nat hpos h) hi

theorem isFinite_ofNat_of_le {n i : Nat} (h : n ≤ 10 ^ i) (hi : i < 250) :
    (ofNat n).isFinite = true ∧ value (ofNat n) ≤ 10 ^ (i + 1) := by
  rcases Nat.eq_zero_or_pos n with rfl | hpos
  · refine ⟨isFinite_ofNat (Nat.zero_le _), ?_⟩
    rw [hasValue_zero.value_eq]
    positivity
  · obtain ⟨hfinite, hmoderate⟩ := (isNearest_ofNat n).moderate (.of_nat hpos h) hi
    exact ⟨hfinite, hmoderate.le⟩

theorem floor_add_half (m k : Nat) :
    ⌊(m : ℚ) * 2 ^ Int.negSucc k + 1 / 2⌋ = ((m + 2 ^ k) / 2 ^ (k + 1) : Nat) := by
  have hquotient : (m : ℚ) * 2 ^ Int.negSucc k + 1 / 2 = ((m + 2 ^ k : Nat) : ℚ) /
      (2 ^ (k + 1) : Nat) := by
    rw [zpow_negSucc]
    push_cast
    rw [pow_succ]
    field_simp
  rw [hquotient, Rat.floor_natCast_div_natCast, Int.natCast_div]

theorem hasValue_round {x : Float} (hx : x.isFinite = true) (hpos : 0 ≤ value x) :
    HasValue (round x) ⌊value x + 1 / 2⌋ := by
  have hself {z : Int} (hz : value x = z) (hround : round x = x) :
      HasValue (round x) ⌊value x + 1 / 2⌋ := by
    have hfloor : ⌊(z : ℚ) + 1 / 2⌋ = z := by
      rw [Int.floor_intCast_add]
      norm_num
    rw [hround, hz, hfloor]
    exact ⟨(isFinite_iff.1 hx).1, hz⟩
  have hcanonical : IsCanonical x.toModel.unpack := isCanonical_unpack _
  change x.toModel.unpack.isFinite = true at hx
  change 0 ≤ valueOf x.toModel.unpack at hpos
  cases hunpack : x.toModel.unpack with
  | infinity | notANumber => rw [hunpack] at hx; cases hx
  | zero s =>
    refine hself (z := 0) ?_ (by rw [round, hunpack])
    rw [value, hunpack, valueOf_zero, Int.cast_zero]
  | finite s m e hm =>
    rw [hunpack] at hcanonical hpos
    obtain rfl := eq_positive_of_valueOf_nonneg hpos
    have hvalue : value x = m * 2 ^ e := by
      rw [value, hunpack, valueOf_finite, Sign.apply, Int.cast_one, one_mul]
    cases e with
    | ofNat k =>
      refine hself (z := m * 2 ^ k) ?_ (by rw [round, hunpack])
      rw [hvalue, Int.ofNat_eq_natCast, zpow_natCast]
      push_cast
      rfl
    | negSucc k =>
      have hround : round x = ofNat ((m + 2 ^ k) / 2 ^ (k + 1)) := by
        rw [round, hunpack]
        rfl
      have hsmall : (m + 2 ^ k) / 2 ^ (k + 1) ≤ m := by
        have hpower : 1 ≤ 2 ^ k := Nat.one_le_two_pow
        apply Nat.div_le_of_le_mul
        rw [pow_succ]
        nlinarith
      rw [hround, hvalue, floor_add_half, Int.cast_natCast]
      exact hasValue_ofNat (hsmall.trans hcanonical.lt.le)

end Double

end Rollup
