import Rollup.Proofs.Number.Interpolation
import Rollup.Proofs.Number.Quotient

namespace Rollup.Double

open Float.Model UnpackedFloat

def rootAccuracy (n : Nat) : Accuracy :=
  if n - n.sqrt * n.sqrt = 0 then .exact
    else .inexact (if n - n.sqrt * n.sqrt ≤ n.sqrt then .lt else .gt)

section

variable {n z : Nat}

theorem half_le_sqrt_iff : 2 * z ≤ 4 * n.sqrt + quarters (rootAccuracy n) ↔ z * z ≤ 4 * n := by
  have hlower : n.sqrt * n.sqrt ≤ n := n.sqrt_le
  have hupper : n < (n.sqrt + 1) * (n.sqrt + 1) := n.lt_succ_sqrt
  unfold rootAccuracy
  generalize n.sqrt = r at *
  split_ifs with hexact hless <;> simp only [quarters]
  · have hle : z ≤ 2 * r ↔ z * z ≤ 4 * n := by
      have : n = r * r := by omega
      constructor <;> intro <;> nlinarith
    omega
  · have hle : z ≤ 2 * r ↔ z * z ≤ 4 * n := by
      have : n ≤ r * r + r := by omega
      constructor <;> intro <;> nlinarith
    omega
  · have hle : z ≤ 2 * r + 1 ↔ z * z ≤ 4 * n := by
      have : r * r + r < n := by omega
      constructor <;> intro <;> nlinarith
    omega

theorem sqrt_le_half_iff : 4 * n.sqrt + quarters (rootAccuracy n) ≤ 2 * z ↔ 4 * n ≤ z * z := by
  have hlower : n.sqrt * n.sqrt ≤ n := n.sqrt_le
  have hupper : n < (n.sqrt + 1) * (n.sqrt + 1) := n.lt_succ_sqrt
  unfold rootAccuracy
  generalize n.sqrt = r at *
  split_ifs with hexact hless <;> simp only [quarters]
  · have hle : 2 * r ≤ z ↔ 4 * n ≤ z * z := by
      have : n = r * r := by omega
      constructor <;> intro <;> nlinarith
    omega
  · have hle : 2 * r + 1 ≤ z ↔ 4 * n ≤ z * z := by
      have : r * r < n := by omega
      have : n ≤ r * r + r := by omega
      constructor <;> intro <;> nlinarith
    omega
  · have hle : 2 * r + 2 ≤ z ↔ 4 * n ≤ z * z := by
      have : r * r + r < n := by omega
      constructor <;> intro <;> nlinarith
    omega

end

/-- A number in the place of a root: where the root has 53 digits, no half of a unit lies between
them. -/
structure IsRoot (a v : ℚ) : Prop where
  least : 2 ^ (-1074 : Int) ≤ v
  le_iff : ∀ {e : Int} {b : ℚ}, a < (2 ^ 53 * 2 ^ e) ^ 2 → IsMultiple (e - 1) b →
    0 ≤ b → (b ≤ v ↔ b ^ 2 ≤ a)
  ge_iff : ∀ {e : Int} {b : ℚ}, a < (2 ^ 53 * 2 ^ e) ^ 2 → IsMultiple (e - 1) b →
    0 ≤ b → (v ≤ b ↔ a ≤ b ^ 2)

theorem two_zpow_sq (e : Int) : ((2 : ℚ) ^ e) ^ 2 = 2 ^ (2 * e) := by
  rw [← zpow_natCast, ← zpow_mul, mul_comm]
  rfl

section

variable {n : Nat} {t : Int} (hn : 2 ^ 104 ≤ n) (ht : -1074 ≤ t)

include hn ht

theorem isRoot_quarters :
    IsRoot (n * 2 ^ (2 * t)) ((4 * n.sqrt + quarters (rootAccuracy n) : Nat) * 2 ^ (t - 2)) := by
  have hexponent {e : Int} (h : (n : ℚ) * 2 ^ (2 * t) < (2 ^ 53 * 2 ^ e) ^ 2) : t ≤ e := by
    by_contra hlt
    have hfull : (2 : ℚ) ^ 104 ≤ n := mod_cast hn
    have hpow : (2 : ℚ) ^ (2 * (e + 1)) ≤ 2 ^ (2 * t) := zpow_le_zpow_right₀ one_le_two (by omega)
    refine absurd h (not_lt.2 ?_)
    calc ((2 : ℚ) ^ 53 * 2 ^ e) ^ 2 = 2 ^ 104 * 2 ^ (2 * (e + 1)) := by
          rw [mul_pow, two_zpow_sq, show 2 * (e + 1) = 2 + 2 * e by omega, two_zpow_add]
          ring
      _ ≤ (n : ℚ) * 2 ^ (2 * t) := mul_le_mul hfull hpow (two_zpow_pos _).le (Nat.cast_nonneg n)
  have hhalf {e : Int} {b : ℚ} (he : t ≤ e) (hb : IsMultiple (e - 1) b) (hpos : 0 ≤ b) :
      ∃ z : Nat, b = (2 * z : Nat) * 2 ^ (t - 2) ∧ b ^ 2 * 4 = (z * z : Nat) * 2 ^ (2 * t) := by
    obtain ⟨w, rfl⟩ := hb.mono (show t - 1 ≤ e - 1 by omega)
    have hw : (0 : ℚ) ≤ w := le_of_mul_le_mul_right (by rwa [zero_mul]) (two_zpow_pos (t - 1))
    obtain ⟨z, rfl⟩ := Int.eq_ofNat_of_zero_le (a := w) (by exact_mod_cast hw)
    have hquarter : (2 : ℚ) ^ (2 * t) = (2 * 2 ^ (t - 1)) ^ 2 := by
      rw [two_zpow_pred, mul_div_cancel₀ _ two_ne_zero, two_zpow_sq]
    refine ⟨z, ?_, ?_⟩
    · rw [two_zpow_double]
      push_cast
      ring
    · rw [hquarter]
      push_cast
      ring
  refine ⟨?_, fun {e b} ha hb hpos => ?_, fun {e b} ha hb hpos => ?_⟩
  · have hroot : 4 ≤ 4 * n.sqrt + quarters (rootAccuracy n) := by
      have : 2 ^ 52 ≤ n.sqrt := Nat.le_sqrt.2 hn
      omega
    calc (2 : ℚ) ^ (-1074 : Int) ≤ 2 ^ t := zpow_le_zpow_right₀ one_le_two ht
      _ = (4 : Nat) * 2 ^ (t - 2) := by
        rw [show t = 2 + (t - 2) by omega, two_zpow_add]
        norm_num
      _ ≤ _ := mul_le_mul_of_nonneg_right (mod_cast hroot) (two_zpow_pos _).le
  · obtain ⟨z, hz, hsq⟩ := hhalf (hexponent ha) hb hpos
    calc b ≤ _ ↔ 2 * z ≤ 4 * n.sqrt + quarters (rootAccuracy n) := by
          rw [hz, mul_le_mul_iff_left₀ (two_zpow_pos _), Nat.cast_le]
      _ ↔ z * z ≤ 4 * n := half_le_sqrt_iff
      _ ↔ ((z * z : Nat) : ℚ) * 2 ^ (2 * t) ≤ (4 * n : Nat) * 2 ^ (2 * t) := by
          rw [mul_le_mul_iff_left₀ (two_zpow_pos _), Nat.cast_le]
      _ ↔ b ^ 2 ≤ n * 2 ^ (2 * t) := by
          rw [← hsq]
          push_cast
          constructor <;> intro <;> linarith
  · obtain ⟨z, hz, hsq⟩ := hhalf (hexponent ha) hb hpos
    calc _ ≤ b ↔ 4 * n.sqrt + quarters (rootAccuracy n) ≤ 2 * z := by
          rw [hz, mul_le_mul_iff_left₀ (two_zpow_pos _), Nat.cast_le]
      _ ↔ 4 * n ≤ z * z := sqrt_le_half_iff
      _ ↔ ((4 * n : Nat) : ℚ) * 2 ^ (2 * t) ≤ (z * z : Nat) * 2 ^ (2 * t) := by
          rw [mul_le_mul_iff_left₀ (two_zpow_pos _), Nat.cast_le]
      _ ↔ n * 2 ^ (2 * t) ≤ b ^ 2 := by
          rw [← hsq]
          push_cast
          constructor <;> intro <;> linarith

end

theorem isNearest_sqrt {x : Float} (hx : x.isFinite = true) (hpos : 0 < value x) :
    ∃ v, IsRoot (value x) v ∧ IsNearest v x.sqrt := by
  have hcanonical : IsCanonical x.toModel.unpack := isCanonical_unpack _
  change ∃ v, _ ∧ IsNearest v (.ofModel (.pack (.sqrt .binary64 x.toModel.unpack)))
  change x.toModel.unpack.isFinite = true at hx
  unfold value at hpos ⊢
  generalize x.toModel.unpack = x at *
  cases x with
  | infinity | notANumber => cases hx
  | zero => exact absurd hpos (lt_irrefl _)
  | finite s m e hm =>
    obtain rfl := eq_positive_of_valueOf_nonneg hpos.le
    have hleast : -1074 ≤ e := hcanonical.least
    have htarget : Format.binary64.targetExponent ((totalExponent m e + 1).ediv 2) =
        Max.max (((m.log2 : Int) + 1 + e + 1).ediv 2 - 53) (-1074) := rfl
    simp only [UnpackedFloat.sqrt, sqrtCore, htarget]
    generalize ht : Min.min (e.ediv 2) _ = t
    have hediv (z : Int) : z.ediv 2 = z / 2 := rfl
    simp only [hediv] at ht
    have hshift := cast_shiftLeft m (e := e) (t := 2 * t) (by omega)
    have hlog := log2_shiftLeft hm (e - 2 * t).toNat
    have hfull : 2 ^ 104 ≤ m <<< (e - 2 * t).toNat :=
      (Nat.le_log2 (shiftLeft_pos hm _).ne').1 (by omega)
    generalize m <<< (e - 2 * t).toNat = n at *
    have hroot : 2 ^ 52 ≤ n.sqrt := Nat.le_sqrt.2 hfull
    have hnearest := isNearest_quarters (e := t) (.inr hroot)
      (show 0 < 4 * n.sqrt + quarters (rootAccuracy n) by omega) .positive
    rw [Sign.apply, Int.cast_one, one_mul] at hnearest
    refine ⟨_, ?_, hnearest⟩
    rw [valueOf_finite, Sign.apply, Int.cast_one, one_mul, ← hshift]
    exact isRoot_quarters hfull (by omega)

theorem isFinite_sqrt {x : Float} (hx : x.isFinite = true) (hpos : 0 < value x) :
    x.sqrt.isFinite = true ∧ 0 < value x.sqrt := by
  obtain ⟨v, hroot, hnearest⟩ := isNearest_sqrt hx hpos
  have hlimit := (abs_lt.1 (isFinite_iff.1 hx).2).2
  rw [limit_eq] at hlimit
  have hlower : 2 ^ (-1074 : Int) ≤ value x.sqrt := by
    obtain ⟨y, hy⟩ := exists_hasValue_two_zpow (k := -1074) le_rfl (by decide)
    exact hnearest.ge_of_hasValue hy hroot.least
  have hupper : value x.sqrt ≤ 2 ^ (512 : Int) := by
    obtain ⟨y, hy⟩ := exists_hasValue_two_zpow (k := 512) (by decide) (by decide)
    refine hnearest.le_of_hasValue hy ?_
    refine (hroot.ge_iff (e := 459) (hlimit.trans_le ?_) (isMultiple_zpow (by decide))
      (two_zpow_pos _).le).2 ?_
    · rw [mul_pow, two_zpow_sq, ← pow_mul, two_pow_mul_zpow]
      exact le_rfl
    · rw [two_zpow_sq]
      exact hlimit.le
  have hpos := (two_zpow_pos (-1074)).trans_le hlower
  refine ⟨isFinite_iff.2 ⟨hnearest.isNumber, ?_⟩, hpos⟩
  rw [abs_of_pos hpos, limit_eq]
  exact hupper.trans_lt (zpow_lt_zpow_right₀ one_lt_two (by decide))

section

variable {x : Float} {e : Int} (hx : x.isFinite = true) (hlower : -563 ≤ e) (hupper : e ≤ 459)
  (hfull : 2 ^ 52 * 2 ^ e ≤ value x) (hlt : value x < 2 ^ 53 * 2 ^ e)

include hx hlower hupper hfull

theorem le_mul_self : (2 ^ 52 * 2 ^ e) ^ 2 ≤ value (x * x) := by
  have hle : (2 ^ 52 * 2 ^ e) ^ 2 ≤ value x * value x := by
    rw [pow_two]
    exact mul_self_le_mul_self (by positivity) hfull
  rw [mul_pow, two_zpow_sq, ← pow_mul, two_pow_mul_zpow] at hle ⊢
  obtain ⟨y, hy⟩ := exists_hasValue_two_zpow (k := (52 * 2 : Nat) + 2 * e) (by omega) (by omega)
  exact (isNearest_mul hx hx).ge_of_hasValue hy hle

include hlt

theorem abs_mul_self_sub_le : |value (x * x) - value x * value x| ≤ 2 ^ 52 * 2 ^ (2 * e) := by
  have hnearest := isNearest_mul hx hx
  have hhalf : (2 : ℚ) ^ (53 + 2 * e) / 2 = 2 ^ 52 * 2 ^ (2 * e) := by
    rw [two_zpow_add]
    ring
  have hnonneg : 0 ≤ value x := (by positivity : (0 : ℚ) ≤ 2 ^ 52 * 2 ^ e).trans hfull
  have habs : |value x * value x| ≤ 2 ^ 53 * 2 ^ (53 + 2 * e) := by
    rw [abs_of_nonneg (mul_self_nonneg _)]
    calc value x * value x ≤ (2 ^ 53 * 2 ^ e) * (2 ^ 53 * 2 ^ e) :=
      mul_self_le_mul_self hnonneg hlt.le
      _ = 2 ^ 53 * 2 ^ (53 + 2 * e) := by
        rw [two_zpow_add, ← two_zpow_sq]
        ring
  have habove := hnearest.le_add le_rfl habs (by omega) (by omega)
  have hbelow := hnearest.sub_le le_rfl habs (by omega) (by omega)
  rw [hhalf] at habove hbelow
  exact abs_le.2 ⟨by linarith, by linarith⟩

theorem mul_self_lt : value (x * x) < (2 ^ 53 * 2 ^ e) ^ 2 := by
  obtain ⟨m, hm⟩ := isMultiple_value (x := x) (e := e) (.inr (hfull.trans (le_abs_self _)))
  have hround := abs_le.1 (abs_mul_self_sub_le hx hlower hupper hfull hlt)
  have hu := two_zpow_pos e
  rw [hm] at hfull hlt
  rw [hm, ← two_zpow_sq] at hround
  have hfull : (2 ^ 52 : ℚ) ≤ m := le_of_mul_le_mul_right hfull hu
  have hlt : (m : ℚ) ≤ 2 ^ 53 - 1 := by
    have : m < 2 ^ 53 := by exact_mod_cast lt_of_mul_lt_mul_right hlt hu.le
    exact_mod_cast Int.le_sub_one_of_lt this
  have := mul_lt_mul_of_pos_right (show (m : ℚ) ^ 2 + 2 ^ 52 < 2 ^ 106 by nlinarith) (pow_pos hu 2)
  linarith

theorem abs_sub_lt_of_isRoot {v : ℚ} (h : IsRoot (value (x * x)) v) :
    |v - value x| < 2 ^ e / 2 ∧ 2 ^ 52 * 2 ^ e ≤ v := by
  obtain ⟨m, hm⟩ := isMultiple_value (x := x) (e := e) (.inr (hfull.trans (le_abs_self _)))
  have hpower := le_mul_self hx hlower hupper hfull
  have hrange := mul_self_lt hx hlower hupper hfull hlt
  have hround := abs_le.1 (abs_mul_self_sub_le hx hlower hupper hfull hlt)
  have hu := two_zpow_pos e
  have hsq : (0 : ℚ) < (2 ^ e) ^ 2 := pow_pos hu 2
  have hhalf (z : Int) : IsMultiple (e - 1) ((z / 2 : ℚ) * 2 ^ e) :=
    ⟨z, by rw [two_zpow_pred]; ring⟩
  rw [← two_zpow_sq] at hround
  rw [hm] at hfull hround ⊢
  have hfull : (2 ^ 52 : ℚ) ≤ m := le_of_mul_le_mul_right hfull hu
  have hbelow : (((2 * m - 1 : Int) / 2 : ℚ) * 2 ^ e) ^ 2 < value (x * x) := by
    push_cast
    -- At a power of two the square is a double.
    rcases hfull.eq_or_lt with heq | hgt
    · have := mul_lt_mul_of_pos_right (show (m - 1 / 2 : ℚ) ^ 2 <
        (2 ^ 52) ^ 2 by rw [← heq]; norm_num) hsq
      linarith
    · have hgt : (2 ^ 52 + 1 : ℚ) ≤ m := by
        have : 2 ^ 52 < m := by exact_mod_cast hgt
        exact_mod_cast this
      have := mul_lt_mul_of_pos_right (show (m - 1 / 2 : ℚ) ^ 2 < m ^ 2 - 2 ^ 52 by nlinarith) hsq
      linarith
  have habove : value (x * x) < (((2 * m + 1 : Int) / 2 : ℚ) * 2 ^ e) ^ 2 := by
    have := mul_lt_mul_of_pos_right (show (m : ℚ) ^ 2 + 2 ^ 52 < (m + 1 / 2) ^ 2 by nlinarith) hsq
    push_cast
    linarith
  have hnonneg : (0 : ℚ) ≤ ((2 * m - 1 : Int) / 2 : ℚ) * 2 ^ e := by
    push_cast
    exact mul_nonneg (by linarith) hu.le
  have hnonneg' : (0 : ℚ) ≤ ((2 * m + 1 : Int) / 2 : ℚ) * 2 ^ e := by
    push_cast
    exact mul_nonneg (by linarith) hu.le
  have hlower := (lt_iff_lt_of_le_iff_le (h.ge_iff hrange (hhalf _) hnonneg)).2 hbelow
  have hupper := (lt_iff_lt_of_le_iff_le (h.le_iff hrange (hhalf _) hnonneg')).2 habove
  have hleast := (h.le_iff hrange ((isMultiple_zpow (show e - 1 ≤ e by omega)).mul_int (2 ^ 52))
    (by push_cast; positivity)).2 (by push_cast; exact hpower)
  push_cast at hlower hupper hleast
  exact ⟨abs_lt.2 ⟨by linarith, by linarith⟩, hleast⟩

theorem value_sqrt_mul_self_of_unit : value (x * x).sqrt = value x := by
  have hu := two_zpow_pos e
  have hpos : 0 < value (x * x) :=
    (by positivity : (0 : ℚ) < (2 ^ 52 * 2 ^ e) ^ 2).trans_le (le_mul_self hx hlower hupper hfull)
  have hfinite : (x * x).isFinite = true := by
    refine isFinite_iff.2 ⟨(isNearest_mul hx hx).isNumber, ?_⟩
    rw [abs_of_pos hpos]
    calc value (x * x) < (2 ^ 53 * 2 ^ e) ^ 2 := mul_self_lt hx hlower hupper hfull hlt
      _ ≤ (2 ^ 53 * 2 ^ (459 : Int)) ^ 2 := by gcongr; exact one_le_two
      _ = limit := by
        rw [mul_pow, two_zpow_sq, ← pow_mul, two_pow_mul_zpow, limit_eq]
        rfl
  obtain ⟨v, hroot, hnearest⟩ := isNearest_sqrt hfinite hpos
  obtain ⟨hnear, hleast⟩ := abs_sub_lt_of_isRoot hx hlower hupper hfull hlt hroot
  have hdist : |value (x * x).sqrt - value x| < 2 ^ e := by
    have hle := hnearest.le x (isFinite_iff.1 hx).1
    rw [abs_sub_comm] at hnear
    have := abs_sub_le (value (x * x).sqrt) v (value x)
    rw [abs_sub_comm v] at this
    linarith
  have hfull' : 2 ^ 52 * 2 ^ e ≤ value (x * x).sqrt := by
    obtain ⟨y, hy⟩ := exists_hasValue_two_zpow (k := (52 : Nat) + e) (by omega) (by omega)
    rw [two_pow_mul_zpow] at hleast ⊢
    exact hnearest.ge_of_hasValue hy hleast
  obtain ⟨m, hm⟩ := isMultiple_value (x := x) (e := e) (.inr (hfull.trans (le_abs_self _)))
  obtain ⟨m', hm'⟩ := isMultiple_value (x := (x * x).sqrt) (e := e)
    (.inr (hfull'.trans (le_abs_self _)))
  rw [hm, hm', ← sub_mul, abs_mul, abs_of_pos hu] at hdist
  have hone : |(m' - m : ℚ)| < 1 := lt_of_mul_lt_mul_right (by rwa [one_mul]) hu.le
  have hone : |m' - m| < 1 := by exact_mod_cast hone
  rw [hm, hm', sub_eq_zero.1 (Int.abs_lt_one_iff.1 hone)]

end

theorem value_sqrt_mul_self {x : Float} (hx : x.isFinite = true)
    (hlower : 2 ^ (-511 : Int) ≤ value x)
    (hupper : value x < 2 ^ (512 : Int)) : value (x * x).sqrt = value x := by
  obtain ⟨e, -, -, hlt, hfull⟩ := exists_unit hx
  have hpos := (two_zpow_pos (-511)).trans_le hlower
  rw [abs_of_pos hpos] at hlt hfull
  have hbelow : -563 ≤ e := by
    have hpow := hlower.trans_lt hlt
    rw [two_pow_mul_zpow, zpow_lt_zpow_iff_right₀ one_lt_two] at hpow
    omega
  have hfull := hfull.resolve_left (by omega)
  have habove : e ≤ 459 := by
    have hpow := hfull.trans_lt hupper
    rw [two_pow_mul_zpow, zpow_lt_zpow_iff_right₀ one_lt_two] at hpow
    omega
  exact value_sqrt_mul_self_of_unit hx hbelow habove hfull hlt

def HasSign (s : Sign) : UnpackedFloat → Prop
  | .zero s' | .finite s' _ _ _ => s' = s
  | _ => True

theorem hasSign_roundWithAccuracy (s : Sign) (m : Nat) (e : Int) (acc : Accuracy) :
    HasSign s (roundWithAccuracy .binary64 s m e acc) := by
  simp only [roundWithAccuracy]
  split <;> exact rfl

theorem hasSign_unpack_packComponents (s : Sign) (exponent : BitVec Format.binary64.exponentBits)
    (mantissa : BitVec Format.binary64.mantissaBitsWithoutImplicit) :
    HasSign s (UnpackedFloat.unpack .binary64 (packComponents .binary64 s exponent mantissa)) := by
  simp only [UnpackedFloat.unpack, ofBitVec_unpackSign]
  split_ifs <;> first | exact rfl | trivial

theorem hasSign_unpack_pack {s : Sign} {x : UnpackedFloat} (hx : x.isFinite = true)
    (h : HasSign s x) :
    HasSign s (Float.Model.pack x).unpack := by
  change HasSign s (UnpackedFloat.unpack .binary64 (UnpackedFloat.pack .binary64 x))
  cases x with
  | infinity | notANumber => cases hx
  | zero s' =>
    obtain rfl := h
    exact hasSign_unpack_packComponents _ _ _
  | finite s' m e hm =>
    obtain rfl := h
    simp only [UnpackedFloat.pack]
    split_ifs <;> exact hasSign_unpack_packComponents _ _ _

theorem hasSign_mul_self (x : UnpackedFloat) :
    HasSign .positive (UnpackedFloat.mul .binary64 x x) := by
  have hsign (s : Sign) : s * s = .positive := by cases s <;> rfl
  cases x with
  | infinity | notANumber => trivial
  | zero s => exact hsign s
  | finite s m e hm =>
    simp only [UnpackedFloat.mul, hsign]
    exact hasSign_roundWithAccuracy _ _ _ _

section

variable {x : Float} (hx : x.isFinite = true)

include hx

theorem value_mul_self_nonneg : 0 ≤ value (x * x) :=
  (isNearest_mul hx hx).nonneg (mul_self_nonneg _)

theorem unpack_mul_self (hzero : value (x * x) = 0) : (x * x).toModel.unpack = .zero .positive := by
  have hfinite : (x * x).isFinite = true := by
    refine isFinite_iff.2 ⟨(isNearest_mul hx hx).isNumber, ?_⟩
    rw [hzero, abs_zero]
    exact limit_pos
  obtain ⟨s, hs⟩ := exists_unpack_eq_zero hfinite hzero
  have hsign : HasSign .positive (x * x).toModel.unpack :=
    hasSign_unpack_pack (isFinite_of_pack hfinite) (hasSign_mul_self _)
  rw [hs] at hsign ⊢
  exact congrArg _ hsign

theorem value_mul_self_of_le (hpos : 0 ≤ value x) (h : value x ≤ 2 ^ (-538 : Int)) :
    value (x * x) = 0 := by
  have hnearest := isNearest_mul hx hx
  have hsq : value x * value x ≤ 2 ^ (-1074 : Int) / 4 := by
    calc value x * value x ≤ 2 ^ (-538 : Int) * 2 ^ (-538 : Int) := mul_self_le_mul_self hpos h
      _ = 2 ^ (-1074 : Int) / 4 := by
        rw [← two_zpow_add, show (-538 : Int) + -538 =
          -1074 - 1 - 1 by decide, two_zpow_pred, two_zpow_pred]
        ring
  have hlower := value_mul_self_nonneg hx
  have hle := hnearest.le _ hasValue_zero.isNumber
  rw [hasValue_zero.value_eq, zero_sub, abs_neg, abs_of_nonneg (mul_self_nonneg (value x))] at hle
  have hupper := (le_abs_self _).trans hle
  obtain ⟨z, hz⟩ := isMultiple_value (x := x * x) (e := -1074) (.inl rfl)
  have hu := two_zpow_pos (-1074)
  rw [hz] at hlower hupper ⊢
  have hlower : (0 : ℚ) ≤ z := le_of_mul_le_mul_right (by rwa [zero_mul]) hu
  have hupper : (z : ℚ) < 1 := lt_of_mul_lt_mul_right (by rw [one_mul]; linarith) hu.le
  have hzero : z = 0 := by
    have : 0 ≤ z := by exact_mod_cast hlower
    have : z < 1 := by exact_mod_cast hupper
    omega
  rw [hzero, Int.cast_zero, zero_mul]

theorem isFinite_mul_self_of_le (h : 2 ^ (512 : Int) ≤ value x) : (x * x).isFinite = false := by
  refine (isNearest_mul hx hx).not_isFinite ?_
  calc limit = 2 ^ (512 : Int) * 2 ^ (512 : Int) := by
        rw [limit_eq, ← two_zpow_add]
        rfl
    _ ≤ value x * value x := mul_self_le_mul_self (two_zpow_pos _).le h

end

theorem unpack_sqrt_zero {x : Float} (h : x.toModel.unpack = .zero .positive) :
    x.sqrt.toModel.unpack = .zero .positive := by
  change (Float.Model.pack (.sqrt .binary64 x.toModel.unpack)).unpack = _
  rw [h]
  rfl

theorem hasValue_sqrt_infinity {x : Float} (hnum : x.isNaN = false) (hinfinite : x.isFinite = false)
    (hpos : 0 ≤ value x) : HasValue x.sqrt limit := by
  change x.toModel.unpack.isNaN = false at hnum
  change x.toModel.unpack.isFinite = false at hinfinite
  change HasValue (.ofModel (.pack (.sqrt .binary64 x.toModel.unpack))) limit
  unfold value at hpos
  generalize x.toModel.unpack = x at *
  cases x with
  | notANumber => cases hnum
  | zero | finite => cases hinfinite
  | infinity s =>
    cases s with
    | negative =>
      rw [valueOf, Sign.apply, Int.cast_neg, Int.cast_one, neg_one_mul] at hpos
      exact absurd limit_pos (not_lt.2 (neg_nonneg.1 hpos))
    | positive =>
      exact hasValue_pack_infinity

theorem hasValue_div_sqrt_infinity {x y : Float} (hx : x.isFinite = true)
    (hroot : HasValue y limit) :
    HasValue (x / y) 0 :=
  hasValue_div_infinity hx hroot.isNumber ((IsNearest.of_hasValue hroot).not_isFinite le_rfl)

section

variable {x : Float} (hx : x.isFinite = true) (hpos : 0 < value x)

include hx hpos

theorem quotient_lt_one {y : Float} (hy : y.isFinite = true) (h : value x < value y) :
    value (x / y) < 1 := by
  obtain ⟨e, -, -, hlt, hunit⟩ := exists_unit hx
  have hu := two_zpow_pos e
  rw [abs_of_pos hpos] at hlt hunit
  have hx' : IsMultiple e (value x) := isMultiple_value (by rwa [abs_of_pos hpos])
  have hy' : IsMultiple e (value y) :=
    isMultiple_value (hunit.imp_right fun hfull => (hfull.trans h.le).trans (le_abs_self _))
  have hnext := hx'.add_le hy' h
  have hnext' := hx'.add_le ((isMultiple_zpow le_rfl).mul_int (2 ^ 53)) (by push_cast; exact hlt)
  obtain ⟨z, hnum, hz⟩ := exists_hasValue (z := 2 ^ 53 - 1) (k := -53) (by decide) (by decide)
    (by decide)
  have hz : value z = 1 - 1 / 2 ^ 53 := by
    rw [hz]
    norm_num
  have hypos := hpos.trans h
  have hle : value x / value y ≤ value z := by
    rw [hz, div_le_iff₀ hypos]
    push_cast at hnext'
    linarith
  have := (isNearest_div hx hy hypos.ne').value_le hnum hle
  rw [hz] at this
  linarith [show (0 : ℚ) < 1 / 2 ^ 53 by positivity]

theorem quotient_by_root : (x / (x * x).sqrt).isNaN = false ∧ 0 ≤ value (x / (x * x).sqrt) ∧
    (1 ≤ value (x / (x * x).sqrt) ↔ ¬ x < (x * x).sqrt) := by
  -- The quotient of a double by the root of its square is at least one, unless the root is
  -- larger.
  have hnum := (isFinite_iff.1 hx).1
  have hnearest := isNearest_mul hx hx
  have hnonneg := value_mul_self_nonneg hx
  have hlimit : value x < limit := (abs_lt.1 (isFinite_iff.1 hx).2).2
  cases hfinite : (x * x).isFinite with
  | false =>
    have hroot := hasValue_sqrt_infinity hnearest.isNumber hfinite hnonneg
    obtain ⟨hquotient, hvalue⟩ := hasValue_div_sqrt_infinity hx hroot
    rw [hvalue, lt_iff hnum hroot.isNumber, hroot.value_eq]
    exact ⟨hquotient, le_rfl, iff_of_false (by norm_num) (not_not.2 hlimit)⟩
  | true =>
    rcases hnonneg.eq_or_lt with hzero | hsquare
    · have hroot := unpack_sqrt_zero (unpack_mul_self hx hzero.symm)
      obtain ⟨hquotient, hvalue⟩ := hasValue_div_zero hx hpos hroot
      have hroot' : HasValue (x * x).sqrt 0 := .of_unpack hroot rfl
      rw [hvalue, lt_iff hnum hroot'.isNumber, hroot'.value_eq]
      refine ⟨hquotient, limit_pos.le, iff_of_true ?_ (not_lt.2 hpos.le)⟩
      rw [limit_eq]
      exact one_le_zpow₀ one_le_two (by decide)
    · obtain ⟨hroot, hrootpos⟩ := isFinite_sqrt hfinite hsquare
      have hquotient := isNearest_div hx hroot hrootpos.ne'
      rw [lt_iff hnum (isFinite_iff.1 hroot).1]
      refine ⟨hquotient.isNumber, hquotient.nonneg (div_pos hpos hrootpos).le, ?_, fun hge => ?_⟩
      · contrapose!
        exact quotient_lt_one hx hpos hroot
      · exact hquotient.ge_of_hasValue hasValue_one ((one_le_div hrootpos).2 (not_lt.1 hge))

theorem not_lt_root (h : 2 ^ (-511 : Int) ≤ value x ∧ value x < 2 ^ (512 : Int) ∨
    value x ≤ 2 ^ (-538 : Int)) :
    ¬ x < (x * x).sqrt := by
  have hle : value (x * x).sqrt ≤ value x := by
    rcases h with ⟨hlower, hupper⟩ | hsmall
    · exact (value_sqrt_mul_self hx hlower hupper).le
    · have hroot := unpack_sqrt_zero (unpack_mul_self hx (value_mul_self_of_le hx hpos.le hsmall))
      exact (congrArg valueOf hroot).trans_le hpos.le
  intro hlt
  obtain ⟨hnum, hnum'⟩ := not_isNaN_of_lt hlt
  exact absurd ((lt_iff hnum hnum').1 hlt) (not_lt.2 hle)

end

theorem value_quotient_of_le {x : Float} (hx : x.isFinite = true) (h : 2 ^ (512 : Int) ≤ value x) :
    value (x / (x * x).sqrt) = 0 := by
  -- Where the square overflows, nothing is left of the quotient.
  have hroot :=
    hasValue_sqrt_infinity (isNearest_mul hx hx).isNumber (isFinite_mul_self_of_le hx h)
      (value_mul_self_nonneg hx)
  exact (hasValue_div_sqrt_infinity hx hroot).value_eq

end Rollup.Double
