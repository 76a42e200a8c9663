import Mathlib
import Rollup.Number.Double

namespace Rollup.Double

open Float.Model UnpackedFloat

/-- `q * 2 ^ (k + 1)` is nearest to `n`, and of two such multiples the even one. -/
structure Nearest (n k q : Nat) : Prop where
  lower : 2 * q * 2 ^ k ≤ n + 2 ^ k
  upper : n ≤ 2 * q * 2 ^ k + 2 ^ k
  odd : q % 2 = 1 → 2 * q * 2 ^ k < n + 2 ^ k ∧ n < 2 * q * 2 ^ k + 2 ^ k

theorem Nearest.le (h : Nearest n k q) (h' : Nearest n k q') : q ≤ q' := by
  by_contra hlt
  have hpos : 0 < 2 ^ k := Nat.two_pow_pos k
  have hsucc : q = q' + 1 := by
    by_contra hne
    have hmul : (2 * q' + 4) * 2 ^ k ≤ 2 * q * 2 ^ k := Nat.mul_le_mul_right _ (by omega)
    have := h.lower
    have := h'.upper
    rw [Nat.add_mul] at hmul
    omega
  subst hsucc
  have hmul : 2 * (q' + 1) * 2 ^ k = 2 * q' * 2 ^ k + 2 * 2 ^ k := by ring
  have := h.lower
  have := h'.upper
  -- The number lies halfway, so neither neighbour can be odd.
  rcases Nat.mod_two_eq_zero_or_one q' with heven | hodd
  · have := (h.odd (by omega)).1
    omega
  · have := (h'.odd hodd).2
    omega

theorem Nearest.unique (h : Nearest n k q) (h' : Nearest n k q') : q = q' :=
  Nat.le_antisymm (h.le h') (h'.le h)

abbrev uncut (m : Nat) : ExtendedMantissa := ⟨m, false, false⟩

theorem shiftRight_succ (n k : Nat) :
    uncut n >>> (k + 1) =
      ⟨n / 2 ^ (k + 1), n / 2 ^ k % 2 != 0, n % 2 ^ k != 0⟩ := by
  induction k with
  | zero => simp [HShiftRight.hShiftRight, Nat.repeat, ExtendedMantissa.shiftRightOne, Nat.mod_one]
  | succ k ih =>
    have hshift : uncut n >>> (k + 1 + 1) =
        (uncut n >>> (k + 1)).shiftRightOne := rfl
    have hmod : n % 2 ^ (k + 1) = n % 2 ^ k + 2 ^ k * (n / 2 ^ k % 2) := Nat.mod_pow_succ
    rw [hshift, ih, ExtendedMantissa.shiftRightOne]
    congr 1
    · rw [Nat.div_div_eq_div_mul, ← Nat.pow_succ]
    · rw [hmod, Bool.eq_iff_iff]
      simp
      omega

theorem roundedMantissa_below (a : Nat) (sticky : Bool) :
    (⟨a, false, sticky⟩ : ExtendedMantissa).roundedMantissa = a := by
  cases sticky <;> rfl

theorem nearest_roundedMantissa (n k : Nat) :
    Nearest n k (uncut n >>> (k + 1)).roundedMantissa := by
  -- The round bit is the last digit of the quotient by `2 ^ k`, and the sticky bit tells whether
  -- a rest is left.
  have hdiv : n = n / 2 ^ k * 2 ^ k + n % 2 ^ k := (Nat.div_add_mod' n _).symm
  have hlt : n % 2 ^ k < 2 ^ k := Nat.mod_lt _ (Nat.two_pow_pos k)
  have hhalf : n / 2 ^ (k + 1) = n / 2 ^ k / 2 := by rw [Nat.pow_succ, Nat.div_div_eq_div_mul]
  rw [shiftRight_succ, hhalf]
  generalize n / 2 ^ k = h at *
  generalize n % 2 ^ k = r at *
  obtain ⟨a, rfl | rfl⟩ := Nat.even_or_odd' h
  · have hquotient : 2 * a / 2 = a := by omega
    have hbit : (2 * a % 2 != 0) = false := by simp
    rw [hquotient, hbit, roundedMantissa_below]
    exact ⟨by omega, by omega, fun _ => by omega⟩
  · have hquotient : (2 * a + 1) / 2 = a := by omega
    have hbit : ((2 * a + 1) % 2 != 0) = true := by simp
    have hmul : (2 * a + 1) * 2 ^ k = 2 * a * 2 ^ k + 2 ^ k := by ring
    have hmul' : 2 * (a + 1) * 2 ^ k = 2 * a * 2 ^ k + 2 * 2 ^ k := by ring
    rw [hquotient, hbit]
    rcases Nat.eq_zero_or_pos r with rfl | hr
    · change Nearest n k (a + a % 2)
      rcases Nat.mod_two_eq_zero_or_one a with ha | ha
      · rw [ha, Nat.add_zero]
        exact ⟨by omega, by omega, fun _ => by omega⟩
      · rw [ha]
        exact ⟨by omega, by omega, fun _ => by omega⟩
    · have hsticky : (r != 0) = true := by simpa using hr.ne'
      rw [hsticky]
      change Nearest n k (a + 1)
      exact ⟨by omega, by omega, fun _ => by omega⟩

theorem roundedMantissa_eq_iff {n k q : Nat} :
    (uncut n >>> (k + 1)).roundedMantissa = q ↔ Nearest n k q := by
  constructor
  · rintro rfl
    exact nearest_roundedMantissa n k
  · exact (nearest_roundedMantissa n k).unique

theorem targetExponent_eq (m : Nat) (e : Int) :
    Format.binary64.targetExponent (totalExponent m e) =
      Max.max ((m.log2 : Int) - 52 + e) (-1074) := by
  simp only [Format.targetExponent, totalExponent, Format.mantissaBits, Format.minExponent]
  omega

theorem shiftToTargetExponent_eq {m k : Nat} {e : Int} (hm : m.log2 = 52 + k) (he : -1074 ≤ e) :
    shiftToTargetExponent .binary64 m e .exact = (uncut m >>> k, e + k) := by
  have htarget : Format.binary64.targetExponent (totalExponent m e) = e + k := by
    rw [targetExponent_eq]
    omega
  have hshift : (e + k - e).toNat = k := by omega
  simp only [shiftToTargetExponent, shiftToExponent, htarget, hshift]
  rfl

theorem log2_eq_of_bounds {n k : Nat} (hlow : 2 ^ k ≤ n) (hhigh : n < 2 ^ (k + 1)) : n.log2 = k :=
  (Nat.log2_eq_iff (Nat.ne_of_gt (Nat.lt_of_lt_of_le (Nat.two_pow_pos k) hlow))).2 ⟨hlow, hhigh⟩

theorem log2_eq_of_scaled {n k : Nat} (hlow : 2 ^ 53 * 2 ^ k ≤ n) (hhigh : n < 2 ^ 54 * 2 ^ k) :
    n.log2 = 52 + (k + 1) := by
  rw [← Nat.pow_add] at hlow hhigh
  have hlog : n.log2 = 53 + k := log2_eq_of_bounds hlow (by rwa [Nat.add_right_comm])
  omega

theorem roundWithAccuracy_eq {s : Sign} {m k r : Nat} {e : Int} (hm : m.log2 = 52 + k)
    (he : -1074 ≤ e)
    (hr : (uncut m >>> k).roundedMantissa = r) (hlow : 2 ^ 52 ≤ r) (hhigh : r < 2 ^ 53) :
    roundWithAccuracy .binary64 s m e .exact = .finite s r (e + k) (by omega) := by
  have hlog : r.log2 = 52 + 0 := log2_eq_of_bounds hlow hhigh
  have hagain : shiftToTargetExponent .binary64 r (e + k) .exact = (uncut r, e + k) := by
    rw [shiftToTargetExponent_eq hlog (by omega)]
    exact Prod.ext rfl (Int.add_zero _)
  simp only [roundWithAccuracy, shiftToTargetExponent_eq hm he, hr, hagain]
  exact dif_neg (by omega)

theorem roundWithAccuracy_carry {s : Sign} {m k : Nat} {e : Int} (hm : m.log2 = 52 + k)
    (he : -1074 ≤ e) (hr : (uncut m >>> k).roundedMantissa = 2 ^ 53) :
    roundWithAccuracy .binary64 s m e .exact = .finite s (2 ^ 52) (e + k + 1) (by decide) := by
  have hlog : (2 ^ 53).log2 = 52 + 1 := Nat.log2_two_pow
  have hagain : shiftToTargetExponent .binary64 (2 ^ 53) (e + k) .exact =
      (uncut (2 ^ 53) >>> 1, e + k + 1) :=
    shiftToTargetExponent_eq hlog (by omega)
  simp only [roundWithAccuracy, shiftToTargetExponent_eq hm he, hr, hagain]
  rfl

theorem ofInt_natCast {n : Nat} (hn : 0 < n) :
    UnpackedFloat.ofInt .binary64 n =
      roundWithAccuracy .binary64 .positive (n <<< (52 - n.log2))
      (-(52 - n.log2 : Nat)) .exact := by
  have hcompare : compare (n : Int) 0 = .gt := by
    rw [Int.compare_eq_gt]
    omega
  have htarget : (-Format.binary64.targetExponent (totalExponent n 0)).toNat = 52 - n.log2 := by
    rw [targetExponent_eq]
    omega
  simp only [UnpackedFloat.ofInt, UnpackedFloat.normalize, hcompare,
    Int.toNat_natCast, UnpackedFloat.round, decreaseExponent, htarget, Int.zero_sub]

theorem ofInt_of_lt {n k : Nat} (hlow : 2 ^ 52 ≤ n * 2 ^ k) (hhigh : n * 2 ^ k < 2 ^ 53)
    (hk : k ≤ 52) :
    UnpackedFloat.ofInt .binary64 n = .finite .positive (n * 2 ^ k) (-k) (by omega) := by
  have hpos : 0 < 2 ^ k := Nat.two_pow_pos k
  have hlog : n.log2 = 52 - k := by
    have hsplit : 2 ^ 52 = 2 ^ (52 - k) * 2 ^ k := by rw [← Nat.pow_add, Nat.sub_add_cancel hk]
    have hsplit' : 2 ^ 53 = 2 ^ (52 - k + 1) * 2 ^ k := by rw [← Nat.pow_add]; congr 1; omega
    apply log2_eq_of_bounds
    · exact Nat.le_of_mul_le_mul_right (hsplit ▸ hlow) hpos
    · exact Nat.lt_of_mul_lt_mul_right (hsplit' ▸ hhigh)
  have hn : 0 < n := Nat.pos_of_mul_pos_right (Nat.lt_of_lt_of_le (Nat.two_pow_pos 52) hlow)
  have hscale : 52 - n.log2 = k := by omega
  rw [ofInt_natCast hn, hscale, Nat.shiftLeft_eq]
  have hround := roundWithAccuracy_eq (s := .positive) (e := -k) (k := 0)
    (log2_eq_of_bounds hlow hhigh) (by omega)
    (roundedMantissa_below _ _) hlow hhigh
  simpa using hround

theorem ofInt_eq_roundWithAccuracy {n k : Nat} (hn : n.log2 = 52 + k) :
    UnpackedFloat.ofInt .binary64 n = roundWithAccuracy .binary64 .positive n 0 .exact := by
  have hpos : 0 < n := by
    rw [Nat.pos_iff_ne_zero]
    rintro rfl
    simp at hn
    omega
  have hscale : 52 - n.log2 = 0 := by omega
  rw [ofInt_natCast hpos, hscale]
  simp

theorem ofInt_of_nearest {n k q : Nat} (hn : n.log2 = 52 + (k + 1)) (hq : Nearest n k q)
    (hlow : 2 ^ 52 ≤ q) (hhigh : q < 2 ^ 53) :
    UnpackedFloat.ofInt .binary64 n = .finite .positive q (k + 1 : Nat) (by omega) := by
  rw [ofInt_eq_roundWithAccuracy hn]
  have hround := roundWithAccuracy_eq (s := .positive) (e := 0) hn (by omega)
    (roundedMantissa_eq_iff.2 hq) hlow hhigh
  simpa using hround

theorem ofInt_of_nearest_carry {n k : Nat} (hn : n.log2 = 52 + (k + 1))
    (hq : Nearest n k (2 ^ 53)) :
    UnpackedFloat.ofInt .binary64 n = .finite .positive (2 ^ 52) (k + 2 : Nat) (by decide) := by
  rw [ofInt_eq_roundWithAccuracy hn]
  have hround := roundWithAccuracy_carry (s := .positive) (e := 0) hn (by omega)
    (roundedMantissa_eq_iff.2 hq)
  rw [hround]
  congr 1
  omega

theorem Nearest.bounds {n k q : Nat} (hq : Nearest n k q) (hlow : 2 ^ 53 * 2 ^ k ≤ n)
    (hhigh : n < 2 ^ 54 * 2 ^ k) : 2 ^ 52 ≤ q ∧ q ≤ 2 ^ 53 := by
  have hpos : 0 < 2 ^ k := Nat.two_pow_pos k
  constructor
  · by_contra hlt
    have hmul : (2 * q + 2) * 2 ^ k ≤ 2 ^ 53 * 2 ^ k := Nat.mul_le_mul_right _ (by omega)
    have := hq.upper
    rw [Nat.add_mul] at hmul
    omega
  · by_contra hlt
    have hmul : (2 ^ 54 + 2) * 2 ^ k ≤ 2 * q * 2 ^ k := Nat.mul_le_mul_right _ (by omega)
    have := hq.lower
    rw [Nat.add_mul] at hmul
    omega

theorem ofBitVec_unpackSign {spec : Format} {sign : Sign} {exponent : BitVec spec.exponentBits}
    {mantissa : BitVec spec.mantissaBitsWithoutImplicit} :
    Sign.ofBitVec (unpackSign (packComponents spec sign exponent mantissa)) = sign := by
  have hbits : unpackSign (packComponents spec sign exponent mantissa) = sign.toBitVec := by
    ext i hi
    simp [unpackSign, packComponents, BitVec.getLsbD_append, BitVec.getElem_append,
      Nat.lt_one_iff.1 hi]
  rw [hbits]
  cases sign <;> rfl

theorem toNat_one_append {w m : Nat} (hlow : 2 ^ w ≤ m) (hhigh : m < 2 ^ (w + 1)) :
    (1#1 ++ BitVec.ofNat w m).toNat = m := by
  have hmod : m % 2 ^ w = m - 2 ^ w := by
    rw [Nat.mod_eq_sub_mod hlow, Nat.mod_eq_of_lt (by rw [Nat.pow_succ] at hhigh; omega)]
  rw [BitVec.toNat_append, ← Nat.shiftLeft_add_eq_or_of_lt (BitVec.isLt _), Nat.shiftLeft_eq]
  simp only [BitVec.toNat_ofNat, hmod]
  omega

theorem unpack_pack {s : Sign} {m : Nat} {e : Int} (hlow : 2 ^ 52 ≤ m) (hhigh : m < 2 ^ 53)
    (he : -1075 < e) (he' : e < 972) :
    (Float.Model.pack (.finite s m e (by omega))).unpack = .finite s m e (by omega) := by
  have hlog : m.log2 + 1 = Format.binary64.mantissaBits := by rw [log2_eq_of_bounds hlow hhigh]; rfl
  have hbias : Format.binary64.exponentBias = 1023 := rfl
  obtain ⟨b, hb⟩ : ∃ b : Nat, e + 1023 + 52 = b := Int.eq_ofNat_of_zero_le (by omega)
  have hpack : UnpackedFloat.pack .binary64 (.finite s m e (by omega)) =
      packComponents .binary64 s (BitVec.ofNat 11 b) (BitVec.ofNat 52 m) := by
    have hfits : ¬ 2 ^ 11 ≤ b + 1 := by omega
    rw [UnpackedFloat.pack]
    simp only [hbias, Nat.cast_ofNat, hb, Int.toNat_natCast, hlog, if_true, hfits, if_false]
  have hbits : (BitVec.ofNat 11 b).toNat = b := by
    rw [BitVec.toNat_ofNat, Nat.mod_eq_of_lt (by omega)]
  have hones : BitVec.ofNat 11 b ≠ -1#_ := by
    intro h
    have := congrArg BitVec.toNat h
    rw [hbits] at this
    simp at this
    omega
  have hzero : BitVec.ofNat 11 b ≠ 0#_ := by
    intro h
    have := congrArg BitVec.toNat h
    rw [hbits] at this
    simp at this
    omega
  change UnpackedFloat.unpack .binary64 (UnpackedFloat.pack .binary64 _) = _
  rw [hpack]
  simp only [UnpackedFloat.unpack, unpackExponent_packComponents, unpackMantissa_packComponents,
    ofBitVec_unpackSign, hones, hzero, if_false, toNat_one_append hlow hhigh, hbits]
  congr 1
  omega

end Rollup.Double
