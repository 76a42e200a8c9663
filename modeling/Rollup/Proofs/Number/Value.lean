import Rollup.Proofs.Number.Finite

namespace Rollup.Double

open Float.Model UnpackedFloat

theorem two_zpow_pos (e : Int) : (0 : ℚ) < 2 ^ e := zpow_pos (by decide) e

theorem two_zpow_add (e k : Int) : (2 : ℚ) ^ (e + k) = 2 ^ e * 2 ^ k := zpow_add₀ (by decide) e k

@[irreducible]
def limit : ℚ := 2 ^ (1024 : Int)

theorem limit_eq : limit = 2 ^ (1024 : Int) := by unfold limit; rfl

theorem limit_pos : 0 < limit := limit_eq ▸ two_zpow_pos 1024

/-- What an unpacked double stands for. An infinity stands for the number at which rounding
overflows to it; what is no number stands for nothing, and is given 0. -/
def valueOf : UnpackedFloat → ℚ
  | .finite s m e _ => s.apply m * 2 ^ e
  | .infinity s => s.apply 1 * limit
  | .zero _ | .notANumber => 0

def value (x : Float) : ℚ := valueOf x.toModel.unpack

structure Canonical (m : Nat) (e : Int) : Prop where
  lt : m < 2 ^ 53
  least : -1074 ≤ e
  most : e ≤ 971
  full : e = -1074 ∨ 2 ^ 52 ≤ m

theorem mul_zpow_lt {m m' : Nat} {e e' : Int} (hm : m < 2 ^ 53) (hm' : 2 ^ 52 ≤ m') (h : e < e') :
    (m : ℚ) * 2 ^ e < m' * 2 ^ e' := by
  have hm : (m : ℚ) < 2 ^ 53 := mod_cast hm
  have hm' : (2 : ℚ) ^ 52 ≤ m' := mod_cast hm'
  calc (m : ℚ) * 2 ^ e
      < 2 ^ 53 * 2 ^ e := mul_lt_mul_of_pos_right hm (two_zpow_pos e)
    _ = 2 ^ 52 * 2 ^ (e + 1) := by rw [two_zpow_add]; ring
    _ ≤ m' * 2 ^ e' := by
      gcongr
      · decide
      · exact h

namespace Canonical

variable {m m' : Nat} {e e' : Int}

theorem mul_zpow_lt (h : Canonical m e) (h' : Canonical m' e') (he : e < e') :
    (m : ℚ) * 2 ^ e < m' * 2 ^ e' := by
  have hfull : 2 ^ 52 ≤ m' := h'.full.resolve_left (by have := h.least; omega)
  exact Double.mul_zpow_lt h.lt hfull he

theorem compare_eq (h : Canonical m e) (h' : Canonical m' e') :
    compare ((m : ℚ) * 2 ^ e) (m' * 2 ^ e') = (compare e e').then (compare m m') := by
  rcases lt_trichotomy e e' with he | rfl | he
  · rw [compare_lt_iff_lt.2 he, compare_lt_iff_lt.2 (h.mul_zpow_lt h' he)]
    rfl
  · have hmono : StrictMono fun m : Nat => (m : ℚ) * 2 ^ e := fun _ _ hlt =>
      mul_lt_mul_of_pos_right (mod_cast hlt) (two_zpow_pos e)
    rw [compare_eq_iff_eq.2 rfl, Ordering.then, ← cmp_eq_compare, hmono.cmp_map_eq, cmp_eq_compare]
  · rw [compare_gt_iff_gt.2 he, compare_gt_iff_gt.2 (h'.mul_zpow_lt h he)]
    rfl

theorem mul_zpow_lt_limit (h : Canonical m e) : (m : ℚ) * 2 ^ e < limit := by
  have hlt := Double.mul_zpow_lt h.lt (le_refl (2 ^ 52))
    (show e < 972 from Int.lt_of_le_of_lt h.most (by decide))
  have hpow : ((2 ^ 52 : Nat) : ℚ) = 2 ^ (52 : Int) := by norm_num
  rwa [hpow, ← two_zpow_add, show (52 : Int) + 972 = 1024 by decide, ← limit_eq] at hlt

end Canonical

def IsCanonical : UnpackedFloat → Prop
  | .finite _ m e _ => Canonical m e
  | _ => True

theorem valueOf_finite (s : Sign) (m : Nat) (e : Int) (hm : 0 < m) :
    valueOf (.finite s m e hm) = s.apply 1 * (m * 2 ^ e) := by
  cases s <;> simp [valueOf, Sign.apply]

def signedOrder : Sign → Sign → Ordering → Ordering
  | .negative, .negative, o => o.swap
  | .negative, .positive, _ => .lt
  | .positive, .negative, _ => .gt
  | .positive, .positive, o => o

theorem compare_signed (s s' : Sign) {a b : ℚ} (ha : 0 < a) (hb : 0 < b) :
    compare (s.apply 1 * a) (s'.apply 1 * b) = signedOrder s s' (compare a b) := by
  cases s <;> cases s' <;> simp only [Sign.apply, Int.cast_neg, Int.cast_one,
    neg_mul, one_mul, signedOrder]
  · rw [← cmp_eq_compare, ← cmp_eq_compare, cmp_swap]
    exact StrictAnti.cmp_map_eq (fun _ _ h => neg_lt_neg h) a b
  · exact compare_lt_iff_lt.2 (by linarith)
  · exact compare_gt_iff_gt.2 (by linarith)

theorem compare_signed_zero (s : Sign) {a : ℚ} (ha : 0 < a) :
    compare (s.apply 1 * a) 0 = signedOrder s .positive .gt ∧
      compare 0 (s.apply 1 * a) = signedOrder .positive s .lt := by
  cases s <;> simp [Sign.apply, signedOrder, compare_lt_iff_lt, compare_gt_iff_gt, ha]

theorem compare_valueOf {x y : UnpackedFloat} (hx : IsCanonical x) (hy : IsCanonical y)
    (hx' : x.isNaN = false)
    (hy' : y.isNaN = false) : x.compare y = some (compare (valueOf x) (valueOf y)) := by
  have hpos {m : Nat} (hm : 0 < m) (e : Int) : (0 : ℚ) < m * 2 ^ e :=
    mul_pos (mod_cast hm) (two_zpow_pos e)
  cases x with
  | notANumber => cases hx'
  | infinity s =>
    cases y with
    | notANumber => cases hy'
    | infinity s' =>
      rw [valueOf, valueOf, compare_signed s s' limit_pos limit_pos, compare_eq_iff_eq.2 rfl]
      cases s <;> cases s' <;> rfl
    | zero =>
      rw [valueOf, valueOf, (compare_signed_zero s limit_pos).1]
      cases s <;> rfl
    | finite s' m' e' hm' =>
      rw [valueOf_finite, valueOf, compare_signed s s' limit_pos (hpos hm' e'),
        compare_gt_iff_gt.2 hy.mul_zpow_lt_limit]
      cases s <;> cases s' <;> rfl
  | zero s =>
    cases y with
    | notANumber => cases hy'
    | infinity s' =>
      rw [valueOf, valueOf, (compare_signed_zero s' limit_pos).2]
      cases s' <;> rfl
    | zero => rw [valueOf, valueOf, compare_eq_iff_eq.2 rfl, UnpackedFloat.compare]
    | finite s' m' e' hm' =>
      rw [valueOf_finite, valueOf, (compare_signed_zero s' (hpos hm' e')).2]
      cases s' <;> rfl
  | finite s m e hm =>
    cases y with
    | notANumber => cases hy'
    | infinity s' =>
      rw [valueOf_finite, valueOf, compare_signed s s' (hpos hm e) limit_pos,
        compare_lt_iff_lt.2 hx.mul_zpow_lt_limit]
      cases s <;> cases s' <;> rfl
    | zero =>
      rw [valueOf_finite, valueOf, (compare_signed_zero s (hpos hm e)).1]
      cases s <;> rfl
    | finite s' m' e' hm' =>
      rw [valueOf_finite, valueOf_finite, compare_signed s s' (hpos hm e) (hpos hm' e'),
        Canonical.compare_eq hx hy]
      cases s <;> cases s' <;> rfl

theorem toNat_full (b : BitVec Format.binary64.numBits) :
    (1#1 ++ unpackMantissa b).toNat = 2 ^ 52 + (unpackMantissa b).toNat := by
  rw [BitVec.toNat_append, ← Nat.shiftLeft_add_eq_or_of_lt (BitVec.isLt _), Nat.shiftLeft_eq]
  rfl

theorem isCanonical_unpack (b : BitVec Format.binary64.numBits) :
    IsCanonical (UnpackedFloat.unpack .binary64 b) := by
  have hbias : Format.binary64.exponentBias = 1023 := rfl
  have hexponent : (unpackExponent b).toNat < 2 ^ 11 := BitVec.isLt _
  have hmantissa : (unpackMantissa b).toNat < 2 ^ 52 := BitVec.isLt _
  have hfull := toNat_full b
  have hones : unpackExponent b ≠ -1#_ → (unpackExponent b).toNat ≠ 2047 :=
    mt fun h => BitVec.eq_of_toNat_eq h
  have hzero : unpackExponent b ≠ 0#_ → (unpackExponent b).toNat ≠ 0 :=
    mt fun h => BitVec.eq_of_toNat_eq h
  unfold UnpackedFloat.unpack
  simp only [hbias]
  split
  · split <;> trivial
  · split
    · rename_i h
      rw [h]
      split
      · trivial
      · exact ⟨by omega, by simp, by simp, .inl (by simp)⟩
    · rename_i h h'
      have := hones h
      have := hzero h'
      exact ⟨by omega, by omega, by omega, .inr (by omega)⟩

theorem compare_eq {x y : Float} (hx : x.isNaN = false) (hy : y.isNaN = false) :
    x.toModel.unpack.compare y.toModel.unpack = some (compare (value x) (value y)) :=
  compare_valueOf (isCanonical_unpack _) (isCanonical_unpack _) hx hy

theorem compare_of_isNaN {x y : UnpackedFloat} (h : x.isNaN = true ∨ y.isNaN = true) :
    x.compare y = none := by
  cases x <;> cases y <;> first | rfl | simp [UnpackedFloat.isNaN] at h

theorem compare_self {x : UnpackedFloat} (h : x.isNaN = false) : x.compare x = some .eq := by
  cases x with
  | notANumber => cases h
  | infinity s => cases s <;> rfl
  | zero s => rfl
  | finite s m e => cases s <;> simp [UnpackedFloat.compare]

theorem not_isNaN_of_compare {x y : Float} {o : Ordering}
    (h : x.toModel.unpack.compare y.toModel.unpack = some o) :
    x.isNaN = false ∧ y.isNaN = false := by
  constructor <;> rw [Bool.eq_false_iff] <;> intro hnan
  · rw [compare_of_isNaN (.inl hnan)] at h
    cases h
  · rw [compare_of_isNaN (.inr hnan)] at h
    cases h

section

variable {x y : Float}

theorem lt_iff_compare : x < y ↔ x.toModel.unpack.compare y.toModel.unpack = some .lt :=
  (decide_eq_true_iff (p := (x.toModel.unpack.compare y.toModel.unpack == some .lt) = true)).trans
    beq_iff_eq

theorem beq_iff_compare :
    (x == y) = true ↔ x.toModel.unpack.compare y.toModel.unpack = some .eq := by
  change (x.toModel.unpack.compare y.toModel.unpack == some .eq) = true ↔ _
  exact beq_iff_eq

theorem le_iff_compare : x ≤ y ↔ (x.toModel.unpack.compare y.toModel.unpack).any (·.isLE) = true :=
  decide_eq_true_iff

theorem not_isNaN_of_lt (h : x < y) : x.isNaN = false ∧ y.isNaN = false :=
  not_isNaN_of_compare (lt_iff_compare.1 h)

theorem not_isNaN_of_le (h : x ≤ y) : x.isNaN = false ∧ y.isNaN = false := by
  obtain ⟨hsome, -⟩ := (Option.any_eq_true_iff_get _ _).1 (le_iff_compare.1 h)
  exact not_isNaN_of_compare (Option.some_get hsome).symm

theorem not_isNaN_of_beq (h : (x == y) = true) : x.isNaN = false ∧ y.isNaN = false :=
  not_isNaN_of_compare (beq_iff_compare.1 h)

theorem lt_iff (hx : x.isNaN = false) (hy : y.isNaN = false) : x < y ↔ value x < value y := by
  rw [lt_iff_compare, compare_eq hx hy, Option.some_inj, compare_lt_iff_lt]

theorem le_iff (hx : x.isNaN = false) (hy : y.isNaN = false) : x ≤ y ↔ value x ≤ value y := by
  rw [le_iff_compare, compare_eq hx hy, Option.any_some, ← compare_le_iff_le,
    Ordering.isLE_iff_ne_gt]

theorem beq_iff (hx : x.isNaN = false) (hy : y.isNaN = false) :
    (x == y) = true ↔ value x = value y := by
  rw [beq_iff_compare, compare_eq hx hy, Option.some_inj, compare_eq_iff_eq]

theorem beq_self (hx : x.isNaN = false) : (x == x) = true := beq_iff_compare.2 (compare_self hx)

theorem single_beq_self {x : Float32} (hx : x.isNaN = false) : (x == x) = true := by
  change (x.toModel.unpack.compare x.toModel.unpack == some .eq) = true
  rw [compare_self hx]
  rfl

end

theorem toNat_unpackMantissa (b : BitVec Format.binary64.numBits) :
    (unpackMantissa b).toNat = b.toNat % 2 ^ 52 := by
  simp [unpackMantissa]

theorem toNat_unpackExponent (b : BitVec Format.binary64.numBits) :
    (unpackExponent b).toNat = b.toNat / 2 ^ 52 % 2 ^ 11 := by
  simp [unpackExponent, Nat.shiftRight_eq_div_pow]

theorem ofBitVec_unpackSign_eq (b : BitVec Format.binary64.numBits) :
    Sign.ofBitVec (unpackSign b) = if b.toNat < 2 ^ 63 then .positive else .negative := by
  have hlt : b.toNat < 2 ^ 64 := b.isLt
  have hsign : (unpackSign b).toNat = b.toNat / 2 ^ 63 := by
    simp [unpackSign, Nat.shiftRight_eq_div_pow]
    omega
  have hzero : unpackSign b = 0#1 ↔ b.toNat < 2 ^ 63 := by
    rw [← BitVec.toNat_inj, hsign]
    simp [Nat.div_eq_zero_iff]
  simp only [Sign.ofBitVec, hzero]

def level (n : Nat) : ℚ :=
  if n / 2 ^ 52 = 0 then (n % 2 ^ 52 : Nat) * 2 ^ (-1074 : Int)
  else (2 ^ 52 + n % 2 ^ 52 : Nat) * 2 ^ ((n / 2 ^ 52 : Nat) - 1075 : Int)

theorem level_nonneg (n : Nat) : 0 ≤ level n := by
  unfold level
  split <;> exact mul_nonneg (Nat.cast_nonneg _) (two_zpow_pos _).le

theorem level_strictMono : StrictMono level := by
  intro n k h
  have hmul {m m' : Nat} (h : m < m') (e : Int) : (m : ℚ) * 2 ^ e < m' * 2 ^ e :=
    mul_lt_mul_of_pos_right (mod_cast h) (two_zpow_pos e)
  simp only [level]
  split_ifs with hn hk hk
  · exact hmul (by omega) _
  · rcases Nat.lt_or_ge 1 (k / 2 ^ 52) with hlt | hge
    · exact mul_zpow_lt (by omega) (by omega) (by omega)
    · have hone : k / 2 ^ 52 = 1 := by omega
      rw [hone]
      exact hmul (by omega) _
  · omega
  · rcases Nat.lt_or_ge (n / 2 ^ 52) (k / 2 ^ 52) with hlt | hge
    · exact mul_zpow_lt (by omega) (by omega) (by omega)
    · have heq : k / 2 ^ 52 = n / 2 ^ 52 := by omega
      rw [heq]
      exact hmul (by omega) _

theorem valueOf_unpack {b : BitVec Format.binary64.numBits}
    (h : (UnpackedFloat.unpack .binary64 b).isNaN = false) :
    valueOf (UnpackedFloat.unpack .binary64 b) =
      (Sign.ofBitVec (unpackSign b)).apply 1 * level (b.toNat % 2 ^ 63) := by
  have hbias : Format.binary64.exponentBias = 1023 := rfl
  have hexponent : (unpackExponent b).toNat = b.toNat % 2 ^ 63 / 2 ^ 52 := by
    rw [toNat_unpackExponent]
    omega
  have hmantissa : (unpackMantissa b).toNat = b.toNat % 2 ^ 63 % 2 ^ 52 := by
    rw [toNat_unpackMantissa]
    omega
  unfold UnpackedFloat.unpack at h ⊢
  simp only [hbias] at h ⊢
  rw [level, ← hexponent, ← hmantissa]
  split
  · rename_i hones
    split
    · rename_i hzero
      have hpow : (2 : ℚ) ^ (1024 : Int) = 2 ^ (52 : Int) * 2 ^ (972 : Int) := by
        rw [← two_zpow_add]; rfl
      rw [hones, hzero, valueOf, limit_eq, hpow]
      norm_num
    · rename_i hne
      simp only [hones, hne, if_true, if_false, UnpackedFloat.isNaN] at h
      cases h
  · split
    · rename_i hnone
      rw [hnone]
      split
      · rename_i hzero
        rw [hzero]
        simp [valueOf]
      · rw [valueOf_finite]
        simp
    · rename_i hsome
      have hpositive : (unpackExponent b).toNat ≠ 0 := fun hz => hsome (BitVec.eq_of_toNat_eq hz)
      rw [valueOf_finite, toNat_full, if_neg hpositive]
      norm_num

theorem value_eq_level {x : Float} (hx : x.isNaN = false) :
    value x = if x.toBits.toNat < 2 ^ 63 then level x.toBits.toNat
      else -level (x.toBits.toNat - 2 ^ 63) := by
  have hlt : x.toBits.toNat < 2 ^ 64 := x.toBits.toBitVec.isLt
  rw [value, Float.Model.unpack, valueOf_unpack hx, ofBitVec_unpackSign_eq]
  change Int.cast (Sign.apply (if x.toBits.toNat < 2 ^ 63 then .positive else .negative) 1) *
    level (x.toBits.toNat % 2 ^ 63) = _
  split
  · rename_i h
    rw [Nat.mod_eq_of_lt h, Sign.apply, Int.cast_one, one_mul]
  · rename_i h
    rw [Nat.mod_eq_sub_mod (Nat.le_of_not_lt h), Nat.mod_eq_of_lt (by omega), Sign.apply,
      Int.cast_neg, Int.cast_one, neg_one_mul]

theorem value_le_of_rank_le {x y : Float} (hx : x.isNaN = false) (hy : y.isNaN = false)
    (h : rank x ≤ rank y) :
    value x ≤ value y := by
  rw [value_eq_level hx, value_eq_level hy]
  simp only [rank] at h
  by_cases hsx : x.toBits.toNat < 2 ^ 63 <;> by_cases hsy : y.toBits.toNat < 2 ^ 63 <;>
    simp only [hsx, hsy, if_true, if_false] at h ⊢
  · exact level_strictMono.monotone (by omega)
  · omega
  · exact (neg_nonpos.2 (level_nonneg _)).trans (level_nonneg _)
  · exact neg_le_neg (level_strictMono.monotone (by omega))

theorem eq_of_toNat_toBits {x y : Float} (h : x.toBits.toNat = y.toBits.toNat) : x = y := by
  have hbits : x.toBits = y.toBits := UInt64.toNat_inj.1 h
  obtain ⟨⟨_, _⟩⟩ := x
  obtain ⟨⟨_, _⟩⟩ := y
  cases hbits
  rfl

theorem eq_of_value_eq {x y : Float} (hx : x.isNaN = false) (hy : y.isNaN = false)
    (h : value x = value y) (hne : value x ≠ 0) : x = y := by
  have hx' : x.toBits.toNat < 2 ^ 64 := x.toBits.toBitVec.isLt
  have hy' : y.toBits.toNat < 2 ^ 64 := y.toBits.toBitVec.isLt
  apply eq_of_toNat_toBits
  rw [value_eq_level hx, value_eq_level hy] at h
  rw [value_eq_level hx] at hne
  split_ifs at h hne
  · exact level_strictMono.injective h
  · -- Numbers of opposite signs.
    have := level_nonneg x.toBits.toNat
    have := level_nonneg (y.toBits.toNat - 2 ^ 63)
    exact absurd (by linarith) hne
  · have := level_nonneg y.toBits.toNat
    have := level_nonneg (x.toBits.toNat - 2 ^ 63)
    exact absurd (by linarith) hne
  · have := level_strictMono.injective (neg_inj.1 h)
    omega

theorem rank_injective : Function.Injective rank := by
  intro x y h
  have hx : x.toBits.toNat < 2 ^ 64 := x.toBits.toBitVec.isLt
  have hy : y.toBits.toNat < 2 ^ 64 := y.toBits.toBitVec.isLt
  apply eq_of_toNat_toBits
  simp only [rank] at h
  split_ifs at h <;> omega

end Rollup.Double
