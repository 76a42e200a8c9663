import Rollup.Proofs.Number.Rounding

namespace Rollup.Double

open Float.Model
open UnpackedFloat (Sign ExtendedMantissa shiftToExponent shiftToTargetExponent
  roundWithAccuracy unpackExponent
  unpackExponent_packComponents)

theorem isFinite_unpack {spec : Format} {b : BitVec spec.numBits} :
    (UnpackedFloat.unpack spec b).isFinite = true ↔ unpackExponent b ≠ -1#_ := by
  unfold UnpackedFloat.unpack
  simp only
  split
  · rename_i hones
    simp only [hones, ne_eq, not_true_eq_false, iff_false]
    split <;> exact nofun
  · rename_i hones
    simp only [hones, ne_eq, not_false_eq_true, iff_true]
    split
    · split <;> rfl
    · rfl

theorem isFinite_pack {s : Sign} {m : Nat} {e : Int} {hm : 0 < m} (he : e < 972) :
    (Float.Model.pack (.finite s m e hm)).isFinite = true := by
  change (UnpackedFloat.unpack .binary64
    (UnpackedFloat.pack .binary64 (.finite s m e hm))).isFinite = true
  have hbias : Format.binary64.exponentBias = 1023 := rfl
  rw [isFinite_unpack, UnpackedFloat.pack]
  simp only [hbias]
  generalize hb : (e + (1023 : Nat) + (52 : Nat)).toNat = b
  have hfits : ¬ 2 ^ 11 ≤ b + 1 := by omega
  rw [if_neg hfits]
  split
  · rw [unpackExponent_packComponents]
    intro hones
    have := congrArg BitVec.toNat hones
    simp at this
    omega
  · rw [unpackExponent_packComponents]
    decide

theorem isFinite_pack_zero (s : Sign) : (Float.Model.pack (.zero s)).isFinite = true := by
  cases s <;> decide +kernel

theorem mantissa_shiftRight (n k : Nat) : (uncut n >>> k).mantissa = n / 2 ^ k := by
  cases k with
  | zero => exact (Nat.div_one n).symm
  | succ k => rw [shiftRight_succ]

theorem roundedMantissa_le (em : ExtendedMantissa) : em.roundedMantissa ≤ em.mantissa + 1 := by
  obtain ⟨m, round, sticky⟩ := em
  have hodd : m % 2 ≤ 1 := Nat.le_of_lt_succ (Nat.mod_lt m Nat.two_pos)
  cases round with
  | false =>
    rw [roundedMantissa_below]
    exact Nat.le_succ m
  | true =>
    cases sticky with
    | false => exact Nat.add_le_add_left hodd m
    | true => exact Nat.le_refl _

theorem exponent_shiftToTargetExponent (m : Nat) (e : Int) :
    (shiftToTargetExponent .binary64 m e .exact).2 =
      Max.max e (Max.max ((m.log2 : Int) - 52 + e) (-1074)) := by
  simp only [shiftToTargetExponent, shiftToExponent, targetExponent_eq]
  omega

theorem roundedMantissa_shiftToTargetExponent_le (m : Nat) (e : Int) :
    (shiftToTargetExponent .binary64 m e .exact).1.roundedMantissa ≤ 2 ^ 53 := by
  simp only [shiftToTargetExponent, shiftToExponent, targetExponent_eq]
  generalize hk : (Max.max ((m.log2 : Int) - 52 + e) (-1074) - e).toNat = k
  have hlog : m.log2 + 1 ≤ 53 + k := by omega
  have hlt : m < 2 ^ 53 * 2 ^ k := by
    rw [← Nat.pow_add]
    exact Nat.lt_of_lt_of_le Nat.lt_log2_self (Nat.pow_le_pow_right (by decide) hlog)
  calc (uncut m >>> k).roundedMantissa
      ≤ m / 2 ^ k + 1 := mantissa_shiftRight m k ▸ roundedMantissa_le _
    _ ≤ 2 ^ 53 := Nat.div_lt_of_lt_mul (by rwa [Nat.mul_comm])

theorem isFinite_roundWithAccuracy {s : Sign} {m : Nat} {e : Int} (he : e ≤ 970)
    (h : totalExponent m e ≤ 1023) :
    (Float.Model.pack (roundWithAccuracy .binary64 s m e .exact)).isFinite = true := by
  -- The first cut raises the exponent to the one that 53 digits ask for, and the second by one
  -- more, after a carry.
  have hfirst := exponent_shiftToTargetExponent m e
  have hle := roundedMantissa_shiftToTargetExponent_le m e
  unfold roundWithAccuracy
  simp only
  generalize shiftToTargetExponent .binary64 m e .exact = first at *
  have hcarry : first.1.roundedMantissa.log2 ≤ 53 := by
    by_cases hzero : first.1.roundedMantissa = 0
    · simp [hzero]
    · exact Nat.le_of_lt_succ ((Nat.log2_lt hzero).2 (Nat.lt_of_le_of_lt hle (by decide)))
  have hsecond := exponent_shiftToTargetExponent first.1.roundedMantissa first.2
  split
  · exact isFinite_pack_zero s
  · apply isFinite_pack
    unfold totalExponent at h
    omega

theorem log2_shiftLeft {m : Nat} (hm : 0 < m) (k : Nat) : (m <<< k).log2 = m.log2 + k := by
  rw [Nat.shiftLeft_eq]
  apply log2_eq_of_bounds
  · rw [Nat.pow_add]
    exact Nat.mul_le_mul_right _ (Nat.log2_self_le hm.ne')
  · rw [Nat.add_right_comm, Nat.pow_add]
    exact Nat.mul_lt_mul_of_pos_right Nat.lt_log2_self (Nat.two_pow_pos k)

theorem isFinite_round {s : Sign} {m : Nat} {e : Int} (hm : 0 < m) (h : totalExponent m e ≤ 1023) :
    (Float.Model.pack (UnpackedFloat.round .binary64 s m e)).isFinite = true := by
  -- Lowering the exponent in front of the cut leaves the place of the first digit as it is.
  unfold UnpackedFloat.round UnpackedFloat.decreaseExponent
  simp only [targetExponent_eq]
  generalize hk : (e - Max.max ((m.log2 : Int) - 52 + e) (-1074)).toNat = k
  have hlog := log2_shiftLeft hm k
  unfold totalExponent at h
  apply isFinite_roundWithAccuracy
  · omega
  · rw [totalExponent, hlog]
    omega

theorem isFinite_ofInt {n : Int} (h : n.natAbs ≤ 2 ^ 64) : (ofInt n).isFinite = true := by
  have htotal (hn : n ≠ 0) : totalExponent n.natAbs 0 ≤ 1023 := by
    have hlog : n.natAbs.log2 < 65 :=
      (Nat.log2_lt (Int.natAbs_ne_zero.2 hn)).2 (Nat.lt_of_le_of_lt h (by decide))
    unfold totalExponent
    omega
  change (Float.Model.pack (UnpackedFloat.ofInt .binary64 n)).isFinite = true
  unfold UnpackedFloat.ofInt UnpackedFloat.normalize
  split
  · rename_i hneg
    rw [Int.compare_eq_lt] at hneg
    have habs : (-n).toNat = n.natAbs := by omega
    rw [habs]
    exact isFinite_round (by omega) (htotal hneg.ne)
  · exact isFinite_pack_zero .positive
  · rename_i hpos
    rw [Int.compare_eq_gt] at hpos
    have habs : n.toNat = n.natAbs := by omega
    rw [habs]
    exact isFinite_round (by omega) (htotal hpos.ne')

theorem bounds_single {b : BitVec Format.binary32.numBits} {s : Sign} {m : Nat} {e : Int}
    {hm : 0 < m} (h : UnpackedFloat.unpack .binary32 b = .finite s m e hm) :
    m < 2 ^ 24 ∧ -149 ≤ e ∧ e ≤ 105 := by
  have hbias : Format.binary32.exponentBias = 127 := rfl
  have hexponent : (unpackExponent b).toNat < 256 := BitVec.isLt _
  unfold UnpackedFloat.unpack at h
  simp only [hbias] at h
  split at h
  · split at h <;> cases h
  · split at h
    · rename_i hnone
      have hzero : (unpackExponent b).toNat = 0 := congrArg BitVec.toNat hnone
      have hmantissa : (UnpackedFloat.unpackMantissa b).toNat < 2 ^ 23 := BitVec.isLt _
      split at h
      · cases h
      · cases h
        omega
    · rename_i hsome
      have hpositive : (unpackExponent b).toNat ≠ 0 := fun hz => hsome (BitVec.eq_of_toNat_eq hz)
      have hmantissa : (1#1 ++ UnpackedFloat.unpackMantissa b).toNat < 2 ^ 24 := BitVec.isLt _
      cases h
      omega

theorem totalExponent_single {b : BitVec Format.binary32.numBits} {s : Sign} {m : Nat} {e : Int}
    {hm : 0 < m} (h : UnpackedFloat.unpack .binary32 b = .finite s m e hm) :
    totalExponent m e ≤ 1023 := by
  obtain ⟨hlt, -, hmost⟩ := bounds_single h
  have hlog : m.log2 < 24 := (Nat.log2_lt hm.ne').2 hlt
  unfold totalExponent
  omega

theorem isFinite_ofSingle (x : Float32) : (ofSingle x).isFinite = x.isFinite := by
  change (Float.Model.pack _).isFinite = x.toModel.unpack.isFinite
  cases hunpack : x.toModel.unpack with
  | finite s m e hm => exact isFinite_round hm (totalExponent_single hunpack)
  | zero s => exact isFinite_pack_zero s
  | infinity s => cases s <;> decide +kernel
  | notANumber => decide +kernel

theorem isFinite_of_pack {x : UnpackedFloat} (h : (Float.Model.pack x).isFinite = true) :
    x.isFinite = true := by
  cases x with
  | zero | finite => rfl
  | infinity s => cases s <;> cases h
  | notANumber => cases h

section

variable {x y : UnpackedFloat}

theorem isFinite_of_unpacked_add (h : (UnpackedFloat.add .binary64 x y).isFinite = true) :
    x.isFinite = true ∧ y.isFinite = true := by
  cases x with
  | notANumber => cases h
  | infinity s =>
    cases y with
    | infinity s' => cases s <;> cases s' <;> cases h
    | notANumber | zero | finite => cases h
  | zero | finite =>
    cases y with
    | infinity | notANumber => cases h
    | zero | finite => exact ⟨rfl, rfl⟩

theorem isFinite_of_unpacked_mul (h : (UnpackedFloat.mul .binary64 x y).isFinite = true) :
    x.isFinite = true ∧ y.isFinite = true := by
  cases x with
  | notANumber => cases h
  | infinity => cases y <;> cases h
  | zero | finite =>
    cases y with
    | infinity | notANumber => cases h
    | zero | finite => exact ⟨rfl, rfl⟩

end

section

variable {x y : Float}

theorem isFinite_of_add (h : (x + y).isFinite = true) : x.isFinite = true ∧ y.isFinite = true :=
  isFinite_of_unpacked_add (isFinite_of_pack h)

theorem isFinite_of_mul (h : (x * y).isFinite = true) : x.isFinite = true ∧ y.isFinite = true :=
  isFinite_of_unpacked_mul (isFinite_of_pack h)

end

end Rollup.Double
