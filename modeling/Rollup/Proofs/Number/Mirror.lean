import Rollup.Proofs.Number.Quotient

namespace Rollup.Double

open Float.Model UnpackedFloat

theorem roundWithAccuracy_neg (s : Sign) (m : Nat) (e : Int) (acc : Accuracy) :
    roundWithAccuracy .binary64 (-s) m e acc = (roundWithAccuracy .binary64 s m e acc).neg := by
  simp only [roundWithAccuracy]
  split <;> rfl

theorem unpack_packComponents_neg (s : Sign) (exponent : BitVec Format.binary64.exponentBits)
    (mantissa : BitVec Format.binary64.mantissaBitsWithoutImplicit) :
    UnpackedFloat.unpack .binary64 (packComponents .binary64 (-s) exponent mantissa) =
      (UnpackedFloat.unpack .binary64 (packComponents .binary64 s exponent mantissa)).neg := by
  simp only [UnpackedFloat.unpack, unpackExponent_packComponents, unpackMantissa_packComponents,
    ofBitVec_unpackSign]
  split_ifs <;> rfl

theorem unpack_pack_neg (x : UnpackedFloat) :
    (Float.Model.pack x.neg).unpack = (Float.Model.pack x).unpack.neg := by
  change UnpackedFloat.unpack .binary64 (UnpackedFloat.pack .binary64 x.neg) =
    (UnpackedFloat.unpack .binary64 (UnpackedFloat.pack .binary64 x)).neg
  cases x with
  | notANumber => rfl
  | infinity s => exact unpack_packComponents_neg s _ _
  | zero s => exact unpack_packComponents_neg s _ _
  | finite s m e hm =>
    simp only [UnpackedFloat.neg, UnpackedFloat.pack]
    split_ifs <;> exact unpack_packComponents_neg s _ _

theorem pack_unpack (x : Float.Model) : Float.Model.pack x.unpack = x := by
  obtain ⟨⟨bits⟩, hvalid⟩ := x
  have hbits : UnpackedFloat.pack .binary64 (UnpackedFloat.unpack .binary64 bits) = bits :=
    pack_unpack_of_valid hvalid
  simp only [Float.Model.pack, Float.Model.unpack, hbits]

theorem neg_pack (x : UnpackedFloat) : -Float.ofModel (.pack x) = .ofModel (.pack x.neg) := by
  change Float.ofModel (.pack (Float.Model.pack x).unpack.neg) = _
  rw [← unpack_pack_neg, pack_unpack]

theorem neg_neg_unpacked (x : UnpackedFloat) : x.neg.neg = x := by
  have hsign (s : Sign) : - -s = s := by cases s <;> rfl
  cases x <;> simp only [UnpackedFloat.neg, hsign]

section

variable (x y : Float)

theorem unpack_neg : (-x).toModel.unpack = x.toModel.unpack.neg := by
  change (Float.Model.pack x.toModel.unpack.neg).unpack = _
  rw [unpack_pack_neg, pack_unpack]

theorem neg_neg_eq : - -x = x := by
  change Float.ofModel (.pack (-x).toModel.unpack.neg) = x
  rw [unpack_neg, neg_neg_unpacked, pack_unpack]

theorem sub_eq_add_opposite : x - y = x + -y := by
  change Float.ofModel (.pack (.sub .binary64 x.toModel.unpack y.toModel.unpack)) =
    .ofModel (.pack (.add .binary64 x.toModel.unpack (-y).toModel.unpack))
  rw [sub_eq_add, unpack_neg]

theorem mul_comm_eq : x * y = y * x := by
  change Float.ofModel (.pack (.mul .binary64 x.toModel.unpack y.toModel.unpack)) =
    .ofModel (.pack (.mul .binary64 y.toModel.unpack x.toModel.unpack))
  congr 2
  have hsign (s s' : Sign) : s * s' = s' * s := by cases s <;> cases s' <;> rfl
  generalize x.toModel.unpack = x
  generalize y.toModel.unpack = y
  cases x <;> cases y <;> simp only [UnpackedFloat.mul, hsign, Nat.mul_comm, Int.add_comm]

theorem neg_mul_eq : -x * y = -(x * y) := by
  change Float.ofModel (.pack (.mul .binary64 (-x).toModel.unpack y.toModel.unpack)) =
    -Float.ofModel (.pack (.mul .binary64 x.toModel.unpack y.toModel.unpack))
  rw [neg_pack, unpack_neg]
  congr 2
  have hsign (s s' : Sign) : -s * s' = -(s * s') := by cases s <;> cases s' <;> rfl
  generalize x.toModel.unpack = x
  generalize y.toModel.unpack = y
  cases x <;> cases y <;> simp only [UnpackedFloat.mul, UnpackedFloat.neg,
    hsign, roundWithAccuracy_neg]

theorem mul_neg_eq : x * -y = -(x * y) := by
  rw [mul_comm_eq, neg_mul_eq, mul_comm_eq]

theorem neg_div_eq : -x / y = -(x / y) := by
  change Float.ofModel (.pack (.div .binary64 (-x).toModel.unpack y.toModel.unpack)) =
    -Float.ofModel (.pack (.div .binary64 x.toModel.unpack y.toModel.unpack))
  rw [neg_pack, unpack_neg]
  congr 2
  have hsign (s s' : Sign) : -s / s' = -(s / s') := by cases s <;> cases s' <;> rfl
  generalize x.toModel.unpack = x
  generalize y.toModel.unpack = y
  cases x <;> cases y <;> simp only [UnpackedFloat.div, UnpackedFloat.neg,
    hsign, roundWithAccuracy_neg]

end

theorem round_neg (s : Sign) (m : Nat) (e : Int) :
    UnpackedFloat.round .binary64 (-s) m e = (UnpackedFloat.round .binary64 s m e).neg :=
  roundWithAccuracy_neg s _ _ _

theorem normalize_neg {z : Int} (hz : z ≠ 0) (e : Int) (zeroSign : Sign) :
    UnpackedFloat.normalize .binary64 (-z) e zeroSign =
      (UnpackedFloat.normalize .binary64 z e zeroSign).neg := by
  unfold UnpackedFloat.normalize
  rcases Int.lt_or_gt_of_ne hz with hneg | hpos
  · rw [Int.compare_eq_lt.2 hneg, Int.compare_eq_gt.2 (by omega)]
    exact round_neg .negative _ _
  · rw [Int.compare_eq_gt.2 hpos, Int.compare_eq_lt.2 (by omega), Int.neg_neg]
    exact round_neg .positive _ _

theorem value_pack_neg (x : UnpackedFloat) :
    value (.ofModel (.pack x.neg)) = -value (.ofModel (.pack x)) := by
  change valueOf (Float.Model.pack x.neg).unpack = -valueOf (Float.Model.pack x).unpack
  rw [unpack_pack_neg, valueOf_neg]

theorem value_neg_add_neg (x y : Float) : value (-x + -y) = -value (x + y) := by
  change value (.ofModel (.pack (.add .binary64 (-x).toModel.unpack (-y).toModel.unpack))) =
    -value (.ofModel (.pack (.add .binary64 x.toModel.unpack y.toModel.unpack)))
  have hzero (s s' : Sign) : value (.ofModel (.pack (.zero s))) =
      value (.ofModel (.pack (.zero s'))) := by
    rw [(hasValue_pack_zero s).value_eq, (hasValue_pack_zero s').value_eq]
  rw [unpack_neg, unpack_neg, ← value_pack_neg]
  generalize x.toModel.unpack = x
  generalize y.toModel.unpack = y
  cases x with
  | notANumber => rfl
  | infinity s =>
    cases y with
    | infinity s' => cases s <;> cases s' <;> rfl
    | notANumber | zero | finite => rfl
  | zero s =>
    cases y with
    | zero s' => cases s <;> cases s' <;> exact hzero _ _
    | notANumber | infinity | finite => rfl
  | finite s m e hm =>
    cases y with
    | notANumber | infinity | zero => rfl
    | finite s' m' e' hm' =>
      have hneg (s : Sign) (n : Int) : (-s).apply n = -s.apply n := by cases s <;> simp [Sign.apply]
      have hsum (a b : Int) : -a + -b = -(a + b) := (Int.neg_add).symm
      simp only [UnpackedFloat.add, UnpackedFloat.neg, hneg, hsum]
      generalize s.apply _ + s'.apply _ = z
      rcases eq_or_ne z 0 with rfl | hz
      · exact hzero .positive .negative
      · rw [normalize_neg hz]
        rfl

def signed : Sign → Float → Float
  | .positive, x => x
  | .negative, x => -x

/-- Finite doubles that are the same but for a sign, where the sign of a zero does not count. -/
structure Mirror (s : Sign) (x x' : Float) : Prop where
  isFinite : x.isFinite = true
  isFinite' : x'.isFinite = true
  value_eq : value x' = s.apply 1 * value x

section

variable (s s' : Sign) (x y : Float)

theorem value_neg : value (-x) = -value x := by
  change valueOf (-x).toModel.unpack = _
  rw [unpack_neg, valueOf_neg]
  rfl

theorem value_signed : value (signed s x) = s.apply 1 * value x := by
  cases s with
  | negative => simp [signed, value_neg, Sign.apply]
  | positive => simp [signed, Sign.apply]

theorem isFinite_signed : (signed s x).isFinite = x.isFinite := by
  cases s with
  | positive => rfl
  | negative =>
    change (-x).toModel.unpack.isFinite = x.toModel.unpack.isFinite
    rw [unpack_neg]
    cases x.toModel.unpack <;> rfl

theorem value_signed_add : value (signed s x + signed s y) = s.apply 1 * value (x + y) := by
  cases s with
  | negative => simp [signed, value_neg_add_neg, Sign.apply]
  | positive => simp [signed, Sign.apply]

theorem signed_mul : signed s x * signed s' y = signed (s * s') (x * y) := by
  cases s <;> cases s'
  · change -x * -y = x * y
    rw [neg_mul_eq, mul_neg_eq, neg_neg_eq]
  · exact neg_mul_eq x y
  · exact mul_neg_eq x y
  · rfl

theorem signed_div : signed s x / y = signed s (x / y) := by
  cases s
  · exact neg_div_eq x y
  · rfl

end

theorem isFinite_of_sub {x y : Float} (h : (x - y).isFinite = true) :
    x.isFinite = true ∧ y.isFinite = true := by
  rw [sub_eq_add_opposite] at h
  obtain ⟨hx, hy⟩ := isFinite_of_add h
  exact ⟨hx, (isFinite_signed .negative y).symm.trans hy⟩

namespace Mirror

variable {s s' : Sign} {x x' y y' : Float}

theorem of_value (h : x.isFinite = true) (hnum : x'.isNaN = false)
    (hvalue : value x' = s.apply 1 * value x) :
    Mirror s x x' := by
  refine ⟨h, isFinite_iff.2 ⟨hnum, ?_⟩, hvalue⟩
  rw [hvalue, abs_mul, abs_apply_one, one_mul]
  exact (isFinite_iff.1 h).2

theorem of_signed (s : Sign) (h : x.isFinite = true) : Mirror s x (signed s x) :=
  ⟨h, (isFinite_signed s x).trans h, value_signed s x⟩

theorem value_eq_zero (h : Mirror s x x') (hzero : value x = 0) : value x' = 0 := by
  rw [h.value_eq, hzero, mul_zero]

theorem eq_signed (h : Mirror s x x') (hne : value x ≠ 0) : x' = signed s x := by
  have hvalue : value x' = value (signed s x) := h.value_eq.trans (value_signed s x).symm
  have hsigned := (isFinite_signed s x).trans h.isFinite
  refine eq_of_value_eq (isFinite_iff.1 h.isFinite').1 (isFinite_iff.1 hsigned).1 hvalue ?_
  rw [h.value_eq]
  exact mul_ne_zero (abs_pos.1 (by rw [abs_apply_one]; exact one_pos)) hne

theorem add (hx : Mirror s x x') (hy : Mirror s y y') (h : (x + y).isFinite = true) :
    Mirror s (x + y) (x' + y') := by
  have hnearest := isNearest_add hx.isFinite hy.isFinite
  have hnearest' := isNearest_add hx.isFinite' hy.isFinite'
  refine of_value h hnearest'.isNumber ?_
  by_cases hzero : value x = 0
  · rw [hzero, zero_add] at hnearest
    rw [hx.value_eq_zero hzero, zero_add] at hnearest'
    rw [hnearest.value_eq (isFinite_iff.1 hy.isFinite).1,
      hnearest'.value_eq (isFinite_iff.1 hy.isFinite').1, hy.value_eq]
  by_cases hzero' : value y = 0
  · rw [hzero', add_zero] at hnearest
    rw [hy.value_eq_zero hzero', add_zero] at hnearest'
    rw [hnearest.value_eq (isFinite_iff.1 hx.isFinite).1,
      hnearest'.value_eq (isFinite_iff.1 hx.isFinite').1, hx.value_eq]
  rw [hx.eq_signed hzero, hy.eq_signed hzero', value_signed_add]

theorem neg (h : Mirror s x x') : Mirror s (-x) (-x') := by
  refine of_value ((isFinite_signed .negative x).trans h.isFinite)
    (isFinite_iff.1 ((isFinite_signed .negative x').trans h.isFinite')).1 ?_
  rw [value_neg, value_neg, h.value_eq, mul_neg]

theorem sub (hx : Mirror s x x') (hy : Mirror s y y') (h : (x - y).isFinite = true) :
    Mirror s (x - y) (x' - y') := by
  rw [sub_eq_add_opposite] at h ⊢
  rw [sub_eq_add_opposite]
  exact hx.add hy.neg h

theorem mul (hx : Mirror s x x') (hy : Mirror s' y y') (h : (x * y).isFinite = true) :
    Mirror (s * s') (x * y) (x' * y') := by
  have hnearest := isNearest_mul hx.isFinite hy.isFinite
  have hnearest' := isNearest_mul hx.isFinite' hy.isFinite'
  refine of_value h hnearest'.isNumber ?_
  by_cases hzero : value x * value y = 0
  · have hzero' : value x' * value y' = 0 := by
      rw [hx.value_eq, hy.value_eq, mul_mul_mul_comm, hzero, mul_zero]
    rw [hzero] at hnearest
    rw [hzero'] at hnearest'
    rw [hnearest.eq_zero, hnearest'.eq_zero, mul_zero]
  · obtain ⟨hne, hne'⟩ := mul_ne_zero_iff.1 hzero
    rw [hx.eq_signed hne, hy.eq_signed hne', signed_mul, value_signed]

theorem div (hx : Mirror s x x') (hy : y.isNaN = false) (hne : value y ≠ 0)
    (h : (x / y).isFinite = true) :
    Mirror s (x / y) (x' / y) := by
  by_cases hzero : value x = 0
  · obtain ⟨-, hvalue⟩ := hasValue_zero_div hx.isFinite hzero hy hne
    obtain ⟨hnum, hvalue'⟩ := hasValue_zero_div hx.isFinite' (hx.value_eq_zero hzero) hy hne
    exact of_value h hnum (by rw [hvalue, hvalue', mul_zero])
  · rw [hx.eq_signed hzero, signed_div]
    exact of_signed s h

end Mirror

end Rollup.Double
