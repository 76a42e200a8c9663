import Rollup.Proofs.Aggregate.Pearson
import Rollup.Proofs.Number.Mirror
import Rollup.Proofs.Number.Root

/-!
The correlation of a stream with itself, in doubles.

Both coordinates are rounded alike, so that the co-moments stay the same, or opposite
(`mirrored_addAll`). Then the correlation is the quotient of the sum of squares by the root of its
square. The square need not be in range, though, and only where it is the correlation is perfect
(`coefficient_of_self`).
-/

namespace Rollup.Comoments

open Double
open Float.Model.UnpackedFloat (Sign)

structure Approach (x mean count : Float) : Prop where
  isNumber : count.isNaN = false
  isFinite_before : (x - mean).isFinite = true
  isFinite_after : (x - (mean + (x - mean) / count)).isFinite = true
  shares : 2 ≤ value count ∨ 1 ≤ value count ∧ value (x - mean) = value x - value mean

namespace Approach

variable {x mean count : Float} (h : Approach x mean count)

include h

theorem isFinite : x.isFinite = true := (isFinite_of_sub h.isFinite_after).1

theorem isFinite_mean : mean.isFinite = true := (isFinite_of_sub h.isFinite_before).2

theorem isFinite_next : (mean + (x - mean) / count).isFinite = true :=
  (isFinite_of_sub h.isFinite_after).2

theorem isFinite_share : ((x - mean) / count).isFinite = true := (isFinite_of_add h.isFinite_next).2

theorem isNearest_before : IsNearest (value x - value mean) (x - mean) :=
  isNearest_sub h.isFinite h.isFinite_mean

theorem count_pos : 0 < value count := by
  rcases h.shares with hle | ⟨hle, -⟩ <;> linarith

theorem half_le (hlt : value mean < value x) :
    ∃ y v, HasValue y v ∧ value (x - mean) / 2 ≤ v ∧ v ≤ value x - value mean := by
  obtain ⟨k, hlower, hupper⟩ := exists_mem_Ico_zpow (sub_pos.2 hlt) one_lt_two
  have hleast : -1074 ≤ k := by
    have hgrid : IsMultiple (-1074) (value x) := isMultiple_value (.inl rfl)
    have hle := (isMultiple_value (.inl rfl)).add_le hgrid hlt
    have hpow : (2 : ℚ) ^ (-1074 : Int) < 2 ^ (k + 1) := by linarith
    rw [zpow_lt_zpow_iff_right₀ one_lt_two] at hpow
    omega
  have hmost : k < 1024 := by
    by_contra hge
    have hlimit : limit ≤ value x - value mean := by
      rw [limit_eq]
      exact (zpow_le_zpow_right₀ one_le_two (by omega)).trans hlower
    exact absurd h.isFinite_before (Bool.eq_false_iff.1 (h.isNearest_before.not_isFinite hlimit))
  obtain ⟨y, hy⟩ := exists_hasValue_two_zpow hleast hmost.le
  obtain ⟨z, hz⟩ := exists_hasValue_two_zpow (k := k + 1) (by omega) (by omega)
  have hle := h.isNearest_before.le_of_hasValue hz hupper.le
  rw [two_zpow_add, zpow_one] at hle
  exact ⟨y, _, hy, by linarith, hlower⟩

theorem nonneg_before (hle : value mean ≤ value x) : 0 ≤ value (x - mean) :=
  h.isNearest_before.nonneg (sub_nonneg.2 hle)

theorem share_le (hle : value mean ≤ value x) :
    value ((x - mean) / count) ≤ value x - value mean := by
  have hnonneg := h.nonneg_before hle
  cases hfinite : count.isFinite with
  | false =>
    rw [(hasValue_div_infinity h.isFinite_before h.isNumber hfinite).value_eq]
    exact sub_nonneg.2 hle
  | true =>
    have hnearest := isNearest_div h.isFinite_before hfinite h.count_pos.ne'
    rcases h.shares with htwo | ⟨hone, hexact⟩
    · rcases hle.eq_or_lt with heq | hlt
      · have hzero : value (x - mean) = 0 := by
          have := h.isNearest_before
          rw [heq, sub_self] at this
          exact this.eq_zero
        rw [hzero, zero_div] at hnearest
        rw [hnearest.eq_zero, heq, sub_self]
      · obtain ⟨y, v, hy, hhalf, hle⟩ := h.half_le hlt
        exact (hnearest.le_of_hasValue hy ((div_le_div_of_nonneg_left hnonneg two_pos htwo).trans
          hhalf)).trans hle
    · rw [← hexact]
      exact hnearest.value_le (isFinite_iff.1 h.isFinite_before).1 (div_le_self hnonneg hone)

theorem nonneg_after (hle : value mean ≤ value x) :
    0 ≤ value (x - (mean + (x - mean) / count)) := by
  have hnext := (isNearest_add h.isFinite_mean h.isFinite_share).value_le
    (isFinite_iff.1 h.isFinite).1
    (by linarith [h.share_le hle])
  exact (isNearest_sub h.isFinite h.isFinite_next).nonneg (sub_nonneg.2 hnext)

theorem neg : Approach (-x) (-mean) count ∧ value (-x - -mean) = -value (x - mean) ∧
    value (-x - (-mean + (-x - -mean) / count)) = -value (x - (mean + (x - mean) / count)) := by
  have hbefore := (Mirror.of_signed .negative h.isFinite).sub (.of_signed .negative h.isFinite_mean)
    h.isFinite_before
  have hshare := hbefore.div h.isNumber h.count_pos.ne' h.isFinite_share
  have hnext := (Mirror.of_signed .negative h.isFinite_mean).add hshare h.isFinite_next
  have hafter := (Mirror.of_signed .negative h.isFinite).sub hnext h.isFinite_after
  have hneg (v : ℚ) : (Sign.negative.apply 1 : ℚ) * v = -v := by simp [Sign.apply]
  have hvalue : value (-x - -mean) = -value (x - mean) := hbefore.value_eq.trans (hneg _)
  refine ⟨⟨h.isNumber, hbefore.isFinite', hafter.isFinite', h.shares.imp_right fun hone =>
    ⟨hone.1, ?_⟩⟩, hvalue, hafter.value_eq.trans (hneg _)⟩
  rw [value_neg, value_neg, hvalue, hone.2]
  ring

theorem product_nonneg : 0 ≤ value ((x - mean) * (x - (mean + (x - mean) / count))) := by
  refine (isNearest_mul h.isFinite_before h.isFinite_after).nonneg ?_
  rcases le_total (value mean) (value x) with hle | hle
  · exact mul_nonneg (h.nonneg_before hle) (h.nonneg_after hle)
  · obtain ⟨h', hbefore, hafter⟩ := h.neg
    have hle : value (-mean) ≤ value (-x) := by
      rw [value_neg, value_neg]
      exact neg_le_neg hle
    rw [← neg_mul_neg, ← hbefore, ← hafter]
    exact mul_nonneg (h'.nonneg_before hle) (h'.nonneg_after hle)

end Approach

/-- Co-moments of pairs whose coordinates are the same, or opposite. -/
structure Mirrored (s : Sign) (m : Comoments Float) : Prop where
  mean : Mirror s m.meanX m.meanY
  squares : Mirror .positive m.squaresX m.squaresY
  products : Mirror s m.squaresX m.products
  nonneg : 0 ≤ value m.squaresX
  mean_eq_zero : m.count = 0 → value m.meanX = 0
  squares_eq_zero : m.count ≤ 1 → value m.squaresX = 0

theorem hasValue_ofNat_succ (n : Nat) :
    (ofNat (n + 1)).isNaN = false ∧ 1 ≤ value (ofNat (n + 1)) ∧
      (0 < n → 2 ≤ value (ofNat (n + 1))) := by
  have hnearest : IsNearest ((n + 1 : Nat) : Int) (ofNat (n + 1)) := isNearest_ofInt _
  refine ⟨hnearest.isNumber, ?_, fun hpos => ?_⟩
  · exact hnearest.ge_of_hasValue hasValue_one (by push_cast; linarith)
  · have htwo : HasValue (ofNat 2) 2 := by exact_mod_cast hasValue_ofNat (n := 2) (by decide)
    have hn : (1 : ℚ) ≤ n := mod_cast hpos
    exact hnearest.ge_of_hasValue htwo (by push_cast; linarith)

namespace Mirrored

variable {s : Sign} {m : Comoments Float}

theorem start (s : Sign) : Mirrored s Comoments.start := by
  have hzero : (ofNat 0).isFinite = true := isFinite_ofNat (by decide)
  have hvalue : value (ofNat 0) = 0 := hasValue_zero.value_eq
  have hmirror (s : Sign) : Mirror s (ofNat 0) (ofNat 0) := ⟨hzero, hzero, by rw [hvalue, mul_zero]⟩
  exact ⟨hmirror s, hmirror _, hmirror s, hvalue.ge, fun _ => hvalue, fun _ => hvalue⟩

section

variable (h : Mirrored s m) {x : Float} (hfinite : (m.add x (signed s x)).squaresX.isFinite = true)

include h hfinite

theorem approach : Approach x m.meanX (ofNat (m.count + 1)) := by
  obtain ⟨-, hproduct⟩ := isFinite_of_add hfinite
  obtain ⟨hbefore, hafter⟩ := isFinite_of_mul hproduct
  obtain ⟨hnum, hone, htwo⟩ := hasValue_ofNat_succ m.count
  refine ⟨hnum, hbefore, hafter, ?_⟩
  rcases Nat.eq_zero_or_pos m.count with hzero | hpos
  · refine .inr ⟨hone, ?_⟩
    have hx := (isFinite_of_sub hbefore).1
    have hnearest := isNearest_sub hx h.mean.isFinite
    rw [h.mean_eq_zero hzero, sub_zero] at hnearest ⊢
    exact hnearest.value_eq (isFinite_iff.1 hx).1
  · exact .inl (htwo hpos)

theorem squares_add_eq_zero (hzero : m.count = 0) : value (m.add x (signed s x)).squaresX = 0 := by
  have ha := h.approach hfinite
  obtain ⟨hsquares, hproduct⟩ := isFinite_of_add hfinite
  have hcount : value (ofNat (m.count + 1)) = 1 := hzero ▸ hasValue_one.value_eq
  have hcount' : (ofNat (m.count + 1)).isFinite = true := hzero ▸ isFinite_ofNat (by decide)
  have hnum := (isFinite_iff.1 ha.isFinite).1
  have hbefore := ha.isNearest_before
  rw [h.mean_eq_zero hzero, sub_zero] at hbefore
  have hbefore := hbefore.value_eq hnum
  have hshare := isNearest_div ha.isFinite_before hcount' ha.count_pos.ne'
  rw [hbefore, hcount, div_one] at hshare
  have hnext := isNearest_add ha.isFinite_mean ha.isFinite_share
  rw [h.mean_eq_zero hzero, hshare.value_eq hnum, zero_add] at hnext
  have hafter := isNearest_sub ha.isFinite ha.isFinite_next
  rw [hnext.value_eq hnum, sub_self] at hafter
  have hzero' := isNearest_mul ha.isFinite_before ha.isFinite_after
  rw [hafter.eq_zero, mul_zero] at hzero'
  have hsum := isNearest_add hsquares hproduct
  rw [h.squares_eq_zero (by omega), zero_add] at hsum
  exact (hsum.value_eq hzero'.isNumber).trans hzero'.eq_zero

theorem add : Mirrored s (m.add x (signed s x)) := by
  have ha := h.approach hfinite
  obtain ⟨hsquares, hproduct⟩ := isFinite_of_add hfinite
  have hbefore := (Mirror.of_signed s ha.isFinite).sub h.mean ha.isFinite_before
  have hnext := h.mean.add (hbefore.div ha.isNumber ha.count_pos.ne' ha.isFinite_share)
    ha.isFinite_next
  have hafter := (Mirror.of_signed s ha.isFinite).sub hnext ha.isFinite_after
  have hself : s * s = .positive := by cases s <;> rfl
  have hone : Sign.positive * s = s := by cases s <;> rfl
  have hsquare := hbefore.mul hafter hproduct
  have hproducts := (Mirror.of_signed .positive ha.isFinite_before).mul hafter hproduct
  rw [hself] at hsquare
  rw [hone] at hproducts
  refine ⟨hnext, h.squares.add hsquare hfinite, h.products.add hproducts hfinite, ?_, nofun,
    fun hle => h.squares_add_eq_zero hfinite (Nat.le_zero.1 (Nat.le_of_succ_le_succ hle))⟩
  exact (isNearest_add hsquares hproduct).nonneg (add_nonneg h.nonneg ha.product_nonneg)

end

end Mirrored

theorem mirrored_addAll (s : Sign) {samples : List Float}
    (hfinite : (start.addAll (samples.map fun x => (x, signed s x))).squaresX.isFinite = true) :
    Mirrored s (start.addAll (samples.map fun x => (x, signed s x))) := by
  induction samples using List.reverseRecOn with
  | nil => exact .start s
  | append_singleton samples x ih =>
    rw [List.map_append, List.map_singleton, addAll_concat] at hfinite ⊢
    exact (ih (isFinite_of_add hfinite).1).add hfinite

namespace Mirrored

variable {s : Sign} {m : Comoments Float} (h : Mirrored s m) (hne : value m.squaresX ≠ 0)

include h hne

theorem coefficient_eq : m.coefficient =
    clamp (ofNat 0 - ofNat 1) (ofNat 1)
    (signed s (m.squaresX / (m.squaresX * m.squaresX).sqrt)) := by
  have hnum := (isFinite_iff.1 h.squares.isFinite).1
  have hcount : ¬ m.count < 2 := fun hlt => hne (h.squares_eq_zero (by omega))
  have hvaries : ¬ (m.squaresX == ofNat 0) = true := by
    rwa [beq_iff hnum hasValue_zero.isNumber, hasValue_zero.value_eq]
  have hsquares : m.squaresY = m.squaresX := h.squares.eq_signed hne
  have hsome : m.coefficient? Float.sqrt =
      some (clamp (ofNat 0 - ofNat 1) (ofNat 1) (m.products / (m.squaresX * m.squaresY).sqrt)) := by
    refine if_neg ?_
    rw [hsquares]
    simp only [Bool.or_eq_true, decide_eq_true_eq, not_or]
    exact ⟨⟨hcount, hvaries⟩, hvaries⟩
  rw [coefficient, hsome, Option.getD_some, hsquares, h.products.eq_signed hne, signed_div]

theorem hasValue_coefficient : HasValue m.coefficient
    (s.apply 1 * Min.min 1 (value (m.squaresX / (m.squaresX * m.squaresX).sqrt))) := by
  obtain ⟨hnum, hnonneg, -⟩ := quotient_by_root h.squares.isFinite (h.nonneg.lt_of_ne' hne)
  have hlower : HasValue (ofNat 0 - ofNat 1) (-1) := by
    have hfinite (n : Nat) (hn : n ≤ 2 ^ 64) : (ofNat n).isFinite = true := isFinite_ofNat hn
    have hdifference := isNearest_sub (hfinite 0 (by decide)) (hfinite 1 (by decide))
    have hminus : HasValue (ofInt (-1)) (-1) := by
      exact_mod_cast hasValue_ofInt (n := -1) (by decide)
    rw [hasValue_zero.value_eq, hasValue_one.value_eq, zero_sub] at hdifference
    exact ⟨hdifference.isNumber, hdifference.eq_of_hasValue hminus⟩
  have hsigned : (signed s (m.squaresX / (m.squaresX * m.squaresX).sqrt)).isNaN = false := by
    cases s with
    | negative => exact (hasValue_neg hnum).isNumber
    | positive => exact hnum
  have hclamp := hasValue_clamp hlower.isNumber hasValue_one.isNumber hsigned
    (by rw [hlower.value_eq, hasValue_one.value_eq]; norm_num)
  rw [hlower.value_eq, hasValue_one.value_eq, value_signed, ← h.coefficient_eq hne] at hclamp
  generalize value (m.squaresX / (m.squaresX * m.squaresX).sqrt) = p at *
  refine ⟨hclamp.isNumber, hclamp.value_eq.trans ?_⟩
  cases s with
  | negative =>
    have hle : Min.min 1 (-p) = -p := min_eq_right (by linarith [hnonneg])
    simp only [Sign.apply, Int.cast_neg, Int.cast_one, neg_one_mul]
    rw [hle, max_neg_neg]
  | positive =>
    simp only [Sign.apply, Int.cast_one, one_mul]
    exact max_eq_right (le_min (by norm_num) (by linarith))

theorem coefficient_eq_iff {y : Float} (hy : HasValue y (s.apply 1)) :
    m.coefficient = y ↔ ¬ m.squaresX < (m.squaresX * m.squaresX).sqrt := by
  have hcoefficient := h.hasValue_coefficient hne
  have hsign : (s.apply 1 : ℚ) ≠ 0 := abs_pos.1 (by rw [abs_apply_one]; exact one_pos)
  have hvalue : m.coefficient = y ↔ value m.coefficient = s.apply 1 :=
    ⟨fun heq => heq ▸ hy.value_eq, fun heq => eq_of_value_eq hcoefficient.isNumber hy.isNumber
      (heq.trans hy.value_eq.symm) (heq ▸ hsign)⟩
  rw [hvalue, hcoefficient.value_eq, mul_eq_left₀ hsign, min_eq_left_iff]
  exact (quotient_by_root h.squares.isFinite (h.nonneg.lt_of_ne' hne)).2.2

end Mirrored

theorem addAll_first (f g : Float → Float) (samples : List Float) :
    let m := start.addAll (samples.map fun x => (x, f x))
    let m' := start.addAll (samples.map fun x => (x, g x))
    m.count = m'.count ∧ m.meanX = m'.meanX ∧ m.squaresX = m'.squaresX := by
  induction samples using List.reverseRecOn with
  | nil => exact ⟨rfl, rfl, rfl⟩
  | append_singleton samples x ih =>
    obtain ⟨hcount, hmean, hsquares⟩ := ih
    simp only [List.map_append, List.map_singleton, addAll_concat, add, hcount,
      hmean, hsquares, and_self]

/-- Pairs of a sample with itself, or with its opposite, correlate perfectly unless the root of the
square of their sum of squares is rounded to a larger double. It is not where the square is in
range, or far below it. Where the square is above the range, there is no correlation at all. -/
theorem coefficient_of_self (samples : List Float)
    (hfinite : (start.addAll (samples.map fun x => (x, x))).squaresX.isFinite = true)
    (hvaries : ((start.addAll (samples.map fun x => (x, x))).squaresX == ofNat 0) = false) :
    let m := start.addAll (samples.map fun x => (x, x))
    let m' := start.addAll (samples.map fun x => (x, -x))
    let sum := value m.squaresX
    m'.squaresX = m.squaresX ∧ 0 < sum ∧
      (m.coefficient = ofInt 1 ↔ ¬ m.squaresX < (m.squaresX * m.squaresX).sqrt) ∧
      (m'.coefficient = ofInt (-1) ↔ ¬ m.squaresX < (m.squaresX * m.squaresX).sqrt) ∧
      (2 ^ (-511 : Int) ≤ sum ∧ sum < 2 ^ (512 : Int) ∨ sum ≤ 2 ^ (-538 : Int) →
        m.coefficient = ofInt 1 ∧ m'.coefficient = ofInt (-1)) ∧
      (2 ^ (512 : Int) ≤ sum → value m.coefficient = 0 ∧ value m'.coefficient = 0) := by
  intro m m' sum
  obtain ⟨-, -, heq⟩ : m'.count = m.count ∧ m'.meanX = m.meanX ∧ m'.squaresX = m.squaresX :=
    addAll_first _ _ samples
  have hm : Mirrored .positive m := mirrored_addAll .positive hfinite
  have hm' : Mirrored .negative m' := mirrored_addAll .negative (heq.symm ▸ hfinite)
  have hne : sum ≠ 0 := by
    rwa [Bool.eq_false_iff, ne_eq, beq_iff (isFinite_iff.1 hfinite).1 hasValue_zero.isNumber,
      hasValue_zero.value_eq]
      at hvaries
  have hne' : value m'.squaresX ≠ 0 := heq.symm ▸ hne
  have hpos : 0 < sum := hm.nonneg.lt_of_ne' hne
  have hone : HasValue (ofInt 1) (Sign.positive.apply 1) := hasValue_ofInt (by decide)
  have hminus : HasValue (ofInt (-1)) (Sign.negative.apply 1) := hasValue_ofInt (by decide)
  have hiff := hm.coefficient_eq_iff hne hone
  have hiff' := hm'.coefficient_eq_iff hne' hminus
  have hvalue := (hm.hasValue_coefficient hne).value_eq
  have hvalue' := (hm'.hasValue_coefficient hne').value_eq
  rw [heq] at hiff' hvalue'
  refine ⟨heq, hpos, hiff, hiff', fun hrange => ?_, fun hlarge => ?_⟩
  · have hroot := not_lt_root hfinite hpos hrange
    exact ⟨hiff.2 hroot, hiff'.2 hroot⟩
  · have hquotient := value_quotient_of_le hfinite hlarge
    rw [hquotient, min_eq_right zero_le_one, mul_zero] at hvalue hvalue'
    exact ⟨hvalue, hvalue'⟩

theorem coefficient_of_self_zero_one :
    (start.addAll ([ofNat 0, ofNat 1].map fun x => (x, x))).squaresX.isFinite = true ∧
      ((start.addAll ([ofNat 0, ofNat 1].map fun x => (x, x))).squaresX == ofNat 0) = false ∧
      (start.addAll ([ofNat 0, ofNat 1].map fun x => (x, x))).coefficient = ofInt 1 ∧
      (start.addAll ([ofNat 0, ofNat 1].map fun x => (x, -x))).coefficient = ofInt (-1) := by
  have hfinite : (start.addAll ([ofNat 0, ofNat 1].map fun x => (x, x))).squaresX.isFinite =
      true := by decide +kernel
  have hvaries :
      ((start.addAll ([ofNat 0, ofNat 1].map fun x => (x, x))).squaresX == ofNat 0) = false := by
    decide +kernel
  obtain ⟨-, -, hsame, hopposite, -⟩ := coefficient_of_self _ hfinite hvaries
  exact ⟨hfinite, hvaries, hsame.2 (by decide +kernel), hopposite.2 (by decide +kernel)⟩

end Rollup.Comoments
