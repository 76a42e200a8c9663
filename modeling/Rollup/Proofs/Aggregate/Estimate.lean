import Rollup.Proofs.Aggregate.Quantile
import Rollup.Proofs.Number.Interpolation

namespace Rollup.Double

theorem clamp_of_isNaN (lower upper : Float) {x : Float} (hx : x.isNaN = true) :
    (clamp lower upper x).isNaN = true := by
  have hlt (y : Float) : ¬ x < y := fun h =>
    Bool.false_ne_true ((not_isNaN_of_lt h).1.symm.trans hx)
  have hgt (y : Float) : ¬ y < x := fun h =>
    Bool.false_ne_true ((not_isNaN_of_lt h).2.symm.trans hx)
  rwa [clamp, if_neg (hlt _), if_neg (hgt _)]

theorem hasValue_clamp_fraction {x : Float} (hx : x.isNaN = false) :
    HasValue (clamp (ofNat 0) (ofNat 1) x) (Max.max 0 (Min.min 1 (value x))) := by
  obtain ⟨hzero, hvalue⟩ := hasValue_zero
  obtain ⟨hone, hvalue'⟩ := hasValue_one
  have hclamp := hasValue_clamp hzero hone hx (by rw [hvalue, hvalue']; exact zero_le_one)
  rwa [hvalue, hvalue'] at hclamp

theorem IsFraction.clamp {x : Float} (hx : x.isNaN = false) :
    IsFraction (clamp (ofNat 0) (ofNat 1) x) := by
  obtain ⟨hnum, hvalue⟩ := hasValue_clamp_fraction hx
  exact ⟨hnum, hvalue ▸ le_max_left _ _, hvalue ▸ max_le zero_le_one (min_le_left _ _)⟩

end Rollup.Double

namespace Rollup.Estimator

open Double (HasValue IsFraction IsNear value)

section

variable {quantile : Float} (capacity : Nat)

theorem quantile_start_of_isNaN (h : quantile.isNaN = true) :
    (start quantile capacity).quantile = Float.nan := by
  have hclamp := Double.clamp_of_isNaN (Double.ofNat 0) (Double.ofNat 1) h
  rw [Float.isNaN_eq_decide_eq_nan] at hclamp
  exact of_decide_eq_true hclamp

theorem isFraction_quantile_start (h : quantile.isNaN = false) :
    IsFraction (start quantile capacity).quantile :=
  .clamp h

end

theorem quantile_start (quantile : Float) (capacity : Nat) :
    (start quantile capacity).quantile = Float.nan ∨
      IsFraction (start quantile capacity).quantile := by
  cases h : quantile.isNaN with
  | true => exact .inl (quantile_start_of_isNaN capacity h)
  | false => exact .inr (isFraction_quantile_start capacity h)

section

variable {e : Estimator} {n : Nat}

theorem neighbours_of_nan (h : e.quantile = Float.nan) : e.neighbours n = (0, 0) := by
  have hposition : e.position n = Float.nan := by
    rw [position, h]
    rfl
  have hlower : Float.nan.toUInt64.toNat = 0 := rfl
  have hlt : ¬ Double.ofNat 0 < Float.nan := fun h =>
    Bool.false_ne_true (Double.not_isNaN_of_lt h).2.symm
  rw [neighbours, hposition, hlower, if_neg hlt]

variable (h : IsFraction e.quantile) (hn : n ≤ 2 ^ 53)

include h hn

theorem position_spec : (e.position n).isFinite = true ∧ 0 ≤ value (e.position n) ∧
    value (e.position n) ≤ (n - 1 : Nat) := by
  have hlast : HasValue (Double.ofNat (n - 1)) (n - 1 : Nat) := Double.hasValue_ofNat (by omega)
  obtain ⟨hzero, hvalue⟩ := Double.hasValue_zero
  have hfinite : (Double.ofNat (n - 1)).isFinite = true := Double.isFinite_ofNat (by omega)
  have hnearest := Double.isNearest_mul h.isFinite hfinite
  have hlimit := hnearest.isFinite_of_abs_le hfinite (by
    rw [abs_mul]
    exact mul_le_of_le_one_left (abs_nonneg _) h.abs_le_one)
  rw [hlast.value_eq] at hnearest
  have hnonneg :=
    hnearest.le_value hzero (hvalue.trans_le (mul_nonneg h.nonneg (Nat.cast_nonneg _)))
  have hle := hnearest.value_le hlast.isNumber
    ((mul_le_of_le_one_left (Nat.cast_nonneg _) h.le_one).trans_eq hlast.value_eq.symm)
  rw [hvalue] at hnonneg
  rw [hlast.value_eq] at hle
  exact ⟨hlimit, hnonneg, hle⟩

theorem neighbours_eq_floor_ceil {lower upper : Nat}
    (hneighbours : e.neighbours n = (lower, upper)) :
    (lower : Int) = ⌊value (e.position n)⌋ ∧ (upper : Int) = ⌈value (e.position n)⌉ := by
  obtain ⟨hfinite, hnonneg, hle⟩ := position_spec h hn
  have hbound : ((n - 1 : Nat) : ℚ) ≤ 2 ^ 53 := by exact_mod_cast (by omega : n - 1 ≤ 2 ^ 53)
  have hfloor := Double.toUInt64_eq_floor hfinite hnonneg
    ((hle.trans hbound).trans_lt (by norm_num))
  simp only [neighbours, Prod.mk.injEq] at hneighbours
  obtain ⟨rfl, hupper⟩ := hneighbours
  generalize (e.position n).toUInt64.toNat = lower at hfloor hupper ⊢
  refine ⟨hfloor, ?_⟩
  obtain ⟨hlower, hlt⟩ := Int.floor_eq_iff.1 hfloor.symm
  rw [Int.cast_natCast] at hlower hlt
  have hlast : lower ≤ n - 1 := by exact_mod_cast hlower.trans hle
  have hvalue : HasValue (Double.ofNat lower) lower := Double.hasValue_ofNat (by omega)
  rw [eq_comm, Int.ceil_eq_iff, Int.cast_natCast]
  split at hupper <;> rename_i habove
  all_goals rw [Double.lt_iff hvalue.isNumber (Double.isFinite_iff.1 hfinite).1, hvalue.value_eq]
    at habove
  all_goals subst hupper
  · push_cast
    exact ⟨by linarith, hlt.le⟩
  · exact ⟨by linarith, not_lt.1 habove⟩

theorem neighbours_cases_of_isFraction {lower upper : Nat}
    (hneighbours : e.neighbours n = (lower, upper)) :
    lower ≤ n - 1 ∧
      (upper = lower ∨ upper = lower + 1 ∧ upper ≤ n - 1 ∧
        IsFraction (e.position n - Double.ofNat lower)) := by
  obtain ⟨hfinite, hnonneg, hle⟩ := position_spec h hn
  obtain ⟨hfloor, hceil⟩ := neighbours_eq_floor_ceil h hn hneighbours
  have hlower : lower ≤ n - 1 := by
    have := Int.floor_le_floor hle
    rw [← hfloor, Int.floor_natCast] at this
    omega
  have hupper : upper ≤ n - 1 := by
    have := Int.ceil_le_ceil hle
    rw [← hceil, Int.ceil_natCast] at this
    omega
  have horder : (lower : Int) ≤ upper := hfloor ▸ hceil ▸ Int.floor_le_ceil _
  have hnext : (upper : Int) ≤ lower + 1 := hfloor ▸ hceil ▸ Int.ceil_le_floor_add_one _
  refine ⟨hlower, ?_⟩
  rcases (by omega : upper = lower ∨ upper = lower + 1) with heq | hsucc
  · exact .inl heq
  · obtain ⟨habove, hbelow⟩ := Int.floor_eq_iff.1 hfloor.symm
    rw [Int.cast_natCast] at habove hbelow
    have hvalue : HasValue (Double.ofNat lower) lower := Double.hasValue_ofNat (by omega)
    have hnearest := Double.isNearest_sub hfinite (Double.isFinite_ofNat (n := lower) (by omega))
    rw [hvalue.value_eq] at hnearest
    exact .inr ⟨hsucc, hupper, .of_isNearest hnearest (by linarith) (by linarith)⟩

end

theorem neighbours_cases {e : Estimator} {n lower upper : Nat} (h : e.quantile = Float.nan ∨
    IsFraction e.quantile)
    (hn : n ≤ 2 ^ 53) (hneighbours : e.neighbours n = (lower, upper)) :
    lower ≤ n - 1 ∧
      (upper = lower ∨ upper = lower + 1 ∧ upper ≤ n - 1 ∧
        IsFraction (e.position n - Double.ofNat lower)) := by
  rcases h with hnan | hfraction
  · rw [neighbours_of_nan hnan, Prod.mk.injEq] at hneighbours
    exact ⟨by omega, .inl (by omega)⟩
  · exact neighbours_cases_of_isFraction hfraction hn hneighbours

section

variable {e : Estimator}

theorem rank_sorted_le {i j : Nat} (hij : i ≤ j) (hj : j < e.sorted.length) :
    Double.rank e.sorted[i] ≤ Double.rank e.sorted[j] := by
  rcases hij.eq_or_lt with rfl | hlt
  · exact le_rfl
  · exact List.pairwise_iff_getElem.1 e.pairwise_sorted i j (by omega) hj hlt

theorem getElem_sorted_le (hnum : ∀ x ∈ e.samples, x.isNaN = false) {i j : Nat} (hij : i ≤ j)
    (hj : j < e.sorted.length) : e.sorted[i] ≤ e.sorted[j] := by
  have hmem (k : Nat) (hk : k < e.sorted.length) : e.sorted[k].isNaN = false :=
    hnum _ (e.sorted_perm.mem_iff.1 (List.getElem_mem hk))
  rw [Double.le_iff (hmem i (by omega)) (hmem j hj)]
  exact Double.value_le_of_rank_le (hmem i (by omega)) (hmem j hj) (rank_sorted_le hij hj)

theorem estimate_eq {lower upper : Nat} {a b : Float} (hne : e.samples ≠ [])
    (hneighbours : e.neighbours e.samples.length = (lower, upper)) (ha : e.sorted[lower]? = some a)
    (hb : e.sorted[upper]? = some b) :
    e.estimate = if lower = upper then a else
      let fraction := e.position e.samples.length - Double.ofNat lower
      a * (Double.ofNat 1 - fraction) + b * fraction := by
  simp only [estimate, hneighbours, ha, hb, Option.getD_some, List.length_eq_zero_iff, hne,
    if_false]

theorem isNear_estimate (hquantile : e.quantile = Float.nan ∨ IsFraction e.quantile)
    (hfinite : ∀ x ∈ e.samples, x.isFinite = true) (hne : e.samples ≠ [])
    (hlength : e.samples.length ≤ 2 ^ 53) :
    ∃ lower upper a b, e.neighbours e.samples.length = (lower, upper) ∧ e.sorted[lower]? = some a ∧
      e.sorted[upper]? = some b ∧ a ≤ b ∧ IsNear a b e.estimate ∧
      (lower = upper ∨ a ≤ Double.ofNat 0 ∧ Double.ofNat 0 ≤ b →
        a ≤ e.estimate ∧ e.estimate ≤ b) := by
  obtain ⟨lower, upper, hneighbours⟩ :
      ∃ lower upper, e.neighbours e.samples.length = (lower, upper) := ⟨_, _, rfl⟩
  have hpos : 0 < e.samples.length := List.length_pos_iff.2 hne
  have hsorted : e.sorted.length = e.samples.length := e.sorted_perm.length_eq
  have hnum (x : Float) (hx : x ∈ e.samples) : x.isNaN = false :=
    (Double.isFinite_iff.1 (hfinite x hx)).1
  have hmem (k : Nat) (hk : k < e.sorted.length) : e.sorted[k] ∈ e.samples :=
    e.sorted_perm.mem_iff.1 (List.getElem_mem hk)
  refine ⟨lower, upper, ?_⟩
  obtain ⟨hlower, rfl | ⟨rfl, hupper, hfraction⟩⟩ := neighbours_cases hquantile hlength hneighbours
  · have hi : upper < e.sorted.length := by omega
    have ha := List.getElem?_eq_getElem hi
    have hx := hnum _ (hmem upper hi)
    have hle := (Double.le_iff hx hx).2 le_rfl
    refine ⟨_, _, hneighbours, ha, ha, hle, ?_⟩
    rw [estimate_eq hne hneighbours ha ha, if_pos rfl]
    exact ⟨.self hx, fun _ => ⟨hle, hle⟩⟩
  · have hi : lower < e.sorted.length := by omega
    have hj : lower + 1 < e.sorted.length := by omega
    have hle := getElem_sorted_le hnum (Nat.le_succ lower) hj
    have ha := hfinite _ (hmem lower hi)
    have hb := hfinite _ (hmem (lower + 1) hj)
    have hlt : lower ≠ lower + 1 := (Nat.succ_ne_self lower).symm
    refine ⟨_, _, hneighbours, List.getElem?_eq_getElem hi, List.getElem?_eq_getElem hj, hle, ?_⟩
    rw [estimate_eq hne hneighbours (List.getElem?_eq_getElem hi) (List.getElem?_eq_getElem hj),
      if_neg hlt]
    refine ⟨Double.isNear_interpolation ha hb hfraction hle, fun h => ?_⟩
    obtain ⟨hneg, hpos⟩ := h.resolve_left hlt
    exact Double.interpolation_between ha hb hfraction hneg hpos

end

/-- While all that is kept is finite, the estimate is at most one double outside of the interval of
what is kept. It is as close to the interval between the two neighbours of the wanted rank, too, and
lies within if this rank is whole or the neighbours have opposite signs. -/
theorem estimate_of_history (quantile : Float) (capacity : Nat) (history : List Op) :
    let e := (start quantile capacity).after history
    (∀ x ∈ e.samples, x.isFinite = true) → e.samples ≠ [] → e.samples.length ≤ 2 ^ 53 →
      e.estimate.isNaN = false ∧ (∀ y, (∀ x ∈ e.samples, y < x) → y ≤ e.estimate) ∧
      (∀ y, (∀ x ∈ e.samples, x < y) → e.estimate ≤ y) ∧
      ∃ lower upper a b, e.neighbours e.samples.length = (lower, upper) ∧
      e.sorted[lower]? = some a ∧ e.sorted[upper]? = some b ∧ a ≤ b ∧ IsNear a b e.estimate ∧
        (lower = upper ∨ a ≤ Double.ofNat 0 ∧ Double.ofNat 0 ≤ b →
        a ≤ e.estimate ∧ e.estimate ≤ b) := by
  intro e hfinite hne hlength
  have hquantile : e.quantile = Float.nan ∨ IsFraction e.quantile :=
    quantile_after (start quantile capacity) history ▸ quantile_start quantile capacity
  obtain ⟨lower, upper, a, b, hneighbours, ha, hb, hle, hnear, hbetween⟩ :=
    isNear_estimate hquantile hfinite hne hlength
  have hmem {i : Nat} {x : Float} (hx : e.sorted[i]? = some x) : x ∈ e.samples :=
    e.sorted_perm.mem_iff.1 (List.mem_of_getElem? hx)
  exact ⟨hnear.isNumber, fun y h => hnear.ge y (h a (hmem ha)), fun y h =>
    hnear.le y (h b (hmem hb)), lower, upper, a, b, hneighbours, ha, hb, hle, hnear, hbetween⟩

theorem estimate_of_history_equal :
    let three := Double.ofNat 3
    let history : List Op := [.add three, .add three]
    let e := (start (Double.ofNat 1 / Double.ofNat 100) 2).after history
    (∀ x ∈ e.samples, x.isFinite = true) ∧ e.samples ≠ [] ∧ e.samples.length ≤ 2 ^ 53 ∧
      e.estimate < three ∧ ∀ y, y < three → y ≤ e.estimate := by
  intro three history e
  have hfinite : ∀ x ∈ e.samples, x.isFinite = true := by decide +kernel
  have hsamples : e.samples = [three, three] := by decide +kernel
  have hne : e.samples ≠ [] := hsamples ▸ List.cons_ne_nil _ _
  have hlength : e.samples.length ≤ 2 ^ 53 := by
    rw [hsamples]
    decide
  have hsorted : e.sorted = [three, three] := by
    have hperm : e.sorted.Perm (List.replicate 2 three) := e.sorted_perm.trans (.of_eq hsamples)
    exact List.perm_replicate.1 hperm
  have hneighbours : e.neighbours e.samples.length = (0, 1) := by decide +kernel
  obtain ⟨-, hge, -⟩ := estimate_of_history (Double.ofNat 1 / Double.ofNat 100) 2
    history hfinite hne hlength
  refine ⟨hfinite, hne, hlength, ?_, fun y hy => hge y fun x hx => ?_⟩
  · rw [estimate_eq (a := three) (b := three) hne hneighbours (by rw [hsorted]; rfl)
      (by rw [hsorted]; rfl)]
    decide +kernel
  · change x ∈ e.samples at hx
    rw [hsamples] at hx
    simp only [List.mem_cons, List.not_mem_nil, or_false, or_self] at hx
    rwa [hx]

end Rollup.Estimator
