import Rollup.Proofs.Aggregate.Estimate

namespace Rollup.Estimator

open Double (HasValue IsFraction value)

def IsFirst (samples : List Float) (x : Float) : Prop :=
  x ∈ samples ∧ ∀ y ∈ samples, Double.rank x ≤ Double.rank y

def IsLast (samples : List Float) (x : Float) : Prop :=
  x ∈ samples ∧ ∀ y ∈ samples, Double.rank y ≤ Double.rank x

section

variable {e : Estimator} {x : Float}

theorem exists_getElem_sorted (hx : x ∈ e.samples) :
    ∃ (i : Nat) (hi : i < e.sorted.length), e.sorted[i] = x :=
  List.getElem_of_mem (e.sorted_perm.mem_iff.2 hx)

theorem isFirst_of_sorted (hx : e.sorted[0]? = some x) : IsFirst e.samples x := by
  obtain ⟨hpos, rfl⟩ := List.getElem?_eq_some_iff.1 hx
  refine ⟨e.sorted_perm.mem_iff.1 (List.getElem_mem hpos), fun y hy => ?_⟩
  obtain ⟨i, hi, rfl⟩ := exists_getElem_sorted hy
  exact rank_sorted_le (Nat.zero_le i) hi

theorem isLast_of_sorted (hx : e.sorted[e.samples.length - 1]? = some x) : IsLast e.samples x := by
  obtain ⟨hlast, rfl⟩ := List.getElem?_eq_some_iff.1 hx
  refine ⟨e.sorted_perm.mem_iff.1 (List.getElem_mem hlast), fun y hy => ?_⟩
  obtain ⟨i, hi, rfl⟩ := exists_getElem_sorted hy
  have hlength : e.sorted.length = e.samples.length := e.sorted_perm.length_eq
  exact rank_sorted_le (by omega) hlast

end

section

variable {e : Estimator} {n lower upper : Nat} (h : IsFraction e.quantile) (hn : n ≤ 2 ^ 53)
  (hneighbours : e.neighbours n = (lower, upper))

include h hn hneighbours

theorem neighbours_of_zero (hzero : value e.quantile = 0) : lower = 0 ∧ upper = 0 := by
  obtain ⟨hfloor, hceil⟩ := neighbours_eq_floor_ceil h hn hneighbours
  have hnearest := Double.isNearest_mul h.isFinite (Double.isFinite_ofNat (n := n - 1) (by omega))
  rw [hzero, zero_mul] at hnearest
  have hposition : value (e.position n) = 0 := hnearest.eq_zero
  rw [hposition, Int.floor_zero] at hfloor
  rw [hposition, Int.ceil_zero] at hceil
  omega

theorem neighbours_of_one (hone : value e.quantile = 1) : lower = n - 1 ∧ upper = n - 1 := by
  obtain ⟨hfloor, hceil⟩ := neighbours_eq_floor_ceil h hn hneighbours
  have hlast : HasValue (Double.ofNat (n - 1)) (n - 1 : Nat) := Double.hasValue_ofNat (by omega)
  have hnearest := Double.isNearest_mul h.isFinite (Double.isFinite_ofNat (n := n - 1) (by omega))
  rw [hone, one_mul] at hnearest
  have hposition : value (e.position n) = (n - 1 : Nat) :=
    (hnearest.value_eq hlast.isNumber).trans hlast.value_eq
  rw [hposition, Int.floor_natCast] at hfloor
  rw [hposition, Int.ceil_natCast] at hceil
  omega

end

/-- The whole ranks next to the wanted one are ranks of samples, so the estimate always finds what
it reads. The quantiles up to 0, and what is no number, give the first sample in the total order,
and the quantiles from 1 on give the last one. -/
theorem ranks_of_history (quantile : Float) (capacity : Nat) (history : List Op) :
    let e := (start quantile capacity).after history
    let n := e.samples.length
    e.samples ≠ [] → n ≤ 2 ^ 53 →
      ∃ lower upper a b, e.neighbours n = (lower, upper) ∧
        (quantile.isNaN = true → lower = 0 ∧ upper = 0) ∧
        (quantile.isNaN = false → value e.quantile = max 0 (min 1 (value quantile)) ∧
          (lower : Int) = ⌊value (e.position n)⌋ ∧ (upper : Int) = ⌈value (e.position n)⌉) ∧
        lower ≤ upper ∧ upper ≤ lower + 1 ∧ upper ≤ n - 1 ∧
        e.sorted[lower]? = some a ∧ e.sorted[upper]? = some b ∧
        e.estimate = (if lower = upper then a else
          let fraction := e.position n - Double.ofNat lower
          a * (Double.ofNat 1 - fraction) + b * fraction) ∧
        (quantile.isNaN = true ∨ quantile ≤ Double.ofNat 0 → IsFirst e.samples e.estimate) ∧
        (Double.ofNat 1 ≤ quantile → IsLast e.samples e.estimate) := by
  intro e n hne hn
  have hstart : e.quantile = (start quantile capacity).quantile := quantile_after _ _
  obtain ⟨lower, upper, hneighbours⟩ : ∃ lower upper, e.neighbours n = (lower, upper) := ⟨_, _, rfl⟩
  have hcases := neighbours_cases (hstart ▸ quantile_start quantile capacity) hn hneighbours
  have hpos : 0 < n := List.length_pos_iff.2 hne
  have hlength : e.sorted.length = n := e.sorted_perm.length_eq
  have ha : e.sorted[lower]? = some e.sorted[lower] := List.getElem?_eq_getElem (by omega)
  have hb : e.sorted[upper]? = some e.sorted[upper] := List.getElem?_eq_getElem (by omega)
  have hestimate := estimate_eq hne hneighbours ha hb
  have hnan (h : quantile.isNaN = true) : lower = 0 ∧ upper = 0 := by
    rw [neighbours_of_nan (hstart.trans (quantile_start_of_isNaN capacity h)), Prod.mk.injEq]
      at hneighbours
    omega
  have hfraction (h : quantile.isNaN = false) : IsFraction e.quantile :=
    hstart ▸ isFraction_quantile_start capacity h
  have hvalue (h : quantile.isNaN = false) : value e.quantile = max 0 (min 1 (value quantile)) :=
    hstart ▸ (Double.hasValue_clamp_fraction h).value_eq
  refine ⟨lower, upper, _, _, hneighbours, hnan, fun h => ?_,
    by omega, by omega, by omega, ha, hb, hestimate, fun h => ?_, fun h => ?_⟩
  · exact ⟨hvalue h, neighbours_eq_floor_ceil (hfraction h) hn hneighbours⟩
  · have hfirst : lower = 0 ∧ upper = 0 := by
      rcases h with h | h
      · exact hnan h
      · have hnum := (Double.not_isNaN_of_le h).1
        rw [Double.le_iff hnum Double.hasValue_zero.isNumber, Double.hasValue_zero.value_eq] at h
        refine neighbours_of_zero (hfraction hnum) hn hneighbours ?_
        rw [hvalue hnum, max_eq_left ((min_le_right _ _).trans h)]
    obtain ⟨rfl, rfl⟩ := hfirst
    rw [hestimate, if_pos rfl]
    exact isFirst_of_sorted ha
  · have hnum := (Double.not_isNaN_of_le h).2
    rw [Double.le_iff Double.hasValue_one.isNumber hnum, Double.hasValue_one.value_eq] at h
    obtain ⟨rfl, rfl⟩ := neighbours_of_one (hfraction hnum) hn hneighbours (by
      rw [hvalue hnum, min_eq_left h, max_eq_right zero_le_one])
    rw [hestimate, if_pos rfl]
    exact isLast_of_sorted ha

theorem ranks_of_history_zeros :
    let zero := Double.ofNat 0
    let e := (start (Double.ofNat 7) 3).after [.add (-zero), .add zero, .add (-Double.infinity),
      .add (Double.ofNat 9)]
    e.samples ≠ [] ∧ e.samples.length ≤ 2 ^ 53 ∧ Double.ofNat 1 ≤ Double.ofNat 7 ∧
      IsLast e.samples e.estimate ∧ e.estimate = zero := by
  intro zero e
  have hsamples : e.samples = [-Double.infinity, zero, -zero] := by decide +kernel
  have hne : e.samples ≠ [] := hsamples ▸ List.cons_ne_nil _ _
  have hlength : e.samples.length ≤ 2 ^ 53 := by
    rw [hsamples]
    decide
  have hle : Double.ofNat 1 ≤ Double.ofNat 7 := by decide +kernel
  obtain ⟨-, -, -, -, -, -, -, -, -, -, -, -, -, -, hlast⟩ := ranks_of_history (Double.ofNat 7) 3
    [.add (-zero), .add zero, .add (-Double.infinity), .add (Double.ofNat 9)] hne hlength
  have hlast : IsLast e.samples e.estimate := hlast hle
  refine ⟨hne, hlength, hle, hlast, ?_⟩
  have hrank (y : Float) (hy : Double.rank y < Double.rank zero) : e.estimate ≠ y := by
    rintro rfl
    exact absurd (hlast.2 zero (by simp [hsamples])) (not_le.2 hy)
  have hmem := hlast.1
  rw [hsamples] at hmem
  simpa [hrank (-Double.infinity) (by decide +kernel), hrank (-zero) (by decide +kernel)] using hmem

end Rollup.Estimator
