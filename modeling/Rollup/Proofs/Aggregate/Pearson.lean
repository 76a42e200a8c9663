import Mathlib
import Rollup.Aggregate.Comoments

/-!
The correlation in exact arithmetic.

Over the reals the co-moments are what they stand for: the means, and the sums of products of
deviations from the means (`addAll_start`). A pair moves both means, and yet one product makes up
for it, of a deviation from the mean before it and of one from the mean behind it
(`codeviation_concat`). So the coefficient is Pearson's (`pearson_of_pairs`).
-/

namespace Rollup

section

variable {ι K : Type} [Field K] [CharZero K] (f : ι → K) (l : List ι)

def mean : K := (l.map f).sum / l.length

theorem length_mul_mean : l.length * mean f l = (l.map f).sum := by
  rcases eq_or_ne l [] with rfl | hne
  · simp [mean]
  · exact mul_div_cancel₀ _ (by simpa using hne)

theorem mean_concat (i : ι) : mean f (l ++ [i]) = mean f l + (f i - mean f l) / (l.length + 1) := by
  have hsum := length_mul_mean f l
  have hpos : (l.length : K) + 1 ≠ 0 := Nat.cast_add_one_ne_zero _
  rw [mean, List.map_append, List.sum_append, ← hsum]
  simp only [List.map_cons, List.map_nil, List.sum_singleton, List.length_append,
    List.length_singleton, Nat.cast_add, Nat.cast_one]
  field_simp
  ring

end

noncomputable instance : Scalar ℝ where
  ofCount n := n

namespace Comoments

def addAll [Scalar α] (m : Comoments α) (pairs : List (α × α)) : Comoments α :=
  pairs.foldl (fun m p => m.add p.1 p.2) m

theorem addAll_concat [Scalar α] (m : Comoments α) (pairs : List (α × α)) (p : α × α) :
    m.addAll (pairs ++ [p]) = (m.addAll pairs).add p.1 p.2 := by
  rw [addAll, List.foldl_append]
  rfl

section

variable {ι : Type} (f g : ι → ℝ) (l : List ι)

noncomputable def codeviation : ℝ := (l.map fun i => (f i - mean f l) * (g i - mean g l)).sum

theorem sum_mul_sub (a b : ℝ) :
    (l.map fun i => (f i - a) * (g i - b)).sum = codeviation f g l + l.length *
      ((mean f l - a) * (mean g l - b)) := by
  have hf := length_mul_mean f l
  have hg := length_mul_mean g l
  have hexpand (a b : ℝ) : (l.map fun i => (f i - a) * (g i - b)).sum =
      (l.map fun i => f i * g i).sum - b * (l.map f).sum - a * (l.map g).sum +
      l.length * (a * b) := by
    clear hf hg
    induction l with
    | nil => simp
    | cons i l ih =>
      simp only [List.map_cons, List.sum_cons, ih, List.length_cons, Nat.cast_add, Nat.cast_one]
      ring
  rw [codeviation, hexpand, hexpand, ← hf, ← hg]
  ring

theorem codeviation_concat (i : ι) :
    codeviation f g (l ++ [i]) =
      codeviation f g l + (f i - mean f l) * (g i - mean g (l ++ [i])) := by
  have hpos : (l.length : ℝ) + 1 ≠ 0 := by positivity
  rw [codeviation, List.map_append, List.sum_append, sum_mul_sub]
  simp only [List.map_cons, List.map_nil, List.sum_singleton, mean_concat]
  field_simp
  ring

theorem codeviation_comm : codeviation f g l = codeviation g f l := by
  simp only [codeviation, mul_comm]

theorem codeviation_self : codeviation f f l = (l.map fun i => (f i - mean f l) ^ 2).sum := by
  simp only [codeviation, pow_two]

theorem codeviation_sq_le : codeviation f g l ^ 2 ≤ codeviation f f l * codeviation g g l := by
  rw [codeviation_self, codeviation_self, codeviation]
  simp only [← Fin.sum_univ_fun_getElem]
  exact Finset.sum_mul_sq_le_sq_mul_sq _ _ _

theorem codeviation_self_eq_zero : codeviation f f l = 0 ↔ ∀ i ∈ l, ∀ j ∈ l, f i = f j := by
  constructor
  · intro h
    rw [codeviation_self] at h
    have hmean (i : ι) (hi : i ∈ l) : f i = mean f l := by
      have hnonneg : ∀ x ∈ l.map fun i => (f i - mean f l) ^ 2, 0 ≤ x := by
        intro x hx
        obtain ⟨j, -, rfl⟩ := List.mem_map.1 hx
        exact sq_nonneg _
      have hzero := List.all_zero_of_le_zero_le_of_sum_eq_zero hnonneg h (List.mem_map_of_mem hi)
      exact sub_eq_zero.1 (pow_eq_zero_iff two_ne_zero |>.1 hzero)
    intro i hi j hj
    rw [hmean i hi, hmean j hj]
  · intro h
    cases l with
    | nil => rfl
    | cons i l =>
      have hmean : mean f (i :: l) = f i := by
        have hsum := length_mul_mean f (i :: l)
        have hconst : (i :: l).map f = List.replicate (i :: l).length (f i) := by
          rw [List.eq_replicate_iff]
          refine ⟨List.length_map _, fun x hx => ?_⟩
          obtain ⟨j, hj, rfl⟩ := List.mem_map.1 hx
          exact h j hj i List.mem_cons_self
        rw [hconst, List.sum_replicate, nsmul_eq_mul] at hsum
        exact mul_left_cancel₀ (by simp; positivity) hsum
      rw [codeviation_self, hmean]
      refine List.sum_eq_zero fun x hx => ?_
      obtain ⟨j, hj, rfl⟩ := List.mem_map.1 hx
      rw [h j hj i List.mem_cons_self, sub_self, zero_pow two_ne_zero]

end

theorem addAll_start (pairs : List (ℝ × ℝ)) :
    start.addAll pairs =
      { count := pairs.length
        meanX := mean Prod.fst pairs
        meanY := mean Prod.snd pairs
        squaresX := codeviation Prod.fst Prod.fst pairs
        squaresY := codeviation Prod.snd Prod.snd pairs
        products := codeviation Prod.fst Prod.snd pairs } := by
  induction pairs using List.reverseRecOn with
  | nil => simp [addAll, start, mean, codeviation, Scalar.ofCount]
  | append_singleton pairs p ih =>
    have hshare : (Scalar.ofCount (pairs.length + 1) : ℝ) = pairs.length + 1 := Nat.cast_succ _
    rw [addAll_concat, ih, add]
    simp only [hshare, codeviation_concat, mean_concat, List.length_append, List.length_singleton]

section

variable (pairs : List (ℝ × ℝ))

def IsConstant (f : ℝ × ℝ → ℝ) : Prop := ∀ p ∈ pairs, ∀ q ∈ pairs, f p = f q

theorem coefficient?_addAll_start : (start.addAll pairs).coefficient? Real.sqrt =
    if pairs.length < 2 ∨ codeviation Prod.fst Prod.fst pairs = 0 ∨
    codeviation Prod.snd Prod.snd pairs = 0 then none
    else some (clamp (-1) 1 (codeviation Prod.fst Prod.snd pairs /
      √(codeviation Prod.fst Prod.fst pairs * codeviation Prod.snd Prod.snd pairs))) := by
  have hzero : (Scalar.ofCount 0 : ℝ) = 0 := Nat.cast_zero
  have hone : (Scalar.ofCount 1 : ℝ) = 1 := Nat.cast_one
  rw [addAll_start, coefficient?]
  simp only [hzero, hone, zero_sub, Bool.or_eq_true, decide_eq_true_eq, beq_iff_eq, or_assoc]

theorem coefficient?_eq_none : (start.addAll pairs).coefficient? Real.sqrt = none ↔
    pairs.length < 2 ∨ IsConstant pairs Prod.fst ∨ IsConstant pairs Prod.snd := by
  rw [coefficient?_addAll_start, IsConstant, IsConstant, ← codeviation_self_eq_zero,
    ← codeviation_self_eq_zero]
  split <;> simp_all

theorem abs_codeviation_le : |codeviation Prod.fst Prod.snd pairs| ≤
    √(codeviation Prod.fst Prod.fst pairs * codeviation Prod.snd Prod.snd pairs) :=
  Real.abs_le_sqrt (codeviation_sq_le _ _ _)

end

theorem clamp_of_abs_le {x : ℝ} (h : |x| ≤ 1) : clamp (-1) 1 x = x := by
  obtain ⟨hlower, hupper⟩ := abs_le.1 h
  rw [clamp, if_neg hlower.not_gt, if_neg hupper.not_gt]

theorem codeviation_swap (f g : ℝ × ℝ → ℝ) (pairs : List (ℝ × ℝ)) :
    codeviation f g (pairs.map Prod.swap) = codeviation (fun p => f p.swap)
      (fun p => g p.swap) pairs := by
  simp only [codeviation, mean, List.map_map, List.length_map]
  rfl

theorem coefficient?_swap (pairs : List (ℝ × ℝ)) :
    (start.addAll (pairs.map Prod.swap)).coefficient? Real.sqrt =
      (start.addAll pairs).coefficient? Real.sqrt := by
  rw [coefficient?_addAll_start, coefficient?_addAll_start]
  simp only [codeviation_swap, List.length_map, Prod.fst_swap, Prod.snd_swap,
    or_comm (b := codeviation Prod.fst _ _ = 0), mul_comm (codeviation Prod.snd Prod.snd pairs),
    codeviation_comm Prod.snd Prod.fst]

/-- In exact arithmetic, the co-moments of pairs are their means and the sums of the products of
their deviations from the means. The correlation is Pearson's: there is none exactly while a
coordinate does not vary, it need not be moved into its range, and it is the same for both orders of
the coordinates. -/
theorem pearson_of_pairs (pairs : List (ℝ × ℝ)) :
    let m := start.addAll pairs
    m.count = pairs.length ∧ m.meanX = (pairs.map Prod.fst).sum / pairs.length ∧
      m.meanY = (pairs.map Prod.snd).sum / pairs.length ∧
      m.squaresX = (pairs.map fun p => (p.1 - m.meanX) ^ 2).sum ∧
      m.squaresY = (pairs.map fun p => (p.2 - m.meanY) ^ 2).sum ∧
      m.products = (pairs.map fun p => (p.1 - m.meanX) * (p.2 - m.meanY)).sum ∧
      (m.coefficient? Real.sqrt = none ↔
        pairs.length < 2 ∨ (∀ p ∈ pairs, ∀ q ∈ pairs, p.1 = q.1) ∨
        ∀ p ∈ pairs, ∀ q ∈ pairs, p.2 = q.2) ∧
      (∀ r, m.coefficient? Real.sqrt = some r → r = m.products / √(m.squaresX * m.squaresY)) ∧
      m.products ^ 2 ≤ m.squaresX * m.squaresY ∧ |m.products / √(m.squaresX * m.squaresY)| ≤ 1 ∧
      (start.addAll (pairs.map Prod.swap)).coefficient? Real.sqrt = m.coefficient? Real.sqrt := by
  intro m
  have hnone : m.coefficient? Real.sqrt = none ↔ _ := coefficient?_eq_none pairs
  have hsome : m.coefficient? Real.sqrt = _ := coefficient?_addAll_start pairs
  have hswap : _ = m.coefficient? Real.sqrt := coefficient?_swap pairs
  have hm : m = _ := addAll_start pairs
  clear_value m
  subst hm
  have habs : |codeviation Prod.fst Prod.snd pairs /
      √(codeviation Prod.fst Prod.fst pairs * codeviation Prod.snd Prod.snd pairs)| ≤ 1 := by
    rw [abs_div, abs_of_nonneg (Real.sqrt_nonneg _)]
    exact div_le_one_of_le₀ (abs_codeviation_le pairs) (Real.sqrt_nonneg _)
  refine ⟨rfl, rfl, rfl, codeviation_self _ _, codeviation_self _ _, rfl, hnone, fun r hr => ?_,
    codeviation_sq_le _ _ _, habs, hswap⟩
  rw [hsome] at hr
  split at hr
  · cases hr
  · rw [clamp_of_abs_le habs, Option.some_inj] at hr
    exact hr.symm

end Comoments

end Rollup
