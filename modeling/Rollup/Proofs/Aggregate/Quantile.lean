import Mathlib.Data.List.DropRight
import Rollup.Proofs.Aggregate.Windowed
import Rollup.Proofs.Number.Value

namespace Rollup.Estimator

inductive Op
  | add (x : Float)
  | clear

def step (e : Estimator) : Op → Estimator
  | .add x => e.add x
  | .clear => e.clear

def after (e : Estimator) : List Op → Estimator
  | [] => e
  | op :: earlier => (e.after earlier).step op

/-- The numbers since the last clearing. -/
def taken : List Op → List Float
  | [] | .clear :: _ => []
  | .add x :: earlier => if x.isNaN then taken earlier else taken earlier ++ [x]

theorem isNaN_of_mem_taken {history : List Op} {x : Float} (h : x ∈ taken history) :
    x.isNaN = false := by
  fun_induction taken history with
  | case1 | case2 => cases h
  | case3 y earlier hy ih => exact ih h
  | case4 y earlier hy ih =>
    rcases List.mem_append.1 h with h | h
    · exact ih h
    · rw [List.mem_singleton.1 h]
      exact Bool.eq_false_iff.2 hy

theorem samples_add {e : Estimator} {x : Float} (hx : x.isNaN = false) :
    (e.add x).samples =
      (if e.samples.length = e.capacity then e.samples.drop 1 else e.samples) ++ [x] := by
  simp only [add, hx, Bool.false_eq_true, if_false]
  split <;> rfl

theorem samples_add_of_rtake {e : Estimator} {l : List Float} {x : Float}
    (hcapacity : e.capacity ≠ 0) (h : e.samples = l.rtake e.capacity) (hx : x.isNaN = false) :
    (e.add x).samples = (l ++ [x]).rtake e.capacity := by
  obtain ⟨k, hk⟩ := Nat.exists_eq_succ_of_ne_zero hcapacity
  have hlength : e.samples.length = min (k + 1) l.length := by
    rw [h, hk, List.rtake, List.length_drop]
    omega
  rw [samples_add hx, hk, List.rtake_concat_succ]
  congr 1
  rw [List.rtake]
  split
  · rw [h, hk, List.rtake, List.drop_drop]
    congr 1
    omega
  · rw [h, hk, List.rtake]
    congr 1
    omega

section

variable (e : Estimator) (history : List Op)

theorem clear_after : (e.after history).clear = e.clear := by
  induction history with
  | nil => rfl
  | cons op earlier ih =>
    cases op with
    | add x => rw [after, step, clear_add, ih]
    | clear => exact ih

theorem capacity_after : (e.after history).capacity = e.capacity :=
  congrArg (·.capacity) (clear_after e history)

theorem quantile_after : (e.after history).quantile = e.quantile :=
  congrArg (·.quantile) (clear_after e history)

end

theorem samples_after (quantile : Float) (capacity : Nat) (history : List Op) :
    ((start quantile capacity).after history).samples = (taken history).rtake (max capacity 1) := by
  induction history with
  | nil => rw [taken, List.rtake_nil]; rfl
  | cons op earlier ih =>
    cases op with
    | clear => rw [taken, List.rtake_nil]; rfl
    | add x =>
      have hcapacity : ((start quantile capacity).after earlier).capacity = max capacity 1 :=
        capacity_after _ _
      rw [after, step, taken]
      split
      · rename_i hx
        rw [← ih, add, if_pos hx]
      · rename_i hx
        rw [← hcapacity] at ih ⊢
        exact samples_add_of_rtake (by omega) ih (Bool.eq_false_iff.2 hx)

theorem foldl_add (e : Estimator) (samples : List Float) :
    samples.foldl add e = e.after (samples.map .add).reverse := by
  induction samples using List.reverseRecOn with
  | nil => rfl
  | append_singleton samples x ih =>
    rw [List.foldl_append, ih, List.map_append, List.reverse_append]
    rfl

theorem taken_map_add (samples : List Float) :
    taken (samples.map .add).reverse = samples.filter (!·.isNaN) := by
  induction samples using List.reverseRecOn with
  | nil => rfl
  | append_singleton samples x ih =>
    rw [List.map_append, List.reverse_append, List.filter_append, ← ih,
      List.filter_cons, List.filter_nil]
    change (if x.isNaN = true then _ else _) = _
    cases x.isNaN with
    | true => exact (List.append_nil _).symm
    | false => rfl

theorem sorted_perm (e : Estimator) : e.sorted.Perm e.samples := List.mergeSort_perm _ _

theorem pairwise_sorted (e : Estimator) :
    e.sorted.Pairwise fun x y => Double.rank x ≤ Double.rank y := by
  have htrans (x y z : Float) (hxy : decide (Double.rank x ≤ Double.rank y) = true)
      (hyz : decide (Double.rank y ≤ Double.rank z) = true) :
        decide (Double.rank x ≤ Double.rank z) = true := by
    simp only [decide_eq_true_eq] at *
    omega
  have htotal (x y : Float) : (decide (Double.rank x ≤ Double.rank y) ||
      decide (Double.rank y ≤ Double.rank x)) = true := by
    simp only [Bool.or_eq_true, decide_eq_true_eq]
    omega
  exact (List.pairwise_mergeSort htrans htotal e.samples).imp of_decide_eq_true

theorem sorted_of_perm {e e' : Estimator} (h : e.samples.Perm e'.samples) : e.sorted = e'.sorted :=
  ((e.sorted_perm.trans h).trans e'.sorted_perm.symm).eq_of_pairwise
    (fun _ _ _ _ hxy hyx => Double.rank_injective (Int.le_antisymm hxy hyx))
      e.pairwise_sorted e'.pairwise_sorted

theorem estimate_of_perm {e e' : Estimator} (hquantile : e.quantile = e'.quantile)
    (h : e.samples.Perm e'.samples) :
    e.estimate = e'.estimate := by
  have hposition : e.position = e'.position := by
    funext n
    rw [position, position, hquantile]
  have hneighbours : e.neighbours = e'.neighbours := by
    funext n
    rw [neighbours, neighbours, hposition]
  rw [estimate, estimate, hposition, hneighbours, sorted_of_perm h, h.length_eq]

theorem estimate_foldl_add_congr {quantile : Float} {k₁ k₂ : Nat} {samples : List Float}
    (h : (samples.filter (!·.isNaN)).rtake (max k₁ 1) =
      (samples.filter (!·.isNaN)).rtake (max k₂ 1)) :
    (samples.foldl add (start quantile k₁)).estimate =
      (samples.foldl add (start quantile k₂)).estimate := by
  apply estimate_of_perm
  · rw [foldl_add, foldl_add, quantile_after, quantile_after]
    rfl
  · rw [foldl_add, foldl_add, samples_after, samples_after, taken_map_add, h]

/-- An estimator keeps the last of the numbers since the last clearing, as many as it has room for,
and its estimate is the same for all orders of what it keeps. -/
theorem window_of_history (quantile : Float) (capacity : Nat) (history : List Op) :
    let e := (start quantile capacity).after history
    e.capacity = max capacity 1 ∧ e.samples = (taken history).rtake (max capacity 1) ∧
      e.samples.length = min (max capacity 1) (taken history).length ∧
      (∀ x ∈ e.samples, x.isNaN = false) ∧
      ∀ e' : Estimator, e'.quantile = e.quantile → e'.samples.Perm e.samples →
      e'.estimate = e.estimate := by
  intro e
  have hsamples : e.samples = (taken history).rtake (max capacity 1) :=
    samples_after quantile capacity history
  refine ⟨capacity_after _ _, hsamples, ?_, fun x hx => ?_, fun e' => estimate_of_perm⟩
  · rw [hsamples, List.rtake, List.length_drop]
    omega
  · rw [hsamples] at hx
    exact isNaN_of_mem_taken (List.mem_of_mem_drop hx)

theorem window_of_history_full :
    let history : List Op :=
      [.add (-Double.ofNat 0), .add Double.nan, .add (Double.ofNat 0), .add (Double.ofNat 3),
        .clear, .add (Double.ofNat 7)]
    let e := (start (Double.ofInt 2) 2).after history
    e.samples.length = 2 ∧ e.samples = [Double.ofNat 0, -Double.ofNat 0] ∧
      ({ e with samples := [-Double.ofNat 0, Double.ofNat 0] } : Estimator).estimate =
      e.estimate := by
  intro history
  have htaken : taken history = [Double.ofNat 3, Double.ofNat 0, -Double.ofNat 0] := by
    decide +kernel
  have hlast (x y z : Float) : [x, y, z].rtake (max 2 1) = [y, z] := rfl
  have hwindow := window_of_history (Double.ofInt 2) 2 history
  rw [htaken, hlast] at hwindow
  generalize (start (Double.ofInt 2) 2).after history = e at hwindow ⊢
  obtain ⟨-, hsamples, hlength, -, hestimate⟩ := hwindow
  refine ⟨hlength, hsamples, hestimate _ rfl ?_⟩
  rw [hsamples]
  exact .swap _ _ _

end Rollup.Estimator
