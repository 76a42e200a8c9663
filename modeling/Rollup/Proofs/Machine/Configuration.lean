import Rollup.Proofs.Aggregate.Quantile
import Rollup.Proofs.Machine.Extreme

namespace Rollup

namespace Machine

def openNumbers (i : Interval) (opened : Nat) (h : List Event) : List Float :=
  (OpenWindow.after i.duration.toNanos opened h).samples.filter (!·.isNaN)

/-- Whether two configurations cannot be told apart by a plan that has just taken in a sample. -/
def Indifferent (p : Plan) (c₁ c₂ : Config) (opened : Nat) (h : List Event) : Prop :=
  match p with
  | .max => c₁.seed = c₂.seed ∨ ∃ x ∈ sinceReset h, Double.ofNat 0 < x
  | .min => c₁.seed = c₂.seed ∨ ∃ x ∈ sinceReset h, x < Double.infinity
  | .percentile _ i =>
    max c₁.percentileWindow 1 = max c₂.percentileWindow 1 ∨
      (openNumbers i opened h).length ≤ max c₁.percentileWindow 1 ∧
        (openNumbers i opened h).length ≤ max c₂.percentileWindow 1
  | .sum _ | .avg _ | .correl _ | .extract _ _ | .flag | .gaugeFp _ | .gaugeInt _ => True

def IndifferentStep (p : Plan) (c₁ c₂ : Config) (opened : Nat) (earlier : List Step) (s : Step) :
    Prop :=
  ∀ x now, s.event? = some (.sample x now) →
    Indifferent p c₁ c₂ opened (.sample x now :: history earlier)

theorem indifferent_plan {side : Side} {c₁ c₂ : Config} {opened : Nat} {h : List Event} :
    Indifferent side.plan c₁ c₂ opened h ↔ c₁.seed = c₂.seed ∨
      ∃ x ∈ sinceReset h, side.Passes x := by
  cases side <;> rfl

theorem foldl_pick_eq_iff {side : Side} {s₁ s₂ : Seed} {samples : List Float} :
    samples.foldl side.pick (s₁.value side) = samples.foldl side.pick (s₂.value side) ↔
      s₁ = s₂ ∨ ∃ x ∈ samples, side.Passes x := by
  have hseeds := side.foldl_pick_seeds samples
  cases s₁ <;> cases s₂ <;> simp [← hseeds, eq_comm]

theorem answer_extremum_eq_iff (side : Side) (c₁ c₂ : Config) (opened : Nat) (earlier : List Step)
    (s : Step) :
    (((start side.plan c₁ opened).after earlier).step s).1 =
      (((start side.plan c₂ opened).after earlier).step s).1 ↔
      IndifferentStep side.plan c₁ c₂ opened earlier s := by
  by_cases hevent : ∃ x now, s.event? = some (.sample x now)
  · obtain ⟨x, now, hevent⟩ := hevent
    obtain ⟨r, args, rfl, hx⟩ := Step.event?_eq_sample.1 hevent
    have hindifferent : IndifferentStep side.plan c₁ c₂ opened earlier (.eval r now args) ↔
        Indifferent side.plan c₁ c₂ opened (.sample x now :: history earlier) := by
      simp [IndifferentStep, hevent]
    rw [hindifferent, indifferent_plan, ← history_concat_of_number hx earlier r,
      ← foldl_pick_eq_iff]
    simp only [step, answer_extremum side _ opened earlier hx, extreme, Except.map, Except.ok.injEq,
      Option.some.injEq, Value.double.injEq]
  · refine iff_of_true ?_ fun x now hx => absurd ⟨x, now, hx⟩ hevent
    rw [after_extremum, after_extremum]
    apply Numeric.extremum.answer_congr
    · cases side <;> rfl
    · exact fun x now hx => absurd ⟨x, now, hx⟩ hevent

theorem replay_percentile (p : Percentile) (h : List Event) :
    Numeric.percentile.replay p h = Percentile.windowed.replay p h := by
  induction h with
  | nil => rfl
  | cons e earlier ih =>
    cases e with
    | sample x now => rw [Numeric.replay, ih]; rfl
    | reset now => rw [Numeric.replay, ih]; rfl

theorem rtake_openNumbers {percent : UInt8} {i : Interval} {c₁ c₂ : Config}
    {opened : Nat} {h : List Event}
    (hindifferent : Indifferent (.percentile percent i) c₁ c₂ opened h) :
    (openNumbers i opened h).rtake (max c₁.percentileWindow 1) =
      (openNumbers i opened h).rtake (max c₂.percentileWindow 1) := by
  rcases hindifferent with heq | ⟨h₁, h₂⟩
  · rw [heq]
  · rw [List.rtake, List.rtake, Nat.sub_eq_zero_of_le h₁, Nat.sub_eq_zero_of_le h₂]

theorem answer_percentile (percent : UInt8) (i : Interval) {c₁ c₂ : Config}
    {opened : Nat} {earlier : List Step}
    {s : Step} (h : IndifferentStep (.percentile percent i) c₁ c₂ opened earlier s) :
    (((start (.percentile percent i) c₁ opened).after earlier).step s).1 =
      (((start (.percentile percent i) c₂ opened).after earlier).step s).1 := by
  have hafter (c : Config) : (start (.percentile percent i) c opened).after earlier =
      Numeric.percentile.machine (Percentile.windowed.replay
        (.start percent i.duration c.percentileWindow opened) (history earlier)) := by
    rw [← replay_percentile]
    exact Numeric.percentile.after _ earlier
  rw [hafter, hafter]
  apply Numeric.percentile.answer_congr
  · rfl
  intro x now hx
  have hadd (k : Nat) :=
    Percentile.windowed.add_replay (a := .start percent i.duration k opened) rfl
      (history earlier) x now
  exact (hadd _).trans
    (Eq.trans (Estimator.estimate_foldl_add_congr (rtake_openNumbers (h x now hx))) (hadd _).symm)

/-- Two configurations give the same answer to a step if the plan is indifferent to them, as all are
but extremes and percentiles; and if it is an extreme that is not, they give different answers. -/
theorem answer_of_indifferent (p : Plan) (c₁ c₂ : Config) (opened : Nat) (earlier : List Step)
    (s : Step) :
    (IndifferentStep p c₁ c₂ opened earlier s →
      (((start p c₁ opened).after earlier).step s).1 =
      (((start p c₂ opened).after earlier).step s).1) ∧ ∀ side : Side, p = side.plan →
        (((start p c₁ opened).after earlier).step s).1 =
        (((start p c₂ opened).after earlier).step s).1 →
          IndifferentStep p c₁ c₂ opened earlier s := by
  refine ⟨fun h => ?_, ?_⟩
  · cases p with
    | max => exact (answer_extremum_eq_iff .max c₁ c₂ opened earlier s).2 h
    | min => exact (answer_extremum_eq_iff .min c₁ c₂ opened earlier s).2 h
    | percentile percent i => exact answer_percentile percent i h
    | sum | avg | correl | extract | flag | gaugeFp | gaugeInt => rfl
  · rintro side rfl
    exact (answer_extremum_eq_iff side c₁ c₂ opened earlier s).1

theorem answer_of_indifferent_max :
    let infinite : Config := { seed := .infinite }
    let below := Step.eval .none 1 [.int (-1)]
    let above := Step.eval .none 2 [.int 2]
    IndifferentStep .max {} infinite 0 [below] above ∧
      (((start .max {} 0).after [below]).step above).1 =
      (((start .max infinite 0).after [below]).step above).1 ∧
      (((start .max {} 0).after [below]).step below).1 ≠
      (((start .max infinite 0).after [below]).step below).1 := by
  intro infinite below above
  have habove : IndifferentStep .max {} infinite 0 [below] above := by
    intro x now hx
    cases hx
    exact .inr ⟨Double.ofInt 2, List.mem_append_right _ (List.mem_singleton.2 rfl),
      by decide +kernel⟩
  refine ⟨habove, (answer_of_indifferent .max {} infinite 0 [below] above).1 habove, fun heq => ?_⟩
  have hbelow := (answer_of_indifferent .max {} infinite 0 [below] below).2 .max rfl heq
  obtain hseed | ⟨x, hx, hpositive⟩ := hbelow (Double.ofInt (-1)) 1 rfl
  · cases hseed
  · have hmem : x ∈ [Double.ofInt (-1), Double.ofInt (-1)] := hx
    have hneg : ¬ Double.ofNat 0 < Double.ofInt (-1) := by decide +kernel
    simp only [List.mem_cons, List.not_mem_nil, or_false, or_self] at hmem
    exact hneg (hmem ▸ hpositive)

end Machine

end Rollup
