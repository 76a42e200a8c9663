import Rollup.Proofs.Machine.History

namespace Rollup

def Side.plan : Side → Plan
  | max => .max
  | min => .min

namespace Machine

theorem replay_extremum (side : Side) (seed : Seed) (h : List Event) :
    Numeric.extremum.replay (.start side seed) h =
      ⟨side, seed.value side, ⟨(sinceReset h).foldl side.pick (seed.value side)⟩⟩ := by
  induction h with
  | nil => rfl
  | cons e earlier ih =>
    cases e with
    | sample x now =>
      rw [Numeric.replay, ih, sinceReset, List.foldl_append]
      rfl
    | reset now =>
      rw [Numeric.replay, ih]
      rfl

def extreme (side : Side) (c : Config) (steps : List Step) : Float :=
  (sinceReset (history steps)).foldl side.pick (c.seed.value side)

section

variable (side : Side) (c : Config) (opened : Nat) (steps : List Step)

theorem isExtreme_extreme :
    IsExtreme side (c.seed.value side) (sinceReset (history steps)) (extreme side c steps) :=
  .foldl (c.seed.isNaN_value side) _

theorem after_extremum :
    (start side.plan c opened).after steps =
      extremum ⟨side, c.seed.value side, ⟨extreme side c steps⟩⟩ := by
  have hstart : start side.plan c opened = extremum (.start side c.seed) := by cases side <;> rfl
  rw [hstart, extreme, ← replay_extremum]
  exact Numeric.extremum.after _ steps

theorem shown?_after :
    ((start side.plan c opened).after steps).shown? = some (.double (extreme side c steps)) := by
  rw [after_extremum]
  rfl

section

variable {args : List Value} {x : Float} (hx : args.head?.bind Value.number? = some x)
    (r : Resolver) (now : Nat)

include hx

theorem extreme_concat :
    extreme side c (steps ++ [.eval r now args]) = side.pick (extreme side c steps) x := by
  rw [extreme, history_concat_of_number hx, sinceReset, List.foldl_append]
  rfl

theorem answer_extremum :
    (((start side.plan c opened).after steps).eval r now args).1 =
      .ok (.double (extreme side c (steps ++ [.eval r now args]))) := by
  rw [after_extremum, extreme_concat side c steps hx]
  exact congrArg Prod.fst (Numeric.extremum.eval_of_number hx _ r now)

end

theorem extreme_atMost {later : List Step} (hlater : ∀ now, .reset now ∉ later) :
    side.AtMost (extreme side c steps) (extreme side c (steps ++ later)) := by
  refine (isExtreme_extreme side c steps).atMost_of_subset (isExtreme_extreme side c _) ?_
  rw [history_append, sinceReset_append fun now => mt reset_mem_history.1 (hlater now)]
  exact List.subset_append_left _ _

end

/-- A number is answered with the extreme of the seed and the samples since the last reset, this one
included. What is no number changes nothing, later answers are no less extreme until a reset, and in
any other order the same samples have an extreme that is equal as a number. -/
theorem extreme_of_history (side : Side) (c : Config) (opened : Nat) (earlier : List Step)
    (r : Resolver) (now : Nat)
    {args : List Value} {x : Float} (hx : args.head?.bind Value.number? = some x) :
    let m := (start side.plan c opened).after earlier
    let samples := sinceReset (history earlier) ++ [x]
    ∃ y, (m.eval r now args).1 = .ok (.double y) ∧ IsExtreme side (c.seed.value side) samples y ∧
      (x.isNaN = true → (m.eval r now args).2 = m ∧ m.shown? = some (.double y)) ∧
      (∀ later r' now' args' y', (∀ t, .reset t ∉ later) →
        (((m.eval r now args).2.after later).eval r' now' args').1 = .ok (.double y') →
        side.AtMost y y') ∧ ∀ others, (sinceReset (history others)).Perm samples →
        ∃ y', ((start side.plan c opened).after others).shown? = some (.double y') ∧
        (y == y') = true := by
  intro m samples
  have hbehind : (m.eval r now args).2 = (start side.plan c opened).after
      (earlier ++ [.eval r now args]) := by
    rw [after_append]
    rfl
  have hextreme := isExtreme_extreme side c (earlier ++ [.eval r now args])
  rw [history_concat_of_number hx] at hextreme
  refine ⟨_, answer_extremum side c opened earlier hx r now, hextreme, fun hnan => ?_,
    ?_, fun others hperm => ?_⟩
  · have hkept : extreme side c (earlier ++ [.eval r now args]) = extreme side c earlier := by
      rw [extreme_concat side c earlier hx,
        Side.pick_of_isNaN (isExtreme_extreme side c earlier).seed_atMost.isNumber.2 hnan]
    exact ⟨by rw [hbehind, after_extremum, hkept, ← after_extremum], by rw [hkept, shown?_after]⟩
  · intro later r' now' args' y' hlater hanswer
    rw [hbehind, ← after_append] at hanswer
    cases hx' : args'.head?.bind Value.number? with
    | none =>
      rw [after_extremum] at hanswer
      obtain ⟨e, -, heval⟩ := Numeric.extremum.eval_of_none hx'
        ⟨side, c.seed.value side, ⟨extreme side c (earlier ++ [.eval r now args] ++ later)⟩⟩ r' now'
      cases hanswer.symm.trans (congrArg Prod.fst heval)
    | some x' =>
      rw [answer_extremum side c opened _ hx'] at hanswer
      cases hanswer
      rw [List.append_assoc _ later]
      apply extreme_atMost
      intro t ht
      rcases List.mem_append.1 ht with ht | ht
      · exact hlater t ht
      · simp at ht
  · exact ⟨_, shown?_after side c opened others,
      hextreme.beq_of_perm (isExtreme_extreme side c others) hperm.symm⟩

theorem extreme_of_history_max :
    let m :=
      (start .max {} 0).after [.eval .none 1 [.int 7], .reset 2, .eval .none 3 [.double Double.nan],
        .eval .none 4 [.string "9"], .eval .none 5 [.short (-4)]]
    let samples := [Double.nan, Double.ofInt (-4), Double.ofInt 3]
    ∃ y, (m.eval .none 6 [.long 3]).1 = .ok (.double y) ∧
      IsExtreme .max Double.smallest samples y := by
  intro m samples
  have hx : [Value.long 3].head?.bind Value.number? = some (Double.ofInt 3) := rfl
  obtain ⟨y, hanswer, hextreme, -⟩ :=
    extreme_of_history .max {} 0 [.eval .none 1 [.int 7], .reset 2,
      .eval .none 3 [.double Double.nan], .eval .none 4 [.string "9"],
      .eval .none 5 [.short (-4)]] .none 6 hx
  exact ⟨y, hanswer, hextreme⟩

end Machine

end Rollup
