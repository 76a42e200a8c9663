import Mathlib
import Rollup.Machine

namespace Rollup

namespace Machine

/-- What is done to a machine at a time: it is given arguments and a source of operands, or it is
reset. -/
inductive Step
  | eval (r : Resolver) (now : Nat) (args : List Value)
  | reset (now : Nat)

abbrev Answer := Except EvalError (Option Value)

def step (m : Machine) : Step → Answer × Machine
  | .eval r now args => ((m.eval r now args).1.map some, (m.eval r now args).2)
  | .reset now => (.ok none, m.reset now)

def run (m : Machine) : List Step → List (Step × Answer)
  | [] => []
  | s :: steps => (s, (m.step s).1) :: (m.step s).2.run steps

def after (m : Machine) : List Step → Machine
  | [] => m
  | s :: steps => (m.step s).2.after steps

/-- A run without some of the steps that failed. -/
inductive Thinned : List (Step × Answer) → List (Step × Answer) → Prop
  | nil : Thinned [] []
  | keep : Thinned l k → Thinned (x :: l) (x :: k)
  | drop : Thinned l k → Thinned ((s, .error e) :: l) k

theorem fold_of_error {m : Machine} {arg : Except EvalError α} {f : α → Value × Machine}
    {e : EvalError} (h : (m.fold arg f).1 = .error e) : (m.fold arg f).2 = m := by
  cases arg with
  | error _ => rfl
  | ok a => cases h

theorem fold_induction {P : Machine → Prop} {m : Machine} {arg : Except EvalError α}
    {f : α → Value × Machine} (hm : P m) (hf : ∀ a, P (f a).2) : P (m.fold arg f).2 := by
  cases arg with
  | error _ => exact hm
  | ok a => exact hf a

theorem eval_of_error {m : Machine} {r : Resolver} {now : Nat} {args : List Value} {e : EvalError}
    (h : (m.eval r now args).1 = .error e) : (m.eval r now args).2 = m := by
  cases m with
  | extract => rfl
  | extremum | sum | avg | percentile | correl | flag | gaugeFp | gaugeInt => exact fold_of_error h

theorem step_of_error {m : Machine} {s : Step} {e : EvalError} (h : (m.step s).1 = .error e) :
    (m.step s).2 = m := by
  cases s with
  | eval r now args =>
    apply eval_of_error (e := e)
    simp only [step] at h
    cases hr : (m.eval r now args).1 with
    | error _ => rw [hr] at h; cases h; rfl
    | ok _ => rw [hr] at h; cases h
  | reset => cases h

/-- A run without some of its failures answers the same to every other step, and leaves the same
machine. -/
theorem run_of_thinned (p : Plan) (c : Config) (opened : Nat) (steps : List Step)
    (l : List (Step × Answer)) (h : Thinned ((start p c opened).run steps) l) :
    (start p c opened).run (l.map Prod.fst) = l ∧
      (start p c opened).after (l.map Prod.fst) = (start p c opened).after steps := by
  generalize start p c opened = m at h
  -- A step that is kept starts from the same machine in both runs, and one that is dropped left it
  -- unchanged.
  induction steps generalizing m l with
  | nil =>
    cases h
    exact ⟨rfl, rfl⟩
  | cons s steps ih =>
    simp only [run] at h
    generalize ha : (m.step s).1 = a at h
    cases h with
    | keep h =>
      obtain ⟨hrun, hafter⟩ := ih _ _ h
      subst ha
      simp only [List.map_cons, run, after, hrun, hafter]
      exact ⟨trivial, trivial⟩
    | drop h =>
      rw [step_of_error ha] at h
      obtain ⟨hrun, hafter⟩ := ih _ _ h
      exact ⟨hrun, by rw [hafter, after, step_of_error ha]⟩

theorem run_of_thinned_sum :
    let m := start (.sum ⟨1, .minutes⟩) {} 0
    let one := Step.eval .none 5 [.double 1]
    let text := Step.eval .none (10 ^ 12) [.string "two"]
    let nothing := Step.eval .none (10 ^ 12) []
    let three := Step.eval .none 7 [.double 3]
    let l := [(one, (m.step one).1), (three, ((m.step one).2.step three).1)]
    Thinned (m.run [one, text, nothing, three]) l ∧
      m.run [one, three] = l ∧ m.after [one, three] = m.after [one, text, nothing, three] :=
  have h := .keep (.drop (.drop (.keep .nil)))
  ⟨h, run_of_thinned (.sum ⟨1, .minutes⟩) {} 0 [_, _, _, _] _ h⟩

end Machine

theorem Bindings.resolver_congr {b₁ b₂ : Bindings} {name : String}
    (h : b₁.find? name = b₂.find? name)
    (expected : TypeTag) : b₁.resolver name expected = b₂.resolver name expected := by
  simp only [resolver, h]

namespace Machine

def operand? : Machine → Option String
  | correl operand _ => some operand
  | _ => none

theorem eval_congr {m : Machine} {r₁ r₂ : Resolver}
    (h : ∀ name, m.operand? = some name → r₁ name .double = r₂ name .double)
    (now : Nat) (args : List Value) :
    m.eval r₁ now args = m.eval r₂ now args := by
  cases m with
  | correl operand c => simp only [eval, operandValue, h operand rfl]
  | extremum | sum | avg | percentile | extract | flag | gaugeFp | gaugeInt => rfl

end Machine

end Rollup
