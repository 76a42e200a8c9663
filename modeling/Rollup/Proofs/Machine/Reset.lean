import Mathlib
import Rollup.Proofs.Aggregate.Windowed
import Rollup.Proofs.Machine.Run

namespace Rollup

theorem Total.reset_add (t : Total) (x : Float) (now later : Nat) :
    (t.add x now).2.reset later = t.reset later := by
  simp only [reset, add, Window.restart_roll]

theorem Mean.reset_add (m : Mean) (x : Float) (now later : Nat) :
    (m.add x now).2.reset later = m.reset later := by
  simp only [reset, add, Window.restart_roll]

theorem Percentile.reset_add (p : Percentile) (x : Float) (now later : Nat) :
    (p.add x now).2.reset later = p.reset later := by
  have hclear : (if (p.window.roll now).1 then p.estimator.clear else p.estimator).clear =
      p.estimator.clear := by
    split <;> rfl
  simp only [reset, add, Window.restart_roll, Estimator.clear_add, hclear]

namespace Machine

theorem reset_eval (m : Machine) (r : Resolver) (now later : Nat) (args : List Value) :
    (m.eval r now args).2.reset later = m.reset later := by
  cases m with
  | extract => rfl
  | sum t =>
    exact fold_induction (P := (reset · later = _)) rfl fun _ => congrArg sum (t.reset_add _ _ _)
  | avg a =>
    exact fold_induction (P := (reset · later = _)) rfl fun _ => congrArg avg (a.reset_add _ _ _)
  | percentile p =>
    exact fold_induction (P := (reset · later = _)) rfl fun _ =>
      congrArg percentile (p.reset_add _ _ _)
  | extremum | correl | flag | gaugeFp | gaugeInt =>
    exact fold_induction (P := (reset · later = _)) rfl fun _ => rfl

theorem reset_step (m : Machine) (s : Step) (later : Nat) :
    (m.step s).2.reset later = m.reset later := by
  cases s with
  | eval r now args => exact reset_eval m r now later args
  | reset now => cases m <;> rfl

theorem reset_after (m : Machine) (steps : List Step) (later : Nat) :
    (m.after steps).reset later = m.reset later := by
  induction steps generalizing m with
  | nil => rfl
  | cons s steps ih => rw [after, ih, reset_step]

theorem reset_start (p : Plan) (c : Config) (opened now : Nat) :
    (start p c opened).reset now = start p c now := by
  cases p <;> rfl

def shown? : Machine → Option Value
  | extremum e => some (.double e.current.value)
  | flag t => some t.snapshot
  | gaugeFp g => some (g.snapshot (gaugeFp g).kind.name .double)
  | gaugeInt g => some (g.snapshot (gaugeInt g).kind.name .long)
  | sum _ | avg _ | percentile _ | correl _ _ | extract _ _ => none

/-- A step, or a look at what the machine shows. -/
inductive Action
  | step (s : Step)
  | look

def seen (m : Machine) : List Action → List (Answer ⊕ Option Value)
  | [] => []
  | .step s :: actions => .inl (m.step s).1 :: (m.step s).2.seen actions
  | .look :: actions => .inr m.shown? :: m.seen actions

/-- A machine that is reset, whatever has been done to it, is the fresh machine of its plan, and so
it is never told from one that is started at that time. -/
theorem reset_after_start (p : Plan) (c : Config) (opened : Nat) (steps : List Step) (now : Nat) :
    ((start p c opened).after steps).reset now = start p c now ∧
      ∀ later, (((start p c opened).after steps).reset now).seen later =
      (start p c now).seen later := by
  have hreset : ((start p c opened).after steps).reset now = start p c now := by
    rw [reset_after, reset_start]
  exact ⟨hreset, fun later => by rw [hreset]⟩

end Machine

end Rollup
