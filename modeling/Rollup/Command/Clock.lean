import Rollup.Command.Run

namespace Rollup

structure Clock where
  opened : Nat
  reading : Nat → Nat

def Clock.stopped : Clock := ⟨0, fun _ => 0⟩

namespace Run

def feedAt (now : Nat) (m : Machine) (n : Nat) (v : Value) (b : Bindings) :
    Except CommandError (Json × Machine) :=
  if v.tag?.any (m.kind.accepts 0) then
    match m.eval b.resolver now [v] with
    | (.error e, _) => .error (.eval n e)
    | (.ok r, m) => .ok (r.toJson, m)
  else .error (.rejected n m.kind v.tag?)

/-- The results of the lines from number `n` on; `reading` has the times of the samples that are
still to come. -/
def resultsAt (withOperands : Bool) (b : Bindings) :
    (Nat → Nat) → Machine → Nat → List (List Char) → Except CommandError (List Json)
  | _, _, _, [] => .ok []
  | reading, m, n, line :: rest =>
    if line.all Unicode.isBlank then resultsAt withOperands b reading m (n + 1) rest
    else
      match decode withOperands b line with
      | .error e => .error e
      | .ok (v, operands) =>
        match feedAt (reading 0) m n v operands with
        | .error e => .error e
        | .ok (j, m) => (j :: ·) <$> resultsAt withOperands b (reading ∘ Nat.succ) m (n + 1) rest

theorem results_eq_resultsAt (withOperands : Bool) (b : Bindings) (m : Machine) (n : Nat)
    (lines : List (List Char)) :
    results withOperands b m n lines = resultsAt withOperands b (fun _ => 0) m n lines := by
  induction lines generalizing m n with
  | nil => rfl
  | cons line lines ih =>
    simp only [results, resultsAt, ih]
    rfl

end Run

open Run in
def runAt (clock : Clock) (o : RunOptions) : Except CommandError (List Json) := do
  let p ← (Plan.parse o.formula).mapError .parse
  let some input := o.input | throw .noInput
  let b ← bindAll .empty o.operands
  resultsAt o.withOperands b clock.reading (.start p o.config clock.opened) 1 (lines input.toList)

theorem run_eq_runAt (o : RunOptions) : run o = runAt .stopped o := by
  simp only [run, runAt, Run.results_eq_resultsAt]
  rfl

end Rollup
