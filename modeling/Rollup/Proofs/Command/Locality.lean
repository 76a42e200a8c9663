import Mathlib
import Rollup.Proofs.Command.Run

namespace Rollup

namespace Run

def Holds (line : List Char) (v : Value) (own : Bindings) : Prop :=
  ∃ j, Json.parse? (String.ofList line) = some j ∧ IsEnvelope j (.ok (v, own))

/-- Lines of the same number with the same sample, and with operands that agree on the name that a
plan reads. -/
inductive Alike (p : Plan) (b : Bindings) : List Char × Nat → List Char × Nat → Prop
  | intro : Holds line₁ v own₁ → Holds line₂ v own₂ →
      (∀ name, p = .correl name → (b.overriddenBy own₁).find? name =
      (b.overriddenBy own₂).find? name) → Alike p b (line₁, n) (line₂, n)

end Run

open Run

end Rollup
