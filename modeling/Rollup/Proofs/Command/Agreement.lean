import Mathlib
import Rollup.Command.Check
import Rollup.Proofs.Command.Run

namespace Rollup

def Machine.report (m : Machine) (p : Plan) : Report where
  plan := p
  kind := m.kind
  returns := m.kind.returns
  operands := m.kind.operands
  accepts := probedTypes.filter (m.kind.accepts 0)

open Run

namespace Run

end Run

end Rollup
