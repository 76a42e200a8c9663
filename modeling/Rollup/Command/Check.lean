import Rollup.Command.Run

namespace Rollup

def probedTypes : List TypeTag :=
  [.bool, .byte, .short, .int, .long, .float, .double, .bigint, .bigdecimal, .string,
    .char, .date, .composite]

structure Report where
  plan : Plan
  kind : Kind
  returns : TypeTag
  operands : Nat
  accepts : List TypeTag

namespace Report

def ofPlan (p : Plan) : Report where
  plan := p
  kind := p.kind
  returns := p.kind.returns
  operands := p.kind.operands
  accepts := probedTypes.filter (p.kind.accepts 0)

def text (r : Report) : String :=
  "\n".intercalate [
    "formula:  " ++ r.plan.text,
    "returns:  " ++ r.returns.name,
    s!"operands: {r.operands}",
    "accepts:  " ++ ", ".intercalate (r.accepts.map TypeTag.name)]

end Report

def check (formula : String) : Except CommandError Report :=
  match Plan.parse formula with
  | .error e => .error (.parse e)
  | .ok p => .ok (.ofPlan p)

end Rollup
