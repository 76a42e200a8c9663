import Rollup.Value

namespace Rollup

inductive ResolutionReason
  | missing
  | holds (type : Option TypeTag)
  | resolved (type : Option TypeTag)
  | failed (reason : String)
  deriving DecidableEq, Repr

structure ResolutionError where
  operand : String
  expected : TypeTag
  reason : ResolutionReason
  deriving DecidableEq, Repr

def ResolutionReason.message : ResolutionReason → String
  | missing => "no such operand"
  | holds t => "operand holds " ++ TypeTag.nameOf t
  | resolved t => "resolved value has type " ++ TypeTag.nameOf t
  | failed reason => reason

def ResolutionError.message (e : ResolutionError) : String :=
  s!"cannot resolve operand '{e.operand}' as {e.expected.name}: {e.reason.message}"

abbrev Resolver := String → TypeTag → Except ResolutionError Value

namespace Resolver

def none : Resolver := fun name expected => .error ⟨name, expected, .missing⟩

end Resolver

abbrev Bindings := Keyed Value

namespace Bindings

def empty : Bindings := Keyed.empty

def bind (b : Bindings) (name : String) (v : Value) : Bindings := Keyed.insert b name v

def unbind (b : Bindings) (name : String) : Bindings := Keyed.From.erase name b

def find? (b : Bindings) (name : String) : Option Value := Keyed.From.find? name b

/-- Answers values of the type that is asked for, and any number where a double is. -/
def resolver (b : Bindings) : Resolver := fun name expected =>
  match b.find? name with
  | none => .error ⟨name, expected, .missing⟩
  | some v =>
    if v.tag? = some expected then .ok v
    else
      match expected, v.number? with
      | .double, some x => .ok (.double x)
      | _, _ => .error ⟨name, expected, .holds v.tag?⟩

end Bindings

end Rollup
