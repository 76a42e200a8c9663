import Rollup.Command.Arguments
import Rollup.Command.Check
import Rollup.Command.Manual

namespace Rollup

inductive Outcome
  | printed (text : String)
  | failed (e : CommandError)
  | misused

namespace Request

def readsInput : Request → Bool
  | run options _ => options.input.isNone
  | _ => false

def results (pretty : Bool) (l : List Json) : String :=
  String.join (l.map fun j => (if pretty then j.pretty else j.compact) ++ "\n")

def execute (r : Request) (stdin : String) : Outcome :=
  match r with
  | version => .printed "aggfn 0.2.0\n"
  | check formula =>
    match Rollup.check formula with
    | .error e => .failed e
    | .ok report => .printed (report.text ++ "\n")
  | run options pretty =>
    match Rollup.run { options with input := options.input.or (some stdin) } with
    | .error e => .failed e
    | .ok l => .printed (results pretty l)
  | docs => .printed Manual.overview
  | doc name =>
    match Manual.Category.ofName? name with
    | none => .failed (.unknownCategory name)
    | some c => .printed c.text

end Request

def execute (args : List String) (stdin : String) : Outcome :=
  match Request.ofArguments? args with
  | none => .misused
  | some r => r.execute stdin

end Rollup
