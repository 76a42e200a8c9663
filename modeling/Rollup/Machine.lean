import Rollup.Aggregate.Comoments
import Rollup.Aggregate.Extract
import Rollup.Aggregate.Extremum
import Rollup.Aggregate.Gauge
import Rollup.Aggregate.Tally
import Rollup.Aggregate.Windowed
import Rollup.Operands
import Rollup.Plan

/-!
Machines: plans at work.

A machine takes in samples one at a time and answers the updated aggregate. Every argument is read
before the state is touched.
-/

namespace Rollup

inductive EvalError
  | missingArgument (function : Kind) (index : Nat)
  | typeMismatch (function : Kind) (index : Nat) (found : Option TypeTag)
  | fieldNotFound (field : String) (path : List String)
  | numberFormat (value : String) (target : Target)
  | resolution (e : ResolutionError)
  deriving DecidableEq, Repr

def EvalError.message : EvalError → String
  | missingArgument k i => s!"{k.name}: missing argument {i}"
  | typeMismatch k i t => s!"{k.name}: argument {i} of type {TypeTag.nameOf t} is not accepted"
  | fieldNotFound field path => s!"field '{field}' not found (path " ++ ".".intercalate path ++ ")"
  | numberFormat value target => s!"cannot convert '{value}' to {target.tag.name}"
  | resolution e => e.message

structure Config where
  percentileWindow : Nat := 100
  seed : Seed := .legacy
  deriving DecidableEq, Repr

def Config.withPercentileWindow (c : Config) (n : Nat) : Config :=
  { c with percentileWindow := max n 1 }

inductive Machine
  | extremum (e : Extremum)
  | sum (t : Total)
  | avg (m : Mean)
  | percentile (p : Percentile)
  | correl (operand : String) (m : Comoments Float)
  | extract (target : Target) (path : List String)
  | flag (t : Tally)
  | gaugeFp (g : Gauge Float Float)
  | gaugeInt (g : Gauge Int64 Float)

def argument (k : Kind) (args : List Value) (i : Nat) : Except EvalError Value :=
  match args[i]? with
  | some v => .ok v
  | none => .error (.missingArgument k i)

def readArgument (read : Value → Option α) (k : Kind) (args : List Value) (i : Nat) :
    Except EvalError α :=
  match argument k args i with
  | .error e => .error e
  | .ok v =>
    match read v with
    | some a => .ok a
    | none => .error (.typeMismatch k i v.tag?)

namespace Machine

def start (p : Plan) (c : Config) (now : Nat) : Machine :=
  match p with
  | .max => extremum (.start .max c.seed)
  | .min => extremum (.start .min c.seed)
  | .sum i => sum (.start i.duration now)
  | .avg i => avg (.start i.duration now)
  | .percentile n i => percentile (.start n i.duration c.percentileWindow now)
  | .correl operand => correl operand .start
  | .extract target path => extract target path
  | .flag => flag .start
  | .gaugeFp range => gaugeFp (.start range)
  | .gaugeInt range => gaugeInt (.start range)

def kind : Machine → Kind
  | extremum e => match e.side with
    | .max => .max
    | .min => .min
  | sum _ => .sum
  | avg _ => .avg
  | percentile _ => .percentile
  | correl _ _ => .correl
  | extract target _ => .extract target
  | flag _ => .flag
  | gaugeFp g => if g.range.isSome then .rangedGaugeFp else .gaugeFp
  | gaugeInt g => if g.range.isSome then .rangedGaugeInt else .gaugeInt

def reset (m : Machine) (now : Nat) : Machine :=
  match m with
  | extremum e => extremum e.reset
  | sum t => sum (t.reset now)
  | avg a => avg (a.reset now)
  | percentile p => percentile (p.reset now)
  | correl operand _ => correl operand .start
  | extract target path => extract target path
  | flag t => flag t.clear
  | gaugeFp g => gaugeFp g.clear
  | gaugeInt g => gaugeInt g.clear

def operandValue (name : String) (r : Resolver) : Except EvalError Float :=
  match r name .double with
  | .error e => .error (.resolution e)
  | .ok v =>
    match v.number? with
    | some x => .ok x
    | none => .error (.resolution ⟨name, .double, .resolved v.tag?⟩)

/-- The field at the end of a path, read as a type. Without a sample or a path there is nothing to
read. -/
def extractFrom (target : Target) (path : List String) (args : List Value) :
    Except EvalError Value :=
  match args, path with
  | [], _ => .ok target.fallback
  | _, [] => .ok target.fallback
  | v :: _, path =>
    if v.fields?.isNone then .error (.typeMismatch (.extract target) 0 v.tag?)
    else
      match v.follow path with
      | .error field => .error (.fieldNotFound field path)
      | .ok leaf =>
        match target.read? leaf with
        | some w => .ok w
        | none => .error (.numberFormat leaf.text target)

def clampedInteger? (v : Value) : Option Int64 := v.integer?.map Int64.ofIntClamp

/-- Hands an argument on to `step`, unless it cannot be read. -/
def fold (m : Machine) (arg : Except EvalError α) (step : α → Value × Machine) :
    Except EvalError Value × Machine :=
  match arg with
  | .error e => (.error e, m)
  | .ok a => (.ok (step a).1, (step a).2)

def eval (m : Machine) (r : Resolver) (now : Nat) (args : List Value) :
    Except EvalError Value × Machine :=
  let number := readArgument Value.number? m.kind args 0
  match m with
  | extremum e => m.fold number fun x => (.double (e.add x).1, extremum (e.add x).2)
  | sum t => m.fold number fun x => (.double (t.add x now).1, sum (t.add x now).2)
  | avg a => m.fold number fun x => (.double (a.add x now).1, avg (a.add x now).2)
  | percentile p => m.fold number fun x => (.double (p.add x now).1, percentile (p.add x now).2)
  | correl operand c =>
    let pair := number.bind fun x => (operandValue operand r).map fun y => (x, y)
    m.fold pair fun (x, y) => (.double (c.add x y).coefficient, correl operand (c.add x y))
  | extract target path => (extractFrom target path args, m)
  | flag t =>
    m.fold (readArgument Value.bool? m.kind args 0) fun b => ((t.add b).snapshot, flag (t.add b))
  | gaugeFp g =>
    m.fold number fun x =>
      let g := g.add id x
      (g.snapshot m.kind.name .double, gaugeFp g)
  | gaugeInt g =>
    m.fold (readArgument clampedInteger? m.kind args 0) fun n =>
      let g := g.add (fun n => Double.ofInt n.toInt) n
      (g.snapshot m.kind.name .long, gaugeInt g)

def evalSample (m : Machine) (now : Nat) (sample : Value) : Except EvalError Value × Machine :=
  m.eval Resolver.none now [sample]

end Machine

end Rollup
