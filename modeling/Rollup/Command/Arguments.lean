import Rollup.Command.Run
import Rollup.Number.Reading

namespace Rollup

structure OptionTable (ο : Type) where
  long? : List Char → Option ο
  short? : Char → Option ο
  takesValue : ο → Bool

inductive Item (ο : Type)
  | option (o : ο) (value : String)
  | flag (o : ο)
  | positional (s : String)
  deriving Repr

namespace OptionTable

def looksLikeOption (s : String) : Bool :=
  match s.toList with
  | '-' :: _ :: _ => true
  | _ => false

def attached : List Char → List Char
  | '=' :: rest => rest
  | cs => cs

/-- The flags of a cluster, and the option with a value that ends it if there is one: its value is
empty if it has to be the next argument. -/
def cluster? (t : OptionTable ο) : List Char → Option (List ο × Option (ο × List Char))
  | [] => some ([], none)
  | c :: rest =>
    match t.short? c with
    | none => none
    | some o =>
      if t.takesValue o then some ([], some (o, rest))
      else (t.cluster? rest).map fun (flags, last) => (o :: flags, last)

def items? (t : OptionTable ο) : List String → Option (List (Item ο))
  | [] => some []
  | arg :: rest =>
    match arg.toList with
    | ['-', '-'] => some (rest.map .positional)
    | '-' :: '-' :: body =>
      let name := body.takeWhile (· != '=')
      match t.long? name, body.dropWhile (· != '=') with
      | none, _ => none
      | some o, _ :: value =>
        if t.takesValue o then (t.items? rest).map (.option o (String.ofList value) :: ·) else none
      | some o, [] =>
        if t.takesValue o then
          match rest with
          | [] => none
          | value :: rest =>
            if looksLikeOption value then none else (t.items? rest).map (.option o value :: ·)
        else (t.items? rest).map (.flag o :: ·)
    | '-' :: c :: body =>
      match t.cluster? (c :: body) with
      | none => none
      | some (flags, none) => (t.items? rest).map (flags.map .flag ++ ·)
      | some (flags, some (o, value)) =>
        match value, rest with
        | _ :: _, rest =>
          (t.items? rest).map (flags.map .flag ++ .option o (String.ofList (attached value)) :: ·)
        | [], [] => none
        | [], value :: rest =>
          if looksLikeOption value then none
            else (t.items? rest).map (flags.map .flag ++ .option o value :: ·)
    | _ => (t.items? rest).map (.positional arg :: ·)

end OptionTable

inductive Request
  | version
  | check (formula : String)
  | run (options : RunOptions) (pretty : Bool)
  | docs
  | doc (category : String)

inductive RunOption
  | input
  | operand
  | withOperands
  | pretty
  | percentileWindow
  | strictSeed
  deriving DecidableEq, Repr

namespace RunOption

def table : OptionTable RunOption where
  long? name :=
    match String.ofList name with
    | "input" => some input
    | "operand" => some operand
    | "with-operands" => some withOperands
    | "pretty" => some pretty
    | "percentile-window" => some percentileWindow
    | "strict-seed" => some strictSeed
    | _ => none
  short?
    | 'i' => some input
    | 'o' => some operand
    | 'p' => some pretty
    | _ => none
  takesValue
    | input | operand | percentileWindow => true
    | withOperands | pretty | strictSeed => false

end RunOption

namespace Request

def positionalsOf (items : List (Item ο)) : List String :=
  items.filterMap fun
    | .positional s => some s
    | _ => none

def positionals? (args : List String) : Option (List String) :=
  let table : OptionTable Empty := ⟨fun _ => none, fun _ => none, fun _ => false⟩
  (table.items? args).map positionalsOf

def valuesOf (o : RunOption) (items : List (Item RunOption)) : List String :=
  items.filterMap fun
    | .option p value => if p = o then some value else none
    | _ => none

def single? (o : RunOption) (items : List (Item RunOption)) : Option (Option String) :=
  match valuesOf o items with
  | [] => some none
  | [value] => some (some value)
  | _ => none

def flag? (o : RunOption) (items : List (Item RunOption)) : Option Bool :=
  match items.filter fun | .flag p => p = o | _ => false with
  | [] => some false
  | [_] => some true
  | _ => none

def size? (s : String) : Option Nat :=
  let digits := match s.toList with
    | '+' :: rest => rest
    | cs => cs
  (Reading.digits? digits).bind fun n => if n < 0x1_0000_0000_0000_0000 then some n else none

def ofRunItems? (items : List (Item RunOption)) : Option Request := do
  let [formula] := positionalsOf items | none
  let input ← single? .input items
  let window ← single? .percentileWindow items
  let withOperands ← flag? .withOperands items
  let pretty ← flag? .pretty items
  let strictSeed ← flag? .strictSeed items
  let window ← match window with
    | none => some 100
    | some s => size? s
  let config : Config := { seed := if strictSeed then .infinite else .legacy }
  return .run
    { formula, input, operands := valuesOf .operand items, withOperands,
      config := config.withPercentileWindow window }
    pretty

def ofArguments? : List String → Option Request
  | [] => none
  | first :: rest =>
    match first with
    | "check" => match positionals? rest with
      | some [formula] => some (check formula)
      | _ => none
    | "run" => (RunOption.table.items? rest).bind ofRunItems?
    | "docs" => match positionals? rest with
      | some [] => some docs
      | _ => none
    | "doc" => match positionals? rest with
      | some [category] => some (doc category)
      | _ => none
    | "--version" => some version
    | _ => match first.toList with
      | '-' :: 'V' :: _ => some version
      | _ => none

end Request

end Rollup
