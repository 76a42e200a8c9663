import Rollup.Command.Outcome

open Rollup

def main (args : List String) : IO UInt32 := do
  let some request := Request.ofArguments? args | return 2
  let stdin ← if request.readsInput then (← IO.getStdin).readToEnd else pure ""
  match request.execute stdin with
  | .printed text => IO.print text; return 0
  | .failed e => IO.eprintln e.message; return 1
  | .misused => return 2
