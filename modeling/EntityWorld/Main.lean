import EntityWorld.Demo

open EntityWorld

/-- The command line: shows the records of the demonstration, down to the level that is named. -/
def main (arguments : List String) : IO UInt32 := do
  let level := (arguments.head?.bind Level.ofName?).getD .error
  match Demo.events with
  | .error error =>
    IO.eprintln error.message
    return 1
  | .ok events =>
    for record in Event.records events level do
      IO.eprintln record
    return 0
