import CountingGame.Launch
/-!
# Command line

Prints what a launch leaves behind and ends with its status.
-/

def main (arguments : List String) : IO UInt32 := do
  match (CountingGame.Launch.command arguments).outcome with
  | .error fault => throw (IO.userError fault.message)
  | .ok outcome =>
    let output ← IO.getStdout
    output.putStr outcome.output
    output.flush
    let errors ← IO.getStderr
    errors.putStr outcome.errors
    return outcome.status.toUInt32
