import PanicMode.Arguments

def main (args : List String) : IO UInt32 := do
  let outcome := PanicMode.Outcome.run PanicMode.Arguments.reader args
  (← IO.getStdout).putStr outcome.stdout
  (← IO.getStderr).putStr outcome.stderr
  return outcome.exitCode.toUInt32
