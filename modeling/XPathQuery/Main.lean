import XPathQuery.CommandLine

/-!
The program: reads the arguments and the file, and prints the outcome.
-/
namespace XPathQuery.CommandLine

def readFile? (path : String) : IO (Option String) := do
  try
    return some (← IO.FS.readFile path)
  catch _ =>
    return none

def finish (outcome : Outcome) : IO UInt32 := do
  IO.print outcome.output
  return outcome.exitCode.toUInt32

end XPathQuery.CommandLine

open XPathQuery.CommandLine in
def main (arguments : List String) : IO UInt32 := do
  match readCommand arguments with
  | .error stop =>
      if stop == .usage then IO.eprintln helpText
      finish stop.outcome
  | .ok command => finish (command.outcome (← readFile? command.file))
