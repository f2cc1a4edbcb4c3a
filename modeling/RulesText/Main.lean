import RulesText.CommandLine.Run

/-!
# The program

Reads the arguments and the text they ask for, and prints what the command finds out.
-/

namespace RulesText.CommandLine

/-- The text of a source. -/
def readSource : Source → IO Text
  | .arguments text => return text
  | .standardInput => return (← (← IO.getStdin).readToEnd).toList
  | .file path => return (← IO.FS.readFile (String.ofList path)).toList

def printFailure (f : Failure) : IO UInt32 := do
  IO.eprint (String.ofList ("error: " ++ f.message ++ "\n"))
  return f.exitCode.toUInt32

def runInvocation (i : Invocation) : IO UInt32 := do
  let source := i.command.source
  match ← (readSource source).toBaseIO with
  | .error reason => printFailure (.unreadable source (toString reason))
  | .ok text =>
    let start ← IO.monoNanosNow
    match ← IO.lazyPure fun _ => i.command.outcome text with
    | .error f => printFailure f
    | .ok outcome =>
      let total := (← IO.monoNanosNow) - start
      let color := i.color.resolve (← (← IO.getStdout).isTty)
      IO.print (String.ofList ((outcome.withTotal total).print color))
      return 0

end RulesText.CommandLine

open RulesText.CommandLine in
def main (arguments : List String) : IO UInt32 := do
  match Invocation.parse (arguments.map String.toList) with
  | .ok invocation => runInvocation invocation
  | .error .help => do
    IO.print (String.ofList usageText)
    return 0
  | .error .version => do
    IO.print (String.ofList versionText)
    return 0
  | .error .usage => do
    IO.eprint (String.ofList usageText)
    return 2
