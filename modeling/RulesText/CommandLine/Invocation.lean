import RulesText.CommandLine.Options

/-!
# Invocations

The program has two commands. `scan` analyzes the text of one card, which is given as words or on
standard input; `analyze` analyzes a corpus of cards in a file. Both take `--color` and
`--no-color`, which may also stand before the command.

## Main definitions

* `Command`: what the program is asked to do.
* `Invocation.parse`: the invocation that an argument list stands for.
-/

namespace RulesText.CommandLine

structure ScanCommand where
  name : Text := []
  stripReminders : Bool := false
  /-- The words of the text. Without words the text is read from standard input. -/
  words : List Text
deriving DecidableEq, Repr

structure AnalyzeCommand where
  path : Text
  /-- Print the structured report. -/
  json : Bool := false
  leastRun : Nat := 1
  stripReminders : Bool := false
  /-- The number of rows in a section of the report. -/
  top : Nat := 20
  parallel : Bool := true
deriving DecidableEq, Repr

inductive Command where
  | scan (scan : ScanCommand)
  | analyze (analyze : AnalyzeCommand)
deriving DecidableEq, Repr

/-- What was said about colors. -/
structure ColorChoice where
  on : Bool := false
  off : Bool := false
deriving DecidableEq, Repr

namespace ColorChoice

/-- Of two choices that differ, the one for colors has its way. Without any choice there are
colors on a terminal. -/
def resolve (c : ColorChoice) (isTerminal : Bool) : Bool :=
  c.on || (!c.off && isTerminal)

/-- The choice before a command together with the one after it. -/
def merge (c d : ColorChoice) : ColorChoice :=
  ⟨c.on || d.on, c.off || d.off⟩

end ColorChoice

structure Invocation where
  command : Command
  color : ColorChoice
deriving DecidableEq, Repr

/-! ## The options -/

def commonOptions : List OptionSpec :=
  [{ name := "color" }, { name := "no-color" },
   { name := "help", kind := .exit .help, letter? := some 'h' }]

def programOptions : List OptionSpec :=
  { name := "version", kind := .exit .version, letter? := some 'V' } :: commonOptions

def scanOptions : List OptionSpec :=
  { name := "name", kind := .text, letter? := some 'n' } :: { name := "strip-reminder" } ::
    commonOptions

def analyzeOptions : List OptionSpec :=
  { name := "json" } :: { name := "min-run", kind := .count } :: { name := "strip-reminder" } ::
    { name := "top", kind := .count } :: { name := "sequential" } :: commonOptions

/-- The color options at one place must not contradict each other. -/
def FoundOptions.color (o : FoundOptions) : Except EarlyExit ColorChoice :=
  if o.has "color" && o.has "no-color" then .error .usage
  else .ok { on := o.has "color", off := o.has "no-color" }

/-! ## The commands -/

/-- Everything from the first word on is text. -/
def parseScan (arguments : List Text) : Except EarlyExit Invocation := do
  let reading ← OptionReading.ofArguments scanOptions arguments
  let o := reading.found
  let color ← o.color
  return {
    command := .scan {
      name := (o.text? "name").getD []
      stripReminders := o.has "strip-reminder"
      words := reading.rest }
    color }

/-- The only word, before or after options. An empty word is no path, whatever comes after it. -/
def soleWord (reading : OptionReading) : Except EarlyExit (Text × FoundOptions) :=
  match reading.rest with
  | [] => .error .usage
  | [] :: _ => .error .usage
  | word :: rest =>
    if reading.isEnded then
      if rest.isEmpty then .ok (word, reading.found) else .error .usage
    else do
      let reading ← OptionReading.after analyzeOptions (none, reading.found) rest
      if reading.rest.isEmpty then .ok (word, reading.found) else .error .usage

def parseAnalyze (arguments : List Text) : Except EarlyExit Invocation := do
  let (path, o) ← soleWord (← OptionReading.ofArguments analyzeOptions arguments)
  let color ← o.color
  return {
    command := .analyze {
      path
      json := o.has "json"
      leastRun := (o.number? "min-run").getD 1
      stripReminders := o.has "strip-reminder"
      top := (o.number? "top").getD 20
      parallel := !o.has "sequential" }
    color }

/-- Help on the program, or on one command. -/
def parseHelp : (arguments : List Text) → EarlyExit
  | [] => .help
  | [command] =>
    if command == "scan" || command == "analyze" || command == "help" then .help else .usage
  | _ => .usage

def parseCommand (name : Text) (arguments : List Text) : Except EarlyExit Invocation :=
  if name == "scan" then parseScan arguments
  else if name == "analyze" then parseAnalyze arguments
  else if name == "help" then .error (parseHelp arguments)
  else .error .usage

/-- The invocation of an argument list. -/
def Invocation.parse (arguments : List Text) : Except EarlyExit Invocation := do
  let reading ← OptionReading.ofArguments programOptions arguments
  match reading.rest with
  | [] => throw .usage
  | name :: rest =>
    if reading.isEnded then throw .usage
    let invocation ← parseCommand name rest
    return { invocation with color := (← reading.found.color).merge invocation.color }

end RulesText.CommandLine
