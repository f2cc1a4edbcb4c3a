import RulesText.CommandLine.Invocation
import RulesText.Report.Card
import RulesText.Report.Corpus
import RulesText.Report.Structured

/-!
# Running a command

A command needs one text from outside: that of a card or that of a corpus file. With this text
it has an outcome, which is printed, or it fails with a message and an exit code.

## Main definitions

* `Command.source`: where the text of a command comes from.
* `Command.outcome`: what a command finds out.
* `Outcome.print`: the text that it prints.
* `Failure.message`, `Failure.exitCode`: what it prints and returns if it fails.
-/

namespace RulesText.CommandLine

/-- Where a text comes from. -/
inductive Source where
  /-- It is given in the arguments. -/
  | arguments (text : Text)
  | standardInput
  | file (path : Text)
deriving DecidableEq, Repr

def Source.name : Source → Text
  | arguments _ => "arguments"
  | standardInput => "stdin"
  | file path => path

inductive Failure where
  /-- The text of a command could not be read. -/
  | unreadable (source : Source) (reason : Text)
  /-- The text of a card is blank. -/
  | noInput
  /-- The text of a file is no corpus. -/
  | invalidCorpus (path : Text)
  | fault (fault : Fault)
deriving DecidableEq, Repr

namespace Failure

def message : Failure → Text
  | unreadable source reason => "failed to read " ++ source.name ++ ": " ++ reason
  | noInput => "no input provided"
  | invalidCorpus path => "invalid corpus " ++ path ++ ": not a JSON array of cards"
  | fault f => f.message

/-- 2 for a mistake of the user, 1 for anything else. -/
def exitCode : Failure → Nat
  | unreadable _ _ => 1
  | noInput => 2
  | invalidCorpus _ => 2
  | fault f => if f.isDefect then 1 else 2

end Failure

/-- What a command finds out. -/
inductive Outcome where
  /-- The analysis of a card with a vocabulary of so many kinds. -/
  | card (card : CardAnalysis) (kinds : Nat)
  /-- The report of a corpus, with so many rows in a section. -/
  | summary (report : CorpusAnalysis) (top : Nat)
  /-- The report of a corpus as JSON. -/
  | structured (report : CorpusAnalysis)

namespace Outcome

/-- Note how long the analysis of a corpus took. -/
def withTotal (nanos : Nat) : Outcome → Outcome
  | card c kinds => card c kinds
  | summary r top => summary { r with timings := { r.timings with total := nanos } } top
  | structured r => structured { r with timings := { r.timings with total := nanos } }

/-- The text that is printed for an outcome. Only reports for people have colors. -/
def print (color : Bool) : Outcome → Text
  | card c kinds => Report.ofCard c kinds color
  | summary r top => Report.ofCorpus r top color
  | structured r => r.toJson.pretty ++ "\n"

end Outcome

namespace Command

def source : Command → Source
  | scan s => if s.words.isEmpty then .standardInput else .arguments (Text.unwords s.words)
  | analyze a => .file a.path

def orFault {α : Type} (result : Except Fault α) : Except Failure α :=
  result.mapError .fault

def scanOutcome (s : ScanCommand) (text : Text) : Except Failure Outcome := do
  if (Text.trim text).isEmpty then throw .noInput
  let tokenizer ← orFault Tokenizer.standard
  let options := { stripReminders := s.stripReminders, parallel := false }
  let card ← orFault (tokenizer.analyzeCard options { name := s.name, text })
  return .card card tokenizer.lexicon.entries.length

def analyzeOutcome (a : AnalyzeCommand) (text : Text) : Except Failure Outcome := do
  match CardItem.parseCorpus? text with
  | none => throw (.invalidCorpus a.path)
  | some items =>
    let tokenizer ← orFault Tokenizer.standard
    let options := {
      captures := false, leastRun := a.leastRun, stripReminders := a.stripReminders,
      parallel := a.parallel }
    let report ← orFault (tokenizer.analyzeCorpus options items)
    return if a.json then .structured report else .summary report a.top

/-- The outcome of a command, given the text of its source. -/
def outcome (c : Command) (text : Text) : Except Failure Outcome :=
  match c with
  | scan s => scanOutcome s text
  | analyze a => analyzeOutcome a text

end Command

/-! ## Texts of the program itself -/

def versionText : Text :=
  "glyphscan 0.1.0\n"

def usageText : Text :=
  "Usage: glyphscan [--color | --no-color] scan [-n NAME] [--strip-reminder] [TEXT]...\n" ++
  "       glyphscan [--color | --no-color] analyze [--json] [--min-run N] [--strip-reminder]\n" ++
  "                 [--top N] [--sequential] CORPUS\n" ++
  "       glyphscan --help | --version\n"

end RulesText.CommandLine
