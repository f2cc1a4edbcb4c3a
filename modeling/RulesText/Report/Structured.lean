import RulesText.Analysis.Corpus
import RulesText.Json.Printer
import RulesText.Report.Decimal

/-!
# The structured report of a corpus

The report of a corpus as a JSON value. The analyses of the single cards are not part of it.
-/

namespace RulesText

open Json (record ofText ofNat ofList)

def Span.toJson (s : Span) : Json :=
  record [("start", ofNat s.start), ("end", ofNat s.stop)]

def Neighbour.toJson : Neighbour → Json
  | lineStart => record [("type", ofText "line_start")]
  | lineEnd => record [("type", ofText "line_end")]
  | kind k => record [("type", ofText "variant"), ("kind", ofText k.name)]

def Gap.toJson (g : Gap) : Json :=
  record [
    ("text", ofText g.text),
    ("range", g.span.toJson),
    ("tokens", ofNat g.tokens),
    ("before", g.before.toJson),
    ("after", g.after.toJson)]

def Occurrence.toJson (e : Occurrence) : Json :=
  record [
    ("card", ofNat e.card),
    ("line", ofNat e.line),
    ("absolute", e.absolute.toJson),
    ("span", e.gap.toJson)]

def Repeat.toJson (r : Repeat) : Json :=
  record [("text", ofText r.text), ("count", ofNat r.count), ("words", ofNat r.words)]

def Candidate.toJson (c : Candidate) : Json :=
  record [
    ("prefix", ofText c.stem),
    ("next_words", ofList ofText c.nextWords),
    ("support", ofNat c.support),
    ("branching", ofNat c.branching),
    ("length", ofNat c.length),
    ("fitness", ofNat c.fitness)]

def Tally.toJson (t : Tally) : Json :=
  record (t.map fun (text, count) => (text, ofNat count))

def Collocates.toJson (n : Collocates) : Json :=
  record [
    ("occurrences", ofNat n.occurrences),
    ("before", Tally.toJson n.before),
    ("after", Tally.toJson n.after)]

def Collocations.toJson (a : Collocations) : Json :=
  record (a.map fun (text, counts) => (text, counts.toJson))

def Coverage.toJson (c : Coverage) : Json :=
  record [("matched_bytes", ofNat c.matched), ("unmatched_bytes", ofNat c.unmatched)]

/-- A kind with the number of its tokens. -/
def kindCountToJson (kind : Kind) (count : Nat) : Json :=
  record [("kind", ofText kind.name), ("count", ofNat count)]

/-- A duration in whole seconds and the nanoseconds beyond them. -/
def durationToJson (nanos : Nat) : Json :=
  record [("secs", ofNat (nanos / Decimal.second)), ("nanos", ofNat (nanos % Decimal.second))]

namespace CorpusAnalysis

def metricsToJson (r : CorpusAnalysis) : Json :=
  record [
    ("total", durationToJson r.timings.total),
    ("lines", durationToJson r.timings.lines),
    ("repeats", durationToJson r.timings.repeats),
    ("ranking", durationToJson r.timings.ranking),
    ("vocabulary", ofNat r.vocabulary),
    ("automaton_states", ofNat r.automatonStates)]

def toJson (r : CorpusAnalysis) : Json :=
  record [
    ("card_count", ofNat r.cardCount),
    ("line_count", ofNat r.lineCount),
    ("token_count", ofNat r.tokenCount),
    ("coverage", r.coverage.toJson),
    ("variant_counts", ofList (fun (kind, count) => kindCountToJson kind count) r.kindCounts),
    ("digest", record [("entries", ofList Occurrence.toJson r.concordance)]),
    ("repeats", ofList Repeat.toJson r.repeats),
    ("candidates", ofList Candidate.toJson r.candidates),
    ("adjacency", record [("spans", Collocations.toJson r.collocations)]),
    ("metrics", r.metricsToJson)]

end CorpusAnalysis

end RulesText
