import RulesText.Analysis.Corpus
import RulesText.Report.Layout

/-!
# The report of a corpus

Sections on coverage, on the kinds that occur, on repeats with a sample of each, on candidates
for new templates, on the neighbours of gaps and on time. Sections with many rows are cut after
a given number of them.
-/

namespace RulesText

/-- The gap in which a repeat is shown: the first one whose text contains the repeat's. -/
def CorpusAnalysis.sample? (r : CorpusAnalysis) (found : Repeat) : Option Occurrence :=
  r.concordance.find? fun e => (Text.cut? found.text e.gap.text).isSome

namespace Report

/-- A number at the start of a row. The column is six characters wide, escape sequences
included. -/
def numberColumn (p : Palette) (t : Text) : Text :=
  "  " ++ Text.padStart 6 (p.paint .green t) ++ "  "

def totals (p : Palette) (r : CorpusAnalysis) : Text :=
  p.dim "tokens:" ++ " " ++ p.paint .blue (Text.ofNat r.tokenCount) ++ "  " ++
    p.dim "unmatched spans:" ++ " " ++ p.paint .yellow (Text.ofNat r.concordance.length)

/-! ## Kinds -/

def kindLine (p : Palette) (kind : Kind) (count : Nat) : Text :=
  numberColumn p (Text.ofNat count) ++ p.paint .blue kind.name

def kindLines (p : Palette) (top : Nat) (counts : List (Kind × Nat)) : List Text :=
  if counts.isEmpty then [p.dim "  No variant matched"]
  else (counts.take top).map fun (kind, count) => kindLine p kind count

/-! ## Repeats -/

def excerptText (p : Palette) (e : Excerpt) : Text :=
  p.dim e.before ++ p.bold (p.paint .yellow e.middle) ++ p.dim e.after

/-- A repeat and, below it, its sample inside its line. -/
def repeatLines (p : Palette) (r : CorpusAnalysis) (found : Repeat) : List Text :=
  let sample := ((r.sample? found).bind r.excerpt?).map fun e => indented 5 (excerptText p e)
  (numberColumn p ("×" ++ Text.ofNat found.count) ++ p.bold (p.paint .yellow found.text)) ::
    sample.toList

def repeatsLines (p : Palette) (r : CorpusAnalysis) (top : Nat) : List Text :=
  if r.repeats.isEmpty then [p.dim "  No unmatched text"]
  else (r.repeats.take top).flatMap (repeatLines p r)

/-! ## Candidates -/

def candidateLine (p : Palette) (c : Candidate) : Text :=
  let details := "support " ++ Text.ofNat c.support ++ " │ branching " ++
    Text.ofNat c.branching ++ " │ next: " ++ Text.join ", " c.nextWords
  numberColumn p (Text.ofNat c.fitness) ++ p.bold (p.paint .cyan c.stem) ++ " " ++
    p.dim details

/-- Candidates that nothing follows are left out. -/
def candidateLines (p : Palette) (top : Nat) (candidates : List Candidate) : List Text :=
  ((candidates.filter (0 < ·.fitness)).take top).map (candidateLine p)

/-! ## Neighbours -/

/-- The three most frequent labels on one side of a gap. -/
def side (labels : Tally) : Text :=
  Text.unwords ((labels.mostFrequentFirst.take 3).map fun (label, count) =>
    label ++ "×" ++ Text.ofNat count)

def neighbourLine (p : Palette) (text : Text) (counts : Collocates) : Text :=
  indented 1 (Text.unwords [
    p.paint .gray (side counts.before),
    p.bold (p.paint .yellow text),
    p.paint .gray (side counts.after),
    p.dim ("(" ++ Text.ofNat counts.occurrences ++ ")")])

def neighbourLines (p : Palette) (r : CorpusAnalysis) (top : Nat) : List Text :=
  (r.concordance.weighted.take top).filterMap fun (text, _) =>
    (r.collocations.get? text).map (neighbourLine p text)

/-! ## Time and size -/

def timingLine (p : Palette) (t : Timings) : Text :=
  "  Total: " ++ p.paint .green (Decimal.ofDuration t.total) ++
    "  │  Lines: " ++ p.paint .cyan (Decimal.ofDuration t.lines) ++
    "  │  Repeats: " ++ p.dim (Decimal.ofDuration t.repeats) ++
    "  │  Ranking: " ++ p.dim (Decimal.ofDuration t.ranking)

def sizeLine (p : Palette) (r : CorpusAnalysis) : Text :=
  indented 1 (p.dim ("vocabulary " ++ Text.ofNat r.vocabulary ++ " words │ automaton " ++
    Text.ofNat r.automatonStates ++ " states"))

def corpusLines (p : Palette) (r : CorpusAnalysis) (top : Nat) : List Text :=
  title p ("Corpus: " ++ Text.ofNat r.cardCount ++ " cards, " ++ Text.ofNat r.lineCount ++
    " lines") ++
    heading p "Coverage" ++ [indented 1 (coverage p r.coverage), indented 1 (totals p r)] ++
    heading p "Variants" ++ kindLines p top r.kindCounts ++
    heading p "Repeats" ++ repeatsLines p r top ++
    heading p "Candidates" ++ candidateLines p top r.candidates ++
    heading p "Adjacency" ++ neighbourLines p r top ++
    heading p "Timing" ++ [timingLine p r.timings, sizeLine p r, []]

/-- The report of a corpus with at most `top` rows in a section. -/
def ofCorpus (r : CorpusAnalysis) (top : Nat) (color : Bool) : Text :=
  render (corpusLines { enabled := color } r top)

end Report

end RulesText
