import RulesText.Analysis.Line
import RulesText.Gap.Collocations
import RulesText.Gap.Candidate
import RulesText.Gap.Repeat

/-!
# Analysis of a corpus

All cards of a corpus are analyzed, and then the gaps of all of them together: which words
repeat, which prefixes would make good templates, and what stands next to each gap.

## Main definitions

* `CorpusAnalysis`: what is learned from a corpus.
* `Tokenizer.analyzeCorpus`: the analysis of a list of cards.
-/

namespace RulesText

/-- How long the parts of an analysis took, in nanoseconds. -/
structure Timings where
  total : Nat := 0
  lines : Nat := 0
  repeats : Nat := 0
  ranking : Nat := 0
deriving DecidableEq, Repr

structure CorpusAnalysis where
  lineCount : Nat
  tokenCount : Nat
  coverage : Coverage
  /-- The number of tokens of each kind that occurs, most frequent first. -/
  kindCounts : List (Kind × Nat)
  concordance : Concordance
  /-- The maximal repeats of the gaps and all whole gaps. -/
  repeats : List Repeat
  candidates : List Candidate
  collocations : Collocations
  /-- The number of different words in gaps. -/
  vocabulary : Nat
  /-- The number of states of the automaton that found the repeats. -/
  automatonStates : Nat
  timings : Timings := {}
  cards : List CardAnalysis

namespace CorpusAnalysis

def cardCount (r : CorpusAnalysis) : Nat :=
  r.cards.length

/-- An occurrence of a gap inside its line. -/
def excerpt? (r : CorpusAnalysis) (e : Occurrence) : Option Excerpt :=
  (r.cards[e.card]?).bind fun card => e.excerpt? card.text

/-- The gaps in the lines of one card from line number `line` on, which starts
`offset` bytes into the card's text. -/
def gapsOfLines (card line offset : Nat) : List LineAnalysis → Concordance
  | [] => []
  | l :: rest =>
    l.gaps.map (fun gap => { card, line, absolute := gap.span.shift offset, gap }) ++
      gapsOfLines card (line + 1) (offset + Text.byteSize l.text + 1) rest

/-- The gaps of all cards, in order. -/
def concordanceOf (cards : List CardAnalysis) : Concordance :=
  cards.zipIdx.flatMap fun (card, place) => gapsOfLines place 0 0 card.lines

/-- The kinds of all matched tokens, in order. -/
def matchedKinds (cards : List CardAnalysis) : List Kind :=
  cards.flatMap fun card => card.lines.flatMap fun line =>
    line.tokens.filterMap (·.label.kind?)

/-- The kinds in a list with their counts, most frequent first; kinds of one frequency come in
declaration order. -/
def countKinds (kinds : List Kind) : List (Kind × Nat) :=
  let counts := (Kind.all.map fun k => (k, kinds.count k)).filter fun (_, n) => n ≠ 0
  counts.mergeSort fun a b => b.2 ≤ a.2

/-- The analysis of a corpus of analyzed cards. -/
def ofCards (cards : List CardAnalysis) : CorpusAnalysis :=
  let concordance := concordanceOf cards
  let words := WordAutomaton.ofTexts concordance.texts
  let lines := cards.flatMap (·.lines)
  { lineCount := lines.length
    tokenCount := (lines.flatMap (·.tokens)).length
    coverage := Coverage.sum (cards.map (·.coverage))
    kindCounts := countKinds (matchedKinds cards)
    concordance
    repeats := Repeat.withWholeGaps words.maximalRepeats concordance
    candidates := Candidate.rank concordance.weighted
    collocations := Collocations.ofConcordance concordance
    vocabulary := words.numbering.size
    automatonStates := words.automaton.states.size
    cards }

end CorpusAnalysis

/-- The analysis of a corpus, or the first fault in it. -/
def Tokenizer.analyzeCorpus (t : Tokenizer) (o : Options) (items : List CardItem) :
    Except Fault CorpusAnalysis := do
  o.check
  return CorpusAnalysis.ofCards (← items.mapM (t.analyzeCard o))

end RulesText
