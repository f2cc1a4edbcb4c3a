import RulesText.Analysis.Options
import RulesText.Capture.ReadBack
import RulesText.Card.Item
import RulesText.Card.NormalForm
import RulesText.Coverage
import RulesText.Tokenizer
import RulesText.Vocabulary.Standard

/-!
# Analysis of lines and cards

A line in normal form is cut into tokens, the matched ones are read back, and the unmatched ones
are gathered into gaps. A card is the analysis of its lines.

## Main definitions

* `Tokenizer.ofVocabulary`: the tokenizer of a vocabulary and a priority list.
* `Tokenizer.analyzeLine`, `Tokenizer.analyzeCard`: the analyses.
-/

namespace RulesText

structure LineAnalysis where
  text : Text
  tokens : List Token
  /-- The trees of the matched tokens, in order, if they were asked for. -/
  captures : List Capture
  coverage : Coverage
  gaps : List Gap

structure CardAnalysis where
  name : Text
  /-- The lines in normal form, joined by line feeds. -/
  text : Text
  lines : List LineAnalysis
  coverage : Coverage

namespace Tokenizer

/-- The tokenizer of a vocabulary; there is none if the vocabulary has a fault. -/
def ofVocabulary (v : Vocabulary) (priority : List Kind) : Except Fault Tokenizer := do
  Tokenizer.new (← Lexicon.build v) priority

def standard : Except Fault Tokenizer :=
  ofVocabulary Vocabulary.standard Vocabulary.standardPriority

/-- The trees of the matched tokens of a line, in order. -/
def readTokens (t : Tokenizer) (line : Text) : List Token → Except Fault (List Capture)
  | [] => .ok []
  | token :: rest => do
    let tree ← t.lexicon.readToken line token
    return tree.toList ++ (← readTokens t line rest)

/-- The analysis of a line that is in normal form. -/
def analyzeLine (t : Tokenizer) (o : Options) (line : Text) : Except Fault LineAnalysis := do
  let tokens := t.tokenize line
  let captures ← if o.captures then t.readTokens line tokens else pure []
  let gaps ← Gap.find line tokens o.leastRun
  return { text := line, tokens, captures, coverage := Coverage.ofTokens tokens, gaps }

def analyzeCard (t : Tokenizer) (o : Options) (card : CardItem) : Except Fault CardAnalysis := do
  let normal := Card.normalLines card.name card.text o.stripReminders
  let lines ← normal.mapM (t.analyzeLine o)
  return {
    name := card.name
    text := Text.join ['\n'] normal
    lines
    coverage := Coverage.sum (lines.map (·.coverage)) }

end Tokenizer

end RulesText
