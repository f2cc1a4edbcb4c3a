import RulesText.Gap.Basic
import RulesText.Tally

/-!
# Concordances

A concordance lists the gaps of a whole corpus in order, each with the card and the line it is
from and its span in the normalized text of that card, so that it can be shown in its context.
-/

namespace RulesText

structure Occurrence where
  /-- The place of the card in the corpus. -/
  card : Nat
  /-- The place of the line in the card. -/
  line : Nat
  /-- The span in the card's normalized text. -/
  absolute : Span
  gap : Gap
deriving DecidableEq, Repr

/-- A gap with the rest of its line. -/
structure Excerpt where
  before : Text
  middle : Text
  after : Text
deriving DecidableEq, Repr

abbrev Concordance := List Occurrence

namespace Concordance

def texts (c : Concordance) : List Text :=
  c.map (·.gap.text)

/-- How often each gap text occurs. -/
def counts (c : Concordance) : Tally :=
  Tally.ofList c.texts

/-- The gap texts with their counts, most frequent first. -/
def weighted (c : Concordance) : Tally :=
  c.counts.mostFrequentFirst

/-- The gaps with a given text. -/
def occurrences (c : Concordance) (text : Text) : List Occurrence :=
  c.filter (·.gap.text == text)

end Concordance

/-- The gap inside its line, cut out of the card's text. There is none if that is not the text
that the gap was found in. -/
def Occurrence.excerpt? (e : Occurrence) (cardText : Text) : Option Excerpt := do
  if e.absolute.stop < e.absolute.start then failure
  let (front, rest) ← Text.splitAt? e.absolute.start cardText
  let (middle, back) ← Text.splitAt? (e.absolute.stop - e.absolute.start) rest
  if middle != e.gap.text then failure
  return {
    before := (front.reverse.takeWhile (· != '\n')).reverse
    middle
    after := back.takeWhile (· != '\n') }

end RulesText
