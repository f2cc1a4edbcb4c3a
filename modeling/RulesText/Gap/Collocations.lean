import RulesText.Gap.Concordance

/-!
# Neighbours of gaps

For every gap text of a concordance, how often each label stands directly before it and directly
after it.
-/

namespace RulesText

structure Collocates where
  occurrences : Nat
  before : Tally
  after : Tally
deriving DecidableEq, Repr

/-- The gap texts, ascending, with their neighbours. -/
abbrev Collocations := List (Text × Collocates)

namespace Collocations

def countsOf (entries : List Occurrence) : Collocates where
  occurrences := entries.length
  before := Tally.ofList (entries.map (·.gap.before.label))
  after := Tally.ofList (entries.map (·.gap.after.label))

def ofConcordance (concordance : Concordance) : Collocations :=
  (Tally.sortedDistinct concordance.texts).map fun text =>
    (text, countsOf (concordance.occurrences text))

def get? (c : Collocations) (text : Text) : Option Collocates :=
  c.lookup text

/-- The most frequent label on each side of a gap text. -/
def dominant? (c : Collocations) (text : Text) : Option (Text × Text) := do
  let counts ← c.get? text
  return (← counts.before.dominant?, ← counts.after.dominant?)

end Collocations

end RulesText
