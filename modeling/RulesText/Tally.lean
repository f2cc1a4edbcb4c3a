import RulesText.Text.Basic

/-!
# Tallies

How often each text occurs in a list, in ascending order of the texts.
-/

namespace RulesText

abbrev Tally := List (Text × Nat)

namespace Tally

def inOrder (a b : Text) : Bool :=
  (Text.compare a b).isLE

/-- The different texts of a list, ascending. -/
def sortedDistinct (texts : List Text) : List Text :=
  (texts.mergeSort inOrder).eraseReps

def ofList (texts : List Text) : Tally :=
  (sortedDistinct texts).map fun t => (t, texts.count t)

/-- Most frequent first; texts of one frequency ascend. -/
def mostFrequentFirst (t : Tally) : Tally :=
  t.mergeSort fun a b => ((compare b.2 a.2).then (Text.compare a.1 b.1)).isLE

/-- The most frequent text, and of several the first one. -/
def dominant? (t : Tally) : Option Text :=
  t.mostFrequentFirst.head?.map (·.1)

end Tally

end RulesText
