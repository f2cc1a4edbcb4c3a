import RulesText.Pattern.Edge
import RulesText.Regex.Parser
import RulesText.Regex.Searcher
import RulesText.Text.Lowercase

/-!
# Card names

A card's text refers to the card by its full name, by either half of a split name (`a // b`), or
by the short name of a legendary card, which is what stands before the first comma.

## Main definitions

* `Card.names`: the names of a card.
* `Card.selfReference?`: the expression that finds them in a text.
-/

namespace RulesText.Card

/-- Longest first; names of one length ascend. -/
def nameOrder (a b : Text) : Ordering :=
  (compare (Text.byteSize b) (Text.byteSize a)).then (Text.compare a b)

/-- The halves of a split name; a name that is not split has none. -/
def halves (full : Text) : List Text :=
  match Text.splitOn " // " full with
  | [_] => []
  | pieces => pieces.map Text.trim

def shortName? (full : Text) : Option Text :=
  (Text.cut? ", " full).map fun (short, _) => Text.trim short

/-- The names by which a card refers to itself, in lower case and longest first. -/
def names (name : Text) : List Text :=
  let full := Text.lowercase (Text.trim name)
  let all := full :: halves full ++ (shortName? full).toList
  ((all.filter (!·.isEmpty)).mergeSort fun a b => (nameOrder a b).isLE).eraseReps

def boundaryAt (edge : Edge) : List Regex :=
  match edge with
  | .word => [.look .wordBoundary]
  | .other => []

/-- One name as it stands in a text: between word boundaries at those of its ends that are word
edges. The edges are those of the name's pattern text. -/
def nameRegex (name : Text) : Regex :=
  let pattern := Regex.escape name
  Regex.sequence (boundaryAt (Edge.leading pattern) ++ name.map Regex.char ++
    boundaryAt (Edge.trailing pattern))

/-- The expression that matches any of a card's names. A card without a name has none. -/
def selfReference? (name : Text) : Option Regex.Searcher :=
  match names name with
  | [] => none
  | first :: others => some (Regex.firstOf (nameRegex first) (others.map nameRegex)).searcher

end RulesText.Card
