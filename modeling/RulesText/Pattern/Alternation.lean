import RulesText.Text.Basic

/-!
# Alternations

The alternatives of one field become one alternation, longer alternatives first, so that a match
prefers the more specific one.

## Main definitions

* `Alternation.pluralize`: a word with its rule-based plural.
* `Alternation.source`: the alternatives as one non-capturing group.
-/

namespace RulesText.Alternation

/-! ## Plurals -/

def isVowel (c : Char) : Bool :=
  c == 'a' || c == 'e' || c == 'i' || c == 'o' || c == 'u'

def endsInSibilant : (reversed : Text) → Bool
  | 's' :: _ | 'x' :: _ | 'z' :: _ => true
  | 'h' :: c :: _ => c == 'c' || c == 's'
  | _ => false

/-- The plural form of a word that is given from its end, as a pattern that matches the singular
too. What does not end in an ASCII letter has no plural. -/
def pluralizeReversed : (reversed : Text) → Text
  | [] => []
  | last :: front =>
    if !last.isAlpha then (last :: front).reverse
    else if last == 'y' && front.head?.any (fun c => c.isAlpha && !isVowel c) then
      front.reverse ++ "(?:y|ies)"
    else if endsInSibilant (last :: front) then (last :: front).reverse ++ "(?:es)?"
    else (last :: front).reverse ++ "(?:s)?"

def pluralize (word : Text) : Text :=
  pluralizeReversed word.reverse

/-! ## One of several -/

/-- The first occurrence of each element. -/
def distinct (alternatives : List Text) : List Text :=
  alternatives.foldl (fun found a => if found.contains a then found else found ++ [a]) []

/-- Put a text in front of the first one that is no longer. -/
def insertByLength (a : Text) : List Text → List Text
  | [] => [a]
  | b :: rest =>
    if Text.byteSize b ≤ Text.byteSize a then a :: b :: rest else b :: insertByLength a rest

/-- Longer texts first; texts of one length keep their order. -/
def longestFirst (alternatives : List Text) : List Text :=
  alternatives.foldr insertByLength []

/-- One alternation of the given patterns, with their plurals and between word boundaries if
asked for. -/
def source (alternatives : List Text) (plural bounded : Bool) : Text :=
  let forms := if plural then alternatives.map pluralize else alternatives
  let body := "(?:" ++ Text.join ['|'] (longestFirst (distinct forms)) ++ [')']
  if bounded then "\\b" ++ body ++ "\\b" else body

end RulesText.Alternation
