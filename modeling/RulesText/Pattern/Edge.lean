import RulesText.Text.Basic
import RulesText.Text.WordChar

/-!
# Edges of patterns

The edge of a pattern tells whether every match begins, or ends, with a word character. It is
read off the first and the last characters of the pattern text; where they do not tell, the edge
counts as another one.

## Main definitions

* `Edge.leading`, `Edge.trailing`: the edges of one pattern.
* `Edge.ofAll`: the edge of several alternatives.
-/

namespace RulesText

/-- What a pattern has at one of its ends. -/
inductive Edge where
  /-- A word character, in every match. -/
  | word
  /-- Anything else, or it is not known. -/
  | other
deriving DecidableEq, Repr

namespace Edge

def ofChar (c : Char) : Edge :=
  if Text.isAlphanumeric c || c == '_' then word else other

/-- The edge at the start of a pattern. -/
def leading : (pattern : Text) → Edge
  | '\\' :: c :: _ => if c == 'w' || c == 'd' then word else other
  | '\\' :: [] => other
  | c :: _ => ofChar c
  | [] => other

def isQuantifier (c : Char) : Bool :=
  c == '?' || c == '+' || c == '*'

def isCloser (c : Char) : Bool :=
  c == ')' || c == ']' || c == '}'

/-- The edge made by the last characters of a pattern that is given from its end. -/
def ofLast : (reversed : Text) → Edge
  | last :: '\\' :: _ => if last == 'w' || last == 'd' then word else other
  | last :: _ => ofChar last
  | [] => other

/-- The edge at the end of a pattern. One quantifier is looked through, unless it applies to a
group or a class. -/
def trailing (pattern : Text) : Edge :=
  match pattern.reverse with
  | [] => other
  | c :: rest =>
    if isQuantifier c then
      if rest.head?.any isCloser then other else ofLast rest
    else ofLast (c :: rest)

/-- The edge of an alternation: a word edge if there are alternatives and each has one. -/
def ofAll (edge : Text → Edge) (alternatives : List Text) : Edge :=
  if !alternatives.isEmpty && alternatives.all (edge · == word) then word else other

end Edge

end RulesText
