import RulesText.Cursor
import RulesText.Regex.CharSet

/-!
# Regular expressions

Regular expressions with groups, greedy and lazy repetition and conditions on the place. They
are matched by priority: of two branches the left one is preferred, a greedy repetition prefers
one more round, a lazy one prefers to stop.

## Main definitions

* `Regex`: the expressions.
* `Regex.sequence`, `Regex.firstOf`, `Regex.repeated`: how expressions are put together.
-/

namespace RulesText

namespace Regex

/-- Conditions on the word characters around a place. -/
inductive WordLook where
  | boundary
  | noBoundary
  /-- A word begins here. -/
  | start
  /-- A word ends here. -/
  | stop
  | noneBehind
  | noneAhead
deriving DecidableEq, Repr

/-- Conditions on a place. Lines end with a line feed, or with a carriage return, a line feed or
both in a row. -/
inductive Look where
  | textStart
  | textEnd
  | lineStart (carriageReturns : Bool)
  | lineEnd (carriageReturns : Bool)
  | word (r : Repertoire) (condition : WordLook)
deriving DecidableEq, Repr

def WordLook.holds (behind ahead : Bool) : WordLook → Bool
  | boundary => behind != ahead
  | noBoundary => behind == ahead
  | start => !behind && ahead
  | stop => behind && !ahead
  | noneBehind => !behind
  | noneAhead => !ahead

namespace Look

/-- The condition that is most often used: exactly one neighbour is a word character. -/
def wordBoundary : Look :=
  word .unicode .boundary

/-- Whether a line begins here. Between a carriage return and its line feed none does. -/
def atLineStart (carriageReturns : Bool) (c : Cursor) : Bool :=
  c.atStart || c.behindIs (· == '\n') ||
    (carriageReturns && c.behindIs (· == '\r') && !c.aheadIs (· == '\n'))

/-- Whether a line ends here. Between a carriage return and its line feed none does. -/
def atLineEnd (carriageReturns : Bool) (c : Cursor) : Bool :=
  if carriageReturns then
    c.atEnd || c.aheadIs (· == '\r') || (c.aheadIs (· == '\n') && !c.behindIs (· == '\r'))
  else c.atEnd || c.aheadIs (· == '\n')

def holds : Look → Cursor → Bool
  | textStart, c => c.atStart
  | textEnd, c => c.atEnd
  | lineStart carriageReturns, c => atLineStart carriageReturns c
  | lineEnd carriageReturns, c => atLineEnd carriageReturns c
  | word r condition, c =>
    condition.holds (c.behindIs (CharClass.word.contains r)) (c.aheadIs (CharClass.word.contains r))

/-- Whether what is behind a place is enough to tell that a condition holds there. -/
def holdsBehind : Look → Cursor → Bool
  | textStart, c => c.atStart
  | lineStart _, c => c.atStart || c.behindIs (· == '\n')
  | word r .noneBehind, c => !c.behindIs (CharClass.word.contains r)
  | _, _ => false

end Look

end Regex

inductive Regex where
  | empty
  /-- One character of a set. -/
  | one (rule : Regex.CaseRule) (set : Regex.CharSet)
  | look (condition : Regex.Look)
  /-- A group; what it matches is captured under its name, if it has one. -/
  | group (name? : Option Text) (body : Regex)
  | seq (first second : Regex)
  | alt (preferred other : Regex)
  /-- At least `least` rounds, and at most `most` if that is given. -/
  | repetition (body : Regex) (least : Nat) (most : Option Nat) (greedy : Bool)
deriving DecidableEq, Repr

namespace Regex

/-! ## Building expressions -/

/-- One after the other. -/
def sequence : List Regex → Regex
  | [] => empty
  | [r] => r
  | r :: rs => seq r (sequence rs)

/-- The given character as it is. -/
def char (c : Char) : Regex :=
  one .exact (.single c)

def literal (t : Text) : Regex :=
  sequence (t.map char)

/-- The expressions that follow each other in an expression. -/
def items : Regex → List Regex
  | empty => []
  | seq first second => items first ++ items second
  | r => [r]

def hasGroup : Regex → Bool
  | group _ _ => true
  | seq a b => hasGroup a || hasGroup b
  | alt a b => hasGroup a || hasGroup b
  | repetition body _ _ _ => hasGroup body
  | _ => false

/-- What two sequences have in common at their start. No two groups are the same group. -/
def commonStart : List Regex → List Regex → List Regex
  | a :: as, b :: bs => if a == b && !a.hasGroup then a :: commonStart as bs else []
  | _, _ => []

/-- The branches one by one, the earlier ones preferred. -/
def branches : Regex → List Regex → Regex
  | r, [] => r
  | r, other :: rs => alt r (branches other rs)

/-- One of several, the earlier ones preferred. What all of them start with is matched once,
before the branches part, if every branch has more than one item. -/
def firstOf (r : Regex) (rs : List Regex) : Regex :=
  let start := (rs.map items).foldl commonStart r.items
  if start.isEmpty || rs.isEmpty || (r :: rs).any (·.items.length < 2) then branches r rs
  else
    let rest (r : Regex) := sequence (r.items.drop start.length)
    sequence (start ++ [branches (rest r) (rs.map rest)])

/-- Whether an expression can match nothing but the empty text, wherever it matches. -/
def takesNothing : Regex → Bool
  | empty => true
  | one _ _ => false
  | look _ => true
  | group _ body => takesNothing body
  | seq a b => takesNothing a && takesNothing b
  | alt a b => takesNothing a && takesNothing b
  | repetition body _ _ _ => takesNothing body

/-- Whether every match of an expression takes at least one character. -/
def takesSomething : Regex → Bool
  | empty => false
  | one _ _ => true
  | look _ => false
  | group _ body => takesSomething body
  | seq a b => takesSomething a || takesSomething b
  | alt a b => takesSomething a && takesSomething b
  | repetition body least _ _ => least != 0 && takesSomething body

def hasLook : Regex → Bool
  | empty | one _ _ => false
  | look _ => true
  | group _ body => hasLook body
  | seq a b | alt a b => hasLook a || hasLook b
  | repetition body _ _ _ => hasLook body

/-- Whether a condition stands inside an unbounded repetition. -/
def looksInLoop : Regex → Bool
  | empty | one _ _ | look _ => false
  | group _ body => looksInLoop body
  | seq a b | alt a b => looksInLoop a || looksInLoop b
  | repetition body _ most _ => if most.isNone then hasLook body else looksInLoop body

/-- Whether a condition asks for word characters of all scripts. -/
def asksForWords : Regex → Bool
  | empty | one _ _ => false
  | look condition =>
    match condition with
    | .word .unicode _ => true
    | _ => false
  | group _ body => asksForWords body
  | seq a b | alt a b => asksForWords a || asksForWords b
  | repetition body _ _ _ => asksForWords body

/-- So many rounds of an expression. Of an expression that takes nothing, one round is as good
as many. -/
def repeated (body : Regex) (least : Nat) (most : Option Nat) (greedy : Bool) : Regex :=
  let (least, most) :=
    if body.takesNothing then (min least 1, some (min (most.getD 1) 1)) else (least, most)
  if most = some 0 then empty
  else if least = 1 ∧ most = some 1 then body
  else repetition body least most greedy

end Regex

end RulesText
