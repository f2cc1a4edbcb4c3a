import RulesText.Regex.Searcher

/-!
# Ends of matches

Where a match ends hangs on when conditions are settled. As a rule they are settled last. Where
they ask for word characters of all scripts, this is so only among ASCII characters; elsewhere
they are settled at once.

## Main definitions

* `Finder`, `Regex.finder`: an expression, ready for both.
* `Finder.stopAt?`: the end of the match at a place.
-/

namespace RulesText.Regex

/-- What an expression meets at a place before it takes a character. -/
structure Opening where
  /-- Whether a condition that holds by what is ahead. -/
  look : Bool
  /-- Whether its own end. -/
  stop : Bool

/-- What an expression meets at a place, beyond conditions that hold by what is behind. -/
def openingAt (c : Cursor) : Regex → Opening
  | empty => ⟨false, true⟩
  | one _ _ => ⟨false, false⟩
  | look condition =>
    if condition.holdsBehind c then ⟨false, true⟩ else ⟨condition.holds c, false⟩
  | group _ body => openingAt c body
  | seq first second =>
    let a := openingAt c first
    let b := openingAt c second
    ⟨a.look || (a.stop && b.look), a.stop && b.stop⟩
  | alt preferred other =>
    let a := openingAt c preferred
    let b := openingAt c other
    ⟨a.look || b.look, a.stop || b.stop⟩
  | repetition body least _ _ =>
    let a := openingAt c body
    ⟨a.look, a.stop || least = 0⟩

/-- An expression that is searched for by the ends of its matches. -/
structure Finder where
  regex : Regex
  /-- Settles conditions at once. -/
  eager : Searcher
  /-- Settles conditions last. -/
  late : Searcher
  /-- Settles conditions last, and those that hold by what is behind once more. -/
  again : Searcher

def finder (r : Regex) : Finder where
  regex := r
  eager := r.searcher
  late := r.searcher (.last false)
  again := r.searcher (.last true)

namespace Finder

/-- Whether there are only ASCII characters between two places and next to them. -/
def isAsciiAround (c stop : Cursor) : Bool :=
  let inside := c.ahead.take (c.ahead.length - stop.ahead.length + 1)
  inside.all Text.isAscii && !c.behindIs (!Text.isAscii ·)

/-- The end of the match that starts at a place, where conditions are settled last. Those that
hold by what is behind are settled once more if the search meets others where it begins. -/
def lateStopAt? (f : Finder) (c : Cursor) : Option Cursor :=
  ((if (openingAt c f.regex).look then f.again else f.late).lateMatchAt? c).map (·.stop)

/-- The end of the preferred match that starts at a place. Only conditions inside unbounded
repetitions make a difference. -/
def stopAt? (f : Finder) (c : Cursor) : Option Cursor := do
  let stop := (← f.eager.matchAt? c).stop
  if f.regex.looksInLoop then
    let late ← f.lateStopAt? c
    return if f.regex.asksForWords && !isAsciiAround c late then stop else late
  else return stop

/-- Whether there is a match anywhere in a text, an empty one included. -/
def occursIn (f : Finder) (t : Text) : Bool :=
  f.eager.occursIn t

end Finder

end RulesText.Regex
