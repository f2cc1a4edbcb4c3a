import Std.Data.TreeSet.Basic
import RulesText.Regex.Basic

/-!
# Searching

A search follows an expression from a place and takes the preferred way at every choice; where
that leads nowhere it comes back to the next one. Ways come together at *joins*: where the
branches of a choice meet, and where a round of a repetition begins or ends. A search goes on
from a join at most once for each place: whatever lies beyond does not depend on the way to it,
so it has been tried, or is being tried by the same way in an earlier round. So a search takes
no more steps than there are pairs of joins and places.

The continuation decides what is preferred. A round that comes back without progress to a join
it has passed is cut off there, and what it has left untried comes after all that the rounds
around it still try.

Conditions on what is ahead can be settled last at a place, after all ways that need none of
them. Behind such a condition the joins of the place may be passed once more, while a character
is taken there only once by each place of the expression. This makes a difference where a
condition stands inside an unbounded repetition: a round that began before the condition can go
on behind it.

## Main definitions

* `Match`: a place with the groups captured on the way to it.
* `Searcher`, `Regex.searcher`: how an expression is followed.
* `Searcher.matchAt?`, `Searcher.find?`, `Searcher.occursIn`: the preferred match at a place,
  the leftmost match of a text, and whether there is one.
-/

namespace RulesText

/-- A place that a match has reached, with the groups captured so far, latest first. -/
structure Match where
  stop : Cursor
  groups : List (Text × Span) := []
  /-- Whether a condition on what is ahead has been settled at this place. -/
  looked : Bool := false
deriving DecidableEq, Repr

namespace Match

/-- The span that a group captured when it last took part. -/
def group? (m : Match) (name : Text) : Option Span :=
  m.groups.lookup name

/-- The match with a group that began at `start` and ends here. -/
def capture (m : Match) (name : Text) (start : Cursor) : Match :=
  { m with groups := (name, start.spanTo m.stop) :: m.groups }

end Match

namespace Regex

/-- When conditions on what is ahead are settled. -/
inductive Settling where
  /-- Where they are met. -/
  | atOnce
  /-- After all ways to their place that need none of them. Conditions that hold by what is behind
  may be settled once more then. -/
  | last (again : Bool)
deriving DecidableEq, Repr

/-- A join with the place where a search has passed it, and whether that was behind a condition
that is settled last. -/
structure Passage where
  join : Nat
  looked : Bool
  offset : Nat
deriving DecidableEq, Repr

/-- By join, then by place. -/
def Passage.order (a b : Passage) : Ordering :=
  (compare a.join b.join).then ((compare a.offset b.offset).then (compare a.looked b.looked))

/-- The joins that a search has passed. -/
abbrev Passed := Std.TreeSet Passage Passage.order

/-- What a search does from a match on: it ends with the preferred match of the whole, or with
the joins that it has passed in vain. -/
abbrev Next := Match → Passed → Except Passed Match

namespace Next

/-- Go on from a join, unless that has been done from the same place. -/
def once (join : Nat) (next : Next) : Next := fun m passed =>
  let passage : Passage := ⟨join, m.looked, m.stop.offset⟩
  if passed.contains passage then .error passed else next m (passed.insert passage)

/-- Go on one way, and if that leads nowhere the other way. -/
def orElse (preferred other : Next) : Next := fun m passed =>
  (preferred m passed).tryCatch (other m)

end Next

/-- How an expression is followed. Its joins have numbers from a given one on. -/
structure Searcher where
  joins : Nat
  /-- Go through the expression and then on to `next`. An unbounded repetition takes at most one
  round for every character of `limit`, and one more. A character is a join of its own where
  conditions are settled last, and so is a condition. -/
  follow : (limit : Text) → (join : Nat) → (next : Next) → Next

namespace Searcher

open Next (once orElse)

def empty : Searcher where
  joins := 0
  follow _ _ next := next

/-- Take one character of a set. -/
def take (rule : CaseRule) (set : CharSet) (next : Next) : Next := fun m passed =>
  match m.stop.next? with
  | some (c, stop) => if set.contains rule c then next { m with stop } passed else .error passed
  | none => .error passed

def one (rule : CaseRule) (set : CharSet) : Settling → Searcher
  | .atOnce => { joins := 0, follow _ _ next := take rule set next }
  | .last _ => {
      joins := 1
      follow _ join next := fun m => once join (take rule set next) { m with looked := false } }

def look (condition : Look) : Settling → Searcher
  | .atOnce => {
      joins := 0
      follow _ _ next := fun m passed =>
        if condition.holds m.stop then next m passed else .error passed }
  | .last again => {
      joins := 1
      follow _ join next := fun m passed =>
        let late : Next := fun m => once join next { m with looked := true }
        if condition.holdsBehind m.stop && !m.looked then
          if again then orElse late next m passed else next m passed
        else if condition.holds m.stop then late m passed
        else .error passed }

def capture (name : Text) (body : Searcher) : Searcher where
  joins := body.joins
  follow limit join next := fun m =>
    body.follow limit join (fun n => next (n.capture name m.stop)) m

def seq (first second : Searcher) : Searcher where
  joins := first.joins + second.joins
  follow limit join next :=
    first.follow limit join (second.follow limit (join + first.joins) next)

def alt (preferred other : Searcher) : Searcher where
  joins := preferred.joins + other.joins + 1
  follow limit join next :=
    let next := once (join + preferred.joins + other.joins) next
    orElse (preferred.follow limit join next) (other.follow limit (join + preferred.joins) next)

/-! ## Repetitions -/

/-- `n` rounds, each with joins of its own. -/
def followTimes (body : Searcher) (limit : Text) (next : Next) : (n join : Nat) → Next
  | 0, _ => next
  | n + 1, join => fun m passed =>
    body.follow limit join (followTimes body limit next n (join + body.joins)) m passed

/-- Exactly `n` rounds. -/
def times (n : Nat) (body : Searcher) : Searcher where
  joins := n * body.joins
  follow limit join next := followTimes body limit next n join

/-- At most one round. -/
def optional (greedy : Bool) (body : Searcher) : Searcher :=
  if greedy then alt body empty else alt empty body

/-- At most `n` rounds, each with joins of its own. Wherever they stop, they go on to the same
`next`. -/
def followUpTo (greedy : Bool) (body : Searcher) (limit : Text) (next : Next) :
    (n join : Nat) → Next
  | 0, _ => next
  | n + 1, join => fun m passed =>
    let again := body.follow limit join
      (followUpTo greedy body limit next n (join + body.joins))
    if greedy then orElse again next m passed else orElse next again m passed

/-- At most `n` rounds. -/
def upTo (greedy : Bool) (n : Nat) (body : Searcher) : Searcher where
  joins := n * body.joins + 1
  follow limit join next :=
    followUpTo greedy body limit (once (join + n * body.joins) next) n join

/-- One round and then more of them, each from the join `first` to the join after it. -/
def followLoop (greedy : Bool) (round : Next → Next) (first : Nat) (next : Next) :
    (limit : Text) → Next
  | [] => once first (round (once (first + 1) next))
  | _ :: limit => fun m passed =>
    let again := followLoop greedy round first next limit
    let next := if greedy then orElse again next else orElse next again
    once first (round (once (first + 1) next)) m passed

/-- One round or more. -/
def oneOrMore (greedy : Bool) (body : Searcher) : Searcher where
  joins := body.joins + 2
  follow limit join next :=
    followLoop greedy (body.follow limit join) (join + body.joins) next limit

/-- Any number of rounds, each of which begins and ends at the same join. -/
def followRounds (greedy : Bool) (round : Next → Next) (join : Nat) (next : Next) :
    (limit : Text) → Next
  | [] => once join next
  | _ :: limit => fun m passed =>
    let again := round (followRounds greedy round join next limit)
    once join (if greedy then orElse again next else orElse next again) m passed

/-- Any number of rounds, each of which takes at least one character. -/
def progressive (greedy : Bool) (body : Searcher) : Searcher where
  joins := body.joins + 1
  follow limit join next :=
    followRounds greedy (body.follow limit join) (join + body.joins) next limit

/-- A number of rounds within the given bounds. Rounds that take something cannot come back to
where they began. -/
def repetition (greedy takesSomething : Bool) (body : Searcher) :
    (least : Nat) → (most : Option Nat) → Searcher
  | least, some most => seq (times least body) (upTo greedy (most - least) body)
  | 0, none =>
    if takesSomething then progressive greedy body else optional greedy (oneOrMore greedy body)
  | least + 1, none => seq (times least body) (oneOrMore greedy body)

end Searcher

/-- How the expression is followed. -/
def searcher (settling : Settling := .atOnce) : Regex → Searcher
  | empty => .empty
  | one rule set => .one rule set settling
  | look condition => .look condition settling
  | group (some name) body => .capture name (searcher settling body)
  | group none body => searcher settling body
  | seq first second => .seq (searcher settling first) (searcher settling second)
  | alt preferred other => .alt (searcher settling preferred) (searcher settling other)
  | repetition body least most greedy =>
    .repetition greedy body.takesSomething (searcher settling body) least most

namespace Searcher

/-! ## Searches -/

/-- The preferred match that starts at a place, or all joins passed by then. -/
def attempt (s : Searcher) (limit : Text) (c : Cursor) (passed : Passed) : Except Passed Match :=
  s.follow limit 0 (fun m _ => .ok m) { stop := c } passed

/-- The preferred match that starts at a place. -/
def matchAt? (s : Searcher) (c : Cursor) : Option Match :=
  (s.attempt c.ahead c ∅).toOption

/-- The preferred match that starts at a place, where conditions are settled last. A join may be
passed twice at each place. -/
def lateMatchAt? (s : Searcher) (c : Cursor) : Option Match :=
  (s.attempt (' ' :: c.ahead ++ c.ahead) c ∅).toOption

/-- The first of the given places where there is a match, with the preferred match there. What
a failed attempt has passed leads nowhere from later places either. -/
def firstMatch? (s : Searcher) : Passed → List Cursor → Option (Cursor × Match)
  | _, [] => none
  | passed, c :: rest =>
    match s.attempt c.ahead c passed with
    | .ok m => some (c, m)
    | .error passed => s.firstMatch? passed rest

/-- The leftmost match from a place on, and of those at its place the preferred one. -/
def findFrom? (s : Searcher) (c : Cursor) : Option (Cursor × Match) :=
  s.firstMatch? ∅ c.places

/-- The leftmost match in a text. For an expression that is anchored at both ends, this is the
match of the whole text. -/
def find? (s : Searcher) (t : Text) : Option Match :=
  (s.findFrom? (Cursor.start t)).map (·.2)

/-- Whether there is a match anywhere in a text, an empty one included. -/
def occursIn (s : Searcher) (t : Text) : Bool :=
  (s.find? t).isSome

end Searcher

end Regex

end RulesText
