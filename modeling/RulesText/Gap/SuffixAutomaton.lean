/-!
# Suffix automata

The suffix automaton of a sequence of numbers has a path from its first state for every factor
of the sequence, that is for every run of consecutive elements. Factors with the same end
positions share a state. A state's link leads to the state of the longest proper suffix that has
further end positions.

The automaton is built element by element. States are numbered in the order in which they are
made; state 0 is that of the empty factor.

## Main definitions

* `SuffixAutomaton.extend`: the automaton of a sequence with one more element.
* `SuffixAutomaton.ofSequences`: the automaton of several sequences with 0 between them, in
  which every state counts the occurrences of its factors.
-/

namespace RulesText

structure SuffixState where
  /-- The states that each next element leads to, by ascending element. -/
  next : List (Nat × Nat) := []
  link? : Option Nat := none
  /-- The length of the longest factor of the state. -/
  length : Nat := 0
  /-- The number of end positions. Before they are summed up, 1 for a state that was made for a
  prefix of the sequence and 0 for one that was split off. -/
  count : Nat := 0
  /-- One end position. -/
  endPos : Nat := 0
deriving DecidableEq, Repr, Inhabited

namespace SuffixState

def target? (s : SuffixState) (x : Nat) : Option Nat :=
  s.next.lookup x

/-- Put a key into an ascending list of pairs, or replace its value. -/
def insertKey (x q : Nat) : List (Nat × Nat) → List (Nat × Nat)
  | [] => [(x, q)]
  | (y, r) :: rest =>
    if x < y then (x, q) :: (y, r) :: rest
    else if x = y then (x, q) :: rest
    else (y, r) :: insertKey x q rest

def setTarget (x q : Nat) (s : SuffixState) : SuffixState :=
  { s with next := insertKey x q s.next }

end SuffixState

structure SuffixAutomaton where
  states : Array SuffixState := #[{}]
  /-- The state of the whole sequence. -/
  last : Nat := 0
  sequence : Array Nat := #[]

namespace SuffixAutomaton

/-- What stands between two sequences. -/
def separator : Nat :=
  0

def state (a : SuffixAutomaton) (v : Nat) : SuffixState :=
  a.states.getD v default

def modify (a : SuffixAutomaton) (v : Nat) (f : SuffixState → SuffixState) : SuffixAutomaton :=
  { a with states := a.states.modify v f }

/-- A state, the state its link leads to, and so on: at most `fuel` states. -/
def linkPath (a : SuffixAutomaton) : (fuel : Nat) → (v : Nat) → List Nat
  | 0, _ => []
  | fuel + 1, v =>
    v :: match (a.state v).link? with
      | some u => a.linkPath fuel u
      | none => []

/-- All states from `v` up to state 0. Lengths descend along links, so there are no more of them
than states. -/
def suffixes (a : SuffixAutomaton) (v : Nat) : List Nat :=
  a.linkPath a.states.size v

def setTargets (a : SuffixAutomaton) (sources : List Nat) (x q : Nat) : SuffixAutomaton :=
  sources.foldl (fun a v => a.modify v (.setTarget x q)) a

def setLink (a : SuffixAutomaton) (v u : Nat) : SuffixAutomaton :=
  a.modify v ({ · with link? := some u })

/-- The states at the start of `sources` that lead to `q` by `x`. -/
def redirected (a : SuffixAutomaton) (sources : List Nat) (x q : Nat) : List Nat :=
  sources.takeWhile fun v => (a.state v).target? x == some q

/-- A new state that is like `q` but counts nothing, for factors up to the given length. -/
def copy (a : SuffixAutomaton) (length q : Nat) : SuffixAutomaton :=
  { a with states := a.states.push { a.state q with length, count := 0 } }

/-- Split off from state `q` the factors that are no longer than one element more than those of
the first state in `sources`. The states in `sources` that lead to `q` by `x` lead to the new
state afterwards. -/
def split (a : SuffixAutomaton) (sources : List Nat) (length x q : Nat) : SuffixAutomaton :=
  let clone := a.states.size
  ((a.copy length q).setTargets (a.redirected sources x q) x clone).setLink q clone

/-- A new last state for the sequence with `x` at its end. Nothing leads to it yet. -/
def append (a : SuffixAutomaton) (x : Nat) : SuffixAutomaton where
  states := a.states.push {
    length := (a.state a.last).length + 1, count := 1, endPos := a.sequence.size }
  last := a.states.size
  sequence := a.sequence.push x

/-- The automaton of the sequence with `x` at its end. -/
def extend (a : SuffixAutomaton) (x : Nat) : SuffixAutomaton :=
  let new := a.states.size
  let path := a.suffixes a.last
  let without := path.takeWhile fun v => ((a.state v).target? x).isNone
  let extended := (a.append x).setTargets without x new
  match path.drop without.length with
  | [] => extended.setLink new 0
  | p :: above =>
    let q := ((a.state p).target? x).getD 0
    let length := (a.state p).length + 1
    if (a.state q).length = length then extended.setLink new q
    else (extended.split (p :: above) length x q).setLink new extended.states.size

/-- Several sequences, one after the other, with a separator between those that are not empty. -/
def concatenate (sequences : List (List Nat)) : List Nat :=
  [separator].intercalate (sequences.filter (!·.isEmpty))

/-- The states other than the first one, those with longer factors first. -/
def byLength (a : SuffixAutomaton) : List Nat :=
  ((List.range a.states.size).drop 1).mergeSort fun v u =>
    (a.state u).length ≤ (a.state v).length

/-- Add the count of a state to that of the state its link leads to. -/
def passCount (a : SuffixAutomaton) (v : Nat) : SuffixAutomaton :=
  match (a.state v).link? with
  | some u => a.modify u fun s => { s with count := s.count + (a.state v).count }
  | none => a

/-- Pass on the counts of all states, from the longest factors down. -/
def sumCounts (a : SuffixAutomaton) : SuffixAutomaton :=
  a.byLength.foldl passCount a

/-- The automaton of several sequences, with the counts of all occurrences. -/
def ofSequences (sequences : List (List Nat)) : SuffixAutomaton :=
  ((concatenate sequences).foldl extend {}).sumCounts

end SuffixAutomaton

end RulesText
