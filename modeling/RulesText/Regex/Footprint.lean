import RulesText.Regex.Basic
import RulesText.Regex.CodeSet
import RulesText.Text.Utf8

/-!
# Footprints

How large an expression may be is said in terms of an automaton over the bytes of texts, in which
every round that a count demands or allows has states of its own. Its footprint is the memory of
its states, in bytes. Automata exist in two directions, as texts are read from either end; an
expression has to keep within its limit in both.

## Main definitions

* `Footprint.ofSet`: the footprint of one place.
* `Regex.footprint`: the footprint of an expression.
* `Regex.fits`, `Regex.fitTogether`: whether an expression keeps within a limit, or several do.
-/

namespace RulesText.Regex

open Text (CodeRanges)
open Text.Utf8 (ByteRange)

inductive Direction where
  | forward
  | backward
deriving DecidableEq, Repr

namespace Footprint

def state : Nat := 32

/-- What a state takes beyond that for each range of bytes that it tells apart. -/
def transition : Nat := 8

/-- What a state takes beyond that for each way on that needs no byte. -/
def way : Nat := 4

/-- A state with two ways on. -/
def fork : Nat := state + 2 * way

/-! ## Sets of characters -/

/-- Sequences in groups, each with the same range at the start. -/
def groups (sequences : List (List ByteRange)) : List (List (List ByteRange)) :=
  sequences.splitBy fun a b => a.head? == b.head?

/-- What may follow the first range, for each first range that anything follows. -/
def rests (sequences : List (List ByteRange)) : List (List (List ByteRange)) :=
  ((groups sequences).map fun group => group.map List.tail).filter fun rest =>
    rest.any (!·.isEmpty)

/-- What may follow after at most so many ranges. -/
def allRests : (ranges : Nat) → List (List (List ByteRange)) → List (List (List ByteRange))
  | 0, level => level
  | n + 1, level => level ++ allRests n (level.flatMap rests)

/-- The automaton that shares what sequences have in common at their ends. -/
def sharingEnds (sequences : List (List ByteRange)) : Nat :=
  let nodes := (allRests 3 [sequences]).eraseDups
  nodes.foldl (fun n node => n + (state + transition * (groups node).length)) state

/-- The length of what two sequences have in common at their start. -/
def commonLength : List ByteRange → List ByteRange → Nat
  | a :: as, b :: bs => if a == b then commonLength as bs + 1 else 0
  | _, _ => 0

/-- The number of ranges, where those at the start are shared with the sequence before. -/
def rangesSharingStarts (before : List ByteRange) : List (List ByteRange) → Nat
  | [] => 0
  | s :: rest => s.length - commonLength before s + rangesSharingStarts s rest

/-- The automaton that shares what sequences have in common at their starts. -/
def sharingStarts (sequences : List (List ByteRange)) : Nat :=
  2 * state + way * sequences.length + state * rangesSharingStarts [] sequences

/-- The automaton for one character of a set. -/
def ofSet (d : Direction) (codes : CodeRanges) : Nat :=
  if codes.toList.all (·.2 < 0x80) then 2 * state + transition * codes.toList.length
  else match d with
    | .forward => sharingEnds (Text.Utf8.sequences codes)
    | .backward => sharingStarts (Text.Utf8.sequences codes)

/-! ## Words -/

/-- Words in groups, each with the same first letter, without that letter. -/
def byFirst (words : List (List ByteRange)) : List (List (List ByteRange)) :=
  (words.map List.head?).eraseDups.map fun first =>
    (words.filter (·.head? == first)).map List.tail

/-- A state from which words of at most so many letters go on. A word that ends here comes
between the words before it and those after it. -/
def trieState : (letters : Nat) → (words : List (List ByteRange)) → Nat
  | 0, _ => 0
  | letters + 1, words =>
    if words.all List.isEmpty then 0
    else
      let runs := words.splitOnP List.isEmpty
      let ends := runs.length - 1
      let runs := (runs.filter (!·.isEmpty)).map byFirst
      let ofRun (run : List (List (List ByteRange))) :=
        state + (if run.length = 1 then 0 else transition * run.length) +
          run.foldl (fun n words => n + trieState letters words) 0
      runs.foldl (fun n run => n + ofRun run) (state + way * (runs.length + ends))

/-- The automaton for one of several words, in which words share their starts, or their ends where
texts are read backward. -/
def trie (d : Direction) (words : List (List ByteRange)) : Nat :=
  let words := match d with
    | .forward => words
    | .backward => words.map List.reverse
  trieState (words.foldl (fun n word => max n word.length) 0) words + state

/-! ## Expressions -/

/-- The branches of an expression. -/
structure Branches where
  count : Nat := 1
  /-- The footprint of the branches by themselves. -/
  size : Nat
  /-- The branches, if each is a fixed word. -/
  words? : Option (List (List ByteRange)) := none
  /-- The characters, if each branch is one of a set. -/
  codes? : Option CodeRanges := none

namespace Branches

/-- The footprint of the branches as one expression. -/
def total (d : Direction) (b : Branches) : Nat :=
  if b.count = 1 then b.size
  else match b.codes?, b.words? with
    | some codes, _ => ofSet d codes
    | none, some words => trie d words
    | none, none => 2 * state + way * b.count + b.size

/-- One character of a set. -/
def ofCodes (d : Direction) (codes : CodeRanges) : Branches :=
  match Text.Utf8.sequences codes with
  | [word] =>
    if codes.count = 1 then
      { size := state * word.length, words? := some [word], codes? := some codes }
    else { size := ofSet d codes, codes? := some codes }
  | _ => { size := ofSet d codes, codes? := some codes }

def seq (d : Direction) (a b : Branches) : Branches where
  size := a.total d + b.total d
  words? := match a.words?, b.words? with
    | some [v], some [w] => some [v ++ w]
    | _, _ => none

def alt (a b : Branches) : Branches where
  count := a.count + b.count
  size := a.size + b.size
  words? := do return (← a.words?) ++ (← b.words?)
  codes? := do return (← a.codes?).union (← b.codes?)

end Branches

/-- So many rounds of a body. -/
def rounds (takesSomething : Bool) (body : Nat) : (least : Nat) → (most : Option Nat) → Nat
  | 0, none => body + fork + if takesSomething then 0 else fork + state
  | n + 1, none => (n + 1) * body + fork
  | 0, some 1 => body + fork + state
  | least, some most =>
    let demanded := if least = 0 then state else least * body
    if least = most then demanded else demanded + state + (most - least) * (fork + body)

end Footprint

open Footprint

/-- The branches of an expression, with their footprint in one direction. A group takes a state at
either end where its place is captured. -/
def branchesOf (d : Direction) (capturing : Bool) : Regex → Branches
  | empty => { size := state }
  | one rule set => .ofCodes d (set.codes rule)
  | look _ => { size := state }
  | group _ body =>
    { size := (branchesOf d capturing body).total d + if capturing then 2 * state else 0 }
  | seq first second => .seq d (branchesOf d capturing first) (branchesOf d capturing second)
  | alt preferred other => .alt (branchesOf d capturing preferred) (branchesOf d capturing other)
  | repetition body least most _ =>
    { size := rounds body.takesSomething ((branchesOf d capturing body).total d) least most }

/-- A loop over bytes, after which reading begins anywhere. -/
def anywhere : Nat :=
  fork + ofSet .forward (.ofList [(0, 0x7F)])

/-- Whether reading can only begin at the edge of a text. -/
def beginsAtEdge (d : Direction) (r : Regex) : Bool :=
  match d with
  | .forward => r.items.head? == some (look .textStart)
  | .backward => r.items.getLast? == some (look .textEnd)

/-- The footprint of an expression in one direction. Places are captured on the way forward. -/
def footprint (d : Direction) (r : Regex) : Nat :=
  (if r.beginsAtEdge d then state else anywhere) +
    ((group none r).branchesOf d (d == .forward)).total d + state

/-- The footprint of an automaton that tells which of several expressions occur. -/
def footprintTogether (d : Direction) (rs : List Regex) : Nat :=
  let sizes := rs.map fun r => (r.branchesOf d false).total d + state
  anywhere + 2 * state + way * rs.length + sizes.foldl (· + ·) 0

/-- The number of ranges, classes and tables that a set is put together from. -/
def CharSet.pieces : CharSet → Nat
  | none => 0
  | range _ _ | named _ _ | table _ => 1
  | union a b | combine _ a b => pieces a + pieces b
  | bracket _ inner => pieces inner

/-- An upper estimate of the footprint, made without a look into sets of characters. -/
def footprintBound : Regex → Nat
  | empty => 64
  | one _ (.bracket false (.range first last)) => if first = last then 512 else 1 <<< 18
  | one _ set => (set.pieces + 1) <<< 18
  | look _ => 64
  | group _ body => footprintBound body + 64
  | seq first second => footprintBound first + footprintBound second
  | alt preferred other => footprintBound preferred + footprintBound other + 128
  | repetition body least most _ =>
    (max (most.getD least) least + 1) * (footprintBound body + 128)

/-- Whether an expression keeps within a limit. -/
def fits (r : Regex) (limit : Nat) : Bool :=
  r.footprintBound + 512 ≤ limit ||
    (r.footprint .forward ≤ limit && r.footprint .backward ≤ limit)

/-- Whether expressions keep within a limit together. -/
def fitTogether (rs : List Regex) (limit : Nat) : Bool :=
  rs.foldl (fun n r => n + r.footprintBound + 512) 512 ≤ limit ||
    (footprintTogether .forward rs ≤ limit && footprintTogether .backward rs ≤ limit)

end RulesText.Regex
