import RulesText.Gap.Concordance
import RulesText.Gap.Numbering
import RulesText.Gap.SuffixAutomaton

/-!
# Repeats

A maximal repeat is a run of words that occurs at least twice in the given texts and of which
every longer run, by a word on either side, occurs less often. No run reaches from one text into
another.

## Main definitions

* `WordAutomaton`: the suffix automaton of the words of several texts.
* `WordAutomaton.maximalRepeats`: the repeats of these texts.
* `Repeat.withWholeGaps`: repeats together with all whole gaps of a concordance.
-/

namespace RulesText

structure Repeat where
  text : Text
  count : Nat
  /-- The number of words. -/
  words : Nat
deriving DecidableEq, Repr

namespace Repeat

/-- Most frequent first, then longest, then by text. -/
def compare (a b : Repeat) : Ordering :=
  ((Ord.compare b.count a.count).then (Ord.compare b.words a.words)).then
    (Text.compare a.text b.text)

def sort (repeats : List Repeat) : List Repeat :=
  repeats.mergeSort fun a b => (compare a b).isLE

end Repeat

/-- A suffix automaton over numbered words. -/
structure WordAutomaton where
  automaton : SuffixAutomaton
  numbering : Numbering

namespace WordAutomaton

/-- The automaton of the words of several texts. -/
def ofTexts (texts : List Text) : WordAutomaton :=
  let (sequences, numbering) := ({} : Numbering).insertTexts (texts.map Text.words)
  { automaton := .ofSequences sequences, numbering }

def ofSequences (sequences : List (List Nat)) (numbering : Numbering) : WordAutomaton where
  automaton := .ofSequences sequences
  numbering

/-- The longest factor of a state, at the end position that the state keeps. -/
def representative (a : SuffixAutomaton) (s : SuffixState) : List Nat :=
  (a.sequence.toList.take (s.endPos + 1)).drop (s.endPos + 1 - s.length)

/-- The elements after the last separator. -/
def afterSeparator (ids : List Nat) : List Nat :=
  (ids.reverse.takeWhile (· != SuffixAutomaton.separator)).reverse

/-- The maximal repeat of a state. A state has one if its factors occur twice and no next word
keeps all occurrences. Where the longest factor runs across a separator, the words after the
last one count, as long as they still belong to the state. -/
def repeatOf? (w : WordAutomaton) (s : SuffixState) : Option Repeat :=
  let continues := s.next.any fun (word, target) =>
    word != SuffixAutomaton.separator && (w.automaton.state target).count == s.count
  let shortest := (s.link?.map fun u => (w.automaton.state u).length).getD 0 + 1
  let ids := afterSeparator (representative w.automaton s)
  if s.count < 2 || continues || ids.length < shortest || ids.isEmpty then none
  else some {
    text := Text.unwords (ids.map w.numbering.word), count := s.count, words := ids.length }

def maximalRepeats (w : WordAutomaton) : List Repeat :=
  Repeat.sort ((w.automaton.states.toList.drop 1).filterMap w.repeatOf?)

end WordAutomaton

namespace Repeat

/-- A text with single spaces between its words. -/
def spaced (text : Text) : Text :=
  Text.unwords (Text.words text)

/-- The whole gaps of a concordance as repeats, with the number of gaps that have the same
words. -/
def wholeGaps (concordance : Concordance) : List Repeat :=
  (Tally.ofList ((concordance.texts.map spaced).filter (!·.isEmpty))).map fun (text, count) =>
    { text, count, words := (Text.words text).length }

/-- The repeats, and the whole gaps whose text is not among them. -/
def withWholeGaps (repeats : List Repeat) (concordance : Concordance) : List Repeat :=
  let known := repeats.map (·.text)
  sort (repeats ++ (wholeGaps concordance).filter fun r => !known.contains r.text)

end Repeat

end RulesText
