import RulesText.Text.Basic

/-!
# Numbered words

Words are numbered 1, 2, 3, … in the order in which they first appear. Number 0 is kept for the
separator between texts and stands for no word.
-/

namespace RulesText

structure Numbering where
  /-- The words in the order of their numbers. -/
  words : List Text := []
deriving DecidableEq, Repr

namespace Numbering

/-- The number of words. -/
def size (n : Numbering) : Nat :=
  n.words.length

/-- The number of a word, which is added if it is new. Numbers have no bound here; those of 32 bits
are the same as long as there are fewer than 2^32 - 1 different words. -/
def insert (n : Numbering) (word : Text) : Nat × Numbering :=
  match n.words.idxOf? word with
  | some place => (place + 1, n)
  | none => (n.words.length + 1, { words := n.words ++ [word] })

/-- The numbers of several words, one after the other. -/
def insertAll (n : Numbering) : List Text → List Nat × Numbering
  | [] => ([], n)
  | word :: rest =>
    let (id, n) := n.insert word
    let (ids, n) := n.insertAll rest
    (id :: ids, n)

/-- The numbers of the words of several texts. -/
def insertTexts (n : Numbering) : List (List Text) → List (List Nat) × Numbering
  | [] => ([], n)
  | words :: rest =>
    let (ids, n) := n.insertAll words
    let (others, n) := n.insertTexts rest
    (ids :: others, n)

/-- The word with a number, which is empty for 0 and for numbers that are not in use. -/
def word (n : Numbering) : (id : Nat) → Text
  | 0 => []
  | id + 1 => (n.words[id]?).getD []

end Numbering

end RulesText
