import RulesText.Tally

/-!
# Candidates for new templates

Texts are put word by word into a trie and weighted by how often they occur. Every node is a
candidate: a run of words with which many texts begin, and after which they differ, is a good
start for a new template. The fitness of a candidate is its support times the number of words
that follow it times its own number of words.

## Main definitions

* `Trie`: the trie, with the branches of each node in ascending order.
* `Trie.candidates`: one candidate per node, each before those that continue it.
* `Candidate.rank`: the candidates of weighted texts, fittest first.
-/

namespace RulesText

structure Candidate where
  /-- The words of the candidate, with spaces between them. -/
  stem : Text
  /-- The different words that follow, ascending. -/
  nextWords : List Text
  /-- The weight of the texts that begin with the candidate. -/
  support : Nat
  branching : Nat
  /-- The number of words. -/
  length : Nat
  fitness : Nat
deriving DecidableEq, Repr

/-- The branches of a node: a first branch with its word, its weight and what is below it, then
the others. -/
inductive Trie where
  | nil
  | branch (word : Text) (weight : Nat) (below : Trie) (others : Trie)
deriving DecidableEq, Repr

namespace Trie

/-- A single path. -/
def path (weight : Nat) : List Text → Trie
  | [] => nil
  | word :: rest => branch word weight (path weight rest) nil

/-- Add a weight along the path of the given words. -/
def insert (weight : Nat) : Trie → (words : List Text) → Trie
  | t, [] => t
  | nil, words => path weight words
  | branch y v below others, word :: rest =>
    match Text.compare word y with
    | .lt => branch word weight (path weight rest) (branch y v below others)
    | .eq => branch y (v + weight) (insert weight below rest) others
    | .gt => branch y v below (insert weight others (word :: rest))

/-- The number of branches, at all depths. -/
def size : Trie → Nat
  | nil => 0
  | branch _ _ below others => below.size + others.size + 1

/-- The words of the branches side by side. -/
def words : Trie → List Text
  | nil => []
  | branch word _ _ others => word :: others.words

def candidateAt (stem : List Text) (weight : Nat) (below : Trie) : Candidate where
  stem := Text.unwords stem
  nextWords := below.words
  support := weight
  branching := below.words.length
  length := stem.length
  fitness := weight * below.words.length * stem.length

/-- The candidates of the branches below the given words. -/
def candidatesBelow (stem : List Text) : Trie → List Candidate
  | nil => []
  | branch word weight below others =>
    candidateAt (stem ++ [word]) weight below ::
      (candidatesBelow (stem ++ [word]) below ++ candidatesBelow stem others)

def candidates (t : Trie) : List Candidate :=
  candidatesBelow [] t

/-- The trie of weighted texts. -/
def ofWeighted (weighted : List (Text × Nat)) : Trie :=
  weighted.foldl (fun t (text, weight) => t.insert weight (Text.words text)) nil

end Trie

namespace Candidate

/-- Fittest first, then by support, by length and by text. -/
def compare (a b : Candidate) : Ordering :=
  (((Ord.compare b.fitness a.fitness).then (Ord.compare b.support a.support)).then
    (Ord.compare b.length a.length)).then (Text.compare a.stem b.stem)

/-- The candidates of weighted texts, fittest first. -/
def rank (weighted : List (Text × Nat)) : List Candidate :=
  (Trie.ofWeighted weighted).candidates.mergeSort fun a b => (compare a b).isLE

end Candidate

end RulesText
