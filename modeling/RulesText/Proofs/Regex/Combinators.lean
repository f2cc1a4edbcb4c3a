import RulesText.Regex.Searcher

/-!
# Searchers in smaller steps

Branches and bounded repetitions are put together from simpler searchers: a choice whose ways do
not meet, and a join where ways meet.

## Main definitions

* `Regex.Searcher.choice`: one of two searchers, each of which goes on by itself.
* `Regex.Searcher.joined`: a searcher with a join at its end.
* `Regex.Searcher.rounds`: at most a number of rounds, each of which can go on.
* `Regex.Searcher.Agrees`: what is known at the joins of a searcher is as given.
-/

namespace RulesText.Regex.Searcher

/-- One of two searchers. -/
def choice (preferred other : Searcher) : Searcher where
  joins := preferred.joins + other.joins
  follow limit join next := Next.orElse (preferred.follow limit join next)
    (other.follow limit (join + preferred.joins) next)

/-- All ways through a searcher meet at its end. -/
def joined (s : Searcher) : Searcher where
  joins := s.joins + 1
  follow limit join next := s.follow limit join (Next.once (join + s.joins) next)

/-- At most `n` rounds. Each time a round has ended, the searcher can go on. -/
def rounds (greedy : Bool) (n : Nat) (body : Searcher) : Searcher where
  joins := n * body.joins
  follow limit join next := followUpTo greedy body limit next n join

theorem alt_eq (preferred other : Searcher) :
    alt preferred other = joined (choice preferred other) := by
  simp only [alt, joined, choice, Nat.add_assoc]

theorem upTo_eq (greedy : Bool) (n : Nat) (body : Searcher) :
    upTo greedy n body = joined (rounds greedy n body) := rfl

theorem times_zero (body : Searcher) : times 0 body = empty := by
  simp only [times, empty, Nat.zero_mul, followTimes]

theorem times_succ (n : Nat) (body : Searcher) :
    times (n + 1) body = seq body (times n body) := by
  simp only [times, seq, Nat.succ_mul, Nat.add_comm (n * body.joins), followTimes]

theorem rounds_zero (greedy : Bool) (body : Searcher) : rounds greedy 0 body = empty := by
  simp only [rounds, empty, Nat.zero_mul, followUpTo]

theorem rounds_succ (greedy : Bool) (n : Nat) (body : Searcher) :
    rounds greedy (n + 1) body =
      if greedy then choice (seq body (rounds greedy n body)) empty
      else choice empty (seq body (rounds greedy n body)) := by
  have joins : (n + 1) * body.joins = body.joins + n * body.joins := by
    rw [Nat.succ_mul, Nat.add_comm]
  cases greedy <;> simp [rounds, choice, seq, empty, joins, followUpTo]

/-! ## What is known at joins -/

section

variable {α : Type}

/-- At the `n` joins from `join` on, the same is known as in `own`. -/
def Agrees (rules own : Nat → α) (join n : Nat) : Prop :=
  ∀ j, join ≤ j → j < join + n → rules j = own j

/-- What is known at joins before `n`, and what from there on. -/
def splice (n : Nat) (own own' : Nat → α) : Nat → α :=
  fun j => if j < n then own j else own' j

variable {rules own own' : Nat → α} {join m n : Nat}

theorem Agrees.head (h : Agrees rules own join (n + 1)) : rules join = own join :=
  h join (Nat.le_refl _) (by omega)

theorem Agrees.front (h : Agrees rules (splice (join + m) own own') join (m + n)) :
    Agrees rules own join m := by
  intro j ge lt
  rw [h j ge (by omega), splice, if_pos lt]

theorem Agrees.back (h : Agrees rules (splice (join + m) own own') join (m + n)) :
    Agrees rules own' (join + m) n := by
  intro j ge lt
  rw [h j (by omega) (by omega), splice, if_neg (by omega)]

end

end RulesText.Regex.Searcher
