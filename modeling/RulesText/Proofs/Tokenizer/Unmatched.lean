import RulesText.Proofs.Regex.Runs
import RulesText.Tokenizer

/-!
# Unmatched text

Where no phrase matches, a token takes one mark of closing punctuation, or else the longest run
without blanks and marks. At every place that is not blank there is such text.

## Main definitions

* `Tokenizer.unmatchedText`: the text of the unmatched token at the start of a text.
-/

namespace RulesText.Tokenizer

open Regex (CharSet)
open Regex.Next (once orElse)

/-- A mark of closing punctuation is a token of its own. -/
def isTerminal (x : Char) : Bool :=
  x == '.' || x == ',' || x == ';'

/-- The text of an unmatched token that begins with the first character. -/
def unmatchedText : Text → Text
  | [] => []
  | x :: rest =>
    if isTerminal x then [x]
    else (x :: rest).takeWhile fun y => !Text.isBlank y && !isTerminal y

theorem unmatchedText_isPrefix (t : Text) : unmatchedText t <+: t := by
  cases t with
  | nil => exact List.prefix_rfl
  | cons x rest =>
    rw [unmatchedText]
    split
    · exact List.cons_prefix_cons.2 ⟨rfl, List.nil_prefix⟩
    · exact List.takeWhile_prefix _

theorem unmatchedText_ne_nil {x : Char} {rest : Text} (h : Text.isBlank x = false) :
    unmatchedText (x :: rest) ≠ [] := by
  rw [unmatchedText]
  split
  · simp
  · rename_i mark
    simp [h, mark]

/-! ## The catch-all -/

/-- The characters of the runs that the catch-all takes. -/
def runSet : CharSet :=
  .bracket true (.union (.union (.union (.union .none (.named .unicode .space))
    (.range '.' '.')) (.range ',' ',')) (.range ';' ';'))

example : Regex.parse? "[^\\s.,;]+|\\S".toList = some catchAll := by decide +kernel

theorem contains_range_self (c d : Char) :
    CharSet.contains .exact (.range c c) d = (d == c) := by
  rw [Bool.beq_comm]
  simpa [CharSet.single, CharSet.contains, CharSet.closure, Regex.CaseRule.variantsOf] using
    CharSet.contains_single (c := c) (d := d)

theorem contains_bracket_true (inner : CharSet) (x : Char) :
    CharSet.contains .exact (.bracket true inner) x = !CharSet.contains .exact inner x := by
  simp [CharSet.contains, CharSet.closure, Regex.CaseRule.variantsOf]

theorem contains_union (a b : CharSet) (x : Char) :
    CharSet.contains .exact (.union a b) x =
      (CharSet.contains .exact a x || CharSet.contains .exact b x) := rfl

theorem contains_space (x : Char) :
    CharSet.contains .exact (.named .unicode .space) x = Text.isBlank x := rfl

theorem contains_runSet (x : Char) :
    CharSet.contains .exact runSet x = (!Text.isBlank x && !isTerminal x) := by
  have none : CharSet.contains .exact .none x = false := rfl
  rw [runSet, contains_bracket_true, contains_union, contains_union, contains_union,
    contains_union, none, contains_space, contains_range_self, contains_range_self,
    contains_range_self, Bool.false_or, Bool.or_assoc, Bool.or_assoc, Bool.not_or, isTerminal,
    Bool.or_assoc]

/-- The catch-all takes a run if there is one, and else a single character. -/
theorem catchAll_attempt (c : Cursor) :
    catchAll.searcher.attempt c.ahead c ∅ =
      orElse (Regex.Searcher.followLoop true (Regex.Searcher.take .exact runSet) 0
          (once 2 fun m _ => .ok m) c.ahead)
        (Regex.Searcher.take .exact (.bracket true (.named .unicode .space))
          (once 2 fun m _ => .ok m)) { stop := c } ∅ := rfl

theorem once_two {passed : Regex.Passed} (within : Regex.PassedWithin 0 passed) (m : Match) :
    once 2 (fun m _ => .ok m) m passed = .ok m := by
  have new : ⟨2, m.looked, m.stop.offset⟩ ∉ passed := by
    intro mem
    rcases within _ mem with join | join
    · simp at join
    · simp at join
  exact Regex.once_of_notMem new

theorem passedBehind_empty (c : Cursor) : Regex.PassedBehind 0 c ∅ :=
  fun _ mem => absurd mem Std.TreeSet.not_mem_emptyc

/-- At a mark the catch-all takes the mark alone. -/
theorem catchAll_attempt_mark {c d : Cursor} {x : Char} (next : c.next? = some (x, d))
    (nonblank : Text.isBlank x = false) (mark : isTerminal x = true) :
    catchAll.searcher.attempt c.ahead c ∅ = .ok { stop := d } := by
  have outside : ∀ y e, c.next? = some (y, e) → CharSet.contains .exact runSet y = false := by
    intro y e eq
    obtain ⟨rfl, -⟩ := Cursor.next?_inj next eq
    rw [contains_runSet, mark, Bool.not_true, Bool.and_false]
  have mem : CharSet.contains .exact (.bracket true (.named .unicode .space)) x = true := by
    rw [contains_bracket_true, contains_space, nonblank, Bool.not_false]
  obtain ⟨passed, err, within⟩ := Regex.followLoop_error (once 2 fun m _ => .ok m) c.ahead
    (m := { stop := c }) (passedBehind_empty c) outside
  rw [catchAll_attempt]
  simp only [orElse, err]
  exact (Regex.take_of_next? (m := { stop := c }) next mem).trans (once_two within _)

/-- Where a run begins, the catch-all takes all of it. -/
theorem catchAll_attempt_run {c d : Cursor} {x : Char} {rest : Text} (ahead : c.ahead = x :: rest)
    (run : CharSet.contains .exact runSet x = true)
    (through : c.Through ((x :: rest).takeWhile (CharSet.contains .exact runSet)) d) :
    catchAll.searcher.attempt c.ahead c ∅ = .ok { stop := d } := by
  have tail : d.ahead = (x :: rest).dropWhile (CharSet.contains .exact runSet) := by
    refine List.append_cancel_left (through.ahead.symm.trans ?_)
    rw [ahead]
    exact List.takeWhile_append_dropWhile.symm
  have outside : ∀ y e, d.next? = some (y, e) → CharSet.contains .exact runSet y = false := by
    intro y e eq
    have := List.head?_dropWhile_not (CharSet.contains .exact runSet) (x :: rest)
    rwa [← tail, Cursor.ahead_of_next? eq] at this
  have inside : ∀ y ∈ (x :: rest).takeWhile (CharSet.contains .exact runSet),
      CharSet.contains .exact runSet y = true :=
    fun y mem => List.all_eq_true.1 List.all_takeWhile y mem
  rw [List.takeWhile_cons, if_pos run] at through inside
  have enough : (rest.takeWhile (CharSet.contains .exact runSet)).length ≤ c.ahead.length := by
    rw [ahead]
    exact Nat.le_succ_of_le (List.takeWhile_prefix _).length_le
  have taken := Regex.followLoop_run (m := { stop := c }) (passedBehind_empty c) through inside
    outside enough fun passed within => once_two within _
  rw [catchAll_attempt]
  simp only [orElse, taken]
  rfl

/-- At a character that is not blank the catch-all matches the unmatched text. -/
theorem catchAll_matchAt? {c d : Cursor} {x : Char} {rest : Text} (ahead : c.ahead = x :: rest)
    (nonblank : Text.isBlank x = false) (through : c.Through (unmatchedText c.ahead) d) :
    catchAll.searcher.matchAt? c = some { stop := d } := by
  suffices catchAll.searcher.attempt c.ahead c ∅ = .ok { stop := d } by
    rw [Regex.Searcher.matchAt?, this]
    rfl
  rw [ahead, unmatchedText] at through
  cases mark : isTerminal x with
  | true =>
    rw [if_pos mark] at through
    exact catchAll_attempt_mark (Cursor.next?_eq_some_iff.2 through) nonblank mark
  | false =>
    have set : (fun y => !Text.isBlank y && !isTerminal y) = CharSet.contains .exact runSet :=
      funext fun y => (contains_runSet y).symm
    rw [mark, if_neg Bool.false_ne_true, set] at through
    refine catchAll_attempt_run ahead ?_ through
    rw [contains_runSet, nonblank, mark]
    rfl

/-- The end of an unmatched token is that of the unmatched text. -/
theorem stopAt?_catchAll {c : Cursor} {x : Char} {rest : Text} (ahead : c.ahead = x :: rest)
    (nonblank : Text.isBlank x = false) :
    catchAll.finder.stopAt? c = some (c.past (unmatchedText c.ahead)) := by
  have through := Cursor.through_past (unmatchedText_isPrefix c.ahead)
  have eager : catchAll.finder.eager.matchAt? c = some { stop := c.past (unmatchedText c.ahead) } :=
    catchAll_matchAt? ahead nonblank through
  have simple : catchAll.finder.regex.looksInLoop = false := rfl
  simp [Regex.Finder.stopAt?, eager, simple]

theorem unmatchedEnd_eq {c : Cursor} {x : Char} {rest : Text} (ahead : c.ahead = x :: rest)
    (nonblank : Text.isBlank x = false) :
    unmatchedEnd c = c.past (unmatchedText c.ahead) := by
  rw [unmatchedEnd, stopAt?_catchAll ahead nonblank, Option.getD_some]

end RulesText.Tokenizer
