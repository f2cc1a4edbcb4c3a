import RulesText.Pattern.Rendering
import RulesText.Proofs.Regex.Matching
import RulesText.Proofs.Text.Wording

/-!
# Matches and words

A place between two ASCII letters is inside a word. Whether all matches of an expression begin, or
end, outside of words can often be told from the expression: by a word boundary at that end, or by
a character there that is no letter.

## Main definitions

* `Cursor.isInWord`: a place inside a word.
* `Regex.sparesWords`: the check of an expression.

## Main statements

* `Regex.isInWord_of_sparesWords`: no match of an expression that passes the check splits a word at
  that end.
-/

namespace RulesText

namespace Cursor

/-- Whether there are ASCII letters on both sides of the place. -/
def isInWord (c : Cursor) : Bool :=
  c.behindIs Char.isAlpha && c.aheadIs Char.isAlpha

variable {c : Cursor} {x : Char} {t : Text}

theorem isInWord_of_ahead (ahead : c.ahead = x :: t) (h : x.isAlpha = false) :
    c.isInWord = false := by
  simp [isInWord, aheadIs, ahead, h]

theorem isInWord_of_behind (behind : c.behind = x :: t) (h : x.isAlpha = false) :
    c.isInWord = false := by
  simp [isInWord, behindIs, behind, h]

/-- The place of a match at the given end. -/
def atSide (side : Side) (c d : Cursor) : Cursor :=
  match side with
  | .leading => c
  | .trailing => d

end Cursor

namespace Regex

variable {c d : Cursor} {r : Regex} {side : Side}

theorem eq_of_takesNothing (h : r.takesNothing) (m : r.Matches c d) : d = c := by
  induction r generalizing c d with
  | empty => exact m
  | one rule set => cases h
  | look condition => exact m.2
  | group name? body ih => exact ih h m
  | seq first second ih₁ ih₂ =>
    obtain ⟨e, m₁, m₂⟩ := m
    rw [takesNothing, Bool.and_eq_true] at h
    rw [ih₂ h.2 m₂, ih₁ h.1 m₁]
  | alt preferred other ih₁ ih₂ =>
    rw [takesNothing, Bool.and_eq_true] at h
    exact m.elim (ih₁ h.1) (ih₂ h.2)
  | repetition body least most greedy ih =>
    obtain ⟨n, -, -, rounds⟩ := m
    induction n generalizing c with
    | zero => exact rounds
    | succ n rest =>
      obtain ⟨e, first, later⟩ := rounds
      rw [rest later, ih h first]

/-! ## The check -/

/-- Whether an ASCII letter is in a set. -/
def hasLetter (rule : CaseRule) (set : CharSet) : Bool :=
  Text.alphanumerics.any fun x => x.isAlpha && set.contains rule x

/-- Whether it can be told that all matches have their beginning, or their end, outside of
words. -/
def sparesWords (side : Side) : Regex → Bool
  | empty => false
  | one rule set => !hasLetter rule set
  | look condition => condition == .wordBoundary
  | group _ body => sparesWords side body
  | seq first second =>
    match side with
    | .leading => sparesWords side first || (first.takesNothing && sparesWords side second)
    | .trailing => sparesWords side second || (second.takesNothing && sparesWords side first)
  | alt preferred other => sparesWords side preferred && sparesWords side other
  | repetition body least _ _ => least != 0 && sparesWords side body

theorem isAlpha_of_hasLetter {rule : CaseRule} {set : CharSet} {x : Char}
    (none : hasLetter rule set = false) (mem : set.contains rule x) : x.isAlpha = false := by
  refine Bool.eq_false_iff.2 fun alpha => ?_
  have alphanum : x.isAlphanum := by simp [Char.isAlphanum, alpha]
  have all := List.any_eq_false.1 none x (Text.mem_alphanumerics alphanum)
  simp [alpha, mem] at all

/-- At a word boundary there is no letter on one of the sides. -/
theorem isInWord_of_wordBoundary (h : Look.wordBoundary.holds c) : c.isInWord = false := by
  have word (x? : Option Char) (alpha : x?.any Char.isAlpha) : x?.any Text.isWordChar := by
    cases x? with
    | none => cases alpha
    | some x => exact Text.isWordChar_of_isAlphanum (by simp_all [Char.isAlphanum])
  have holds : (c.behindIs Text.isWordChar != c.aheadIs Text.isWordChar) = true := h
  refine Bool.eq_false_iff.2 fun inside => ?_
  obtain ⟨behind, ahead⟩ := (Bool.and_eq_true _ _).mp inside
  have before : c.behindIs Text.isWordChar = true := word _ behind
  have after : c.aheadIs Text.isWordChar = true := word _ ahead
  simp [before, after] at holds

/-- The first and the last of some rounds are rounds. -/
theorem exists_round_at {M : Ends Cursor} {n : Nat} (rounds : M.Rounds (n + 1) c d) (side : Side) :
    ∃ a b, M a b ∧ Cursor.atSide side a b = Cursor.atSide side c d := by
  cases side with
  | leading =>
    obtain ⟨e, first, -⟩ := rounds
    exact ⟨c, e, first, rfl⟩
  | trailing =>
    obtain ⟨e, -, f, last, same⟩ := Ends.Rounds.split rounds
    exact ⟨e, f, last, same.symm⟩

/-- An expression that passes the check splits no word at that end. -/
theorem isInWord_of_sparesWords (h : r.sparesWords side) (m : r.Matches c d) :
    (Cursor.atSide side c d).isInWord = false := by
  induction r generalizing c d with
  | empty => cases h
  | one rule set =>
    obtain ⟨x, next, mem⟩ := m
    have through := Cursor.next?_eq_some_iff.1 next
    have other := isAlpha_of_hasLetter (by simpa [sparesWords] using h) mem
    cases side with
    | leading => exact Cursor.isInWord_of_ahead through.ahead other
    | trailing => exact Cursor.isInWord_of_behind through.behind other
  | look condition =>
    obtain ⟨holds, rfl⟩ := m
    obtain rfl : condition = .wordBoundary := by simpa [sparesWords] using h
    cases side <;> exact isInWord_of_wordBoundary holds
  | group name? body ih => exact ih h m
  | seq first second ih₁ ih₂ =>
    obtain ⟨e, m₁, m₂⟩ := m
    cases side with
    | leading =>
      rcases (Bool.or_eq_true _ _).mp h with h | h
      · have own := ih₁ h m₁
        exact own
      · obtain ⟨nothing, h⟩ := (Bool.and_eq_true _ _).mp h
        obtain rfl := eq_of_takesNothing nothing m₁
        exact ih₂ h m₂
    | trailing =>
      rcases (Bool.or_eq_true _ _).mp h with h | h
      · have own := ih₂ h m₂
        exact own
      · obtain ⟨nothing, h⟩ := (Bool.and_eq_true _ _).mp h
        obtain rfl := eq_of_takesNothing nothing m₂
        exact ih₁ h m₁
  | alt preferred other ih₁ ih₂ =>
    obtain ⟨own, others⟩ := (Bool.and_eq_true _ _).mp h
    exact m.elim (ih₁ own) (ih₂ others)
  | repetition body least most greedy ih =>
    obtain ⟨some_round, own⟩ := (Bool.and_eq_true _ _).mp h
    obtain ⟨n, le, -, rounds⟩ := m
    obtain ⟨k, rfl⟩ : ∃ k, n = k + 1 :=
      Nat.exists_eq_succ_of_ne_zero (by have := bne_iff_ne.1 some_round; omega)
    obtain ⟨a, b, round, same⟩ := exists_round_at rounds side
    exact same ▸ ih own round

end Regex

end RulesText
