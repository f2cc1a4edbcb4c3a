import RulesText.Capture.LoyaltyCost
import RulesText.Proofs.Regex.Matching

/-!
# Loyalty costs are read back

Every text that the expression of a loyalty cost matches is read as a loyalty cost.

## Main definitions

* `LoyaltyCost.expression`: the expression of a loyalty cost.

## Main statements

* `LoyaltyCost.isSome_ofText?`: what the expression matches is read.
-/

namespace RulesText

namespace Regex

variable {c d : Cursor} {rule : CaseRule} {set : CharSet}

/-- So many rounds of one character each. -/
theorem exists_through_of_rounds {n : Nat} (h : Ends.Rounds (one rule set).Matches n c d) :
    ∃ s, c.Through s d ∧ s.length = n ∧ ∀ x ∈ s, set.contains rule x := by
  induction n generalizing c with
  | zero =>
    obtain rfl := h
    exact ⟨[], .refl _, rfl, by simp⟩
  | succ n ih =>
    obtain ⟨e, ⟨x, next, mem⟩, rest⟩ := h
    obtain ⟨s, through, length, all⟩ := ih rest
    refine ⟨x :: s, (Cursor.next?_eq_some_iff.1 next).trans through, by simp [length], ?_⟩
    exact List.forall_mem_cons.2 ⟨mem, all⟩

theorem through_of_char {x : Char} (h : (char x).Matches c d) : c.Through [x] d := by
  obtain ⟨y, next, mem⟩ := h
  obtain rfl : x = y := by simpa using mem
  exact Cursor.next?_eq_some_iff.1 next

end Regex

namespace LoyaltyCost

open Regex (CharSet)

/-- The signs, written `[+−-]`. -/
def signs : CharSet :=
  .bracket false
    (.union (.union (.union .none (.range '+' '+')) (.range '−' '−')) (.range '-' '-'))

/-- A sign, which may be missing, an amount in digits or `x`, and a colon. -/
def expression : Regex :=
  let sign : Regex := .repetition (.one .exact signs) 0 (some 1) true
  let digits : Regex := .repetition (.one .exact (.named .unicode .digit)) 1 none true
  .seq (.group (some "cost") (.seq sign (.alt digits (.char 'x')))) (.char ':')

theorem isSign_of_contains {c : Char} (h : signs.contains .exact c) : isSign c := by
  simp only [signs, CharSet.contains, CharSet.closure, Regex.CaseRule.variantsOf, List.any_nil,
    Bool.or_false, Bool.false_or, Bool.bne_false, Bool.or_eq_true, Bool.and_eq_true,
    decide_eq_true_eq] at h
  rcases h with (⟨ge, le⟩ | ⟨ge, le⟩) | ⟨ge, le⟩ <;> obtain rfl := Char.le_antisymm le ge <;> decide

/-- Digits, or `x`. -/
def IsAmount (t : Text) : Prop :=
  t = ['x'] ∨ t ≠ [] ∧ ∀ c ∈ t, Text.isDecimalDigit c

theorem isSome_amount? {t : Text} (h : IsAmount t) : (amount? (t ++ [':'])).isSome := by
  rcases h with rfl | ⟨ne, digits⟩
  · decide
  · have front : (t ++ [':']).takeWhile Text.isDecimalDigit = t := by
      rw [List.takeWhile_append_of_pos digits]
      simp [show Text.isDecimalDigit ':' = false by decide]
    simp [amount?, front, ne]

/-- An amount does not begin like a sign. -/
theorem isSign_of_isAmount {c : Char} {t : Text} (h : IsAmount (c :: t)) : isSign c = false := by
  rcases h with eq | ⟨-, digits⟩
  · obtain ⟨rfl, -⟩ := List.cons.inj eq
    decide
  · have digit := digits c List.mem_cons_self
    rw [Bool.eq_false_iff]
    intro sign
    simp only [isSign, Bool.or_eq_true, beq_iff_eq] at sign
    rcases sign with (rfl | rfl) | rfl <;> revert digit <;> decide

theorem isSome_ofText?_append {sign amount : Text} (short : sign.length ≤ 1)
    (signs : ∀ c ∈ sign, isSign c) (h : IsAmount amount) :
    (ofText? (sign ++ amount ++ [':'])).isSome := by
  have read := isSome_amount? h
  match sign, amount with
  | [], [] => simp [IsAmount] at h
  | [], c :: rest =>
    simpa [ofText?, isSign_of_isAmount h] using read
  | [c], _ => simpa [ofText?, signs c List.mem_cons_self] using read

theorem isSome_ofText? {c d : Cursor} {u : Text} (through : c.Through u d)
    (step : expression.Matches c d) : (ofText? u).isSome := by
  obtain ⟨e, ⟨b, ⟨n, -, most, rounds⟩, amount⟩, colon⟩ := step
  obtain ⟨sign, front, length, signs⟩ := Regex.exists_through_of_rounds rounds
  have amount : ∃ t, b.Through t e ∧ IsAmount t := by
    rcases amount with ⟨k, least, -, rounds⟩ | x
    · obtain ⟨t, through, length, digits⟩ := Regex.exists_through_of_rounds rounds
      exact ⟨t, through, .inr ⟨List.ne_nil_of_length_pos (length ▸ least), digits⟩⟩
    · exact ⟨['x'], Regex.through_of_char x, .inl rfl⟩
  obtain ⟨t, middle, isAmount⟩ := amount
  have all := (front.trans middle).trans (Regex.through_of_char colon)
  obtain rfl : u = sign ++ t ++ [':'] :=
    List.append_cancel_right (through.ahead.symm.trans all.ahead)
  exact isSome_ofText?_append (length ▸ most 1 rfl)
    (fun c mem => isSign_of_contains (signs c mem)) isAmount

end LoyaltyCost

end RulesText
