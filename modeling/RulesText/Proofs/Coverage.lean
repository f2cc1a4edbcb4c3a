import Mathlib.Algebra.BigOperators.Group.List.Defs
import Mathlib.Algebra.GroupWithZero.Nat
import RulesText.Coverage
import RulesText.Gap.Basic

/-!
# Sums of coverage

The two parts of a coverage are summed up on their own. For tokens they are the bytes of the
matched ones and the bytes of the unmatched ones.
-/

namespace RulesText.Coverage

variable {parts others : List Coverage}

theorem foldl_add (a : Coverage) (parts : List Coverage) :
    parts.foldl add a =
      ⟨a.matched + (parts.map (·.matched)).sum, a.unmatched + (parts.map (·.unmatched)).sum⟩ := by
  induction parts generalizing a with
  | nil => rfl
  | cons b parts ih =>
    rw [List.foldl_cons, ih]
    simp only [add, List.map_cons, List.sum_cons, Nat.add_assoc]

theorem sum_eq (parts : List Coverage) :
    sum parts = ⟨(parts.map (·.matched)).sum, (parts.map (·.unmatched)).sum⟩ := by
  rw [sum, foldl_add, Nat.zero_add, Nat.zero_add]

/-- The order of the parts does not matter. -/
theorem sum_perm (perm : parts.Perm others) : sum parts = sum others := by
  rw [sum_eq, sum_eq, (perm.map _).sum_nat, (perm.map _).sum_nat]

/-! ## Tokens -/

/-- The bytes of several tokens. -/
def extent (tokens : List Token) : Nat :=
  (tokens.map (·.span.length)).sum

@[simp] theorem extent_nil : extent [] = 0 := rfl

@[simp] theorem extent_cons (t : Token) (tokens : List Token) :
    extent (t :: tokens) = t.span.length + extent tokens := rfl

@[simp] theorem extent_append (tokens later : List Token) :
    extent (tokens ++ later) = extent tokens + extent later := by
  rw [extent, List.map_append, List.sum_append, extent, extent]

theorem extent_eq_zero {tokens : List Token} (nonempty : ∀ t ∈ tokens, 0 < t.span.length) :
    extent tokens = 0 ↔ tokens = [] := by
  cases tokens with
  | nil => simp
  | cons t tokens =>
    have := nonempty t List.mem_cons_self
    simp
    omega

/-- The coverage of tokens has the bytes of the matched and of the unmatched ones. -/
theorem ofTokens_eq (tokens : List Token) : ofTokens tokens =
    ⟨extent (tokens.filter (·.label.isMatched)), extent (tokens.filter Gap.isUnmatched)⟩ := by
  rw [ofTokens, sum_eq, List.map_map, List.map_map]
  induction tokens with
  | nil => rfl
  | cons t tokens ih =>
    obtain ⟨matched, unmatched⟩ := Coverage.mk.inj ih
    obtain ⟨label, span⟩ := t
    cases label with
    | kind k => simp [ofToken, Label.isMatched, Gap.isUnmatched, matched, unmatched]
    | unmatched => simp [ofToken, Label.isMatched, Gap.isUnmatched, matched, unmatched]

/-- Every byte of a token is covered. -/
theorem matched_add_unmatched (tokens : List Token) :
    (ofTokens tokens).matched + (ofTokens tokens).unmatched = extent tokens := by
  rw [ofTokens_eq]
  induction tokens with
  | nil => rfl
  | cons t tokens ih =>
    obtain ⟨label, span⟩ := t
    cases label <;> simp [Label.isMatched, Gap.isUnmatched] at ih ⊢ <;> omega

end RulesText.Coverage
