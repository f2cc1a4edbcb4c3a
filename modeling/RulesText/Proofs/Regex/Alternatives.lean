import RulesText.Proofs.Regex.Isolation

/-!
# What the alternatives of an expression match

A choice between several expressions is a tree of branches, and what all branches begin with
stands in front of it. Each way through the tree is one of the expressions again. What it matches
in a line it also matches as a whole text, and without regard to case.

## Main definitions

* `Regex.MatchesAll`: expressions that match one after the other.
* `Regex.caseless`: an expression as it is read without regard to case.
* `Regex.splitsInto`: whether every way through the branches is one of the given expressions.

## Main statements

* `Regex.exists_of_splitsInto`: a match of the choice is a match of one of the expressions.
* `Regex.occursIn_whole`: a match in a line is a match of the whole text that it takes.
-/

namespace RulesText.Regex

variable {r : Regex} {rs rs' : List Regex} {c d e : Cursor}

/-! ## Sequences -/

/-- The expressions match one after the other. -/
def MatchesAll : List Regex → Ends Cursor
  | [], c, d => d = c
  | r :: rs, c, d => ∃ e, r.Matches c e ∧ MatchesAll rs e d

theorem MatchesAll.append (h : MatchesAll rs c e) (g : MatchesAll rs' e d) :
    MatchesAll (rs ++ rs') c d := by
  induction rs generalizing c with
  | nil =>
    obtain rfl := h
    exact g
  | cons r rs ih =>
    obtain ⟨b, first, rest⟩ := h
    exact ⟨b, first, ih rest⟩

theorem matches_sequence (h : MatchesAll rs c d) : (sequence rs).Matches c d := by
  induction rs generalizing c with
  | nil => exact h
  | cons r rs ih =>
    obtain ⟨e, first, rest⟩ := h
    cases rs with
    | nil =>
      obtain rfl := rest
      exact first
    | cons r' rs => exact ⟨e, first, ih rest⟩

theorem matchesAll_items (h : r.Matches c d) : MatchesAll r.items c d := by
  induction r generalizing c d with
  | empty => exact h
  | seq first second ih₁ ih₂ =>
    obtain ⟨e, front, back⟩ := h
    exact (ih₁ front).append (ih₂ back)
  | _ => exact ⟨d, h, rfl⟩

theorem matches_sequence_items (before : MatchesAll rs c e) (step : r.Matches e d) :
    (sequence (rs ++ r.items)).Matches c d :=
  matches_sequence (before.append (matchesAll_items step))

/-! ## Branches -/

/-- Whether every way through the branches of an expression, behind the expressions that come
before them, is one of the wanted expressions. -/
def splitsInto (wanted : Regex → Bool) (before : List Regex) : Regex → Bool
  | alt a b =>
    wanted (sequence (before ++ [alt a b])) ||
      (splitsInto wanted before a && splitsInto wanted before b)
  | seq a b =>
    wanted (sequence (before ++ (seq a b).items)) || splitsInto wanted (before ++ a.items) b
  | r => wanted (sequence (before ++ r.items))

theorem exists_of_splitsInto {wanted : Regex → Bool} (splits : splitsInto wanted rs r)
    (before : MatchesAll rs c e) (step : r.Matches e d) : ∃ s, wanted s ∧ s.Matches c d := by
  induction r generalizing rs e with
  | alt a b ih₁ ih₂ =>
    simp only [splitsInto, Bool.or_eq_true, Bool.and_eq_true] at splits
    rcases splits with is | ⟨left, right⟩
    · exact ⟨_, is, matches_sequence_items before step⟩
    · exact step.elim (ih₁ left before) (ih₂ right before)
  | seq a b _ ih₂ =>
    simp only [splitsInto, Bool.or_eq_true] at splits
    rcases splits with is | rest
    · exact ⟨_, is, matches_sequence_items before step⟩
    · obtain ⟨b, first, second⟩ := step
      exact ih₂ rest (before.append (matchesAll_items first)) second
  | _ => exact ⟨_, splits, matches_sequence_items before step⟩

/-! ## Without regard to case -/

namespace CharSet

/-- Whether no part of a set holds a character because it is not in another part. -/
def isMonotone : CharSet → Bool
  | union a b => isMonotone a && isMonotone b
  | combine operation a b => operation == .intersection && isMonotone a && isMonotone b
  | bracket negated inner => !negated && isMonotone inner
  | _ => true

theorem closure_of_mem {mem : Char → Bool} {x : Char} (h : mem x) (rule : CaseRule) :
    closure rule mem x := by
  simp [closure, h]

@[simp] theorem closure_exact (mem : Char → Bool) (x : Char) : closure .exact mem x = mem x := by
  simp [closure, CaseRule.variantsOf]

theorem contains_of_isMonotone {set : CharSet} (monotone : set.isMonotone) {x : Char}
    (mem : set.contains .exact x) (rule : CaseRule) : set.contains rule x := by
  induction set with
  | union a b ih₁ ih₂ =>
    simp only [isMonotone, Bool.and_eq_true] at monotone
    simp only [contains, Bool.or_eq_true] at mem ⊢
    exact mem.imp (ih₁ monotone.1) (ih₂ monotone.2)
  | combine operation a b ih₁ ih₂ =>
    simp only [isMonotone, Bool.and_eq_true, beq_iff_eq] at monotone
    obtain ⟨⟨rfl, left⟩, right⟩ := monotone
    simp only [contains, SetOperation.apply, closure_exact, Bool.and_eq_true] at mem ⊢
    exact ⟨closure_of_mem (ih₁ left mem.1) rule, closure_of_mem (ih₂ right mem.2) rule⟩
  | bracket negated inner ih =>
    simp only [isMonotone, Bool.and_eq_true, Bool.not_eq_true'] at monotone
    obtain ⟨rfl, positive⟩ := monotone
    simp only [contains, closure_exact, Bool.bne_false] at mem ⊢
    exact closure_of_mem (ih positive mem) rule
  | _ => exact mem

/-- Whether a set holds no character because others are not in it. -/
def isPositive : CharSet → Bool
  | union a b => isPositive a && isPositive b
  | combine _ _ _ => false
  | bracket negated inner => !negated && isPositive inner
  | _ => true

theorem isMonotone_of_isPositive {set : CharSet} (positive : set.isPositive) :
    set.isMonotone := by
  induction set with
  | union a b ih₁ ih₂ =>
    simp only [isPositive, Bool.and_eq_true] at positive
    simp only [isMonotone, Bool.and_eq_true]
    exact ⟨ih₁ positive.1, ih₂ positive.2⟩
  | combine operation a b => cases positive
  | bracket negated inner ih =>
    simp only [isPositive, Bool.and_eq_true] at positive
    simp only [isMonotone, Bool.and_eq_true]
    exact ⟨positive.1, ih positive.2⟩
  | _ => rfl

end CharSet

/-- The expression as it is read without regard to case. -/
def caseless : Regex → Regex
  | one _ set => one (.variants .unicode) set
  | group name? body => group name? (caseless body)
  | seq a b => seq (caseless a) (caseless b)
  | alt a b => alt (caseless a) (caseless b)
  | repetition body least most greedy => repetition (caseless body) least most greedy
  | r => r

/-- Whether every character that the expression takes is in a positive set. -/
def isPositive : Regex → Bool
  | one rule set => rule == .exact && set.isPositive
  | group _ body => isPositive body
  | seq a b | alt a b => isPositive a && isPositive b
  | repetition body _ _ _ => isPositive body
  | _ => true

theorem matches_caseless (positive : r.isPositive) (h : r.Matches c d) :
    r.caseless.Matches c d := by
  induction r generalizing c d with
  | one rule set =>
    simp only [isPositive, Bool.and_eq_true, beq_iff_eq] at positive
    obtain ⟨rfl, positive⟩ := positive
    obtain ⟨x, next, mem⟩ := h
    have monotone := CharSet.isMonotone_of_isPositive positive
    exact ⟨x, next, CharSet.contains_of_isMonotone monotone mem _⟩
  | group name? body ih => exact ih positive h
  | seq a b ih₁ ih₂ =>
    simp only [isPositive, Bool.and_eq_true] at positive
    obtain ⟨e, front, back⟩ := h
    exact ⟨e, ih₁ positive.1 front, ih₂ positive.2 back⟩
  | alt a b ih₁ ih₂ =>
    simp only [isPositive, Bool.and_eq_true] at positive
    exact h.imp (ih₁ positive.1) (ih₂ positive.2)
  | repetition body least most greedy ih =>
    obtain ⟨n, le, bound, rounds⟩ := h
    exact ⟨n, le, bound, rounds.map (f := id) fun _ _ => ih positive⟩
  | _ => exact h

/-! ## Whole texts -/

theorem exists_best (steady : r.isSteady) (step : r.Matches c d) :
    ∃ w, r.Best { stop := c } w ∧ w.stop = d := by
  obtain ⟨n, mem, stop⟩ := ((follows_ways steady).ends { stop := c } d).2 step
  have isSome : ((r.ways { stop := c }).find? fun n => n.stop = d).isSome :=
    List.find?_isSome.2 ⟨n, mem, by simpa using stop⟩
  obtain ⟨w, first⟩ := Option.isSome_iff_exists.1 isSome
  obtain rfl : w.stop = d := by simpa using List.find?_some first
  exact ⟨w, first, rfl⟩

/-- What a sealed expression matches in a line it matches as a whole text. -/
theorem occursIn_whole (isSealed : r.isSealed) {u : Text} (through : c.Through u d)
    (step : r.Matches c d) : r.whole.searcher.occursIn u := by
  obtain ⟨w, best, rfl⟩ := exists_best (isSteady_of_isSealed isSealed) step
  obtain ⟨v, found, -⟩ := find?_whole isSealed through best
  rw [Searcher.occursIn, found]
  rfl

end RulesText.Regex
