import RulesText.Gap.Candidate
import RulesText.Gap.Collocations
import RulesText.Proofs.Gap.WholeGaps

/-!
# Gaps in another order

Words are numbered as they appear and the suffix automaton reads the gaps one after the other,
but what is reported about gaps depends only on which gaps there are and how often: repeats,
candidates, neighbours and the number of words stay the same when the gaps come in another order.

## Main definitions

* `Concordance.gaps`: the gaps of a concordance.
-/

namespace RulesText

/-- The gaps of a concordance, in order. -/
def Concordance.gaps (c : Concordance) : List Gap :=
  c.map (·.gap)

variable {c d : Concordance}

theorem Concordance.texts_eq (c : Concordance) : c.texts = c.gaps.map (·.text) := by
  rw [texts, gaps, List.map_map]
  rfl

theorem Concordance.texts_perm (perm : c.gaps.Perm d.gaps) : c.texts.Perm d.texts := by
  rw [texts_eq, texts_eq]
  exact perm.map _

/-! ## Repeats -/

namespace Repeat

/-- Repeats that compare as equal are the same. -/
instance : Std.LawfulEqCmp compare where
  eq_of_compare {q r} h := by
    have text := text_eq_of_compare h
    simp only [compare, Ordering.then_eq_eq, Nat.compare_eq_eq] at h
    cases q
    cases r
    rw [Repeat.mk.injEq]
    exact ⟨text, h.1.1.symm, h.1.2.symm⟩

theorem ofWords_perm {items others : List (List Text)} (perm : items.Perm others) :
    ofWords items = ofWords others := by
  funext w
  rw [ofWords, ofWords, occurrencesIn_perm perm]

/-- The repeats of gaps with the whole gaps depend on the texts of the gaps alone. -/
theorem withWholeGaps_perm (perm : c.texts.Perm d.texts) :
    withWholeGaps (WordAutomaton.ofTexts c.texts).maximalRepeats c =
      withWholeGaps (WordAutomaton.ofTexts d.texts).maximalRepeats d := by
  have items := perm.map Text.words
  obtain ⟨repeats, ws, perm_ws, nodup, mem, -, eq, sorted⟩ := exists_runs c
  obtain ⟨repeats', ws', perm_ws', nodup', mem', -, eq', sorted'⟩ := exists_runs d
  have known : ∀ w, w ∈ repeats ↔ w ∈ repeats' := fun w =>
    (mem w).trans (Iff.trans ⟨.perm items, .perm items.symm⟩ (mem' w).symm)
  have same : ws.Perm ws' := by
    refine (List.perm_ext_iff_of_nodup nodup nodup').2 fun w => ?_
    rw [perm_ws.mem_iff, perm_ws'.mem_iff, List.mem_append, List.mem_append, mem_newRuns,
      mem_newRuns, known, items.mem_iff]
    simp only [List.mem_map, known]
  rw [eq, eq']
  rw [ofWords_perm items] at sorted ⊢
  exact Sorting.eq_of_perm (same.map _) sorted sorted'

end Repeat

/-! ## Candidates -/

theorem Candidate.rank_weighted_perm (perm : c.texts.Perm d.texts) :
    rank c.weighted = rank d.weighted := by
  rw [Concordance.weighted, Concordance.counts, Tally.ofList_perm perm]
  rfl

/-! ## Neighbours -/

namespace Collocations

theorem gaps_occurrences (c : Concordance) (text : Text) :
    Concordance.gaps (c.occurrences text) = c.gaps.filter (·.text == text) := by
  rw [Concordance.gaps, Concordance.gaps, Concordance.occurrences, List.filter_map]
  rfl

theorem countsOf_perm (perm : c.gaps.Perm d.gaps) : countsOf c = countsOf d := by
  have before := perm.map (·.before.label)
  have after := perm.map (·.after.label)
  simp only [Concordance.gaps, List.map_map] at before after
  rw [countsOf, countsOf]
  congr 1
  · simpa [Concordance.gaps] using perm.length_eq
  · exact Tally.ofList_perm before
  · exact Tally.ofList_perm after

theorem ofConcordance_perm (perm : c.gaps.Perm d.gaps) : ofConcordance c = ofConcordance d := by
  have texts := Concordance.texts_perm perm
  rw [ofConcordance, ofConcordance, Tally.sortedDistinct_congr fun _ => texts.mem_iff]
  refine List.map_congr_left fun text _ => ?_
  rw [countsOf_perm]
  rw [gaps_occurrences, gaps_occurrences]
  exact perm.filter _

end Collocations

/-! ## Words -/

/-- The words are those of the texts, whatever their numbers. -/
theorem WordAutomaton.size_numbering_perm {texts others : List Text} (perm : texts.Perm others) :
    (ofTexts texts).numbering.size = (ofTexts others).numbering.size := by
  have nodup (items : List (List Text)) := @Numbering.nodup_insertTexts {} List.nodup_nil items
  refine List.Perm.length_eq ((List.perm_ext_iff_of_nodup (nodup _) (nodup _)).2 fun w => ?_)
  rw [Numbering.mem_insertTexts, Numbering.mem_insertTexts]
  simp only [(perm.map Text.words).mem_iff]

end RulesText
