import RulesText.Proofs.Analysis.Provenance
import RulesText.Proofs.Coverage
import RulesText.Proofs.Gap.Reordering

/-!
# Cards in another order

An analysis of a corpus counts what is in its cards and describes all gaps together. Both are the
same for the cards in another order, and so is whether there is a fault.

## Main definitions

* `CorpusAnalysis.Agrees`: two analyses differ at most in what follows the order of the cards.
-/

namespace RulesText

namespace CorpusAnalysis

variable {cards others : List CardAnalysis}

theorem gaps_gapsOfLines (card line offset : Nat) (lines : List LineAnalysis) :
    Concordance.gaps (gapsOfLines card line offset lines) = lines.flatMap (·.gaps) := by
  induction lines generalizing line offset with
  | nil => rfl
  | cons l lines ih =>
    have ih := ih (line + 1) (offset + Text.byteSize l.text + 1)
    rw [Concordance.gaps] at ih ⊢
    rw [gapsOfLines, List.map_append, ih, List.map_map, List.flatMap_cons]
    exact congrArg (· ++ _) (List.map_id l.gaps)

/-- The gaps of a corpus are those of its lines. -/
theorem gaps_concordanceOf (cards : List CardAnalysis) :
    (concordanceOf cards).gaps = (cards.flatMap (·.lines)).flatMap (·.gaps) := by
  rw [Concordance.gaps, concordanceOf, List.map_flatMap, List.flatMap_assoc]
  conv_rhs => rw [← List.zipIdx_map_fst 0 cards, List.flatMap_map]
  exact List.flatMap_congr fun _ _ => gaps_gapsOfLines ..

theorem countKinds_perm {kinds kinds' : List Kind} (perm : kinds.Perm kinds') :
    countKinds kinds = countKinds kinds' := by
  simp only [countKinds, perm.count_eq]

/-- The reports are the same but for the order of the cards and of their gaps, and the size of
the automaton. -/
structure Agrees (r s : CorpusAnalysis) : Prop where
  cardCount : r.cardCount = s.cardCount
  lineCount : r.lineCount = s.lineCount
  tokenCount : r.tokenCount = s.tokenCount
  coverage : r.coverage = s.coverage
  kindCounts : r.kindCounts = s.kindCounts
  repeats : r.repeats = s.repeats
  candidates : r.candidates = s.candidates
  collocations : r.collocations = s.collocations
  vocabulary : r.vocabulary = s.vocabulary

theorem agrees_ofCards (perm : cards.Perm others) : Agrees (ofCards cards) (ofCards others) := by
  have lines : (cards.flatMap (·.lines)).Perm (others.flatMap (·.lines)) := perm.flatMap_right _
  have gaps : (concordanceOf cards).gaps.Perm (concordanceOf others).gaps := by
    rw [gaps_concordanceOf, gaps_concordanceOf]
    exact lines.flatMap_right _
  have texts := Concordance.texts_perm gaps
  exact {
    cardCount := perm.length_eq
    lineCount := lines.length_eq
    tokenCount := (lines.flatMap_right _).length_eq
    coverage := Coverage.sum_perm (perm.map _)
    kindCounts := countKinds_perm (perm.flatMap_right _)
    repeats := Repeat.withWholeGaps_perm texts
    candidates := Candidate.rank_weighted_perm texts
    collocations := Collocations.ofConcordance_perm gaps
    vocabulary := WordAutomaton.size_numbering_perm texts }

end CorpusAnalysis

namespace Tokenizer

variable {t : Tokenizer} {o : Options} {items others : List CardItem}

/-- For the cards of a corpus in another order there is an analysis as well, and it agrees. -/
theorem analyzeCorpus_perm {r : CorpusAnalysis} (perm : items.Perm others)
    (ok : t.analyzeCorpus o items = .ok r) :
    ∃ s, t.analyzeCorpus o others = .ok s ∧ r.Agrees s := by
  obtain ⟨_, checked, ok⟩ := bind_eq_ok.1 ok
  obtain ⟨cards, analyzed, eq⟩ := bind_eq_ok.1 ok
  obtain rfl := Except.ok.inj eq
  obtain ⟨cards', analyzed', perm⟩ := exists_mapM_perm perm analyzed
  refine ⟨_, bind_eq_ok.2 ⟨_, checked, bind_eq_ok.2 ⟨cards', analyzed', rfl⟩⟩, ?_⟩
  exact CorpusAnalysis.agrees_ofCards perm

theorem agrees_islands : ∃ t r s, ofVocabulary drawing [.drawCards] = .ok t ∧
    t.analyzeCorpus {} islands = .ok r ∧ t.analyzeCorpus {} islands.reverse = .ok s ∧
    r.vocabulary = 9 ∧ r.Agrees s := by
  have found : ((ofVocabulary drawing [.drawCards]).toOption.bind fun t =>
      (t.analyzeCorpus {} islands).toOption.map (·.vocabulary)) = some 9 := by
    decide +kernel
  obtain ⟨t, accepted, found⟩ := Option.bind_eq_some_iff.1 found
  obtain ⟨r, analyzed, vocabulary⟩ := Option.map_eq_some_iff.1 found
  have accepted := Regex.Searcher.toOption_eq_some_iff.1 accepted
  have analyzed := Regex.Searcher.toOption_eq_some_iff.1 analyzed
  obtain ⟨s, reversed, agrees⟩ := analyzeCorpus_perm islands.reverse_perm.symm analyzed
  exact ⟨t, r, s, accepted, analyzed, reversed, vocabulary, agrees⟩

end Tokenizer

end RulesText
