import Mathlib.Algebra.BigOperators.Group.Finset.Basic
import RulesText.Proofs.Analysis.Reordering

/-!
# What a report counts

The numbers in the analysis of a corpus are gathered one by one, and all of them are numbers of
tokens or of gaps in the same lines. They agree with the lines and with each other.

## Main definitions

* `CorpusAnalysis.Reconciles`: the numbers of a report agree.

## Main statements

* `Tokenizer.analyzeCorpus_reconciles`: the numbers of every report agree.
-/

namespace RulesText

/-! ## Counting -/

/-- The counts of different things that are all there is add up. -/
theorem sum_map_count {α : Type} [BEq α] [LawfulBEq α] {keys l : List α} (nodup : keys.Nodup)
    (all : ∀ a ∈ l, a ∈ keys) : (keys.map (l.count ·)).sum = l.length := by
  classical
  obtain rfl : ‹BEq α› = instBEqOfDecidableEq := lawful_beq_subsingleton ..
  rw [← List.sum_toFinset _ nodup]
  refine (Finset.sum_congr rfl fun a _ => (Multiset.coe_count a l).symm).trans ?_
  rw [Multiset.sum_count_eq_card fun a mem => List.mem_toFinset.2 (all a (Multiset.mem_coe.1 mem))]
  exact Multiset.coe_card l

namespace Tally

theorem sum_ofList (texts : List Text) : ((ofList texts).map (·.2)).sum = texts.length := by
  rw [ofList, List.map_map]
  exact sum_map_count (nodup_sortedDistinct texts) fun t mem => mem_sortedDistinct.2 mem

end Tally

theorem Coverage.sum_flatMap {α : Type} (parts : α → List Coverage) (l : List α) :
    sum (l.flatMap parts) = sum (l.map fun a => sum (parts a)) := by
  simp only [sum_eq, List.flatMap_def, List.map_flatten, List.sum_flatten, List.map_map,
    Function.comp_def]

/-- The gaps of a line, however short, have all of its unmatched tokens. -/
theorem Gap.sum_tokens_ofTokens (line : Text) (before : Neighbour) (tokens : List Token) :
    ((ofTokens line 1 before tokens).map (·.tokens)).sum = tokens.countP isUnmatched := by
  fun_induction ofTokens line 1 before tokens with
  | case1 => rfl
  | case2 before t rest kind label ih =>
    have matched : ¬isUnmatched t = true := by simp [isUnmatched, label]
    rw [ih, List.countP_cons_of_neg matched]
  | case3 before t rest label others after later long ih =>
    have unmatched : isUnmatched t = true := by simp [isUnmatched, label]
    have run : others.countP isUnmatched = others.length :=
      List.countP_eq_length.2 fun u mem => List.all_eq_true.1 List.all_takeWhile u mem
    have split : rest = others ++ after := List.takeWhile_append_dropWhile.symm
    rw [List.map_cons, List.sum_cons, ih, List.countP_cons_of_pos unmatched, split,
      List.countP_append, run]
    change others.length + 1 + _ = _
    omega
  | case4 before t rest label others after later short => omega

namespace CorpusAnalysis

/-- All lines of a corpus, in order. -/
def lines (r : CorpusAnalysis) : List LineAnalysis :=
  r.cards.flatMap (·.lines)

/-- All tokens of a corpus, in order. -/
def tokens (r : CorpusAnalysis) : List Token :=
  r.lines.flatMap (·.tokens)

/-! ## Kinds -/

theorem mem_countKinds {kinds : List Kind} {k : Kind} {n : Nat} :
    (k, n) ∈ countKinds kinds ↔ n = kinds.count k ∧ k ∈ kinds := by
  simp only [countKinds, List.mem_mergeSort, List.mem_filter, List.mem_map, Prod.mk.injEq,
    decide_eq_true_eq, ← List.count_pos_iff (a := k)]
  constructor
  · rintro ⟨⟨k, -, rfl, rfl⟩, pos⟩
    exact ⟨rfl, Nat.pos_of_ne_zero pos⟩
  · rintro ⟨rfl, pos⟩
    exact ⟨⟨k, k.mem_all, rfl, rfl⟩, Nat.ne_of_gt pos⟩

theorem sum_countKinds (kinds : List Kind) :
    ((countKinds kinds).map (·.2)).sum = kinds.length := by
  rw [countKinds, ((List.mergeSort_perm _ _).map _).sum_nat, List.filter_map, List.map_map]
  refine sum_map_count (Kind.all_nodup.filter _) fun k mem => List.mem_filter.2 ⟨k.mem_all, ?_⟩
  simpa [List.count_eq_zero] using mem

theorem nodup_countKinds (kinds : List Kind) : ((countKinds kinds).map (·.1)).Nodup := by
  rw [countKinds, ((List.mergeSort_perm _ _).map _).nodup_iff, List.filter_map, List.map_map]
  exact (Kind.all_nodup.filter _).map fun _ _ => id

/-- The most frequent kind comes first, and of kinds that are as frequent the one that is declared
first. -/
theorem pairwise_countKinds (kinds : List Kind) : (countKinds kinds).Pairwise fun a b =>
    b.2 < a.2 ∨ a.2 = b.2 ∧ a.1.rank < b.1.rank := by
  have declared : Kind.all.Pairwise fun a b => a.rank < b.rank := by decide
  have counts : ((Kind.all.map fun k => (k, kinds.count k)).filter (·.2 ≠ 0)).Pairwise
      fun a b => a.1.rank < b.1.rank := .filter _ (List.pairwise_map.2 declared)
  refine (Sorting.pairwise_of_ties ?_ ?_ counts).imp ?_
  · simp only [decide_eq_true_eq]
    omega
  · simp only [Bool.or_eq_true, decide_eq_true_eq]
    omega
  · rintro a b ⟨le, ties⟩
    simp only [decide_eq_true_eq] at le ties
    omega

/-! ## Tokens -/

variable (r : CorpusAnalysis)

theorem matchedKinds_eq : matchedKinds r.cards = r.tokens.filterMap (·.label.kind?) := by
  rw [matchedKinds, tokens, lines, List.filterMap_flatMap, List.flatMap_assoc]

theorem count_matchedKinds (k : Kind) :
    (matchedKinds r.cards).count k = r.tokens.countP (·.label == .kind k) := by
  rw [matchedKinds_eq, List.count, List.countP_filterMap]
  refine List.countP_congr fun token _ => ?_
  cases token.label <;> simp [Label.kind?]

/-- A token has a kind or is unmatched. -/
theorem length_matchedKinds :
    r.tokens.countP Gap.isUnmatched + (matchedKinds r.cards).length = r.tokens.length := by
  rw [matchedKinds_eq]
  induction r.tokens with
  | nil => rfl
  | cons token tokens ih =>
    obtain ⟨label, span⟩ := token
    cases label <;> simp [Gap.isUnmatched, Label.kind?] at ih ⊢ <;> omega

/-- The gaps of all lines have the unmatched tokens of all lines. -/
theorem sum_tokens_concordanceOf
    (gaps : ∀ l ∈ r.lines, l.gaps = Gap.ofTokens l.text 1 .lineStart l.tokens) :
    ((concordanceOf r.cards).map (·.gap.tokens)).sum = r.tokens.countP Gap.isUnmatched := by
  have all : (concordanceOf r.cards).map (·.gap.tokens) =
      (r.lines.flatMap (·.gaps)).map (·.tokens) := by
    rw [lines, ← gaps_concordanceOf, Concordance.gaps, List.map_map]
    rfl
  rw [all, tokens]
  generalize r.lines = lines at gaps
  induction lines with
  | nil => rfl
  | cons l lines ih =>
    obtain ⟨own, gaps⟩ := List.forall_mem_cons.1 gaps
    rw [List.flatMap_cons, List.flatMap_cons, List.map_append, List.sum_append, ih gaps, own,
      Gap.sum_tokens_ofTokens, List.countP_append]

/-! ## Reports -/

/-- The numbers of a report agree with its lines and with each other. -/
structure Reconciles (r : CorpusAnalysis) : Prop where
  tokenCount : r.tokenCount = (r.lines.map (·.tokens.length)).sum
  /-- The kinds that occur, and no others. -/
  mem_kindCounts : ∀ k n, (k, n) ∈ r.kindCounts ↔
    n = r.tokens.countP (·.label == .kind k) ∧ 0 < n
  kindCounts_nodup : (r.kindCounts.map (·.1)).Nodup
  kindCounts_inOrder : r.kindCounts.Pairwise fun a b =>
    b.2 < a.2 ∨ a.2 = b.2 ∧ a.1.rank < b.1.rank
  coverage : r.coverage = Coverage.sum (r.lines.map (·.coverage))
  /-- The gap texts, each of them once. -/
  mem_collocations : ∀ text, text ∈ r.collocations.map (·.1) ↔ text ∈ r.concordance.texts
  collocations_nodup : (r.collocations.map (·.1)).Nodup
  collocates : ∀ text c, (text, c) ∈ r.collocations → (text, c.occurrences) ∈ r.concordance.counts ∧
    (c.before.map (·.2)).sum = c.occurrences ∧ (c.after.map (·.2)).sum = c.occurrences

theorem keys_ofConcordance (c : Concordance) :
    (Collocations.ofConcordance c).map (·.1) = Tally.sortedDistinct c.texts := by
  rw [Collocations.ofConcordance, List.map_map]
  exact List.map_id _

/-- How often a text occurs is the number of its occurrences. -/
theorem length_occurrences (c : Concordance) (text : Text) :
    (c.occurrences text).length = c.texts.count text := by
  rw [Concordance.occurrences, Concordance.texts, List.count, List.countP_map,
    List.countP_eq_length_filter]
  rfl

theorem collocates_ofConcordance {c : Concordance} {text : Text} {counts : Collocates}
    (mem : (text, counts) ∈ Collocations.ofConcordance c) :
    (text, counts.occurrences) ∈ c.counts ∧ (counts.before.map (·.2)).sum = counts.occurrences ∧
      (counts.after.map (·.2)).sum = counts.occurrences := by
  obtain ⟨_, occurs, eq⟩ := List.mem_map.1 mem
  obtain ⟨rfl, rfl⟩ := Prod.mk.inj eq
  refine ⟨Tally.mem_ofList.2 ⟨Tally.mem_sortedDistinct.1 occurs, length_occurrences c _⟩, ?_, ?_⟩
  · exact (Tally.sum_ofList _).trans (List.length_map _)
  · exact (Tally.sum_ofList _).trans (List.length_map _)

/-- A report reconciles if the coverage of each card is the sum of its lines. -/
theorem reconciles_ofCards {cards : List CardAnalysis}
    (summed : ∀ card ∈ cards, card.coverage = Coverage.sum (card.lines.map (·.coverage))) :
    (ofCards cards).Reconciles where
  tokenCount := List.length_flatMap
  mem_kindCounts k n := by
    rw [← count_matchedKinds]
    refine mem_countKinds.trans (and_congr_right fun eq => ?_)
    rw [eq, List.count_pos_iff]
  kindCounts_nodup := nodup_countKinds _
  kindCounts_inOrder := pairwise_countKinds _
  coverage := by
    rw [lines, List.map_flatMap, Coverage.sum_flatMap]
    exact congrArg Coverage.sum (List.map_congr_left summed)
  mem_collocations text := by
    change _ ∈ (Collocations.ofConcordance _).map _ ↔ _
    rw [keys_ofConcordance]
    exact Tally.mem_sortedDistinct
  collocations_nodup := by
    change ((Collocations.ofConcordance _).map _).Nodup
    rw [keys_ofConcordance]
    exact Tally.nodup_sortedDistinct _
  collocates text c mem := collocates_ofConcordance mem

/-- Short gaps included, every token is in a gap or counts for a kind. -/
theorem sum_tokens_add_sum_kindCounts {cards : List CardAnalysis}
    (gaps : ∀ l ∈ (ofCards cards).lines, l.gaps = Gap.ofTokens l.text 1 .lineStart l.tokens) :
    ((ofCards cards).concordance.map (·.gap.tokens)).sum +
      ((ofCards cards).kindCounts.map (·.2)).sum = (ofCards cards).tokenCount := by
  have unmatched := sum_tokens_concordanceOf (ofCards cards) gaps
  have matched : ((ofCards cards).kindCounts.map (·.2)).sum = _ := sum_countKinds _
  rw [matched]
  exact (congrArg (· + _) unmatched).trans (length_matchedKinds (ofCards cards))

end CorpusAnalysis

namespace Tokenizer

variable {t : Tokenizer} {o : Options} {items : List CardItem} {r : CorpusAnalysis}

/-- The lines of a card are the analyses of its lines in normal form. -/
theorem of_analyzeCard {item : CardItem} {card : CardAnalysis}
    (ok : t.analyzeCard o item = .ok card) :
    card.lines.map (·.text) = Card.normalLines item.name item.text o.stripReminders ∧
    (∀ l ∈ card.lines, t.analyzeLine o l.text = .ok l) ∧
    card.coverage = Coverage.sum (card.lines.map (·.coverage)) := by
  obtain ⟨lines, analyzed, eq⟩ := bind_eq_ok.1 ok
  obtain rfl := Except.ok.inj eq
  have analyzed := mapM_eq_ok.1 analyzed
  refine ⟨?_, fun l mem => ?_, rfl⟩
  · refine List.forall₂_eq_eq_eq ▸ List.forall₂_map_left_iff.2 ?_
    exact analyzed.flip.imp fun l line ok => (of_analyzeLine ok).1
  · obtain ⟨line, -, ok⟩ := exists_of_forall₂ analyzed.flip mem
    rwa [(of_analyzeLine ok).1]

/-- The numbers in the analysis of a corpus agree with the lines of its cards and with each
other. If no gap is too short, the tokens of the gaps and the counts of the kinds together are all
tokens. -/
theorem analyzeCorpus_reconciles (ok : t.analyzeCorpus o items = .ok r) :
    r.lines.map (·.text) =
      items.flatMap (fun item => Card.normalLines item.name item.text o.stripReminders) ∧
    (∀ l ∈ r.lines, l.tokens = t.tokenize l.text ∧ l.coverage = Coverage.ofTokens l.tokens) ∧
    r.Reconciles ∧
    (o.leastRun = 1 → (r.concordance.map (·.gap.tokens)).sum + (r.kindCounts.map (·.2)).sum =
      r.tokenCount) := by
  obtain ⟨_, -, ok⟩ := bind_eq_ok.1 ok
  obtain ⟨cards, analyzed, eq⟩ := bind_eq_ok.1 ok
  obtain rfl := Except.ok.inj eq
  have analyzed := mapM_eq_ok.1 analyzed
  have cardOf : ∀ card ∈ cards, ∃ item ∈ items, t.analyzeCard o item = .ok card :=
    fun card mem => exists_of_forall₂ analyzed.flip mem
  have lineOf : ∀ l ∈ (CorpusAnalysis.ofCards cards).lines, t.analyzeLine o l.text = .ok l := by
    intro l mem
    obtain ⟨card, mem, inside⟩ := List.mem_flatMap.1 mem
    obtain ⟨item, -, ok⟩ := cardOf card mem
    exact (of_analyzeCard ok).2.1 l inside
  refine ⟨?_, fun l mem => ?_, CorpusAnalysis.reconciles_ofCards fun card mem => ?_,
    fun least => ?_⟩
  · have texts : cards.map (fun card => card.lines.map (·.text)) =
        items.map fun item => Card.normalLines item.name item.text o.stripReminders := by
      refine List.forall₂_eq_eq_eq ▸ List.forall₂_map_left_iff.2 (List.forall₂_map_right_iff.2 ?_)
      exact analyzed.flip.imp fun card item ok => (of_analyzeCard ok).1
    change (cards.flatMap (·.lines)).map (·.text) = _
    rw [List.map_flatMap, List.flatMap_def, texts, ← List.flatMap_def]
  · obtain ⟨-, tokens, coverage, -⟩ := of_analyzeLine (lineOf l mem)
    exact ⟨tokens, coverage⟩
  · obtain ⟨item, -, ok⟩ := cardOf card mem
    exact (of_analyzeCard ok).2.2
  · refine CorpusAnalysis.sum_tokens_add_sum_kindCounts fun l mem => ?_
    rw [(of_analyzeLine (lineOf l mem)).2.2.2, least]

/-- Three of the sixteen tokens are matched, and the others are in five gaps. -/
theorem reconciles_islands : ∃ t r, ofVocabulary drawing [.drawCards] = .ok t ∧
    t.analyzeCorpus {} islands = .ok r ∧ r.kindCounts = [(.drawCards, 3)] ∧ r.Reconciles ∧
    (r.concordance.map (·.gap.tokens)).sum + (r.kindCounts.map (·.2)).sum = r.tokenCount := by
  have found : ((ofVocabulary drawing [.drawCards]).toOption.bind fun t =>
      (t.analyzeCorpus {} islands).toOption.map (·.kindCounts)) = some [(.drawCards, 3)] := by
    decide +kernel
  obtain ⟨t, accepted, found⟩ := Option.bind_eq_some_iff.1 found
  obtain ⟨r, analyzed, kinds⟩ := Option.map_eq_some_iff.1 found
  have accepted := Regex.Searcher.toOption_eq_some_iff.1 accepted
  have analyzed := Regex.Searcher.toOption_eq_some_iff.1 analyzed
  obtain ⟨-, -, reconciles, total⟩ := analyzeCorpus_reconciles analyzed
  exact ⟨t, r, accepted, analyzed, kinds, reconciles, total rfl⟩

end Tokenizer

end RulesText
