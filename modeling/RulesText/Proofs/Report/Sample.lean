import RulesText.Proofs.Analysis.Tallies
import RulesText.Proofs.Gap.WholeGaps
import RulesText.Proofs.Text.WordRuns
import RulesText.Report.Corpus

/-!
# Samples of repeats

A repeat is shown inside the first gap whose text holds the text of the repeat. That need not be a
gap with the words of the repeat: its text can be found inside longer words, and blanks other than
a space between the words hide it.

## Main definitions

* `CorpusAnalysis.ShowsRun`: a gap has the words of a repeat.
* `CorpusAnalysis.SampleOf`: what holds of the sample of a repeat.

## Main statements

* `Tokenizer.sampleOf_of_analyzeCorpus`: which samples show their repeat.
-/

namespace RulesText

open Text (words unwords isBlank)

/-- The gap has the words of the repeat side by side, as whole words. -/
def Occurrence.ShowsRun (e : Occurrence) (f : Repeat) : Prop :=
  words f.text <:+: words e.gap.text

/-- The gap has the text of the repeat, maybe inside longer words. -/
def Occurrence.HoldsText (e : Occurrence) (f : Repeat) : Prop :=
  f.text <:+: e.gap.text

theorem Occurrence.Precedes.asymm {a b : Occurrence} (ha : a.absolute.start < a.absolute.stop)
    (hb : b.absolute.start < b.absolute.stop) (before : a.Precedes b) : ¬b.Precedes a := by
  intro after
  rcases before with lt | ⟨same, le⟩
  · rcases after with lt' | ⟨same', -⟩
    · exact Nat.lt_asymm lt lt'
    · exact Nat.ne_of_lt lt same'.symm
  · rcases after with lt' | ⟨-, le'⟩
    · exact Nat.ne_of_lt lt' same.symm
    · omega

namespace CorpusAnalysis

variable {r : CorpusAnalysis} {f : Repeat} {e : Occurrence}

/-- What is known about the sample of a repeat. -/
structure SampleOf (r : CorpusAnalysis) (f : Repeat) : Prop where
  occurs : ∃ e ∈ r.concordance, e.ShowsRun f
  /-- Only blanks other than spaces hide the words of a repeat. -/
  holdsText : ∀ e ∈ r.concordance, e.ShowsRun f → (∀ c ∈ e.gap.text, isBlank c → c = ' ') →
    e.HoldsText f
  isSome_iff : (r.sample? f).isSome ↔ ∃ e ∈ r.concordance, e.HoldsText f
  /-- Every sample has an excerpt, and in it the words of the repeat, of which the first one may
  have more characters before it and the last one behind it. -/
  excerpt : ∀ e, r.sample? f = some e → (∃ x, r.excerpt? e = some x ∧ x.middle = e.gap.text) ∧
    ∃ before after : Text, (∀ c ∈ before ++ after, isBlank c = false) ∧
      words (before ++ f.text ++ after) <:+: words e.gap.text
  /-- The sample shows the words of the repeat if some gap has both these and the text, and all
  gaps that have the text alone come later. -/
  showsRun_iff : (∃ e x, r.sample? f = some e ∧ r.excerpt? e = some x ∧ e.ShowsRun f) ↔
    ∃ e ∈ r.concordance, e.HoldsText f ∧ e.ShowsRun f ∧
      ∀ e' ∈ r.concordance, e'.HoldsText f → ¬e'.ShowsRun f → e.Precedes e'

theorem mem_of_sample? (found : r.sample? f = some e) : e ∈ r.concordance ∧ e.HoldsText f := by
  rw [sample?] at found
  exact ⟨List.mem_of_find?_eq_some found,
    Text.isSome_cut?_iff.1 (by simpa using List.find?_some found)⟩

theorem isSome_sample?_iff : (r.sample? f).isSome ↔ ∃ e ∈ r.concordance, e.HoldsText f := by
  simp only [sample?, List.find?_isSome, Text.isSome_cut?_iff, Occurrence.HoldsText]

/-- All occurrences before the sample do not have the text. -/
theorem eq_or_precedes_of_sample? (order : r.concordance.Pairwise Occurrence.Precedes)
    (found : r.sample? f = some e) {e' : Occurrence} (mem : e' ∈ r.concordance)
    (holds : e'.HoldsText f) : e' = e ∨ e.Precedes e' := by
  obtain ⟨-, front, back, eq, none⟩ := List.find?_eq_some_iff_append.1 found
  rw [eq] at mem order
  rcases List.mem_append.1 mem with early | mem
  · have absent := none e' early
    rw [Text.isSome_cut?_iff.2 holds] at absent
    contradiction
  · rcases List.mem_cons.1 mem with same | later
    · exact .inl same
    · exact .inr (List.rel_of_pairwise_cons (List.pairwise_append.1 order).2.1 later)

section

variable {cards : List CardAnalysis} (sound : ∀ card ∈ cards, card.IsSound)

include sound

theorem exists_excerpt_of_sample? (found : (ofCards cards).sample? f = some e) :
    ∃ x, (ofCards cards).excerpt? e = some x ∧ x.middle = e.gap.text := by
  obtain ⟨mem, -⟩ := mem_of_sample? found
  obtain ⟨-, card, -, x, at_place, -, cut, middle, -⟩ := exists_excerpt sound mem
  exact ⟨x, Option.bind_eq_some_iff.2 ⟨card, at_place, cut⟩, middle⟩

theorem exists_showsRun_iff :
    (∃ e x, (ofCards cards).sample? f = some e ∧ (ofCards cards).excerpt? e = some x ∧
      e.ShowsRun f) ↔
    ∃ e ∈ concordanceOf cards, e.HoldsText f ∧ e.ShowsRun f ∧
      ∀ e' ∈ concordanceOf cards, e'.HoldsText f → ¬e'.ShowsRun f → e.Precedes e' := by
  have order := pairwise_concordanceOf sound
  constructor
  · rintro ⟨e, x, found, -, shows⟩
    obtain ⟨mem, holds⟩ := mem_of_sample? found
    refine ⟨e, mem, holds, shows, fun e' mem' holds' hides => ?_⟩
    rcases eq_or_precedes_of_sample? order found mem' holds' with rfl | later
    · exact absurd shows hides
    · exact later
  · rintro ⟨e, mem, holds, shows, others⟩
    obtain ⟨first, found⟩ := Option.isSome_iff_exists.1
      ((isSome_sample?_iff (r := ofCards cards)).2 ⟨e, mem, holds⟩)
    obtain ⟨mem', holds'⟩ := mem_of_sample? found
    obtain ⟨x, cut, -⟩ := exists_excerpt_of_sample? sound found
    refine ⟨first, x, found, cut, ?_⟩
    by_contra hides
    rcases eq_or_precedes_of_sample? order found mem holds with rfl | later
    · exact hides shows
    · exact (others first mem' holds' hides).asymm (exists_excerpt sound mem).1
        (exists_excerpt sound mem').1 later

/-- The samples of an analysis of which no gap has two spaces side by side. -/
theorem sampleOf_ofCards (single : ∀ e ∈ concordanceOf cards, ¬[' ', ' '] <:+: e.gap.text)
    (mem : f ∈ (ofCards cards).repeats) : (ofCards cards).SampleOf f := by
  obtain ⟨w, ne, text, e, occurs, run⟩ := Repeat.exists_run_of_mem mem
  have own : words f.text = w := by
    rw [text, Text.words_unwords fun x inside => Text.isWord_of_mem_words (run.subset inside)]
  refine ⟨⟨e, occurs, by rwa [Occurrence.ShowsRun, own]⟩, fun e' mem' shows spaces => ?_,
    isSome_sample?_iff, fun e' found => ⟨exists_excerpt_of_sample? sound found, ?_⟩,
    exists_showsRun_iff sound⟩
  · rw [Occurrence.ShowsRun, own] at shows
    rw [Occurrence.HoldsText, text]
    exact Text.isInfix_unwords_of_words shows ne spaces (single e' mem')
  · exact Text.exists_words_around (mem_of_sample? found).2

end

end CorpusAnalysis

namespace Tokenizer

variable {v : Vocabulary} {priority : List Kind} {t : Tokenizer} {o : Options}
  {items : List CardItem} {r : CorpusAnalysis}

/-- No gap has two spaces side by side, since no line in normal form has. -/
theorem singleSpaces_of_mem_concordance (h : ofVocabulary v priority = .ok t)
    (ok : t.analyzeCorpus o items = .ok r) {e : Occurrence} (mem : e ∈ r.concordance) :
    ¬[' ', ' '] <:+: e.gap.text := by
  obtain ⟨eq, analyzed⟩ := of_analyzeCorpus ok
  rw [eq] at mem
  obtain ⟨card, at_place, mem⟩ := CorpusAnalysis.mem_concordanceOf mem
  obtain ⟨item, -, ok⟩ := analyzed card (List.mem_of_getElem? at_place)
  obtain ⟨before, l, after, lines, -, -, gap, -⟩ := CorpusAnalysis.mem_gapsOfLines mem
  have listed : l ∈ card.lines := by simp [lines]
  have normal : l.text ∈ Card.normalLines item.name item.text o.stripReminders :=
    (of_analyzeCard ok).1 ▸ List.mem_map_of_mem listed
  have fits := ((isSound_of_analyzeCard h ok).lines l listed).fits e.gap gap
  obtain ⟨front, back, eq, -⟩ := Text.slice?_eq_some_iff.1 fits.slice
  exact fun twice => (Card.isNormalLine_of_mem normal).singleSpaces
    (twice.trans ⟨front, back, eq.symm⟩)

/-- The sample of a repeat, for every repeat of every corpus. -/
theorem sampleOf_of_analyzeCorpus (h : ofVocabulary v priority = .ok t)
    (ok : t.analyzeCorpus o items = .ok r) : ∀ f ∈ r.repeats, r.SampleOf f := by
  intro f mem
  obtain ⟨eq, analyzed⟩ := of_analyzeCorpus ok
  have single := fun e (mem : e ∈ r.concordance) => singleSpaces_of_mem_concordance h ok mem
  rw [eq] at mem single ⊢
  refine CorpusAnalysis.sampleOf_ofCards (fun card mem => ?_) single mem
  obtain ⟨item, -, ok⟩ := analyzed card mem
  exact isSound_of_analyzeCard h ok

/-- A word, and before it a longer word that holds it. -/
def carts : List CardItem :=
  [⟨"Ox", "cartful"⟩, ⟨"Elk", "art"⟩, ⟨"Asp", "art"⟩]

theorem exists_carts : ∃ t r f e, ofVocabulary [] [] = .ok t ∧ t.analyzeCorpus {} carts = .ok r ∧
    f ∈ r.repeats ∧ f.text = "art" ∧ r.sample? f = some e ∧ e.gap.text = "cartful" := by
  have check : (ofVocabulary [] []).toOption.any fun t =>
      (t.analyzeCorpus {} carts).toOption.any fun r =>
        r.concordance.texts == ["cartful".toList, "art".toList, "art".toList] := by
    decide +kernel
  obtain ⟨t, accepted, check⟩ := (Option.any_eq_true _ _).1 check
  obtain ⟨r, analyzed, check⟩ := (Option.any_eq_true _ _).1 check
  have texts := beq_iff_eq.1 check
  have analyzed := Regex.Searcher.toOption_eq_some_iff.1 analyzed
  obtain ⟨f, mem, text⟩ : ∃ f ∈ r.repeats, f.text = "art" := by
    have occurs : "art".toList ∈ r.concordance.texts := by simp [texts]
    rw [(of_analyzeCorpus analyzed).1] at occurs ⊢
    exact Repeat.exists_mem_of_words_ne_nil occurs (by decide)
  have first : (r.sample? f).map (·.gap.text) = some "cartful".toList := by
    have found := List.find?_map (f := fun e : Occurrence => e.gap.text)
      (p := fun t => (Text.cut? f.text t).isSome) (l := r.concordance)
    rw [CorpusAnalysis.sample?]
    refine found.symm.trans ?_
    change r.concordance.texts.find? _ = _
    rw [texts, text]
    decide
  obtain ⟨e, sample, word⟩ := Option.map_eq_some_iff.1 first
  exact ⟨t, r, f, e, Regex.Searcher.toOption_eq_some_iff.1 accepted, analyzed, mem, text, sample,
    word⟩

theorem sampleOf_carts : ∃ t r f e x, ofVocabulary [] [] = .ok t ∧
    t.analyzeCorpus {} carts = .ok r ∧ f ∈ r.repeats ∧ f.text = "art" ∧ r.sample? f = some e ∧
    r.excerpt? e = some x ∧ x.middle = "cartful" ∧ r.SampleOf f := by
  obtain ⟨t, r, f, e, accepted, analyzed, mem, text, sample, word⟩ := exists_carts
  have sampleOf := sampleOf_of_analyzeCorpus accepted analyzed f mem
  obtain ⟨⟨x, cut, middle⟩, -⟩ := sampleOf.excerpt e sample
  exact ⟨t, r, f, e, x, accepted, analyzed, mem, text, sample, cut, middle.trans word, sampleOf⟩

/-- The sample of the word is the longer one. -/
theorem not_showsRun_carts : ∃ t r f, ofVocabulary [] [] = .ok t ∧
    t.analyzeCorpus {} carts = .ok r ∧ f ∈ r.repeats ∧
    ¬∃ e x, r.sample? f = some e ∧ r.excerpt? e = some x ∧ e.ShowsRun f := by
  obtain ⟨t, r, f, e, accepted, analyzed, mem, text, sample, word⟩ := exists_carts
  refine ⟨t, r, f, accepted, analyzed, mem, ?_⟩
  rintro ⟨e', x, sample', -, shows⟩
  obtain rfl := Option.some.inj (sample.symm.trans sample')
  rw [Occurrence.ShowsRun, text, word] at shows
  have same : words "art" = ["art".toList] ∧ words "cartful" = ["cartful".toList] := by decide
  rw [same.1, same.2] at shows
  have inside := shows.subset (List.mem_singleton_self _)
  simp at inside

end Tokenizer

end RulesText
