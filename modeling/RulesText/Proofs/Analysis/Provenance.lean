import RulesText.Proofs.Card.NormalForm
import RulesText.Proofs.Gap.Excerpts
import RulesText.Proofs.LexiconEntry
import RulesText.Proofs.Tokenizer.Tokenization

/-!
# Where the gaps of a corpus are from

The lines of a card in normal form have no line feeds, the tokens of a line cover stretches of it
in order, and so every gap that an analysis of a corpus lists is found in the text of its card,
with the rest of its line around it.
-/

namespace RulesText

namespace Tokenizer

variable {v : Vocabulary} {priority : List Kind} {t : Tokenizer} {o : Options} {line : Text}
  {tokens : List Token}

theorem Covers.isStretch (h : Covers line tokens) :
    ∀ token ∈ tokens, token.span.IsStretch line := by
  intro token mem
  obtain ⟨before, x, inner, after, eq, -, span⟩ := h.exists_text token mem
  rw [Text.byteSize_append] at span
  refine ⟨?_, x :: inner, Text.slice?_eq_some_iff.2 ⟨before, after, eq, span⟩⟩
  have := x.utf8Size_pos
  simp only [span, Text.byteSize_cons]
  omega

/-- The analysis of a line has its tokens, their coverage and their gaps. -/
theorem of_analyzeLine {l : LineAnalysis} (ok : t.analyzeLine o line = .ok l) :
    l.text = line ∧ l.tokens = t.tokenize line ∧ l.coverage = Coverage.ofTokens l.tokens ∧
      l.gaps = Gap.ofTokens line o.leastRun .lineStart l.tokens := by
  obtain ⟨captures, ok⟩ : ∃ captures, (do
      let gaps ← Gap.find line (t.tokenize line) o.leastRun
      return (⟨line, t.tokenize line, captures, Coverage.ofTokens (t.tokenize line), gaps⟩ :
        LineAnalysis)) = Except.ok l := by
    rw [analyzeLine] at ok
    cases asked : o.captures <;> rw [asked] at ok <;> obtain ⟨captures, -, ok⟩ := bind_eq_ok.1 ok
    · exact ⟨captures, ok⟩
    · exact ⟨captures, ok⟩
  obtain ⟨gaps, found, eq⟩ := bind_eq_ok.1 ok
  obtain ⟨_, -, eq'⟩ := bind_eq_ok.1 found
  obtain rfl := Except.ok.inj eq'
  obtain rfl := Except.ok.inj eq
  exact ⟨rfl, rfl, rfl, rfl⟩

/-- The analysis of a corpus is made of the analyses of its cards. -/
theorem of_analyzeCorpus {items : List CardItem} {r : CorpusAnalysis}
    (ok : t.analyzeCorpus o items = .ok r) : r = CorpusAnalysis.ofCards r.cards ∧
      ∀ card ∈ r.cards, ∃ item ∈ items, t.analyzeCard o item = .ok card := by
  obtain ⟨_, -, ok⟩ := bind_eq_ok.1 ok
  obtain ⟨cards, analyzed, eq⟩ := bind_eq_ok.1 ok
  obtain rfl := Except.ok.inj eq
  exact ⟨rfl, fun card mem => exists_of_forall₂ (mapM_eq_ok.1 analyzed).flip mem⟩

section

variable (h : ofVocabulary v priority = .ok t)

include h

theorem isSound_of_analyzeLine {l : LineAnalysis} (unbroken : '\n' ∉ line)
    (ok : t.analyzeLine o line = .ok l) : l.text = line ∧ l.IsSound := by
  obtain ⟨rfl, tokens, -, gaps⟩ := of_analyzeLine ok
  have covers := (reads_tokenize h l.text).covers (takesText_candidates h l.text)
  rw [← tokens] at covers
  have inOrder : Token.InOrder l.tokens := covers.pairwise
  refine ⟨rfl, unbroken, ?_, ?_⟩
  · exact gaps ▸ fun g => Gap.fits_of_mem inOrder covers.isStretch
  · exact gaps ▸ Gap.pairwise_ofTokens inOrder

theorem isSound_of_analyzeCard {item : CardItem} {card : CardAnalysis}
    (ok : t.analyzeCard o item = .ok card) : card.IsSound := by
  obtain ⟨lines, analyzed, eq⟩ := bind_eq_ok.1 ok
  obtain rfl := Except.ok.inj eq
  have sound : List.Forall₂ (fun line (l : LineAnalysis) => l.text = line ∧ l.IsSound)
      (Card.normalLines item.name item.text o.stripReminders) lines :=
    (List.forall₂_and_left _ _ |>.2 ⟨fun _ mem => (Card.isNormalLine_of_mem mem).noFeed,
      mapM_eq_ok.1 analyzed⟩).imp fun line l both => isSound_of_analyzeLine h both.1 both.2
  constructor
  · refine congrArg (Text.join _) ?_
    refine List.forall₂_eq_eq_eq ▸ List.forall₂_map_right_iff.2 (sound.imp ?_)
    exact fun line l both => both.1.symm
  · intro l mem
    obtain ⟨line, -, -, sound⟩ := exists_of_forall₂ sound.flip mem
    exact sound

/-- Every occurrence of an analysis is found again in its card: its excerpt has the gap's text
inside the line it is from, at its place in that line. The occurrences come in the order of the
cards and of their places, and those of one card do not overlap. -/
theorem analyzeCorpus_traces {items : List CardItem} {r : CorpusAnalysis}
    (ok : t.analyzeCorpus o items = .ok r) :
    (∀ e ∈ r.concordance, ∃ card l x, r.cards[e.card]? = some card ∧
      card.lines[e.line]? = some l ∧ r.excerpt? e = some x ∧ x.middle = e.gap.text ∧
      x.before ++ x.middle ++ x.after = l.text ∧ Text.byteSize x.before = e.gap.span.start) ∧
    (r.concordance.Pairwise fun a b =>
      a.card < b.card ∨ a.card = b.card ∧ a.absolute.start < b.absolute.start) ∧
    r.concordance.Pairwise fun a b => a.card = b.card → a.absolute.stop ≤ b.absolute.start := by
  obtain ⟨_, -, ok⟩ := bind_eq_ok.1 ok
  obtain ⟨cards, analyzed, eq⟩ := bind_eq_ok.1 ok
  obtain rfl := Except.ok.inj eq
  have sound : ∀ card ∈ cards, card.IsSound := fun card mem => by
    obtain ⟨item, -, same⟩ := exists_of_forall₂ (mapM_eq_ok.1 analyzed).flip mem
    exact isSound_of_analyzeCard h same
  have order := CorpusAnalysis.pairwise_concordanceOf sound
  refine ⟨fun e mem => ?_, order.imp_of_mem fun {a b} ha _ le => ?_, order.imp fun {a b} le => ?_⟩
  · obtain ⟨-, card, l, x, at_place, line, found, spec⟩ :=
      CorpusAnalysis.exists_excerpt sound mem
    refine ⟨card, l, x, at_place, line, ?_, spec⟩
    exact Option.bind_eq_some_iff.2 ⟨card, at_place, found⟩
  · have nonempty := (CorpusAnalysis.exists_excerpt sound ha).1
    exact le.imp id fun ⟨same, le⟩ => ⟨same, Nat.lt_of_lt_of_le nonempty le⟩
  · intro same
    rcases le with lt | ⟨-, le⟩
    · omega
    · exact le

end

/-- Two cards, one of them with an empty line, runs of blanks and its own name. -/
def islands : List CardItem :=
  [⟨"Opt", "Scry 1.\nDraw a card."⟩, ⟨"Island", "Flying\n\n Draw two  é, then draw\tIsland."⟩]

theorem traces_islands : ∃ t r e x, ofVocabulary drawing [.drawCards] = .ok t ∧
    t.analyzeCorpus {} islands = .ok r ∧ e ∈ r.concordance ∧ e.line = 2 ∧
    e.absolute = ⟨13, 25⟩ ∧ r.excerpt? e = some x ∧ x.middle = "two é, then" ∧
    Text.byteSize x.before = 5 := by
  have found : ((ofVocabulary drawing [.drawCards]).toOption.bind fun t =>
      (t.analyzeCorpus {} islands).toOption.bind fun r =>
        r.concordance.find? (·.line == 2)) =
      some ⟨1, 2, ⟨13, 25⟩, ⟨"two é, then", ⟨5, 17⟩, 4, .kind .drawCards, .kind .drawCards⟩⟩ := by
    decide +kernel
  obtain ⟨t, accepted, found⟩ := Option.bind_eq_some_iff.1 found
  obtain ⟨r, analyzed, found⟩ := Option.bind_eq_some_iff.1 found
  have accepted := Regex.Searcher.toOption_eq_some_iff.1 accepted
  have analyzed := Regex.Searcher.toOption_eq_some_iff.1 analyzed
  have mem := List.mem_of_find?_eq_some found
  obtain ⟨card, l, x, -, -, excerpt, middle, -, before⟩ :=
    (analyzeCorpus_traces accepted analyzed).1 _ mem
  exact ⟨t, r, _, x, accepted, analyzed, mem, rfl, rfl, excerpt, middle, before⟩

end Tokenizer

end RulesText
