import Mathlib.Algebra.Order.Ring.Nat
import Mathlib.Data.List.Pairwise
import RulesText.Analysis.Corpus
import RulesText.Proofs.Gap.Runs
import RulesText.Proofs.Text.Lines

/-!
# Occurrences in the text of their card

The text of a card is its lines with line feeds between them, and no line has a line feed inside.
So an occurrence is found in the card's text at its span in the line, moved by what the lines
before take, and its excerpt ends where the line does.

## Main definitions

* `LineAnalysis.IsSound`: a line without line feeds and gaps that lie in it in order.
* `LineAnalysis.breadth`: the bytes that lines take in front of the next one.
* `Occurrence.Precedes`: an occurrence ends before another one begins, or is in an earlier card.
-/

namespace RulesText

/-- In the text of its card an occurrence is found with the rest of its line. -/
theorem Occurrence.excerpt?_eq_some {e : Occurrence} {before after : List Text}
    {front back : Text} (hf : '\n' ∉ front) (hb : '\n' ∉ back)
    (absolute : e.absolute = ⟨Text.byteSize (Text.closed before ++ front),
      Text.byteSize (Text.closed before ++ front) + Text.byteSize e.gap.text⟩) :
    e.excerpt? (Text.join ['\n'] (before ++ (front ++ e.gap.text ++ back) :: after)) =
      some ⟨front, e.gap.text, back⟩ := by
  have text : Text.join ['\n'] (before ++ (front ++ e.gap.text ++ back) :: after) =
      (Text.closed before ++ front) ++ (e.gap.text ++ (back ++ Text.opened after)) := by
    rw [Text.join_lines]
    simp only [List.append_assoc]
  have behind : '\n' ∉ front.reverse := by simpa using hf
  rw [text, excerpt?, absolute]
  simp only [Nat.not_lt.2 (Nat.le_add_right _ _), if_false, Text.splitAt?_append,
    Nat.add_sub_cancel_left, bne_self_eq_false, Bool.false_eq_true, Option.bind_eq_bind,
    Option.bind_some, Option.pure_def, List.reverse_append,
    Text.takeWhile_append_of_notMem hb, Text.takeWhile_append_of_notMem behind,
    Text.takeWhile_opened, Text.takeWhile_reverse_closed, List.append_nil, List.reverse_reverse]

/-! ## Lines and cards -/

/-- The line has no line feed inside, and its gaps are stretches of it in order. -/
structure LineAnalysis.IsSound (l : LineAnalysis) : Prop where
  unbroken : '\n' ∉ l.text
  fits : ∀ g ∈ l.gaps, g.Fits l.text
  inOrder : l.gaps.Pairwise fun a b => a.span.stop ≤ b.span.start

/-- The text of the card is made of its lines, and these are sound. -/
structure CardAnalysis.IsSound (card : CardAnalysis) : Prop where
  text : card.text = Text.join ['\n'] (card.lines.map (·.text))
  lines : ∀ l ∈ card.lines, l.IsSound

/-- The number of bytes that lines take with a line feed behind each. -/
def LineAnalysis.breadth (lines : List LineAnalysis) : Nat :=
  Text.byteSize (Text.closed (lines.map (·.text)))

theorem LineAnalysis.breadth_cons (l : LineAnalysis) (lines : List LineAnalysis) :
    breadth (l :: lines) = Text.byteSize l.text + 1 + breadth lines := by
  have : '\n'.utf8Size = 1 := rfl
  simp [breadth, Text.closed, this, Nat.add_assoc]

/-- The occurrence `a` is in an earlier card than `b`, or ends before `b` begins. -/
def Occurrence.Precedes (a b : Occurrence) : Prop :=
  a.card < b.card ∨ a.card = b.card ∧ a.absolute.stop ≤ b.absolute.start

namespace CorpusAnalysis

open LineAnalysis (breadth breadth_cons)

variable {card line offset : Nat} {lines : List LineAnalysis} {l : LineAnalysis}
  {e : Occurrence} {cards : List CardAnalysis}

/-- An occurrence is a gap of some line, moved by what the lines before take. -/
theorem mem_gapsOfLines (mem : e ∈ gapsOfLines card line offset lines) :
    ∃ before l after, lines = before ++ l :: after ∧ e.card = card ∧
      e.line = line + before.length ∧ e.gap ∈ l.gaps ∧
      e.absolute = e.gap.span.shift (offset + breadth before) := by
  induction lines generalizing line offset with
  | nil => simp [gapsOfLines] at mem
  | cons l lines ih =>
    rw [gapsOfLines] at mem
    rcases List.mem_append.1 mem with mem | mem
    · obtain ⟨g, gap_mem, rfl⟩ := List.mem_map.1 mem
      exact ⟨[], l, lines, rfl, rfl, rfl, gap_mem, rfl⟩
    · obtain ⟨before, l', after, rfl, card, line, mem, absolute⟩ := ih mem
      refine ⟨l :: before, l', after, rfl, card, ?_, mem, ?_⟩
      · rw [line, List.length_cons]
        omega
      · rw [absolute, breadth_cons]
        congr 1
        omega

theorem pairwise_gapsOfLines (sound : ∀ l ∈ lines, l.IsSound) :
    (gapsOfLines card line offset lines).Pairwise fun a b =>
      a.absolute.stop ≤ b.absolute.start := by
  induction lines generalizing line offset with
  | nil => exact .nil
  | cons l lines ih =>
    obtain ⟨first, sound⟩ := List.forall_mem_cons.1 sound
    refine List.pairwise_append.2 ⟨?_, ih sound, fun a ha b hb => ?_⟩
    · exact List.pairwise_map.2 (first.inOrder.imp fun le => Nat.add_le_add_left le offset)
    · obtain ⟨g, mem, rfl⟩ := List.mem_map.1 ha
      obtain ⟨before, l', after, -, -, -, -, absolute⟩ := mem_gapsOfLines hb
      have := Text.stop_le_of_slice? (first.fits g mem).slice
      rw [absolute, Span.stop_shift, Span.start_shift]
      omega

theorem mem_concordanceOf (mem : e ∈ concordanceOf cards) :
    ∃ card, cards[e.card]? = some card ∧ e ∈ gapsOfLines e.card 0 0 card.lines := by
  obtain ⟨⟨card, place⟩, place_mem, mem⟩ := List.mem_flatMap.1 mem
  obtain ⟨-, -, -, -, rfl, -⟩ := mem_gapsOfLines mem
  exact ⟨card, List.mem_zipIdx_iff_getElem?.1 place_mem, mem⟩

theorem pairwise_concordanceOf (sound : ∀ card ∈ cards, card.IsSound) :
    (concordanceOf cards).Pairwise Occurrence.Precedes := by
  have places : cards.zipIdx.Pairwise fun a b => a.2 < b.2 := by
    rw [← List.pairwise_map (f := Prod.snd), List.zipIdx_map_snd]
    exact List.pairwise_lt_range'
  refine List.pairwise_flatMap.2 ⟨fun ⟨card, place⟩ mem => ?_, places.imp ?_⟩
  · have card_mem := List.mem_of_getElem? (List.mem_zipIdx_iff_getElem?.1 mem)
    refine (pairwise_gapsOfLines (sound card card_mem).lines).imp_of_mem fun ha hb le => ?_
    obtain ⟨-, -, -, -, same_a, -⟩ := mem_gapsOfLines ha
    obtain ⟨-, -, -, -, same_b, -⟩ := mem_gapsOfLines hb
    exact .inr ⟨same_a.trans same_b.symm, le⟩
  · intro p q lt a ha b hb
    obtain ⟨-, -, -, -, same_a, -⟩ := mem_gapsOfLines ha
    obtain ⟨-, -, -, -, same_b, -⟩ := mem_gapsOfLines hb
    exact .inl (same_a ▸ same_b ▸ lt)

/-- Every occurrence has an excerpt: its gap with the rest of its line. -/
theorem exists_excerpt (sound : ∀ card ∈ cards, card.IsSound) (mem : e ∈ concordanceOf cards) :
    e.absolute.start < e.absolute.stop ∧
      ∃ card l x, cards[e.card]? = some card ∧ card.lines[e.line]? = some l ∧
        e.excerpt? card.text = some x ∧ x.middle = e.gap.text ∧
        x.before ++ x.middle ++ x.after = l.text ∧
        Text.byteSize x.before = e.gap.span.start := by
  obtain ⟨card, at_place, mem⟩ := mem_concordanceOf mem
  obtain ⟨text, all⟩ := sound card (List.mem_of_getElem? at_place)
  obtain ⟨before, l, after, lines, -, line, mem, absolute⟩ := mem_gapsOfLines mem
  obtain ⟨unbroken, fits, -⟩ := all l (by simp [lines])
  obtain ⟨nonempty, slice⟩ := fits e.gap mem
  obtain ⟨front, back, eq, span⟩ := Text.slice?_eq_some_iff.1 slice
  have not_mem : '\n' ∉ front ∧ '\n' ∉ back := by
    rw [eq] at unbroken
    simp only [List.mem_append, not_or] at unbroken
    exact ⟨unbroken.1.1, unbroken.2⟩
  refine ⟨?_, card, l, ⟨front, e.gap.text, back⟩, at_place, ?_, ?_, rfl, eq.symm, ?_⟩
  · rw [absolute]
    exact Nat.add_lt_add_left nonempty _
  · simp [lines, line]
  · rw [text, lines, List.map_append, List.map_cons, eq]
    refine Occurrence.excerpt?_eq_some not_mem.1 not_mem.2 ?_
    rw [absolute, span, Span.shift, Nat.zero_add, breadth, Text.byteSize_append, Nat.add_assoc]
  · rw [span]

end CorpusAnalysis

end RulesText
