import RulesText.Gap.Repeat
import RulesText.Proofs.Gap.RepeatStates
import RulesText.Proofs.Gap.WordNumbers
import RulesText.Proofs.Sorting
import RulesText.Proofs.Text.Words

/-!
# The repeats of texts

The repeats that an automaton lists are the maximal repeats of the words of its texts, each once
and in order: by descending count, then by descending number of words, then by text.

## Main definitions

* `Repeat.Precedes`: a repeat comes before another one.
-/

namespace RulesText

open SuffixAutomaton (separator concatenate)

/-! ## The order of repeats -/

namespace Repeat

variable {q r : Repeat}

/-- `q` is more frequent than `r`; or as frequent and longer; or as frequent and as long, and its
text comes first. -/
def Precedes (q r : Repeat) : Prop :=
  r.count < q.count ∨
    (q.count = r.count ∧ (r.words < q.words ∨ (q.words = r.words ∧ q.text < r.text)))

theorem precedes_iff : q.Precedes r ↔ compare q r = .lt := by
  simp only [Precedes, compare, Ordering.then_eq_lt, Ordering.then_eq_eq, Nat.compare_eq_lt,
    Nat.compare_eq_eq, Text.compare_eq_lt_iff]
  grind

theorem text_eq_of_compare (h : compare q r = .eq) : q.text = r.text := by
  rw [compare, Ordering.then_eq_eq] at h
  exact Std.LawfulEqOrd.compare_eq_iff_eq.1 h.2

instance : Std.TransCmp compare :=
  have : Std.TransCmp fun q r : Repeat => Ord.compare r.count q.count :=
    @Std.TransCmp.opposite _ (compareOn Repeat.count) inferInstance
  have : Std.TransCmp fun q r : Repeat => Ord.compare r.words q.words :=
    @Std.TransCmp.opposite _ (compareOn Repeat.words) inferInstance
  have : Std.TransCmp fun q r : Repeat => Text.compare q.text r.text :=
    inferInstanceAs (Std.TransCmp (compareOn Repeat.text))
  inferInstanceAs (Std.TransCmp (compareLex (compareLex _ _) _))

theorem pairwise_isLE_sort (repeats : List Repeat) :
    (sort repeats).Pairwise fun q r => (compare q r).isLE :=
  Sorting.pairwise_isLE compare repeats

/-- Sorting the repeats of runs puts the runs in an order. -/
theorem exists_sort_map {α : Type} (f : α → Repeat) (l : List α) :
    ∃ order : List α, order.Perm l ∧ sort (l.map f) = order.map f :=
  Sorting.exists_map compare f l

/-- Sorted repeats with different texts are sorted strictly. -/
theorem pairwise_precedes {repeats : List Repeat} (distinct : (repeats.map (·.text)).Nodup)
    (sorted : repeats.Pairwise fun q r => (compare q r).isLE) : repeats.Pairwise Precedes :=
  have different := (List.pairwise_map.1 distinct).imp fun ne eq => ne (text_eq_of_compare eq)
  (Sorting.pairwise_lt different sorted).imp precedes_iff.2

theorem pairwise_precedes_sort {repeats : List Repeat} (h : (repeats.map (·.text)).Nodup) :
    (sort repeats).Pairwise Precedes :=
  pairwise_precedes (((List.mergeSort_perm repeats _).map _).nodup_iff.2 h)
    (pairwise_isLE_sort repeats)

end Repeat

/-! ## Listed repeats -/

/-- Where a partial function agrees with a total one, it maps a filtered list. -/
theorem filterMap_eq_map_filter {α β : Type} {f : α → Option β} {g : α → β} {l : List α}
    (h : ∀ a ∈ l, ∀ b, f a = some b → b = g a) :
    l.filterMap f = (l.filter fun a => (f a).isSome).map g := by
  induction l with
  | nil => rfl
  | cons a l ih =>
    have ih := ih fun a mem => h a (List.mem_cons_of_mem _ mem)
    cases eq : f a with
    | none => simp [eq, ih]
    | some b => simp [eq, ih, h a List.mem_cons_self b eq]

namespace SuffixAutomaton

theorem states_toList (a : SuffixAutomaton) :
    a.states.toList = (List.range a.states.size).map a.state := by
  refine List.ext_getElem (by simp) fun i h _ => ?_
  rw [Array.length_toList] at h
  simp [state, h]

end SuffixAutomaton

namespace WordAutomaton

/-- The states that have a repeat. -/
def repeating (wa : WordAutomaton) : List Nat :=
  wa.automaton.otherStates.filter fun v => (wa.repeatOf? (wa.automaton.state v)).isSome

section

variable {wa : WordAutomaton} {sequences : List (List Nat)} {run : Nat → List Nat} {v : Nat}
  (h : wa.automaton.Faithful (concatenate sequences) run)
  (counts : wa.automaton.CountsEnds (concatenate sequences) run)
  (clean : ∀ q ∈ sequences, separator ∉ q)

include h counts clean

theorem mem_repeating_iff : v ∈ wa.repeating ↔ v ∈ wa.automaton.otherStates ∧
    IsMaximalRepeat sequences (afterSeparator (run v)) ∧
    SameEnds (concatenate sequences) (afterSeparator (run v)) (run v) := by
  rw [repeating, List.mem_filter, Option.isSome_iff_exists]
  refine and_congr_right fun mem => ?_
  obtain ⟨ne, hv⟩ := SuffixAutomaton.mem_otherStates.1 mem
  simp only [repeatOf?_iff h counts rfl clean hv ne]
  exact ⟨fun ⟨_, max, same, _⟩ => ⟨max, same⟩, fun ⟨max, same⟩ => ⟨_, max, same, rfl⟩⟩

/-- Different states have different repeats. -/
theorem nodup_repeats : (wa.repeating.map fun v => afterSeparator (run v)).Nodup := by
  refine List.Nodup.map_on ?_ (SuffixAutomaton.nodup_otherStates.filter _)
  intro v mem_v u mem_u eq
  obtain ⟨other_v, -, same_v⟩ := (mem_repeating_iff h counts clean).1 mem_v
  obtain ⟨other_u, -, same_u⟩ := (mem_repeating_iff h counts clean).1 mem_u
  exact h.eq_of_sameEnds (SuffixAutomaton.mem_otherStates.1 other_v).2
    (SuffixAutomaton.mem_otherStates.1 other_u).2 (same_v.symm.trans (eq ▸ same_u))

/-- The states have all maximal repeats and no other runs. -/
theorem mem_repeats_iff {w : List Nat} :
    w ∈ wa.repeating.map (fun v => afterSeparator (run v)) ↔ IsMaximalRepeat sequences w := by
  rw [List.mem_map]
  constructor
  · rintro ⟨v, mem, rfl⟩
    exact ((mem_repeating_iff h counts clean).1 mem).2.1
  · intro max
    have occurs : 0 < occurrences (concatenate sequences) w := by
      rw [SuffixAutomaton.occurrences_concatenate (separator_notMem clean max) max.ne_nil]
      exact Nat.zero_lt_of_lt max.twice
    obtain ⟨v, hv, same⟩ := h.exists_state w (isInfix_of_occurrences_pos occurs)
    have longest := (h.describes v hv).isLongest
    have ne : v ≠ 0 := by
      rintro rfl
      have := longest.isSuffix same
      rw [h.run_zero] at this
      exact max.ne_nil (List.suffix_nil.1 this)
    have eq := afterSeparator_eq clean longest max same
    refine ⟨v, (mem_repeating_iff h counts clean).2 ⟨?_, ?_⟩, eq⟩
    · exact SuffixAutomaton.mem_otherStates.2 ⟨ne, hv⟩
    · rw [eq]
      exact ⟨max, same⟩

theorem filterMap_repeatOf? :
    (wa.automaton.states.toList.drop 1).filterMap wa.repeatOf? =
      (wa.repeating.map fun v => afterSeparator (run v)).map
        (wa.describe (concatenate sequences)) := by
  rw [SuffixAutomaton.states_toList, ← List.map_drop, List.filterMap_map, List.map_map]
  refine filterMap_eq_map_filter fun v mem r eq => ?_
  obtain ⟨ne, hv⟩ := SuffixAutomaton.mem_otherStates.1 mem
  exact ((repeatOf?_iff h counts rfl clean hv ne).1 eq).2.2

end

/-- The states of an automaton have the maximal repeats of its sequences, each once. -/
theorem exists_repeats {sequences : List (List Nat)} (clean : ∀ q ∈ sequences, separator ∉ q)
    (numbering : Numbering) :
    ∃ ws : List (List Nat), ws.Nodup ∧ (∀ w, w ∈ ws ↔ IsMaximalRepeat sequences w) ∧
      (ofSequences sequences numbering).maximalRepeats = Repeat.sort
        (ws.map ((ofSequences sequences numbering).describe (concatenate sequences))) := by
  obtain ⟨run, h, counts⟩ := SuffixAutomaton.exists_faithful_sumCounts (concatenate sequences)
  let wa := ofSequences sequences numbering
  have h : wa.automaton.Faithful (concatenate sequences) run := h
  refine ⟨wa.repeating.map fun v => afterSeparator (run v), nodup_repeats h counts clean,
    fun _ => mem_repeats_iff h counts clean, ?_⟩
  rw [maximalRepeats, filterMap_repeatOf? h counts clean]

end WordAutomaton

/-! ## From numbers back to words -/

namespace Numbering

variable {n : Numbering} {items : List (List Text)} {u : List Text} {w : List Nat}

theorem map_word_number (known : u ⊆ n.words) : (u.map n.number).map n.word = u := by
  rw [List.map_map]
  exact (List.map_congr_left fun x mem => word_number (known mem)).trans (List.map_id u)

variable (known : ∀ item ∈ items, item ⊆ n.words)

include known

theorem number_injective_items :
    ∀ item ∈ items, ∀ x ∈ item, ∀ y, n.number x = n.number y → x = y :=
  fun item mem _ mem_x _ => number_injective (known item mem mem_x)

theorem isMaximalRepeat_words (max : IsMaximalRepeat items u) : u ⊆ n.words := by
  obtain ⟨item, mem, inside⟩ := max.exists_isInfix
  exact List.Subset.trans inside.subset (known item mem)

/-- A maximal repeat of numbers is that of known words. -/
theorem map_number_word (max : IsMaximalRepeat (items.map (·.map n.number)) w) :
    (w.map n.word).map n.number = w := by
  obtain ⟨q, mem, inside⟩ := max.exists_isInfix
  obtain ⟨item, mem_item, rfl⟩ := List.mem_map.1 mem
  obtain ⟨u, part, rfl⟩ := List.infix_map_iff.1 inside
  rw [map_word_number (List.Subset.trans part.subset (known item mem_item))]

theorem isMaximalRepeat_word_iff (max : IsMaximalRepeat (items.map (·.map n.number)) w) :
    IsMaximalRepeat items (w.map n.word) := by
  rw [← IsMaximalRepeat.map_iff (number_injective_items known), map_number_word known max]
  exact max

end Numbering

/-- A run of words with its number of occurrences. -/
def Repeat.ofWords (items : List (List Text)) (w : List Text) : Repeat where
  text := Text.unwords w
  count := occurrencesIn items w
  words := w.length

namespace WordAutomaton

theorem describe_eq_ofWords {n : Numbering} {items : List (List Text)}
    (known : ∀ item ∈ items, item ⊆ n.words) {w : List Nat}
    (max : IsMaximalRepeat (items.map (·.map n.number)) w) (clean : separator ∉ w) :
    (ofSequences (items.map (·.map n.number)) n).describe
        (concatenate (items.map (·.map n.number))) w =
      Repeat.ofWords items (w.map n.word) := by
  have count : occurrences (concatenate (items.map (·.map n.number))) w =
      occurrencesIn items (w.map n.word) := by
    rw [SuffixAutomaton.occurrences_concatenate clean max.ne_nil,
      ← occurrencesIn_map (Numbering.number_injective_items known),
      Numbering.map_number_word known max]
  rw [describe, Repeat.ofWords, count, List.length_map]
  rfl

theorem ofTexts_eq (texts : List Text) : ∃ n : Numbering,
    (∀ item ∈ texts.map Text.words, item ⊆ n.words) ∧
      ofTexts texts = ofSequences ((texts.map Text.words).map (·.map n.number)) n := by
  obtain ⟨-, known, ids⟩ := ({} : Numbering).insertTexts_spec (texts.map Text.words)
  refine ⟨_, known, ?_⟩
  rw [← ids]
  rfl

/-- The maximal repeats of texts: each is listed once, with its number of occurrences inside
single texts. -/
theorem exists_maximalRepeats (texts : List Text) :
    ∃ ws : List (List Text), ws.Nodup ∧
      (∀ w, w ∈ ws ↔ IsMaximalRepeat (texts.map Text.words) w) ∧
      (ofTexts texts).maximalRepeats =
        Repeat.sort (ws.map (Repeat.ofWords (texts.map Text.words))) := by
  obtain ⟨n, known, eq⟩ := ofTexts_eq texts
  generalize texts.map Text.words = items at *
  have clean : ∀ q ∈ items.map (·.map n.number), separator ∉ q := by
    intro q mem separated
    obtain ⟨item, -, rfl⟩ := List.mem_map.1 mem
    obtain ⟨x, -, zero⟩ := List.mem_map.1 separated
    exact Numbering.number_ne_zero zero
  obtain ⟨ws, nodup, mem, list⟩ := exists_repeats clean n
  refine ⟨ws.map (·.map n.word), ?_, fun u => ?_, ?_⟩
  · refine nodup.map_on fun w mem_w v mem_v same => ?_
    rw [← Numbering.map_number_word known ((mem w).1 mem_w), same,
      Numbering.map_number_word known ((mem v).1 mem_v)]
  · rw [List.mem_map]
    constructor
    · rintro ⟨w, mem_w, rfl⟩
      exact Numbering.isMaximalRepeat_word_iff known ((mem w).1 mem_w)
    · intro max
      refine ⟨u.map n.number, (mem _).2 ?_, ?_⟩
      · exact (IsMaximalRepeat.map_iff (Numbering.number_injective_items known)).2 max
      · exact Numbering.map_word_number (Numbering.isMaximalRepeat_words known max)
  · rw [eq, list, List.map_map]
    congr 1
    refine List.map_congr_left fun w mem_w => ?_
    have max := (mem w).1 mem_w
    exact describe_eq_ofWords known max (separator_notMem clean max)

/-- A maximal repeat of the words of texts lies inside one of them. -/
theorem exists_text {texts : List Text} {w : List Text}
    (max : IsMaximalRepeat (texts.map Text.words) w) : ∃ t ∈ texts, w <:+: Text.words t := by
  obtain ⟨item, mem, part⟩ := max.exists_isInfix
  obtain ⟨t, mem_t, rfl⟩ := List.mem_map.1 mem
  exact ⟨t, mem_t, part⟩

/-- Different maximal repeats have different texts. -/
theorem nodup_text {texts : List Text} {ws : List (List Text)} (nodup : ws.Nodup)
    (max : ∀ w ∈ ws, IsMaximalRepeat (texts.map Text.words) w) :
    ((ws.map (Repeat.ofWords (texts.map Text.words))).map (·.text)).Nodup := by
  have areWords : ∀ w ∈ ws, ∀ x ∈ w, Text.IsWord x := by
    intro w mem x mem_x
    obtain ⟨t, -, part⟩ := exists_text (max w mem)
    exact Text.isWord_of_mem_words (part.subset mem_x)
  rw [List.map_map]
  exact nodup.map_on fun w mem_w v mem_v eq =>
    Text.unwords_inj (areWords w mem_w) (areWords v mem_v) eq

/-- The listed repeats of texts are their maximal repeats: each once, with its words and its
number of occurrences inside single texts, and in order. None reaches from one text into
another, and none is a proper part of another one with the same count. -/
theorem maximalRepeats_ofTexts (texts : List Text) :
    ∃ ws : List (List Text), ws.Nodup ∧
      (∀ w, w ∈ ws ↔ IsMaximalRepeat (texts.map Text.words) w) ∧
      (ofTexts texts).maximalRepeats = ws.map (Repeat.ofWords (texts.map Text.words)) ∧
      (ofTexts texts).maximalRepeats.Pairwise Repeat.Precedes ∧
      (∀ w ∈ ws, ∃ t ∈ texts, w <:+: Text.words t) ∧
      ∀ u ∈ ws, ∀ w ∈ ws, u <:+: w → occurrencesIn (texts.map Text.words) u =
        occurrencesIn (texts.map Text.words) w → u = w := by
  obtain ⟨ws, nodup, mem, list⟩ := exists_maximalRepeats texts
  obtain ⟨order, perm, sorted⟩ := Repeat.exists_sort_map (Repeat.ofWords _) ws
  have max : ∀ w, w ∈ order ↔ IsMaximalRepeat (texts.map Text.words) w :=
    fun w => perm.mem_iff.trans (mem w)
  refine ⟨order, perm.nodup_iff.2 nodup, max, list.trans sorted, ?_, ?_, ?_⟩
  · rw [list]
    exact Repeat.pairwise_precedes_sort (nodup_text nodup fun w => (mem w).1)
  · exact fun w mem_w => exists_text ((max w).1 mem_w)
  · intro u mem_u w _ part same
    exact ((max u).1 mem_u).eq_of_isInfix part same

end WordAutomaton

end RulesText
