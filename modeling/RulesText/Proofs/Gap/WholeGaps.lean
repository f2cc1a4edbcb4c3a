import RulesText.Proofs.Gap.Repeats
import RulesText.Proofs.Tally

/-!
# Repeats and whole gaps

A whole gap whose words occur twice is a maximal repeat: where it stands as a gap of its own, no
word follows it and none comes before it. So the gaps that are added to the maximal repeats occur
once, and the number of gaps with their words is the number of their occurrences.
-/

namespace RulesText

section

variable {α : Type} [DecidableEq α] {items : List (List α)} {s w u : List α}

theorem occurrences_self (ne : w ≠ []) : 0 < occurrences w w :=
  occurrences_pos_of_isInfix ne List.infix_rfl

theorem occurrences_eq_zero_of_length_lt (lt : s.length < w.length) : occurrences s w = 0 := by
  by_contra ne
  have := (isInfix_of_occurrences_pos (Nat.pos_of_ne_zero ne)).length_le
  omega

/-- A longer run occurs less often if it does not fit into a sequence that has the shorter one. -/
theorem occurrencesIn_lt (part : u <:+: w) (ne : u ≠ []) (mem : s ∈ items)
    (inside : 0 < occurrences s u) (short : s.length < w.length) :
    occurrencesIn items w < occurrencesIn items u := by
  obtain ⟨front, back, rfl⟩ := List.append_of_mem mem
  have fits : occurrences s w < occurrences s u := by
    rw [occurrences_eq_zero_of_length_lt short]
    exact inside
  have before := occurrencesIn_le_of_isInfix part ne front
  have after := occurrencesIn_le_of_isInfix part ne back
  simp only [occurrencesIn, List.map_append, List.map_cons, List.sum_append, List.sum_cons] at *
  omega

/-- A whole sequence that occurs twice is a maximal repeat. -/
theorem IsMaximalRepeat.of_mem (mem : w ∈ items) (ne : w ≠ [])
    (twice : 2 ≤ occurrencesIn items w) : IsMaximalRepeat items w where
  ne_nil := ne
  twice := twice
  after x := occurrencesIn_lt ⟨[], [x], by simp⟩ ne mem (occurrences_self ne) (by simp)
  before x := occurrencesIn_lt ⟨[x], [], by simp⟩ ne mem (occurrences_self ne) (by simp)

theorem count_le_occurrencesIn [BEq (List α)] [LawfulBEq (List α)] (ne : w ≠ [])
    (items : List (List α)) : items.count w ≤ occurrencesIn items w := by
  induction items with
  | nil => exact Nat.zero_le _
  | cons s items ih =>
    rw [List.count_cons, occurrencesIn_cons]
    by_cases eq : s = w
    · have := occurrences_self ne
      simp only [eq, beq_self_eq_true, if_true]
      omega
    · simp only [beq_iff_eq, eq, if_false]
      omega

/-- A whole sequence that is no maximal repeat occurs once, as that sequence. -/
theorem occurrencesIn_eq_one [BEq (List α)] [LawfulBEq (List α)] (mem : w ∈ items) (ne : w ≠ [])
    (not : ¬IsMaximalRepeat items w) : occurrencesIn items w = 1 ∧ items.count w = 1 := by
  have once : occurrencesIn items w < 2 := by
    by_contra twice
    exact not (.of_mem mem ne (by omega))
  have := List.count_pos_iff.2 mem
  have := count_le_occurrencesIn ne items
  omega

end

namespace Repeat

variable {texts : List Text} {c : Concordance} {t : Text} {w : List Text}

/-- The texts of whole gaps with single spaces between their words. -/
def wholeTexts (texts : List Text) : List Text :=
  (texts.map spaced).filter (!·.isEmpty)

theorem isWord_of_mem_items (mem : w ∈ texts.map Text.words) : ∀ x ∈ w, Text.IsWord x := by
  obtain ⟨t, -, rfl⟩ := List.mem_map.1 mem
  exact fun x => Text.isWord_of_mem_words

theorem unwords_ne_nil (areWords : ∀ x ∈ w, Text.IsWord x) (ne : w ≠ []) : Text.unwords w ≠ [] := by
  intro nil
  have := Text.words_unwords areWords
  rw [nil] at this
  exact ne this.symm

theorem mem_wholeTexts :
    t ∈ wholeTexts texts ↔ ∃ w ∈ texts.map Text.words, w ≠ [] ∧ Text.unwords w = t := by
  simp only [wholeTexts, List.mem_filter, List.mem_map]
  constructor
  · rintro ⟨⟨u, mem, rfl⟩, nonempty⟩
    refine ⟨Text.words u, ⟨u, mem, rfl⟩, fun nil => ?_, rfl⟩
    rw [spaced, nil] at nonempty
    contradiction
  · rintro ⟨w, ⟨u, mem, rfl⟩, ne, rfl⟩
    refine ⟨⟨u, mem, rfl⟩, ?_⟩
    simpa using unwords_ne_nil (fun x => Text.isWord_of_mem_words) ne

/-- The gaps that have the same words. -/
theorem count_wholeTexts (mem : w ∈ texts.map Text.words) (ne : w ≠ []) :
    (wholeTexts texts).count (Text.unwords w) = (texts.map Text.words).count w := by
  have areWords := isWord_of_mem_items mem
  rw [wholeTexts, List.count_filter (by simpa using unwords_ne_nil areWords ne), List.count,
    List.count, List.countP_map, List.countP_map]
  refine List.countP_congr fun t _ => ?_
  simp only [Function.comp_apply, beq_iff_eq, spaced]
  exact ⟨Text.unwords_inj (fun x => Text.isWord_of_mem_words) areWords, fun eq => by rw [eq]⟩

/-- The runs of words of the whole gaps whose texts are not known, each once. -/
def newRuns (known texts : List Text) : List (List Text) :=
  ((Tally.sortedDistinct (wholeTexts texts)).filter (!known.contains ·)).map Text.words

theorem mem_newRuns {known : List Text} : w ∈ newRuns known texts ↔
    w ∈ texts.map Text.words ∧ w ≠ [] ∧ Text.unwords w ∉ known := by
  have mem : ∀ t, t ∈ (Tally.sortedDistinct (wholeTexts texts)).filter (!known.contains ·) ↔
      (∃ u ∈ texts.map Text.words, u ≠ [] ∧ Text.unwords u = t) ∧ t ∉ known := by
    simp [Tally.mem_sortedDistinct, mem_wholeTexts]
  rw [newRuns, List.mem_map]
  constructor
  · rintro ⟨t, mem_t, rfl⟩
    obtain ⟨⟨u, mem_u, ne, rfl⟩, new⟩ := (mem t).1 mem_t
    rw [Text.words_unwords (isWord_of_mem_items mem_u)]
    exact ⟨mem_u, ne, new⟩
  · rintro ⟨mem_w, ne, new⟩
    exact ⟨_, (mem _).2 ⟨⟨w, mem_w, ne, rfl⟩, new⟩, Text.words_unwords (isWord_of_mem_items mem_w)⟩

theorem nodup_newRuns (known texts : List Text) : (newRuns known texts).Nodup := by
  refine List.Nodup.map_on ?_ ((Tally.nodup_sortedDistinct _).filter _)
  have unwords_words : ∀ t ∈ Tally.sortedDistinct (wholeTexts texts),
      Text.unwords (Text.words t) = t := by
    intro t mem
    obtain ⟨w, mem_w, -, rfl⟩ := mem_wholeTexts.1 (Tally.mem_sortedDistinct.1 mem)
    rw [Text.words_unwords (isWord_of_mem_items mem_w)]
  intro s mem_s t mem_t eq
  rw [← unwords_words s (List.mem_filter.1 mem_s).1, eq,
    unwords_words t (List.mem_filter.1 mem_t).1]

/-- The whole gaps that are added occur once, if all maximal repeats are known. -/
theorem filter_wholeGaps {known : List Text}
    (all : ∀ w, IsMaximalRepeat (c.texts.map Text.words) w → Text.unwords w ∈ known) :
    (wholeGaps c).filter (fun r => !known.contains r.text) =
      (newRuns known c.texts).map (ofWords (c.texts.map Text.words)) := by
  rw [wholeGaps, Tally.ofList, List.map_map, List.filter_map, newRuns, List.map_map]
  refine List.map_congr_left fun t mem => ?_
  obtain ⟨mem, new⟩ := List.mem_filter.1 mem
  obtain ⟨w, mem_w, ne, rfl⟩ := mem_wholeTexts.1 (Tally.mem_sortedDistinct.1 mem)
  have not : ¬IsMaximalRepeat (c.texts.map Text.words) w := by
    intro max
    simp [all w max] at new
  obtain ⟨once, count⟩ := occurrencesIn_eq_one mem_w ne not
  have counted := count_wholeTexts mem_w ne
  simp only [wholeTexts] at counted
  simp only [Function.comp_apply, ofWords, Text.words_unwords (isWord_of_mem_items mem_w), counted,
    once, count]

theorem isWord_of_isMaximalRepeat (max : IsMaximalRepeat (texts.map Text.words) w) :
    ∀ x ∈ w, Text.IsWord x := by
  obtain ⟨t, -, part⟩ := WordAutomaton.exists_text max
  exact fun x mem => Text.isWord_of_mem_words (part.subset mem)

/-- The runs of the repeats with the whole gaps: the maximal repeats, then what is added. -/
theorem exists_runs (c : Concordance) :
    ∃ repeats ws : List (List Text),
      ws.Perm (repeats ++ newRuns (repeats.map Text.unwords) c.texts) ∧ ws.Nodup ∧
      (∀ w, w ∈ repeats ↔ IsMaximalRepeat (c.texts.map Text.words) w) ∧
      (∀ r, r ∈ (WordAutomaton.ofTexts c.texts).maximalRepeats ↔
        r ∈ repeats.map (ofWords (c.texts.map Text.words))) ∧
      withWholeGaps (WordAutomaton.ofTexts c.texts).maximalRepeats c =
        ws.map (ofWords (c.texts.map Text.words)) ∧
      (ws.map (ofWords (c.texts.map Text.words))).Pairwise fun q r => (compare q r).isLE := by
  obtain ⟨runs, nodup, mem, list⟩ := WordAutomaton.exists_maximalRepeats c.texts
  obtain ⟨repeats, perm, sorted⟩ := exists_sort_map (ofWords (c.texts.map Text.words)) runs
  rw [sorted] at list
  have mem : ∀ w, w ∈ repeats ↔ IsMaximalRepeat (c.texts.map Text.words) w :=
    fun w => perm.mem_iff.trans (mem w)
  have known : (repeats.map (ofWords (c.texts.map Text.words))).map (·.text) =
      repeats.map Text.unwords := by
    rw [List.map_map]
    rfl
  have all : ∀ w, IsMaximalRepeat (c.texts.map Text.words) w →
      Text.unwords w ∈ repeats.map Text.unwords :=
    fun w max => List.mem_map_of_mem ((mem w).2 max)
  obtain ⟨ws, perm', sorted'⟩ := exists_sort_map (ofWords (c.texts.map Text.words))
    (repeats ++ newRuns (repeats.map Text.unwords) c.texts)
  refine ⟨repeats, ws, perm', perm'.nodup_iff.2 ?_, mem, fun r => by rw [list], ?_, ?_⟩
  · refine List.nodup_append.2 ⟨perm.nodup_iff.2 nodup, nodup_newRuns _ _, ?_⟩
    rintro w mem_w _ mem_new rfl
    exact (mem_newRuns.1 mem_new).2.2 (List.mem_map_of_mem mem_w)
  · rw [withWholeGaps, list, known, filter_wholeGaps all, ← List.map_append, sorted']
  · rw [← sorted']
    exact pairwise_isLE_sort _

/-- Every repeat that is listed is a run of words inside some gap. -/
theorem exists_run_of_mem {r : Repeat}
    (mem : r ∈ withWholeGaps (WordAutomaton.ofTexts c.texts).maximalRepeats c) :
    ∃ w, w ≠ [] ∧ r.text = Text.unwords w ∧ ∃ e ∈ c, w <:+: Text.words e.gap.text := by
  obtain ⟨repeats, ws, perm, -, isMaximal, -, list, -⟩ := exists_runs c
  rw [list] at mem
  obtain ⟨w, listed, rfl⟩ := List.mem_map.1 mem
  have inside : w ≠ [] ∧ ∃ t ∈ c.texts, w <:+: Text.words t := by
    rcases List.mem_append.1 (perm.mem_iff.1 listed) with old | new
    · have max := (isMaximal w).1 old
      exact ⟨max.ne_nil, WordAutomaton.exists_text max⟩
    · obtain ⟨whole, ne, -⟩ := mem_newRuns.1 new
      obtain ⟨t, own, rfl⟩ := List.mem_map.1 whole
      exact ⟨ne, t, own, List.infix_rfl⟩
  obtain ⟨ne, t, own, part⟩ := inside
  obtain ⟨e, occurs, rfl⟩ := List.mem_map.1 own
  exact ⟨w, ne, rfl, e, occurs, part⟩

/-- The words of every gap are listed. -/
theorem exists_mem_of_words_ne_nil (occurs : t ∈ c.texts) (ne : Text.words t ≠ []) :
    ∃ r ∈ withWholeGaps (WordAutomaton.ofTexts c.texts).maximalRepeats c, r.text = spaced t := by
  obtain ⟨repeats, ws, perm, -, -, -, list, -⟩ := exists_runs c
  suffices ∃ w ∈ ws, Text.unwords w = spaced t by
    obtain ⟨w, mem, text⟩ := this
    exact ⟨_, list ▸ List.mem_map_of_mem mem, text⟩
  by_cases known : spaced t ∈ repeats.map Text.unwords
  · obtain ⟨w, mem, text⟩ := List.mem_map.1 known
    exact ⟨w, perm.mem_iff.2 (List.mem_append_left _ mem), text⟩
  · have new := mem_newRuns.2 ⟨List.mem_map_of_mem occurs, ne, known⟩
    exact ⟨_, perm.mem_iff.2 (List.mem_append_right _ new), rfl⟩

/-- The maximal repeats and the whole gaps together: each run of words is listed once, in order,
with the number of its occurrences inside gaps. The maximal repeats stay as they are, no whole gap
is missing, and those that are added occur once. -/
theorem withWholeGaps_maximalRepeats (c : Concordance) :
    ∃ ws : List (List Text), ws.Nodup ∧
      (∀ w, w ∈ ws ↔ IsMaximalRepeat (c.texts.map Text.words) w ∨
        (w ∈ c.texts.map Text.words ∧ w ≠ [])) ∧
      withWholeGaps (WordAutomaton.ofTexts c.texts).maximalRepeats c =
        ws.map (ofWords (c.texts.map Text.words)) ∧
      ((ws.map (ofWords (c.texts.map Text.words))).map (·.text)).Nodup ∧
      (ws.map (ofWords (c.texts.map Text.words))).Pairwise Precedes ∧
      (∀ r ∈ (WordAutomaton.ofTexts c.texts).maximalRepeats,
        r ∈ ws.map (ofWords (c.texts.map Text.words))) ∧
      (∀ t ∈ c.texts, spaced t ≠ [] →
        ∃ r ∈ ws.map (ofWords (c.texts.map Text.words)), r.text = spaced t) ∧
      ∀ r ∈ ws.map (ofWords (c.texts.map Text.words)),
        r ∉ (WordAutomaton.ofTexts c.texts).maximalRepeats → r.count = 1 := by
  obtain ⟨repeats, ws, perm, nodup, mem, list, union, sorted⟩ := exists_runs c
  have mem_ws : ∀ w, w ∈ ws ↔ IsMaximalRepeat (c.texts.map Text.words) w ∨
      (w ∈ c.texts.map Text.words ∧ w ≠ []) := by
    intro w
    rw [perm.mem_iff, List.mem_append, mem, mem_newRuns]
    refine ⟨fun h => h.imp_right fun ⟨mem_w, ne, _⟩ => ⟨mem_w, ne⟩, ?_⟩
    rintro (max | ⟨mem_w, ne⟩)
    · exact .inl max
    · by_cases max : IsMaximalRepeat (c.texts.map Text.words) w
      · exact .inl max
      · refine .inr ⟨mem_w, ne, fun known => max ?_⟩
        obtain ⟨v, mem_v, eq⟩ := List.mem_map.1 known
        have max_v := (mem v).1 mem_v
        exact Text.unwords_inj (isWord_of_isMaximalRepeat max_v) (isWord_of_mem_items mem_w) eq ▸
          max_v
  have areWords : ∀ w ∈ ws, ∀ x ∈ w, Text.IsWord x := by
    intro w mem_w
    rcases (mem_ws w).1 mem_w with max | ⟨mem_w, -⟩
    · exact isWord_of_isMaximalRepeat max
    · exact isWord_of_mem_items mem_w
  have texts : ((ws.map (ofWords (c.texts.map Text.words))).map (·.text)).Nodup := by
    rw [List.map_map]
    exact nodup.map_on fun w mem_w v mem_v eq =>
      Text.unwords_inj (areWords w mem_w) (areWords v mem_v) eq
  refine ⟨ws, nodup, mem_ws, union, texts, pairwise_precedes texts sorted, fun r mem_r => ?_,
    fun t mem_t ne => ?_, fun r mem_r new => ?_⟩
  · obtain ⟨w, mem_w, rfl⟩ := List.mem_map.1 ((list r).1 mem_r)
    exact List.mem_map_of_mem ((mem_ws w).2 (.inl ((mem w).1 mem_w)))
  · refine ⟨_, List.mem_map_of_mem
      ((mem_ws (Text.words t)).2 (.inr ⟨List.mem_map_of_mem mem_t, ?_⟩)), rfl⟩
    intro nil
    rw [spaced, nil] at ne
    exact ne rfl
  · obtain ⟨w, mem_w, rfl⟩ := List.mem_map.1 mem_r
    have not : ¬IsMaximalRepeat (c.texts.map Text.words) w :=
      fun max => new ((list _).2 (List.mem_map_of_mem ((mem w).2 max)))
    obtain ⟨mem_w, ne⟩ := ((mem_ws w).1 mem_w).resolve_left not
    exact (occurrencesIn_eq_one mem_w ne not).1

end Repeat

end RulesText
