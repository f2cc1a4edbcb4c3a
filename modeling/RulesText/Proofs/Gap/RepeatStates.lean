import RulesText.Gap.Repeat
import RulesText.Proofs.Gap.MaximalRepeats
import RulesText.Proofs.Gap.SuffixFactors

/-!
# The repeats of states

A state of a suffix automaton stands for at most one maximal repeat: what its longest run has
behind the last separator. Every maximal repeat belongs to one state.
-/

namespace RulesText

open SuffixAutomaton (separator concatenate)

namespace WordAutomaton

/-! ## Behind the last separator -/

section

variable {ids w : List Nat}

theorem afterSeparator_isSuffix : afterSeparator ids <:+ ids := by
  have := List.reverse_suffix.2 (List.takeWhile_prefix (l := ids.reverse) (· != separator))
  rwa [List.reverse_reverse] at this

theorem separator_notMem_afterSeparator : separator ∉ afterSeparator ids := by
  intro mem
  have := List.all_takeWhile (p := (· != separator)) (l := ids.reverse)
  simpa using List.all_eq_true.1 this separator (List.mem_reverse.1 mem)

/-- What stands behind the last separator is the longest end without separators. -/
theorem isSuffix_afterSeparator (suffix : w <:+ ids) (clean : separator ∉ w) :
    w <:+ afterSeparator ids := by
  obtain ⟨front, rfl⟩ := suffix
  have all : ∀ x ∈ w.reverse, (x != separator) = true := by
    intro x mem
    rw [bne_iff_ne]
    exact fun eq => clean (eq ▸ List.mem_reverse.1 mem)
  rw [afterSeparator, List.reverse_append, List.takeWhile_append_of_pos all,
    List.reverse_append, List.reverse_reverse]
  exact List.suffix_append _ _

end

/-! ## Classes with a maximal repeat -/

section

variable {sequences : List (List Nat)} {r w : List Nat}

theorem separator_notMem (clean : ∀ q ∈ sequences, separator ∉ q)
    (max : IsMaximalRepeat sequences w) : separator ∉ w := fun mem => by
  obtain ⟨q, mem_q, inside⟩ := max.exists_isInfix
  exact clean q mem_q (inside.subset mem)

/-- A run without separators occurs inside single sequences as often as the runs of its class
occur in the concatenation. -/
theorem occurrencesIn_eq (clean : separator ∉ w) (ne : w ≠ []) (ne_r : r ≠ [])
    (same : SameEnds (concatenate sequences) w r) :
    occurrencesIn sequences w = occurrences (concatenate sequences) r := by
  rw [← SuffixAutomaton.occurrences_concatenate clean ne, same.occurrences_eq ne ne_r]

/-- If `r` is the longest run of its class, its end behind the last separator is the only
maximal repeat that the class can have. -/
theorem afterSeparator_eq (clean : ∀ q ∈ sequences, separator ∉ q)
    (longest : IsLongest (concatenate sequences) r) (max : IsMaximalRepeat sequences w)
    (same : SameEnds (concatenate sequences) w r) : afterSeparator r = w := by
  have clean_w := separator_notMem clean max
  have suffix := longest.isSuffix same
  obtain ⟨front, eq⟩ := isSuffix_afterSeparator suffix clean_w
  rcases List.eq_nil_or_concat' front with rfl | ⟨front, x, rfl⟩
  · exact eq.symm
  -- a longer end without separators would occur as often
  · have longer : x :: w <:+ afterSeparator r := ⟨front, by rw [← eq]; simp⟩
    have clean_x : separator ∉ x :: w :=
      fun mem => separator_notMem_afterSeparator (longer.subset mem)
    have same_x : SameEnds (concatenate sequences) (x :: w) w :=
      (same.of_between (List.suffix_cons x w) (longer.trans afterSeparator_isSuffix)).trans
        same.symm
    have := max.before x
    rw [occurrencesIn_eq clean_x (by simp) max.ne_nil same_x,
      occurrencesIn_eq clean_w max.ne_nil max.ne_nil (.refl _ w)] at this
    omega

/-- If `r` is the longest run of its class, no word stands before every occurrence of its end
behind the last separator. -/
theorem occurrencesIn_cons_lt (clean : ∀ q ∈ sequences, separator ∉ q)
    (longest : IsLongest (concatenate sequences) r) (ne : afterSeparator r ≠ [])
    (same : SameEnds (concatenate sequences) (afterSeparator r) r) (x : Nat) :
    occurrencesIn sequences (x :: afterSeparator r) <
      occurrencesIn sequences (afterSeparator r) := by
  have clean_r : separator ∉ afterSeparator r := separator_notMem_afterSeparator
  rw [← SuffixAutomaton.occurrences_concatenate clean_r ne]
  by_cases hx : x = separator
  · rw [occurrencesIn_eq_zero (x := x) (by simp) (hx ▸ clean)]
    exact occurrences_pos_of_isInfix ne (same.isInfix_iff.2 longest.isInfix)
  · have clean_x : separator ∉ x :: afterSeparator r := by
      rw [List.mem_cons, not_or]
      exact ⟨Ne.symm hx, clean_r⟩
    rw [← SuffixAutomaton.occurrences_concatenate clean_x (by simp)]
    refine Nat.lt_of_le_of_ne (occurrences_le_of_isSuffix (List.suffix_cons x _)) fun eq => ?_
    -- a longer run of the class would be an end of `r` without separators
    have same_x := sameEnds_of_occurrences_eq (List.suffix_cons x _) ne eq.symm
    have suffix := longest.isSuffix (same_x.symm.trans same)
    have := (isSuffix_afterSeparator suffix clean_x).length_le
    rw [List.length_cons] at this
    omega

/-- The end behind the last separator is a maximal repeat if no next word keeps the number of
occurrences. -/
theorem isMaximalRepeat_afterSeparator_iff (clean : ∀ q ∈ sequences, separator ∉ q)
    (longest : IsLongest (concatenate sequences) r) (ne : afterSeparator r ≠ [])
    (same : SameEnds (concatenate sequences) (afterSeparator r) r) :
    IsMaximalRepeat sequences (afterSeparator r) ↔
      2 ≤ occurrences (concatenate sequences) r ∧ ∀ x ≠ separator,
        occurrences (concatenate sequences) (r ++ [x]) ≠
          occurrences (concatenate sequences) r := by
  have clean_r : separator ∉ afterSeparator r := separator_notMem_afterSeparator
  have ne_r : r ≠ [] := fun nil => ne (List.suffix_nil.1 (nil ▸ afterSeparator_isSuffix))
  have count := occurrencesIn_eq clean_r ne ne_r same
  have count_snoc : ∀ x ≠ separator, occurrencesIn sequences (afterSeparator r ++ [x]) =
      occurrences (concatenate sequences) (r ++ [x]) := fun x hx =>
    occurrencesIn_eq (by simp [clean_r, hx.symm]) (by simp) (by simp) (same.snoc x)
  constructor
  · intro max
    refine ⟨count ▸ max.twice, fun x hx eq => ?_⟩
    have := max.after x
    rw [count_snoc x hx, count] at this
    omega
  · intro ⟨twice, fewer⟩
    refine ⟨ne, count ▸ twice, fun x => ?_, occurrencesIn_cons_lt clean longest ne same⟩
    by_cases hx : x = separator
    · rw [occurrencesIn_eq_zero (x := x) (by simp) (hx ▸ clean)]
      omega
    · rw [count_snoc x hx, count]
      exact Nat.lt_of_le_of_ne (occurrences_snoc_le ne_r) (fewer x hx)

end

/-! ## States with a maximal repeat -/

section

variable {wa : WordAutomaton} {sequences : List (List Nat)} {run : Nat → List Nat} {v : Nat}
  {r : Repeat}

/-- A run of numbers with its number of occurrences in `s`. -/
def describe (wa : WordAutomaton) (s w : List Nat) : Repeat where
  text := Text.unwords (w.map wa.numbering.word)
  count := occurrences s w
  words := w.length

/-- The representative of a state is its longest run. -/
theorem representative_eq {a : SuffixAutomaton} {s : List Nat} (h : a.Faithful s run)
    (hv : v < a.states.size) (ne : v ≠ 0) : representative a (a.state v) = run v := by
  rw [representative, h.sequence, h.slice_eq hv (h.run_ne_nil hv ne)]

variable {s : List Nat} (h : wa.automaton.Faithful s run)
  (counts : wa.automaton.CountsEnds s run)

include h counts

theorem next_any_iff (hv : v < wa.automaton.states.size) (ne : v ≠ 0) :
    ((wa.automaton.state v).next.any fun (word, target) => word != separator &&
      (wa.automaton.state target).count == (wa.automaton.state v).count) = true ↔
      ∃ x ≠ separator, occurrences s (run v ++ [x]) = occurrences s (run v) := by
  have count_target : ∀ x t, (wa.automaton.state v).target? x = some t →
      (wa.automaton.state t).count = occurrences s (run v ++ [x]) := by
    intro x t target
    obtain ⟨ht, inside, same⟩ := (h.describes v hv).target x t target
    have ne_t : run t ≠ [] := fun nil => by
      have := (h.describes t ht).isLongest.isSuffix same
      simp [nil] at this
    have not_zero : t ≠ 0 := fun eq => ne_t (eq ▸ h.run_zero)
    rw [counts t ht not_zero]
    exact (same.occurrences_eq (by simp) ne_t).symm
  rw [counts v hv ne, List.any_eq_true]
  constructor
  · rintro ⟨⟨x, t⟩, mem, hx⟩
    rw [(h.describes v hv).sorted.mem_next_iff] at mem
    rw [Bool.and_eq_true, bne_iff_ne, beq_iff_eq] at hx
    exact ⟨x, hx.1, (count_target x t mem).symm.trans hx.2⟩
  · rintro ⟨x, hx, eq⟩
    have occurs : 0 < occurrences s (run v ++ [x]) :=
      eq ▸ occurrences_pos_of_isInfix (h.run_ne_nil hv ne) (h.describes v hv).isLongest.isInfix
    obtain ⟨t, target⟩ := Option.isSome_iff_exists.1
      ((h.describes v hv).isSome_target x (isInfix_of_occurrences_pos occurs))
    refine ⟨(x, t), (h.describes v hv).sorted.mem_next_iff.2 target, ?_⟩
    rw [Bool.and_eq_true, bne_iff_ne, beq_iff_eq, count_target x t target]
    exact ⟨hx, eq⟩

/-- The repeat of a state is what its longest run has behind the last separator, if that still
belongs to the state. -/
theorem repeatOf?_eq_some_iff (hv : v < wa.automaton.states.size) (ne : v ≠ 0) :
    wa.repeatOf? (wa.automaton.state v) = some r ↔
      afterSeparator (run v) ≠ [] ∧ SameEnds s (afterSeparator (run v)) (run v) ∧
        2 ≤ occurrences s (run v) ∧
        (∀ x ≠ separator, occurrences s (run v ++ [x]) ≠ occurrences s (run v)) ∧
        r = wa.describe s (afterSeparator (run v)) := by
  have ne_run := h.run_ne_nil hv ne
  obtain ⟨u, hu, link, -, -, class_v⟩ := (h.describes v hv).link ne_run
  have ids := representative_eq h hv ne
  have continues := next_any_iff h counts hv ne
  have keeps : (run u).length < (afterSeparator (run v)).length ↔
      SameEnds s (afterSeparator (run v)) (run v) :=
    ⟨class_v _ afterSeparator_isSuffix, h.length_lt_of_sameEnds hv link⟩
  have count : (wa.automaton.state v).count = occurrences s (run v) := counts v hv ne
  have described : afterSeparator (run v) ≠ [] →
      SameEnds s (afterSeparator (run v)) (run v) →
      wa.describe s (afterSeparator (run v)) =
        ⟨Text.unwords ((afterSeparator (run v)).map wa.numbering.word), occurrences s (run v),
          (afterSeparator (run v)).length⟩ :=
    fun nonempty same => by rw [describe, same.occurrences_eq nonempty ne_run]
  simp only [repeatOf?, ids, link, Option.map_some, Option.getD_some,
    (h.describes u hu).length, Option.ite_none_left_eq_some, Bool.or_eq_true, decide_eq_true_eq,
    continues, List.isEmpty_iff, not_or, not_exists, Option.some.injEq]
  rw [count]
  constructor
  · rintro ⟨⟨⟨⟨twice, fewer⟩, long⟩, nonempty⟩, rfl⟩
    have same := keeps.1 (by omega)
    exact ⟨nonempty, same, by omega, fun x hx eq => fewer x ⟨hx, eq⟩,
      (described nonempty same).symm⟩
  · rintro ⟨nonempty, same, twice, fewer, rfl⟩
    have long := keeps.2 same
    exact ⟨⟨⟨⟨by omega, fun x hx => fewer x hx.1 hx.2⟩, by omega⟩, nonempty⟩,
      (described nonempty same).symm⟩

/-- A state has the repeat `r` if the end of its longest run behind the last separator is a
maximal repeat of the state's class, and `r` describes it. -/
theorem repeatOf?_iff (hs : s = concatenate sequences) (clean : ∀ q ∈ sequences, separator ∉ q)
    (hv : v < wa.automaton.states.size) (ne : v ≠ 0) :
    wa.repeatOf? (wa.automaton.state v) = some r ↔
      IsMaximalRepeat sequences (afterSeparator (run v)) ∧
        SameEnds s (afterSeparator (run v)) (run v) ∧
        r = wa.describe s (afterSeparator (run v)) := by
  rw [repeatOf?_eq_some_iff h counts hv ne]
  subst hs
  constructor
  · rintro ⟨nonempty, same, twice, fewer, eq⟩
    exact ⟨(isMaximalRepeat_afterSeparator_iff clean (h.describes v hv).isLongest nonempty
      same).2 ⟨twice, fewer⟩, same, eq⟩
  · rintro ⟨max, same, eq⟩
    obtain ⟨twice, fewer⟩ := (isMaximalRepeat_afterSeparator_iff clean
      (h.describes v hv).isLongest max.ne_nil same).1 max
    exact ⟨max.ne_nil, same, twice, fewer, eq⟩

end

end WordAutomaton

end RulesText
