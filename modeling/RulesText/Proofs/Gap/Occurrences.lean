import Mathlib.Algebra.GroupWithZero.Nat
import Mathlib.Data.List.Nodup
import Mathlib.Data.List.Perm.Subperm
import RulesText.Gap.SuffixAutomaton
import RulesText.Proofs.Gap.EndPositions

/-!
# Occurrences

How often a run occurs in a sequence, overlapping occurrences counted, and in several sequences
of which no run reaches from one into another.

## Main definitions

* `occurrences`: the number of occurrences of a run in a sequence.
* `occurrencesIn`: the number of occurrences of a run inside single sequences of a list.
-/

namespace RulesText

variable {α : Type} [DecidableEq α]

/-- The number of positions at which `w` ends in `s`. -/
def occurrences (s w : List α) : Nat :=
  (endPositions s w).length

/-- The number of positions at which `w` ends inside one of several sequences. -/
def occurrencesIn (items : List (List α)) (w : List α) : Nat :=
  (items.map fun s => occurrences s w).sum

variable {s t u w : List α} {x y : α}

/-! ## Longer runs -/

theorem occurrences_pos : 0 < occurrences s w ↔ ∃ i, EndsAt s w (i + 1) := by
  rw [occurrences, List.length_pos_iff_exists_mem]
  simp only [mem_endPositions]

theorem isInfix_of_occurrences_pos (h : 0 < occurrences s w) : w <:+: s := by
  obtain ⟨i, ends⟩ := occurrences_pos.1 h
  exact isInfix_iff_endsAt.2 ⟨_, ends⟩

theorem occurrences_pos_of_isInfix (ne : w ≠ []) (h : w <:+: s) : 0 < occurrences s w := by
  obtain ⟨i, ends⟩ := isInfix_iff_endsAt.1 h
  cases i with
  | zero => exact absurd (endsAt_zero.1 ends) ne
  | succ i => exact occurrences_pos.2 ⟨i, ends⟩

theorem SameEnds.occurrences_eq (same : SameEnds s u w) (hu : u ≠ []) (hw : w ≠ []) :
    occurrences s u = occurrences s w :=
  congrArg List.length ((endPositions_eq_iff hu hw).2 same)

theorem endPositions_subset_of_isSuffix (h : u <:+ w) : endPositions s w ⊆ endPositions s u :=
  fun _ mem => mem_endPositions.2 ((mem_endPositions.1 mem).of_isSuffix h)

theorem occurrences_le_of_isSuffix (h : u <:+ w) : occurrences s w ≤ occurrences s u :=
  (nodup_endPositions.subperm (endPositions_subset_of_isSuffix h)).length_le

/-- A run that ends at fewer places occurs less often. -/
theorem occurrences_lt_of_isSuffix (h : u <:+ w) (ne : u ≠ [])
    (fewer : ∃ i, EndsAt s u i ∧ ¬EndsAt s w i) : occurrences s w < occurrences s u := by
  obtain ⟨i, ends, not⟩ := fewer
  cases i with
  | zero => exact absurd (endsAt_zero.1 ends) ne
  | succ i =>
    refine Nat.lt_of_le_of_ne (occurrences_le_of_isSuffix h) fun eq => not ?_
    have perm := (nodup_endPositions.subperm
      (endPositions_subset_of_isSuffix (s := s) h)).perm_of_length_le (Nat.le_of_eq eq.symm)
    exact mem_endPositions.1 (perm.mem_iff.2 (mem_endPositions.2 ends))

/-- If a run occurs as often as a longer one that ends with it, they end at the same places. -/
theorem sameEnds_of_occurrences_eq (h : u <:+ w) (ne : u ≠ [])
    (eq : occurrences s u = occurrences s w) : SameEnds s u w := by
  refine fun i => ⟨fun ends => ?_, fun ends => ends.of_isSuffix h⟩
  by_contra not
  have := occurrences_lt_of_isSuffix h ne ⟨i, ends, not⟩
  omega

theorem occurrences_snoc_le (ne : w ≠ []) : occurrences s (w ++ [x]) ≤ occurrences s w := by
  have sub : endPositions s (w ++ [x]) ⊆ (endPositions s w).map (· + 1) := by
    intro i mem
    obtain ⟨ends, -⟩ := endsAt_snoc.1 (mem_endPositions.1 mem)
    cases i with
    | zero => exact absurd (endsAt_zero.1 ends) ne
    | succ i => exact List.mem_map.2 ⟨i, mem_endPositions.2 ends, rfl⟩
  have := (nodup_endPositions.subperm sub).length_le
  rwa [List.length_map] at this

theorem occurrences_append_le (ne : w ≠ []) (t : List α) :
    occurrences s (w ++ t) ≤ occurrences s w := by
  induction t generalizing w with
  | nil => simp
  | cons x t ih =>
    have := ih (w := w ++ [x]) (by simp)
    rw [List.append_assoc] at this
    exact this.trans (occurrences_snoc_le ne)

theorem occurrences_le_of_isInfix (h : u <:+: w) (ne : u ≠ []) :
    occurrences s w ≤ occurrences s u := by
  obtain ⟨front, back, rfl⟩ := h
  rw [List.append_assoc]
  exact (occurrences_le_of_isSuffix ⟨front, rfl⟩).trans (occurrences_append_le ne back)

/-! ## Several sequences -/

omit [DecidableEq α] in
/-- What ends with a run without `x` ends with it behind the last `x`. -/
theorem isSuffix_append_cons (h : x ∉ w) : w <:+ s ++ x :: t ↔ w <:+ t := by
  refine ⟨fun suffix => ?_, fun suffix => suffix.trans ((List.suffix_cons x t).trans ⟨s, rfl⟩)⟩
  rcases Nat.lt_or_ge t.length w.length with lt | le
  · have inside := List.suffix_of_suffix_length_le ⟨s, rfl⟩ suffix lt
    exact absurd (inside.subset List.mem_cons_self) h
  · exact List.suffix_of_suffix_length_le suffix ((List.suffix_cons x t).trans ⟨s, rfl⟩) le

/-- Behind an element that a run does not contain its occurrences are counted anew. -/
theorem occurrences_append_cons (h : x ∉ w) (ne : w ≠ []) :
    occurrences (s ++ x :: t) w = occurrences s w + occurrences t w := by
  simp only [occurrences, endPositions, ← List.countP_eq_length_filter]
  have length : (s ++ x :: t).length = s.length + (1 + t.length) := by
    simp [Nat.add_comm 1]
  rw [length, List.range_add, List.countP_append, List.countP_map, List.range_add,
    List.countP_append, List.countP_map]
  have front : (List.range s.length).countP (fun i => w.isSuffixOf ((s ++ x :: t).take (i + 1))) =
      (List.range s.length).countP fun i => w.isSuffixOf (s.take (i + 1)) := by
    refine List.countP_congr fun i mem => ?_
    rw [List.take_append_of_le_length (List.mem_range.1 mem)]
  have middle : w.isSuffixOf ((s ++ x :: t).take (s.length + 0 + 1)) = false := by
    rw [Nat.add_zero, List.take_length_add_append, ← Bool.not_eq_true, List.isSuffixOf_iff_suffix]
    intro suffix
    exact ne (List.suffix_nil.1 ((isSuffix_append_cons h).1 suffix))
  have back : ∀ i, w.isSuffixOf ((s ++ x :: t).take (s.length + (1 + i) + 1)) =
      w.isSuffixOf (t.take (i + 1)) := by
    intro i
    have shift : s.length + (1 + i) + 1 = s.length + (i + 1 + 1) := by omega
    rw [shift, List.take_length_add_append, List.take_succ_cons, Bool.eq_iff_iff,
      List.isSuffixOf_iff_suffix, List.isSuffixOf_iff_suffix, isSuffix_append_cons h]
  rw [front]
  congr 1
  simp only [Function.comp_def, back, List.range_one, List.countP_singleton, middle]
  simp

theorem occurrences_nil : occurrences [] w = 0 := by
  simp [occurrences, endPositions]

/-- The occurrences of a run without `x` in sequences with `x` between them. -/
theorem occurrences_intercalate (h : x ∉ w) (ne : w ≠ []) (items : List (List α)) :
    occurrences ([x].intercalate items) w = occurrencesIn items w := by
  induction items with
  | nil => exact occurrences_nil
  | cons s items ih =>
    cases items with
    | nil => simp [occurrencesIn]
    | cons t items =>
      rw [List.intercalate_cons_cons, List.append_assoc, List.singleton_append,
        occurrences_append_cons h ne, ih]
      simp [occurrencesIn]

theorem occurrencesIn_cons {items : List (List α)} :
    occurrencesIn (s :: items) w = occurrences s w + occurrencesIn items w :=
  List.sum_cons

theorem occurrencesIn_le_of_isInfix (h : u <:+: w) (ne : u ≠ []) (items : List (List α)) :
    occurrencesIn items w ≤ occurrencesIn items u := by
  induction items with
  | nil => exact Nat.le_refl _
  | cons s items ih =>
    rw [occurrencesIn_cons, occurrencesIn_cons]
    exact Nat.add_le_add (occurrences_le_of_isInfix h ne) ih

theorem occurrencesIn_filter (items : List (List α)) :
    occurrencesIn (items.filter (!·.isEmpty)) w = occurrencesIn items w := by
  induction items with
  | nil => rfl
  | cons s items ih =>
    cases s with
    | nil => simp [occurrencesIn_cons, occurrences_nil, ih]
    | cons x s => simp [occurrencesIn_cons, ih]

namespace SuffixAutomaton

/-- The occurrences of a run without separators are those inside single sequences. -/
theorem occurrences_concatenate {w : List Nat} (h : separator ∉ w) (ne : w ≠ [])
    (sequences : List (List Nat)) :
    occurrences (concatenate sequences) w = occurrencesIn sequences w := by
  rw [concatenate, occurrences_intercalate h ne, occurrencesIn_filter]

end SuffixAutomaton

/-- The order of the sequences does not matter. -/
theorem occurrencesIn_perm {items others : List (List α)} (perm : items.Perm others) (w : List α) :
    occurrencesIn items w = occurrencesIn others w :=
  (perm.map _).sum_nat

/-! ## Renamed elements -/

section

variable {β : Type} [DecidableEq β] {f : α → β}

omit [DecidableEq α] [DecidableEq β] in
theorem map_inj_of_mem (h : ∀ x ∈ s, ∀ y, f x = f y → x = y) (eq : s.map f = w.map f) :
    s = w := by
  induction s generalizing w with
  | nil => simpa using eq.symm
  | cons x s ih =>
    cases w with
    | nil => simp at eq
    | cons y w =>
      simp only [List.map_cons, List.cons.injEq] at eq
      rw [h x (by simp) y eq.1, ih (fun x mem => h x (List.mem_cons_of_mem _ mem)) eq.2]

omit [DecidableEq α] [DecidableEq β] in
theorem isSuffix_map (h : ∀ x ∈ s, ∀ y, f x = f y → x = y) :
    w.map f <:+ s.map f ↔ w <:+ s := by
  refine ⟨fun ⟨front, eq⟩ => ?_, fun suffix => suffix.map f⟩
  obtain ⟨s₁, s₂, rfl, -, same⟩ := List.map_eq_append_iff.1 eq.symm
  have : s₂ = w := map_inj_of_mem (fun x mem => h x (List.mem_append_right _ mem)) same
  exact ⟨s₁, by rw [this]⟩

/-- A run occurs as often when the elements of the sequence have other names. -/
theorem occurrences_map (h : ∀ x ∈ s, ∀ y, f x = f y → x = y) :
    occurrences (s.map f) (w.map f) = occurrences s w := by
  simp only [occurrences, endPositions, List.length_map]
  congr 1
  refine List.filter_congr fun i _ => ?_
  rw [← List.map_take, Bool.eq_iff_iff, List.isSuffixOf_iff_suffix, List.isSuffixOf_iff_suffix]
  exact isSuffix_map fun x mem => h x (List.mem_of_mem_take mem)

theorem occurrencesIn_map {items : List (List α)}
    (h : ∀ s ∈ items, ∀ x ∈ s, ∀ y, f x = f y → x = y) :
    occurrencesIn (items.map (·.map f)) (w.map f) = occurrencesIn items w := by
  rw [occurrencesIn, occurrencesIn, List.map_map]
  exact congrArg List.sum (List.map_congr_left fun s mem => occurrences_map (h s mem))

end

end RulesText
