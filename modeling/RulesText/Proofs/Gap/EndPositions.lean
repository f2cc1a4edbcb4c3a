import Mathlib.Data.List.Infix

/-!
# End positions

A run ends at place `i` of a sequence if it stands right before that place, that is if the first
`i` elements of the sequence end with it. Runs that end at the same places belong together: of
two of them the shorter one is the end of the longer one, so each class has a longest run.

## Main definitions

* `EndsAt`, `SameEnds`: where a run ends, and runs that end at the same places.
* `IsLongest`: the longest runs of their classes.
* `endPositions`: the positions of the last elements of a run, as a list.
-/

namespace RulesText

variable {α : Type}

/-- The run `w` stands right before place `i` of `s`. -/
def EndsAt (s w : List α) (i : Nat) : Prop :=
  i ≤ s.length ∧ w <:+ s.take i

namespace EndsAt

variable {s u w : List α} {x : α} {i : Nat}

theorem of_isSuffix (h : EndsAt s w i) (suffix : u <:+ w) : EndsAt s u i :=
  ⟨h.1, suffix.trans h.2⟩

theorem length_le (h : EndsAt s w i) : w.length ≤ i := by
  have := h.2.length_le
  simp only [List.length_take] at this
  omega

/-- Of two runs that end at one place the shorter one is the end of the longer one. -/
theorem isSuffix (hu : EndsAt s u i) (hw : EndsAt s w i) (le : u.length ≤ w.length) : u <:+ w :=
  List.suffix_of_suffix_length_le hu.2 hw.2 le

end EndsAt

section

variable {s u w : List α} {x : α} {i : Nat}

theorem endsAt_length : EndsAt s w s.length ↔ w <:+ s := by
  simp [EndsAt]

theorem isInfix_iff_endsAt : w <:+: s ↔ ∃ i, EndsAt s w i := by
  constructor
  · rintro ⟨front, back, rfl⟩
    refine ⟨(front ++ w).length, by simp, ?_⟩
    rw [List.take_left]
    exact List.suffix_append front w
  · rintro ⟨i, -, h⟩
    exact h.isInfix.trans (s.take_prefix i).isInfix

theorem endsAt_append_of_le {t : List α} (h : i ≤ s.length) :
    EndsAt (s ++ t) w i ↔ EndsAt s w i := by
  simp only [EndsAt, List.take_append_of_le_length h, List.length_append]
  exact ⟨fun ⟨_, suffix⟩ => ⟨h, suffix⟩, fun ⟨_, suffix⟩ => ⟨by omega, suffix⟩⟩

/-- One more element adds at most one place where a run ends, the last one. -/
theorem endsAt_append_singleton :
    EndsAt (s ++ [x]) w i ↔ EndsAt s w i ∨ (i = s.length + 1 ∧ w <:+ s ++ [x]) := by
  by_cases h : i ≤ s.length
  · have : i ≠ s.length + 1 := by omega
    simp [endsAt_append_of_le h, this]
  · have old : ¬EndsAt s w i := fun ends => h ends.1
    simp only [old, false_or]
    constructor
    · intro ends
      have last : i = (s ++ [x]).length := by
        have := ends.1
        simp only [List.length_append, List.length_singleton] at this ⊢
        omega
      subst last
      exact ⟨by simp, endsAt_length.1 ends⟩
    · rintro ⟨rfl, suffix⟩
      have := endsAt_length.2 suffix
      simpa using this

theorem isSuffix_append_singleton {y : α} {w : List α} :
    w ++ [y] <:+ s ++ [x] ↔ y = x ∧ w <:+ s := by
  simp only [← List.reverse_prefix, List.reverse_append, List.reverse_singleton,
    List.singleton_append, List.cons_prefix_cons]

/-- A run with one more element ends where the run is followed by that element. -/
theorem endsAt_snoc : EndsAt s (w ++ [x]) (i + 1) ↔ EndsAt s w i ∧ s[i]? = some x := by
  constructor
  · rintro ⟨le, suffix⟩
    have lt : i < s.length := by omega
    rw [List.take_succ_eq_append_getElem lt, isSuffix_append_singleton] at suffix
    exact ⟨⟨lt.le, suffix.2⟩, by simp [lt, suffix.1]⟩
  · rintro ⟨⟨le, suffix⟩, at_i⟩
    obtain ⟨lt, rfl⟩ := List.getElem?_eq_some_iff.1 at_i
    refine ⟨lt, ?_⟩
    rw [List.take_succ_eq_append_getElem lt, isSuffix_append_singleton]
    exact ⟨rfl, suffix⟩

theorem endsAt_zero : EndsAt s w 0 ↔ w = [] := by
  simp [EndsAt]

end

/-! ## Classes of runs -/

/-- The runs `u` and `w` end at the same places of `s`. -/
def SameEnds (s u w : List α) : Prop :=
  ∀ i, EndsAt s u i ↔ EndsAt s w i

namespace SameEnds

variable {s u v w : List α} {x : α}

theorem refl (s w : List α) : SameEnds s w w :=
  fun _ => Iff.rfl

theorem symm (h : SameEnds s u w) : SameEnds s w u :=
  fun i => (h i).symm

theorem trans (h : SameEnds s u v) (g : SameEnds s v w) : SameEnds s u w :=
  fun i => (h i).trans (g i)

theorem isInfix_iff (h : SameEnds s u w) : u <:+: s ↔ w <:+: s := by
  simp only [isInfix_iff_endsAt, h _]

/-- What lies between two runs of one class belongs to the class. -/
theorem of_between (h : SameEnds s u w) (left : u <:+ v) (right : v <:+ w) :
    SameEnds s v w :=
  fun i => ⟨fun ends => (h i).1 (ends.of_isSuffix left), fun ends => ends.of_isSuffix right⟩

/-- Runs of one class stay in one class when the same element follows. -/
theorem snoc (h : SameEnds s u w) (x : α) : SameEnds s (u ++ [x]) (w ++ [x]) := by
  intro i
  cases i with
  | zero => simp [endsAt_zero]
  | succ i => rw [endsAt_snoc, endsAt_snoc, h i]

theorem append (h : SameEnds s u w) (t : List α) : SameEnds s (u ++ t) (w ++ t) := by
  induction t generalizing u w with
  | nil => simpa using h
  | cons x t ih => simpa using ih (h.snoc x)

/-- Whether two runs of one class stay together behind one more element hangs on whether they
both end there. -/
theorem append_singleton (h : SameEnds s u w) (last : u <:+ s ++ [x] ↔ w <:+ s ++ [x]) :
    SameEnds (s ++ [x]) u w := by
  intro i
  rw [endsAt_append_singleton, endsAt_append_singleton, h i, last]

end SameEnds

/-- The run `w` occurs in `s`, and every run that is longer on the left ends at fewer places. -/
structure IsLongest (s w : List α) : Prop where
  isInfix : w <:+: s
  exists_endsAt : ∀ y, ∃ i, EndsAt s w i ∧ ¬EndsAt s (y :: w) i

namespace IsLongest

variable {s u w : List α} {x : α}

/-- Every run of a class is the end of the longest one. -/
theorem isSuffix (h : IsLongest s w) (same : SameEnds s u w) : u <:+ w := by
  obtain ⟨i, ends⟩ := isInfix_iff_endsAt.1 h.isInfix
  rcases Nat.le_total u.length w.length with le | le
  · exact ((same i).2 ends).isSuffix ends le
  · obtain ⟨front, rfl⟩ := ends.isSuffix ((same i).2 ends) le
    rcases List.eq_nil_or_concat front with rfl | ⟨front, y, rfl⟩
    · exact List.suffix_rfl
    · obtain ⟨j, here, not⟩ := h.exists_endsAt y
      have := (same j).2 here
      exact absurd (this.of_isSuffix ⟨front, by simp⟩) not

theorem eq_of_sameEnds (hu : IsLongest s u) (hw : IsLongest s w) (same : SameEnds s u w) :
    u = w :=
  (hw.isSuffix same).eq_of_length_le (hu.isSuffix same.symm).length_le

/-- The start of a sequence is the longest of its class: nothing stands before it. -/
theorem of_isPrefix (h : w <+: s) : IsLongest s w := by
  have ends : EndsAt s w w.length := by
    obtain ⟨back, rfl⟩ := h
    exact (endsAt_append_of_le le_rfl).2 (endsAt_length.2 List.suffix_rfl)
  refine ⟨h.isInfix, fun y => ⟨w.length, ends, fun longer => ?_⟩⟩
  have := longer.length_le
  simp only [List.length_cons] at this
  omega

theorem append_singleton (h : IsLongest s w) : IsLongest (s ++ [x]) w := by
  refine ⟨h.isInfix.trans (List.prefix_append s [x]).isInfix, fun y => ?_⟩
  obtain ⟨i, ends, not⟩ := h.exists_endsAt y
  exact ⟨i, (endsAt_append_of_le ends.1).2 ends,
    fun longer => not ((endsAt_append_of_le ends.1).1 longer)⟩

end IsLongest

/-! ## Positions -/

/-- The positions of `s` at which `w` ends, ascending. -/
def endPositions [DecidableEq α] (s w : List α) : List Nat :=
  (List.range s.length).filter fun i => w.isSuffixOf (s.take (i + 1))

section

variable [DecidableEq α] {s u w : List α} {i : Nat}

theorem mem_endPositions : i ∈ endPositions s w ↔ EndsAt s w (i + 1) := by
  simp only [endPositions, List.mem_filter, List.mem_range, List.isSuffixOf_iff_suffix, EndsAt]
  rfl

theorem nodup_endPositions : (endPositions s w).Nodup :=
  List.nodup_range.filter _

theorem sorted_endPositions : (endPositions s w).Pairwise (· < ·) :=
  List.pairwise_lt_range.filter _

/-- Runs that are not empty have the same end positions if and only if they end at the same
places. -/
theorem endPositions_eq_iff (hu : u ≠ []) (hw : w ≠ []) :
    endPositions s u = endPositions s w ↔ SameEnds s u w := by
  constructor
  · intro eq i
    cases i with
    | zero => simp [endsAt_zero, hu, hw]
    | succ i => rw [← mem_endPositions, ← mem_endPositions, eq]
  · intro same
    refine List.filter_congr fun i hi => ?_
    have le : i + 1 ≤ s.length := List.mem_range.1 hi
    have := same (i + 1)
    simp only [EndsAt, le, true_and] at this
    rw [Bool.eq_iff_iff, List.isSuffixOf_iff_suffix, List.isSuffixOf_iff_suffix, this]

theorem head?_endPositions (ends : EndsAt s w (i + 1))
    (first : ∀ j, EndsAt s w j → i + 1 ≤ j) : (endPositions s w).head? = some i := by
  have mem := mem_endPositions.2 ends
  cases h : endPositions s w with
  | nil => simp [h] at mem
  | cons j rest =>
    have le := first _ (mem_endPositions.1 (h ▸ List.mem_cons_self : j ∈ endPositions s w))
    have sorted := h ▸ sorted_endPositions (s := s) (w := w)
    rw [h] at mem
    rcases List.mem_cons.1 mem with rfl | mem
    · rfl
    · have := List.rel_of_pairwise_cons sorted mem
      omega

end

end RulesText
