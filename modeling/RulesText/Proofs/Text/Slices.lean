import Mathlib.Data.List.Basic
import RulesText.Proofs.Cursor

/-!
# Slices

A text has a slice at a span if the text can be written as what is before the slice, the slice
and what is after it, and the span counts the bytes of the first two. The slice lies between two
places of the text.
-/

namespace RulesText

namespace Span

variable {s t : Span} {n : Nat}

@[simp] theorem start_shift (n : Nat) (s : Span) : (s.shift n).start = n + s.start := rfl

@[simp] theorem stop_shift (n : Nat) (s : Span) : (s.shift n).stop = n + s.stop := rfl

theorem contains_iff : s.contains t ↔ s.start ≤ t.start ∧ t.stop ≤ s.stop := by
  simp [contains]

theorem compare_isLE_iff :
    (s.compare t).isLE ↔ s.start < t.start ∨ s.start = t.start ∧ s.stop ≤ t.stop := by
  simp [compare, Ordering.isLE_then_iff_or, Nat.isLE_compare, Nat.compare_eq_lt]

end Span

namespace Text

variable {t u w front back : Text} {s : Span} {n : Nat}

theorem byteSize_pos (ne : t ≠ []) : 0 < byteSize t := by
  obtain ⟨c, rest, rfl⟩ := List.exists_cons_of_ne_nil ne
  exact Nat.add_pos_left c.utf8Size_pos _

theorem splitAt?_append (front back : Text) :
    splitAt? (byteSize front) (front ++ back) = some (front, back) := by
  induction front with
  | nil => simp [splitAt?]
  | cons x front ih =>
    obtain ⟨n, size⟩ : ∃ n, byteSize (x :: front) = n + 1 :=
      Nat.exists_eq_succ_of_ne_zero (by have := x.utf8Size_pos; simp; omega)
    have rest : n + 1 - x.utf8Size = byteSize front := by
      rw [← size, byteSize_cons, Nat.add_sub_cancel_left]
    have le : x.utf8Size ≤ n + 1 := by
      rw [← size, byteSize_cons]
      exact Nat.le_add_right _ _
    rw [size, List.cons_append, splitAt?, if_pos le, rest, ih]
    rfl

theorem splitAt?_eq_some_iff :
    splitAt? n t = some (front, back) ↔ t = front ++ back ∧ n = byteSize front := by
  constructor
  · intro h
    induction t generalizing n front with
    | nil =>
      cases n with
      | zero =>
        obtain ⟨rfl, rfl⟩ := Prod.mk.inj (Option.some.inj h)
        exact ⟨rfl, rfl⟩
      | succ n => simp [splitAt?] at h
    | cons x t ih =>
      cases n with
      | zero =>
        obtain ⟨rfl, rfl⟩ := Prod.mk.inj (Option.some.inj h)
        exact ⟨rfl, rfl⟩
      | succ n =>
        rw [splitAt?] at h
        split at h
        · rename_i le
          obtain ⟨⟨rest, back'⟩, split, eq⟩ := Option.map_eq_some_iff.1 h
          obtain ⟨rfl, rfl⟩ := Prod.mk.inj eq
          obtain ⟨rfl, size⟩ := ih split
          exact ⟨rfl, by rw [byteSize_cons]; omega⟩
        · simp at h
  · rintro ⟨rfl, rfl⟩
    exact splitAt?_append front back

theorem slice?_eq_some_iff : slice? t s = some w ↔
    ∃ front back, t = front ++ w ++ back ∧ s = ⟨byteSize front, byteSize front + byteSize w⟩ := by
  obtain ⟨start, stop⟩ := s
  simp only [slice?, Option.bind_eq_bind, Option.pure_def, Span.mk.injEq]
  constructor
  · intro h
    split at h
    · rename_i le
      simp only [Option.bind_eq_some_iff] at h
      obtain ⟨⟨front, rest⟩, first, ⟨middle, back⟩, second, eq⟩ := h
      obtain ⟨rfl, rfl⟩ := splitAt?_eq_some_iff.1 first
      obtain ⟨rfl, size⟩ := splitAt?_eq_some_iff.1 second
      obtain rfl := Option.some.inj eq
      dsimp only at size ⊢
      exact ⟨front, back, (List.append_assoc _ _ _).symm, rfl, by omega⟩
    · simp at h
  · rintro ⟨front, back, rfl, rfl, rfl⟩
    rw [if_pos (Nat.le_add_right _ _), List.append_assoc, Nat.add_sub_cancel_left]
    simp [splitAt?_append]

theorem slice_eq (h : slice? t s = some w) : slice t s = w := by
  rw [slice, h, Option.getD_some]

/-- A text is its own slice. -/
theorem slice?_self (t : Text) : slice? t ⟨0, byteSize t⟩ = some t :=
  slice?_eq_some_iff.2 ⟨[], [], by simp, by simp⟩

/-- The front of a text is its slice from the start on. -/
theorem slice?_front (front back : Text) :
    slice? (front ++ back) ⟨0, byteSize front⟩ = some front :=
  slice?_eq_some_iff.2 ⟨[], back, by simp, by simp⟩

theorem stop_of_slice? (h : slice? t s = some w) : s.stop = s.start + byteSize w := by
  obtain ⟨front, back, -, rfl⟩ := slice?_eq_some_iff.1 h
  rfl

theorem stop_le_of_slice? (h : slice? t s = some w) : s.stop ≤ byteSize t := by
  obtain ⟨front, back, rfl, rfl⟩ := slice?_eq_some_iff.1 h
  simp only [byteSize_append]
  omega

/-- A slice that ends before the text is shorter. -/
theorem length_lt_of_slice? (h : slice? t s = some w) (lt : s.stop < byteSize t) :
    w.length < t.length := by
  obtain ⟨front, back, rfl, rfl⟩ := slice?_eq_some_iff.1 h
  have : back ≠ [] := by
    rintro rfl
    simp at lt
  have := List.length_pos_of_ne_nil this
  simp only [List.length_append]
  omega

/-- A slice of a slice is a slice of the whole. -/
theorem slice?_shift (h : slice? t s = some u) {inner : Span} (g : slice? u inner = some w) :
    slice? t (inner.shift s.start) = some w := by
  obtain ⟨front, back, rfl, rfl⟩ := slice?_eq_some_iff.1 h
  obtain ⟨before, after, rfl, rfl⟩ := slice?_eq_some_iff.1 g
  refine slice?_eq_some_iff.2 ⟨front ++ before, after ++ back, ?_, ?_⟩
  · simp only [List.append_assoc]
  · simp only [Span.shift, byteSize_append, Nat.add_assoc]

theorem eq_nil_of_slice?_of_stop_eq (h : slice? t s = some w) (empty : s.stop = s.start) :
    w = [] := by
  have size := stop_of_slice? h
  by_contra ne
  have := byteSize_pos ne
  omega

/-- Also where there is no slice, what is inside it reads as it does in the whole. -/
theorem slice_shift {inner : Span} (h : slice? (slice t s) inner = some w) :
    slice t (inner.shift s.start) = w := by
  cases outer : slice? t s with
  | some u =>
    rw [slice_eq outer] at h
    exact slice_eq (slice?_shift outer h)
  | none =>
    rw [slice, outer, Option.getD_none] at h
    obtain ⟨front, back, text, rfl⟩ := slice?_eq_some_iff.1 h
    obtain ⟨rfl, rfl, rfl⟩ : front = [] ∧ w = [] ∧ back = [] := by simpa using text.symm
    rw [slice]
    cases found : slice? t _ with
    | none => rfl
    | some u => exact eq_nil_of_slice?_of_stop_eq found rfl

/-- A slice of a slice lies inside it. -/
theorem contains_shift (h : slice? t s = some u) {inner : Span} (g : slice? u inner = some w) :
    s.contains (inner.shift s.start) := by
  have := stop_le_of_slice? g
  rw [Span.contains_iff, stop_of_slice? h]
  exact ⟨Nat.le_add_right _ _, Nat.add_le_add_left this _⟩

/-- What is cut off lies before and behind an occurrence. -/
theorem eq_of_cut? {pattern : Text} (h : cut? pattern t = some (front, back)) :
    t = front ++ pattern ++ back := by
  induction t generalizing front with
  | nil =>
    rw [cut?, Option.ite_none_right_eq_some] at h
    obtain ⟨empty, eq⟩ := h
    obtain ⟨rfl, rfl⟩ := Prod.mk.inj (Option.some.inj eq)
    simpa using empty
  | cons c t ih =>
    rw [cut?] at h
    split at h
    · rename_i rest occurs
      obtain ⟨rfl, rfl⟩ := Prod.mk.inj (Option.some.inj h)
      exact (List.isPrefixOf?_eq_some_iff_append_eq.1 occurs).symm
    · obtain ⟨⟨before, after⟩, later, eq⟩ := Option.map_eq_some_iff.1 h
      obtain ⟨rfl, rfl⟩ := Prod.mk.inj eq
      rw [ih later]
      rfl

/-- What is split keeps its characters in their order. -/
theorem sublist_of_mem_splitOnAtMost {piece separator : Text} {limit : Nat}
    (mem : piece ∈ splitOnAtMost separator limit t) : piece.Sublist t := by
  induction limit generalizing t with
  | zero => exact List.mem_singleton.1 mem ▸ List.Sublist.refl t
  | succ limit ih =>
    rw [splitOnAtMost] at mem
    split at mem
    · rename_i front back found
      rw [eq_of_cut? found]
      rcases List.mem_cons.1 mem with rfl | later
      · rw [List.append_assoc]
        exact List.sublist_append_left _ _
      · exact (ih later).trans (List.sublist_append_right _ back)
    · exact List.mem_singleton.1 mem ▸ List.Sublist.refl t

end Text

namespace Cursor

variable {t w : Text} {c d : Cursor} {s : Span}

/-- What lies between two places of a text is its slice there. -/
theorem IsPlace.slice?_spanTo (place : c.IsPlace t) (h : c.Through w d) :
    Text.slice? t (c.spanTo d) = some w := by
  refine Text.slice?_eq_some_iff.2 ⟨c.behind.reverse, d.ahead, ?_, ?_⟩
  · rw [List.append_assoc, ← h.ahead, place.text]
  · rw [spanTo, h.offset, place.offset, Text.byteSize_reverse]

theorem IsPlace.isSome_slice? (place : c.IsPlace t) (h : c.Reaches d) :
    (Text.slice? t (c.spanTo d)).isSome := by
  obtain ⟨w, through⟩ := h
  rw [place.slice?_spanTo through]
  rfl

/-- Every slice lies between two places. -/
theorem exists_through_of_slice? (h : Text.slice? t s = some w) :
    ∃ c d : Cursor, c.IsPlace t ∧ c.Through w d ∧ c.spanTo d = s := by
  obtain ⟨front, back, rfl, rfl⟩ := Text.slice?_eq_some_iff.1 h
  refine ⟨⟨front.reverse, w ++ back, Text.byteSize front⟩,
    ⟨w.reverse ++ front.reverse, back, Text.byteSize front + Text.byteSize w⟩,
    ⟨?_, ?_⟩, ⟨rfl, rfl, rfl⟩, rfl⟩
  · simp
  · exact (Text.byteSize_reverse front).symm

end Cursor

end RulesText
