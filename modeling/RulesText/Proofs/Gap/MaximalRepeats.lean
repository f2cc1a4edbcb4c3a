import RulesText.Proofs.Gap.Occurrences

/-!
# Maximal repeats

A maximal repeat occurs at least twice inside single sequences, and every longer run occurs less
often. Which runs are maximal repeats does not depend on the names of the elements.

## Main definitions

* `IsMaximalRepeat`: a run is a maximal repeat of several sequences.
-/

namespace RulesText

variable {α β : Type} [DecidableEq α] [DecidableEq β]

/-- The run `w` occurs at least twice inside single sequences, and less often with any element
added at its end or at its start. -/
structure IsMaximalRepeat (items : List (List α)) (w : List α) : Prop where
  ne_nil : w ≠ []
  twice : 2 ≤ occurrencesIn items w
  after : ∀ x, occurrencesIn items (w ++ [x]) < occurrencesIn items w
  before : ∀ x, occurrencesIn items (x :: w) < occurrencesIn items w

variable {items : List (List α)} {s w u : List α} {x : α}

theorem isInfix_of_occurrencesIn_pos (h : 0 < occurrencesIn items w) : ∃ s ∈ items, w <:+: s := by
  induction items with
  | nil => simp [occurrencesIn] at h
  | cons s items ih =>
    rw [occurrencesIn_cons] at h
    by_cases here : 0 < occurrences s w
    · exact ⟨s, List.mem_cons_self, isInfix_of_occurrences_pos here⟩
    · obtain ⟨t, mem, inside⟩ := ih (by omega)
      exact ⟨t, List.mem_cons_of_mem _ mem, inside⟩

theorem occurrencesIn_eq_zero (mem : x ∈ w) (absent : ∀ s ∈ items, x ∉ s) :
    occurrencesIn items w = 0 := by
  by_contra ne
  obtain ⟨s, mem_s, inside⟩ := isInfix_of_occurrencesIn_pos (Nat.pos_of_ne_zero ne)
  exact absent s mem_s (inside.subset mem)

namespace IsMaximalRepeat

theorem perm {others : List (List α)} (perm : items.Perm others) (h : IsMaximalRepeat items w) :
    IsMaximalRepeat others w := by
  have same := occurrencesIn_perm perm
  exact ⟨h.ne_nil, same w ▸ h.twice, fun x => same _ ▸ same w ▸ h.after x,
    fun x => same _ ▸ same w ▸ h.before x⟩

theorem exists_isInfix (h : IsMaximalRepeat items w) : ∃ s ∈ items, w <:+: s :=
  isInfix_of_occurrencesIn_pos (Nat.zero_lt_of_lt h.twice)

/-- A maximal repeat is no proper part of another run that occurs as often. -/
theorem eq_of_isInfix (h : IsMaximalRepeat items u) (inside : u <:+: w)
    (eq : occurrencesIn items u = occurrencesIn items w) : u = w := by
  obtain ⟨front, back, rfl⟩ := inside
  cases back with
  | cons x back =>
    have longer : u ++ [x] <:+: front ++ u ++ x :: back := ⟨front, back, by simp⟩
    have := occurrencesIn_le_of_isInfix longer (by simp) items
    have := h.after x
    omega
  | nil =>
    rcases List.eq_nil_or_concat' front with rfl | ⟨front, x, rfl⟩
    · simp
    · have longer : x :: u <:+: front ++ [x] ++ u ++ [] := ⟨front, [], by simp⟩
      have := occurrencesIn_le_of_isInfix longer (by simp) items
      have := h.before x
      omega

/-- Maximal repeats stay maximal repeats when the elements get other names. -/
theorem map_iff {f : α → β} (h : ∀ s ∈ items, ∀ x ∈ s, ∀ y, f x = f y → x = y) :
    IsMaximalRepeat (items.map (·.map f)) (w.map f) ↔ IsMaximalRepeat items w := by
  have counts : ∀ v : List α, occurrencesIn (items.map (·.map f)) (v.map f) =
      occurrencesIn items v := fun v => occurrencesIn_map h
  constructor
  · intro max
    refine ⟨fun nil => max.ne_nil (by simp [nil]), counts w ▸ max.twice, fun x => ?_, fun x => ?_⟩
    · have := max.after (f x)
      rwa [← List.map_singleton, ← List.map_append, counts, counts] at this
    · have := max.before (f x)
      rwa [← List.map_cons, counts, counts] at this
  · intro max
    -- an element that is not among the renamed ones occurs nowhere
    have absent : ∀ y, (∀ x, f x ≠ y) → ∀ s ∈ items.map (·.map f), y ∉ s := by
      intro y new s mem mem_y
      obtain ⟨t, -, rfl⟩ := List.mem_map.1 mem
      obtain ⟨x, -, eq⟩ := List.mem_map.1 mem_y
      exact new x eq
    have twice : 2 ≤ occurrencesIn (items.map (·.map f)) (w.map f) := (counts w).symm ▸ max.twice
    refine ⟨by simpa using max.ne_nil, twice, fun y => ?_, fun y => ?_⟩
    · by_cases old : ∃ x, f x = y
      · obtain ⟨x, rfl⟩ := old
        rw [← List.map_singleton, ← List.map_append, counts, counts]
        exact max.after x
      · rw [occurrencesIn_eq_zero (x := y) (by simp) (absent y fun x eq => old ⟨x, eq⟩)]
        omega
    · by_cases old : ∃ x, f x = y
      · obtain ⟨x, rfl⟩ := old
        rw [← List.map_cons, counts, counts]
        exact max.before x
      · rw [occurrencesIn_eq_zero (x := y) (by simp) (absent y fun x eq => old ⟨x, eq⟩)]
        omega

end IsMaximalRepeat

end RulesText
