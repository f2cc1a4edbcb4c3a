import Mathlib.Data.List.Basic
import RulesText.Text.Basic

/-!
# Sorting by a comparison

What is sorted by a comparison ascends, and strictly so if no two things compare as equal. Things
that compare as equal keep their order. Texts are compared character by character, as lists are.
-/

namespace RulesText

namespace Sorting

variable {α β : Type} (cmp : α → α → Ordering)

theorem pairwise_isLE [Std.TransCmp cmp] (l : List α) :
    (l.mergeSort fun a b => (cmp a b).isLE).Pairwise fun a b => (cmp a b).isLE := by
  refine List.pairwise_mergeSort (fun _ _ _ => Std.TransCmp.isLE_trans) (fun a b => ?_) l
  have swap : cmp b a = (cmp a b).swap := Std.OrientedCmp.eq_swap
  rw [swap]
  cases cmp a b <;> rfl

/-- Sorting the images of things puts the things in an order. -/
theorem exists_map (f : β → α) (l : List β) : ∃ order : List β, order.Perm l ∧
    (l.map f).mergeSort (fun a b => (cmp a b).isLE) = order.map f := by
  refine ⟨l.mergeSort fun a b => (cmp (f a) (f b)).isLE, List.mergeSort_perm l _, ?_⟩
  symm
  apply List.map_mergeSort
  intro _ _ _ _
  rfl

variable {cmp}

theorem pairwise_lt {l : List α} (distinct : l.Pairwise fun a b => cmp a b ≠ .eq)
    (sorted : l.Pairwise fun a b => (cmp a b).isLE) : l.Pairwise fun a b => cmp a b = .lt := by
  refine (distinct.and sorted).imp fun {a b} ⟨ne, le⟩ => ?_
  cases eq : cmp a b with
  | lt => rfl
  | eq => exact absurd eq ne
  | gt => simp [eq] at le

/-- There is one way to sort things of which no two different ones compare as equal. -/
theorem eq_of_perm [Std.OrientedCmp cmp] [Std.LawfulEqCmp cmp] {l l' : List α} (perm : l.Perm l')
    (sorted : l.Pairwise fun a b => (cmp a b).isLE)
    (sorted' : l'.Pairwise fun a b => (cmp a b).isLE) : l = l' := by
  refine perm.eq_of_pairwise (fun a b _ _ le ge => ?_) sorted sorted'
  have swap : cmp b a = (cmp a b).swap := Std.OrientedCmp.eq_swap
  rw [swap] at ge
  refine Std.LawfulEqCmp.eq_of_compare (?_ : cmp a b = .eq)
  cases h : cmp a b <;> simp_all

/-- What ascends already stays in this order where sorting finds a tie. -/
theorem pairwise_of_ties {le : α → α → Bool} {r : α → α → Prop}
    (trans : ∀ a b c, le a b → le b c → le a c) (total : ∀ a b, le a b || le b a) {l : List α}
    (h : l.Pairwise r) : (l.mergeSort le).Pairwise fun a b => le a b ∧ (le b a → r a b) := by
  induction l with
  | nil => simp
  | cons a l ih =>
    obtain ⟨first, rest⟩ := List.pairwise_cons.1 h
    obtain ⟨front, back, sorted, others, before⟩ := List.mergeSort_cons trans total a l
    have ih := ih rest
    have ascends := List.pairwise_mergeSort trans total (a :: l)
    rw [sorted] at ascends ⊢
    rw [others, List.pairwise_append] at ih
    obtain ⟨front_ok, back_ok, cross⟩ := ih
    have behind : ∀ b ∈ back, le a b :=
      (List.pairwise_cons.1 (List.pairwise_append.1 ascends).2.1).1
    have mem_back : ∀ b ∈ back, b ∈ l := by
      intro b mem
      have mem : b ∈ l.mergeSort le := others ▸ List.mem_append_right _ mem
      exact List.mem_mergeSort.1 mem
    refine List.pairwise_append.2 ⟨front_ok, List.pairwise_cons.2 ⟨fun b mem => ?_, back_ok⟩,
      fun b mem c later => ?_⟩
    · exact ⟨behind b mem, fun _ => first b (mem_back b mem)⟩
    · rcases List.mem_cons.1 later with rfl | later
      · have not_le := before b mem
        have le := total c b
        simp_all
      · exact cross b mem c later

end Sorting

namespace Text

variable {s t : Text}

theorem compare_eq_lt_iff : compare s t = .lt ↔ s < t := by
  induction s generalizing t with
  | nil => cases t <;> simp [compare]
  | cons x s ih =>
    cases t with
    | nil => simp [compare]
    | cons y t =>
      have first : Ord.compare x y = .lt ↔ x < y := compareOfLessAndEq_eq_lt
      have same : Ord.compare x y = .eq ↔ x = y := Std.LawfulEqOrd.compare_eq_iff_eq
      rw [compare, List.compare_cons_cons, Ordering.then_eq_lt, first, same,
        List.cons_lt_cons_iff, ← ih, compare]

theorem compare_eq_eq_iff : compare s t = .eq ↔ s = t :=
  Std.LawfulEqOrd.compare_eq_iff_eq

instance : Std.TransCmp compare :=
  inferInstanceAs (Std.TransCmp (Ord.compare (α := Text)))

end Text

end RulesText
