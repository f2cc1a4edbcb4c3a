import Mathlib.Data.List.Sort
import RulesText.Proofs.Sorting
import RulesText.Tally

/-!
# Tallies of texts

A tally has every text of a list once, in ascending order, with the number of times it occurs.
-/

namespace RulesText

section

variable {α : Type} [BEq α] [LawfulBEq α] {a b : α} {l : List α}

omit [LawfulBEq α] in
theorem eraseReps_loop (a : α) (l acc : List α) :
    List.eraseRepsBy.loop (· == ·) a l acc = acc.reverse ++ (a :: l).eraseReps := by
  induction l generalizing a acc with
  | nil => simp [List.eraseReps, List.eraseRepsBy, List.eraseRepsBy.loop]
  | cons b l ih =>
    rw [List.eraseReps, List.eraseRepsBy, List.eraseRepsBy.loop, List.eraseRepsBy.loop]
    split
    · rw [ih, ih, List.reverse_nil, List.nil_append]
    · rw [ih, ih b [a]]
      simp

omit [LawfulBEq α] in
theorem eraseReps_cons_cons : (a :: b :: l).eraseReps =
    if a == b then (a :: l).eraseReps else a :: (b :: l).eraseReps := by
  rw [List.eraseReps, List.eraseRepsBy, List.eraseRepsBy.loop]
  cases a == b with
  | true => rw [eraseReps_loop, if_pos rfl, List.reverse_nil, List.nil_append]
  | false => simp [eraseReps_loop]

theorem mem_eraseReps {x : α} : x ∈ l.eraseReps ↔ x ∈ l := by
  induction l with
  | nil => rfl
  | cons a l ih =>
    cases l with
    | nil => rfl
    | cons b l =>
      rw [eraseReps_cons_cons]
      split
      · rename_i eq
        rw [beq_iff_eq.1 eq, ih, List.mem_cons, List.mem_cons, List.mem_cons, ← or_assoc, or_self]
      · rw [List.mem_cons, ih, ← List.mem_cons]

/-- Repetitions in an ascending list stand side by side, so none is left. -/
theorem pairwise_eraseReps {r : α → α → Prop} (trans : ∀ a b c, r a b → r b c → r a c)
    (h : l.Pairwise fun a b => r a b ∨ a = b) :
    l.eraseReps.Pairwise r := by
  induction l with
  | nil => exact .nil
  | cons a l ih =>
    cases l with
    | nil => exact List.pairwise_singleton r a
    | cons b l =>
      obtain ⟨first, rest⟩ := List.pairwise_cons.1 h
      rw [eraseReps_cons_cons]
      split
      · rename_i eq
        exact beq_iff_eq.1 eq ▸ ih rest
      · rename_i ne
        have lt : r a b := (first b List.mem_cons_self).resolve_right fun eq => ne (beq_iff_eq.2 eq)
        refine List.pairwise_cons.2 ⟨fun x mem => ?_, ih rest⟩
        rcases List.mem_cons.1 (mem_eraseReps.1 mem) with rfl | mem
        · exact lt
        · rcases (List.pairwise_cons.1 rest).1 x mem with lt' | rfl
          · exact trans a b x lt lt'
          · exact lt

end

namespace Tally

variable {texts others : List Text} {t : Text} {n : Nat}

theorem mem_sortedDistinct : t ∈ sortedDistinct texts ↔ t ∈ texts := by
  rw [sortedDistinct, mem_eraseReps, List.mem_mergeSort]

/-- The different texts ascend. -/
theorem pairwise_sortedDistinct (texts : List Text) : (sortedDistinct texts).Pairwise (· < ·) := by
  refine pairwise_eraseReps
    (fun (s t u : Text) (lt : s < t) (lt' : t < u) => List.lt_trans lt lt') ?_
  refine (Sorting.pairwise_isLE Text.compare texts).imp fun {s t} le => ?_
  cases eq : Text.compare s t with
  | lt => exact .inl (Text.compare_eq_lt_iff.1 eq)
  | eq => exact .inr (Text.compare_eq_eq_iff.1 eq)
  | gt => simp [eq] at le

theorem nodup_sortedDistinct (texts : List Text) : (sortedDistinct texts).Nodup := by
  refine (pairwise_sortedDistinct texts).imp ?_
  rintro s _ lt rfl
  exact List.lt_irrefl s lt

/-- A tally lists the texts that occur, with how often they do. -/
theorem mem_ofList : (t, n) ∈ ofList texts ↔ t ∈ texts ∧ n = texts.count t := by
  rw [ofList, List.mem_map]
  constructor
  · rintro ⟨s, mem, eq⟩
    obtain ⟨rfl, rfl⟩ := Prod.mk.inj eq
    exact ⟨mem_sortedDistinct.1 mem, rfl⟩
  · rintro ⟨mem, rfl⟩
    exact ⟨t, mem_sortedDistinct.2 mem, rfl⟩

/-- The same texts, in whatever order and number. -/
theorem sortedDistinct_congr (same : ∀ t, t ∈ texts ↔ t ∈ others) :
    sortedDistinct texts = sortedDistinct others :=
  (pairwise_sortedDistinct texts).eq_of_mem_iff (pairwise_sortedDistinct others) fun t => by
    rw [mem_sortedDistinct, mem_sortedDistinct, same]

theorem ofList_perm (perm : texts.Perm others) : ofList texts = ofList others := by
  rw [ofList, ofList, sortedDistinct_congr fun _ => perm.mem_iff]
  exact List.map_congr_left fun t _ => by rw [perm.count_eq]

end Tally

end RulesText
