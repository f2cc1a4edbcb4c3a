import Mathlib.Data.List.Basic
import RulesText.Gap.SuffixAutomaton

/-!
# States of suffix automata

What each step of the construction leaves in each state: pushing a state, changing one, leading
several states to a new target, and splitting a state.

## Main definitions

* `SuffixState.Sorted`: the next elements of a state ascend, so each has one target.
-/

namespace RulesText

namespace SuffixState

/-! ## Targets -/

theorem lookup_insertKey (x q y : Nat) (next : List (Nat × Nat)) :
    (insertKey x q next).lookup y = if y = x then some q else next.lookup y := by
  induction next with
  | nil => by_cases h : y = x <;> simp [insertKey, h]
  | cons entry rest ih =>
    obtain ⟨z, r⟩ := entry
    simp only [insertKey]
    split
    · by_cases h : y = x
      · simp [h]
      · simp [List.lookup_cons, beq_false_of_ne h, h]
    · split
      · rename_i eq
        by_cases h : y = x
        · simp [h]
        · simp [List.lookup_cons, ← eq, beq_false_of_ne h, h]
      · rename_i ne
        by_cases h : y = z
        · simp [h, Ne.symm ne]
        · simp [List.lookup_cons, beq_false_of_ne h, ih]

theorem target?_setTarget (s : SuffixState) (x q y : Nat) :
    (s.setTarget x q).target? y = if y = x then some q else s.target? y :=
  lookup_insertKey x q y s.next

@[simp] theorem length_setTarget (s : SuffixState) (x q : Nat) :
    (s.setTarget x q).length = s.length := rfl

@[simp] theorem link?_setTarget (s : SuffixState) (x q : Nat) :
    (s.setTarget x q).link? = s.link? := rfl

@[simp] theorem count_setTarget (s : SuffixState) (x q : Nat) :
    (s.setTarget x q).count = s.count := rfl

@[simp] theorem endPos_setTarget (s : SuffixState) (x q : Nat) :
    (s.setTarget x q).endPos = s.endPos := rfl

/-- The next elements ascend. -/
def Sorted (s : SuffixState) : Prop :=
  s.next.Pairwise fun a b => a.1 < b.1

theorem mem_insertKey {x q : Nat} {next : List (Nat × Nat)} {entry : Nat × Nat}
    (h : entry ∈ insertKey x q next) : entry = (x, q) ∨ entry ∈ next := by
  induction next with
  | nil => simpa [insertKey] using h
  | cons first rest ih =>
    obtain ⟨z, r⟩ := first
    simp only [insertKey] at h
    grind

namespace Sorted

variable {s : SuffixState}

theorem setTarget (h : s.Sorted) (x q : Nat) : (s.setTarget x q).Sorted := by
  obtain ⟨next, _, _, _, _⟩ := s
  simp only [Sorted, SuffixState.setTarget] at h ⊢
  induction next with
  | nil => simp [insertKey]
  | cons entry rest ih =>
    obtain ⟨z, r⟩ := entry
    obtain ⟨first, sorted⟩ := List.pairwise_cons.1 h
    simp only [insertKey]
    split
    · rename_i lt
      refine List.pairwise_cons.2 ⟨fun b hb => ?_, h⟩
      rcases List.mem_cons.1 hb with rfl | hb
      · exact lt
      · exact Nat.lt_trans lt (first b hb)
    · split
      · rename_i eq
        exact List.pairwise_cons.2 ⟨fun b hb => eq ▸ first b hb, sorted⟩
      · refine List.pairwise_cons.2 ⟨fun b hb => ?_, ih sorted⟩
        rcases mem_insertKey hb with rfl | hb
        · show z < x
          omega
        · exact first b hb

/-- With ascending next elements, the entries are the targets. -/
theorem mem_next_iff (h : s.Sorted) {x q : Nat} :
    (x, q) ∈ s.next ↔ s.target? x = some q := by
  obtain ⟨next, _, _, _, _⟩ := s
  simp only [Sorted, target?] at h ⊢
  induction next with
  | nil => simp
  | cons entry rest ih =>
    obtain ⟨z, r⟩ := entry
    obtain ⟨first, sorted⟩ := List.pairwise_cons.1 h
    by_cases eq : x = z
    · subst eq
      have not : (x, q) ∉ rest := fun mem => Nat.lt_irrefl x (first (x, q) mem)
      simp [not, eq_comm]
    · simp [List.lookup_cons, beq_false_of_ne eq, eq, ih sorted]

end Sorted

end SuffixState

namespace SuffixAutomaton

/-! ## Single steps -/

theorem state_push (a : SuffixAutomaton) (s : SuffixState) (last : Nat) (sequence : Array Nat)
    (v : Nat) :
    (⟨a.states.push s, last, sequence⟩ : SuffixAutomaton).state v =
      if v = a.states.size then s else a.state v := by
  simp only [state, Array.getD_eq_getD_getElem?, Array.getElem?_push]
  split <;> rfl

@[simp] theorem size_modify (a : SuffixAutomaton) (u : Nat) (f : SuffixState → SuffixState) :
    (a.modify u f).states.size = a.states.size := by
  simp [modify]

theorem state_modify {a : SuffixAutomaton} {u : Nat} (h : u < a.states.size)
    (f : SuffixState → SuffixState) (v : Nat) :
    (a.modify u f).state v = if v = u then f (a.state v) else a.state v := by
  simp only [modify, state, Array.getD_eq_getD_getElem?, Array.getElem?_modify]
  by_cases eq : u = v
  · subst eq
    simp [h]
  · simp [eq, Ne.symm eq]

@[simp] theorem size_setLink (a : SuffixAutomaton) (u w : Nat) :
    (a.setLink u w).states.size = a.states.size := by
  simp [setLink]

theorem state_setLink {a : SuffixAutomaton} {u : Nat} (h : u < a.states.size) (w v : Nat) :
    (a.setLink u w).state v =
      if v = u then { a.state v with link? := some w } else a.state v :=
  state_modify h _ v

@[simp] theorem size_setTargets (a : SuffixAutomaton) (sources : List Nat) (x q : Nat) :
    (a.setTargets sources x q).states.size = a.states.size := by
  induction sources generalizing a with
  | nil => rfl
  | cons u rest ih =>
    rw [setTargets, List.foldl_cons]
    exact (ih _).trans (size_modify ..)

theorem state_setTargets {a : SuffixAutomaton} {sources : List Nat} (nodup : sources.Nodup)
    (h : ∀ u ∈ sources, u < a.states.size) (x q v : Nat) :
    (a.setTargets sources x q).state v =
      if v ∈ sources then (a.state v).setTarget x q else a.state v := by
  induction sources generalizing a with
  | nil => simp [setTargets]
  | cons u rest ih =>
    obtain ⟨fresh, nodup⟩ := List.nodup_cons.1 nodup
    have inside : ∀ w ∈ rest, w < (a.modify u (.setTarget x q)).states.size := by
      simpa using fun w hw => h w (List.mem_cons_of_mem _ hw)
    rw [setTargets, List.foldl_cons]
    refine (ih nodup inside).trans ?_
    rw [state_modify (h u List.mem_cons_self)]
    by_cases eq : v = u
    · subst eq
      simp [fresh]
    · simp [eq]

@[simp] theorem size_copy (a : SuffixAutomaton) (length q : Nat) :
    (a.copy length q).states.size = a.states.size + 1 := by
  simp [copy]

theorem state_copy (a : SuffixAutomaton) (length q v : Nat) :
    (a.copy length q).state v =
      if v = a.states.size then { a.state q with length, count := 0 } else a.state v :=
  state_push ..

@[simp] theorem size_split (a : SuffixAutomaton) (sources : List Nat) (length x q : Nat) :
    (a.split sources length x q).states.size = a.states.size + 1 := by
  simp [split]

theorem state_split {a : SuffixAutomaton} {sources : List Nat} {x q : Nat}
    (hq : q < a.states.size) (nodup : sources.Nodup) (h : ∀ u ∈ sources, u < a.states.size)
    (other : q ∉ a.redirected sources x q) (length v : Nat) :
    (a.split sources length x q).state v =
      if v = a.states.size then { a.state q with length, count := 0 }
      else if v = q then { a.state q with link? := some a.states.size }
      else if v ∈ a.redirected sources x q then (a.state v).setTarget x a.states.size
      else a.state v := by
  have sub : (a.redirected sources x q).Sublist sources := List.takeWhile_sublist _
  have inside : ∀ u ∈ a.redirected sources x q, u < (a.copy length q).states.size :=
    fun u hu => by simpa using Nat.lt_succ_of_lt (h u (sub.subset hu))
  have fresh : a.states.size ∉ a.redirected sources x q := fun mem =>
    Nat.lt_irrefl _ (h _ (sub.subset mem))
  rw [split, state_setLink (by simpa using Nat.lt_succ_of_lt hq),
    state_setTargets (nodup.sublist sub) inside, state_copy]
  by_cases new : v = a.states.size
  · subst new
    rw [if_neg (Nat.ne_of_lt hq).symm, if_neg fresh, if_pos rfl, if_pos rfl]
  · by_cases eq : v = q
    · subst eq
      rw [if_pos rfl, if_neg other, if_neg new, if_neg new, if_pos rfl]
    · rw [if_neg eq, if_neg new, if_neg new, if_neg eq]

@[simp] theorem last_modify (a : SuffixAutomaton) (u : Nat) (f : SuffixState → SuffixState) :
    (a.modify u f).last = a.last := rfl

@[simp] theorem sequence_modify (a : SuffixAutomaton) (u : Nat)
    (f : SuffixState → SuffixState) : (a.modify u f).sequence = a.sequence := rfl

@[simp] theorem last_setTargets (a : SuffixAutomaton) (sources : List Nat) (x q : Nat) :
    (a.setTargets sources x q).last = a.last := by
  induction sources generalizing a with
  | nil => rfl
  | cons u rest ih => exact ih _

@[simp] theorem sequence_setTargets (a : SuffixAutomaton) (sources : List Nat) (x q : Nat) :
    (a.setTargets sources x q).sequence = a.sequence := by
  induction sources generalizing a with
  | nil => rfl
  | cons u rest ih => exact ih _

end SuffixAutomaton

end RulesText
