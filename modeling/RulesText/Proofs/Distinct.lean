import Mathlib.Data.List.Induction

/-!
# Lists without repetitions

A list without its repetitions has every element once, where it first appears.
-/

namespace RulesText

variable {α β : Type} [BEq α] [LawfulBEq α] [BEq β] [LawfulBEq β] {a : α} {l : List α}

/-- An element that was there before does not count again. -/
theorem eraseDups_append_cons_of_mem (mem : a ∈ l) (rest : List α) :
    (l ++ a :: rest).eraseDups = (l ++ rest).eraseDups := by
  have here : ¬l.contains a = false := by simpa using mem
  rw [List.eraseDups_append, List.eraseDups_append, List.cons_removeAll, if_neg here]

theorem eraseDups_concat_of_mem (mem : a ∈ l) : (l ++ [a]).eraseDups = l.eraseDups := by
  rw [eraseDups_append_cons_of_mem mem, List.append_nil]

theorem eraseDups_concat_of_notMem (notMem : a ∉ l) :
    (l ++ [a]).eraseDups = l.eraseDups ++ [a] := by
  have new : l.contains a = false := by simpa using notMem
  rw [List.eraseDups_append, List.cons_removeAll, if_pos new, List.nil_removeAll]
  rfl

theorem eraseDups_of_nodup (nodup : l.Nodup) : l.eraseDups = l := by
  induction l using List.reverseRecOn with
  | nil => rfl
  | append_singleton l a ih =>
    obtain ⟨nodup, -, apart⟩ := List.nodup_append.1 nodup
    have notMem : a ∉ l := fun mem => apart a mem a List.mem_cons_self rfl
    rw [eraseDups_concat_of_notMem notMem, ih nodup]

theorem eraseDups_map {f : α → β} (inj : ∀ a ∈ l, ∀ b ∈ l, f a = f b → a = b) :
    (l.map f).eraseDups = l.eraseDups.map f := by
  induction l using List.reverseRecOn with
  | nil => rfl
  | append_singleton l a ih =>
    have ih := ih fun b mem c mem' => inj b (by simp [mem]) c (by simp [mem'])
    rw [List.map_append, List.map_singleton]
    by_cases mem : a ∈ l
    · rw [eraseDups_concat_of_mem (List.mem_map_of_mem mem), eraseDups_concat_of_mem mem, ih]
    · have new : f a ∉ l.map f := by
        rw [List.mem_map]
        rintro ⟨b, mem', eq⟩
        exact mem (inj b (by simp [mem']) a (by simp) eq ▸ mem')
      rw [eraseDups_concat_of_notMem new, eraseDups_concat_of_notMem mem, ih, List.map_append,
        List.map_singleton]

end RulesText
