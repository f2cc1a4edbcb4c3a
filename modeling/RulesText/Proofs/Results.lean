import Mathlib.Data.List.Perm.Basic
import RulesText.Fault

/-!
# Results that may be faults

What is done step by step succeeds where every step does, and fails with the first fault. What is
done to every element of a list gives its results place by place.
-/

namespace RulesText

variable {α β : Type} {f : α → Except Fault β} {fault : Fault}

theorem bind_eq_ok {x : Except Fault α} {b : β} :
    x >>= f = .ok b ↔ ∃ a, x = .ok a ∧ f a = .ok b := by
  cases x with
  | error fault => simp [bind, Except.bind]
  | ok a => simp [bind, Except.bind]

theorem bind_eq_error {x : Except Fault α} :
    x >>= f = .error fault ↔ x = .error fault ∨ ∃ a, x = .ok a ∧ f a = .error fault := by
  cases x with
  | error other => simp [bind, Except.bind]
  | ok a => simp [bind, Except.bind]

/-! ## Lists -/

variable {l : List α} {bs : List β}

theorem exists_of_forall₂ {R : α → β → Prop} (h : List.Forall₂ R l bs) {a : α} (mem : a ∈ l) :
    ∃ b ∈ bs, R a b := by
  induction h with
  | nil => simp at mem
  | cons first _ ih =>
    rcases List.mem_cons.1 mem with rfl | mem
    · exact ⟨_, List.mem_cons_self, first⟩
    · obtain ⟨b, mem, rel⟩ := ih mem
      exact ⟨b, List.mem_cons_of_mem _ mem, rel⟩

theorem mapM_eq_ok : l.mapM f = .ok bs ↔ List.Forall₂ (fun a b => f a = .ok b) l bs := by
  induction l generalizing bs with
  | nil =>
    rw [List.mapM_nil, List.forall₂_nil_left_iff]
    exact ⟨fun h => (Except.ok.inj h).symm, fun h => h ▸ rfl⟩
  | cons a l ih =>
    rw [List.mapM_cons, List.forall₂_cons_left_iff]
    simp only [bind_eq_ok, ih]
    constructor
    · rintro ⟨b, first, bs, rest, eq⟩
      exact ⟨b, bs, first, rest, (Except.ok.inj eq).symm⟩
    · rintro ⟨b, bs, first, rest, rfl⟩
      exact ⟨b, first, bs, rest, rfl⟩

theorem exists_of_mapM_eq_error (h : l.mapM f = .error fault) :
    ∃ a ∈ l, f a = .error fault := by
  induction l with
  | nil => cases h
  | cons a l ih =>
    rw [List.mapM_cons] at h
    rcases bind_eq_error.1 h with first | ⟨b, -, h⟩
    · exact ⟨a, List.mem_cons_self, first⟩
    · rcases bind_eq_error.1 h with rest | ⟨bs, -, h⟩
      · obtain ⟨a, mem, eq⟩ := ih rest
        exact ⟨a, List.mem_cons_of_mem _ mem, eq⟩
      · cases h

theorem exists_mapM_eq_ok (all : ∀ a ∈ l, ∃ b, f a = .ok b) : ∃ bs, l.mapM f = .ok bs := by
  cases eq : l.mapM f with
  | ok bs => exact ⟨bs, rfl⟩
  | error fault =>
    obtain ⟨a, mem, failed⟩ := exists_of_mapM_eq_error eq
    obtain ⟨b, ok⟩ := all a mem
    cases failed.symm.trans ok

/-- What is done to every thing in a list is done to them in any order. -/
theorem exists_mapM_perm {l' : List α} (perm : l.Perm l') (ok : l.mapM f = .ok bs) :
    ∃ bs', l'.mapM f = .ok bs' ∧ bs.Perm bs' := by
  obtain ⟨bs', results, perm'⟩ := List.perm_comp_forall₂ perm.symm (mapM_eq_ok.1 ok)
  exact ⟨bs', mapM_eq_ok.2 results, perm'.symm⟩

end RulesText
