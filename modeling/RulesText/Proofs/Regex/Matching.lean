import RulesText.Proofs.Cursor
import RulesText.Regex.Searcher

/-!
# What expressions match

An expression relates each place of a text to the places where a match that begins there can
end. Which of them a search prefers is left open.

## Main definitions

* `Rounds`: a number of steps of a relation, one after the other.
* `Regex.Matches`: the ends of the matches of an expression at a place.
* `Regex.Carries`: the same for matches with the groups that they have captured.
-/

namespace RulesText

/-- A relation between the beginnings and the ends of matches. -/
abbrev Ends (α : Type) := α → α → Prop

namespace Ends

/-- Every match goes ahead in its text. -/
def Forward (M : Ends Cursor) : Prop :=
  ∀ c d, M c d → c.Reaches d

variable {α β : Type}

/-- So many matches, one after the other. -/
def Rounds (M : Ends α) : Nat → Ends α
  | 0, c, d => d = c
  | n + 1, c, d => ∃ e, M c e ∧ Rounds M n e d

variable {M N : Ends α} {c d e : α} {n m : Nat}

theorem Rounds.one (h : M c d) : Rounds M 1 c d :=
  ⟨d, h, rfl⟩

theorem Rounds.trans (h : Rounds M n c d) (g : Rounds M m d e) : Rounds M (n + m) c e := by
  induction n generalizing c with
  | zero =>
    obtain rfl := h
    rwa [Nat.zero_add]
  | succ n ih =>
    obtain ⟨f, first, rest⟩ := h
    rw [Nat.add_right_comm]
    exact ⟨f, first, ih rest⟩

theorem Rounds.split (h : Rounds M (n + m) c e) : ∃ d, Rounds M n c d ∧ Rounds M m d e := by
  induction n generalizing c with
  | zero => exact ⟨c, rfl, by rwa [Nat.zero_add] at h⟩
  | succ n ih =>
    rw [Nat.add_right_comm] at h
    obtain ⟨f, first, rest⟩ := h
    obtain ⟨d, front, back⟩ := ih rest
    exact ⟨d, ⟨f, first, front⟩, back⟩

theorem rounds_succ_iff : (∃ k ≤ n + 1, Rounds M k c d) ↔
    d = c ∨ ∃ e, M c e ∧ ∃ k ≤ n, Rounds M k e d := by
  constructor
  · rintro ⟨k, le, rounds⟩
    cases k with
    | zero => exact .inl rounds
    | succ k =>
      obtain ⟨e, first, rest⟩ := rounds
      exact .inr ⟨e, first, k, Nat.le_of_succ_le_succ le, rest⟩
  · rintro (rfl | ⟨e, first, k, le, rest⟩)
    · exact ⟨0, Nat.zero_le _, rfl⟩
    · exact ⟨k + 1, Nat.succ_le_succ le, e, first, rest⟩

theorem exists_rounds_succ_iff :
    (∃ k, Rounds M (k + 1) c d) ↔ ∃ e, M c e ∧ ∃ k, Rounds M k e d :=
  ⟨fun ⟨k, e, first, rest⟩ => ⟨e, first, k, rest⟩, fun ⟨e, first, k, rest⟩ => ⟨k, e, first, rest⟩⟩

/-- A number of matches within the given bounds. -/
def Between (M : Ends α) (least : Nat) (most : Option Nat) : Ends α :=
  fun c d => ∃ n, least ≤ n ∧ (∀ m, most = some m → n ≤ max least m) ∧ Rounds M n c d

theorem between_some_iff {most : Nat} : Between M n (some most) c d ↔
    ∃ e, Rounds M n c e ∧ ∃ k ≤ most - n, Rounds M k e d := by
  constructor
  · rintro ⟨k, least, bound, rounds⟩
    have bound := bound most rfl
    obtain ⟨rest, rfl⟩ := Nat.exists_eq_add_of_le least
    obtain ⟨e, front, back⟩ := rounds.split
    exact ⟨e, front, rest, by omega, back⟩
  · rintro ⟨e, front, k, le, back⟩
    refine ⟨n + k, by omega, ?_, front.trans back⟩
    rintro _ ⟨⟩
    omega

theorem between_none_iff : Between M n none c d ↔
    ∃ e, Rounds M n c e ∧ ∃ k, Rounds M k e d := by
  constructor
  · rintro ⟨k, least, -, rounds⟩
    obtain ⟨rest, rfl⟩ := Nat.exists_eq_add_of_le least
    obtain ⟨e, front, back⟩ := rounds.split
    exact ⟨e, front, rest, back⟩
  · rintro ⟨e, front, k, back⟩
    exact ⟨n + k, by omega, by simp, front.trans back⟩

theorem between_succ_none_iff : Between M (n + 1) none c d ↔
    ∃ e, Rounds M n c e ∧ ∃ k, Rounds M (k + 1) e d := by
  rw [between_none_iff]
  constructor
  · rintro ⟨e, front, k, back⟩
    obtain ⟨f, front, middle⟩ := front.split
    exact ⟨f, front, k, Nat.add_comm 1 k ▸ middle.trans back⟩
  · rintro ⟨e, front, k, back⟩
    rw [Nat.add_comm] at back
    obtain ⟨f, middle, back⟩ := back.split
    exact ⟨f, front.trans middle, k, back⟩

theorem between_zero_none_iff : Between M 0 none c d ↔
    d = c ∨ ∃ k, Rounds M (k + 1) c d := by
  constructor
  · rintro ⟨k, -, -, rounds⟩
    cases k with
    | zero => exact .inl rounds
    | succ k => exact .inr ⟨k, rounds⟩
  · rintro (rfl | ⟨k, rounds⟩)
    · exact ⟨0, Nat.le_refl 0, by simp, rfl⟩
    · exact ⟨k + 1, Nat.zero_le _, by simp, rounds⟩

theorem Rounds.map {M' : Ends β} {f : α → β} (h : ∀ c d, M c d → M' (f c) (f d))
    (rounds : Rounds M n c d) : Rounds M' n (f c) (f d) := by
  induction n generalizing c with
  | zero => exact congrArg f rounds
  | succ n ih =>
    obtain ⟨e, first, rest⟩ := rounds
    exact ⟨f e, h c e first, ih rest⟩

theorem Forward.rounds {M : Ends Cursor} (h : M.Forward) : (Rounds M n).Forward := by
  induction n with
  | zero =>
    rintro c d rfl
    exact .refl _
  | succ n ih =>
    rintro c d ⟨e, first, rest⟩
    exact (h c e first).trans (ih e d rest)

end Ends

namespace Regex

/-- The expression has a match that begins at `c` and ends at `d`. -/
def Matches : Regex → Ends Cursor
  | empty, c, d => d = c
  | one rule set, c, d => ∃ x, c.next? = some (x, d) ∧ set.contains rule x = true
  | look condition, c, d => condition.holds c = true ∧ d = c
  | group _ body, c, d => Matches body c d
  | seq first second, c, d => ∃ e, Matches first c e ∧ Matches second e d
  | alt preferred other, c, d => Matches preferred c d ∨ Matches other c d
  | repetition body least most _, c, d => Ends.Between (Matches body) least most c d

theorem matches_forward (r : Regex) : r.Matches.Forward := by
  induction r with
  | empty =>
    rintro c d rfl
    exact .refl _
  | one rule set =>
    rintro c d ⟨x, next, -⟩
    exact Cursor.reaches_of_next? next
  | look condition =>
    rintro c d ⟨-, rfl⟩
    exact .refl _
  | group name? body ih => exact ih
  | seq first second ih₁ ih₂ =>
    rintro c d ⟨e, h, g⟩
    exact (ih₁ c e h).trans (ih₂ e d g)
  | alt preferred other ih₁ ih₂ =>
    rintro c d (h | h)
    · exact ih₁ c d h
    · exact ih₂ c d h
  | repetition body least most greedy ih =>
    rintro c d ⟨n, -, -, h⟩
    exact Ends.Forward.rounds ih c d h

/-- Every match of an expression that takes something ends behind its beginning. -/
theorem length_lt_of_takesSomething {r : Regex} (h : r.takesSomething) {c d : Cursor}
    (m : r.Matches c d) : d.ahead.length < c.ahead.length := by
  induction r generalizing c d with
  | empty => simp [takesSomething] at h
  | one rule set =>
    obtain ⟨x, next, -⟩ := m
    rw [Cursor.ahead_of_next? next, List.length_cons]
    omega
  | look condition => simp [takesSomething] at h
  | group name? body ih => exact ih h m
  | seq first second ih₁ ih₂ =>
    obtain ⟨e, m₁, m₂⟩ := m
    have le₁ := (matches_forward first c e m₁).length_le
    have le₂ := (matches_forward second e d m₂).length_le
    rw [takesSomething, Bool.or_eq_true] at h
    rcases h with h | h
    · have := ih₁ h m₁
      omega
    · have := ih₂ h m₂
      omega
  | alt preferred other ih₁ ih₂ =>
    rw [takesSomething, Bool.and_eq_true] at h
    rcases m with m | m
    · exact ih₁ h.1 m
    · exact ih₂ h.2 m
  | repetition body least most greedy ih =>
    rw [takesSomething, Bool.and_eq_true, bne_iff_ne] at h
    obtain ⟨n, le, -, rounds⟩ := m
    cases n with
    | zero => exact absurd (Nat.le_zero.1 le) h.1
    | succ n =>
      obtain ⟨e, first, rest⟩ := rounds
      have lt := ih h.2 first
      have := (Ends.Forward.rounds (matches_forward body) e d rest).length_le
      omega

/-- There is a character behind every match of an expression that takes something. -/
theorem behind_ne_nil_of_takesSomething {r : Regex} (h : r.takesSomething) {c d : Cursor}
    (m : r.Matches c d) : d.behind ≠ [] := by
  obtain ⟨s, through⟩ := matches_forward r c d m
  have lt := length_lt_of_takesSomething h m
  intro nil
  rw [through.behind] at nil
  obtain rfl := List.reverse_eq_nil_iff.1 (List.append_eq_nil_iff.1 nil).1
  rw [through.ahead] at lt
  simp at lt

/-! ## Groups -/

/-- A way through the expression carries the match `m` on to `n`, with the groups that it captures
on the way. When conditions are settled is left open. -/
def Carries : Regex → Ends Match
  | empty, m, n => n = m
  | one rule set, m, n =>
    (∃ x, m.stop.next? = some (x, n.stop) ∧ set.contains rule x = true) ∧ n.groups = m.groups
  | look condition, m, n => condition.holds m.stop = true ∧ n.stop = m.stop ∧ n.groups = m.groups
  | group none body, m, n => Carries body m n
  | group (some name) body, m, n => ∃ e, Carries body m e ∧ n = e.capture name m.stop
  | seq first second, m, n => ∃ e, Carries first m e ∧ Carries second e n
  | alt preferred other, m, n => Carries preferred m n ∨ Carries other m n
  | repetition body least most _, m, n => Ends.Between (Carries body) least most m n

theorem matches_of_carries {r : Regex} {m n : Match} (h : r.Carries m n) :
    r.Matches m.stop n.stop := by
  induction r generalizing m n with
  | empty => exact congrArg Match.stop h
  | one rule set => exact h.1
  | look condition => exact ⟨h.1, h.2.1⟩
  | group name? body ih =>
    cases name? with
    | none => exact ih h
    | some name =>
      obtain ⟨e, inside, rfl⟩ := h
      exact ih (n := e) inside
  | seq first second ih₁ ih₂ =>
    obtain ⟨e, front, back⟩ := h
    exact ⟨e.stop, ih₁ front, ih₂ back⟩
  | alt preferred other ih₁ ih₂ => exact h.imp ih₁ ih₂
  | repetition body least most greedy ih =>
    obtain ⟨k, le, bound, rounds⟩ := h
    exact ⟨k, le, bound, rounds.map fun _ _ => ih⟩

end Regex

end RulesText
