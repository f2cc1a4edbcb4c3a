import Mathlib.Data.List.Chain
import RulesText.Proofs.Text.Words
import RulesText.Template
import RulesText.Text.WordChar

/-!
# Wording and its spacing

Wording is what a line is made of besides punctuation: ASCII letters and digits with single spaces
inside. A text is well spaced if no space stands at its ends, behind another space or before a
closing mark. Wording put together with single spaces, and with closing marks right behind it, is
well spaced again.

## Main definitions

* `Text.IsWellSpaced`: a text without stray spaces.
* `Text.IsWording`: letters and digits with single spaces inside.
-/

namespace RulesText.Text

open Template (isTerminalMark)

variable {t u : Text} {c : Char}

/-! ## Letters and digits -/

def alphanumerics : Text :=
  "abcdefghijklmnopqrstuvwxyzABCDEFGHIJKLMNOPQRSTUVWXYZ0123456789"

theorem mem_alphanumerics {c : Char} (h : c.isAlphanum) : c ∈ alphanumerics := by
  have bound : c.toNat < 123 := by
    delta Char.isAlphanum Char.isAlpha Char.isUpper Char.isLower Char.isDigit at h
    simp only [Bool.or_eq_true, Bool.and_eq_true, decide_eq_true_eq] at h
    rcases h with (⟨-, high⟩ | ⟨-, high⟩) | ⟨-, high⟩
    all_goals
      have := UInt32.le_iff_toNat_le.1 high
      exact Nat.lt_of_le_of_lt this (by decide)
  have all : ∀ n < 123, (Char.ofNat n).isAlphanum → Char.ofNat n ∈ alphanumerics := by
    decide +kernel
  have mem := all c.toNat bound
  rw [Char.ofNat_toNat] at mem
  exact mem h

/-- What can be checked of all letters and digits holds for each of them. -/
theorem of_isAlphanum {p : Char → Bool} (all : alphanumerics.all p) {c : Char}
    (h : c.isAlphanum) : p c :=
  List.all_eq_true.1 all c (mem_alphanumerics h)

theorem isWordChar_of_isAlphanum {c : Char} (h : c.isAlphanum) : isWordChar c :=
  of_isAlphanum (by decide +kernel) h

theorem isTerminalMark_of_isAlphanum {c : Char} (h : c.isAlphanum) : isTerminalMark c = false := by
  have all : alphanumerics.all (!isTerminalMark ·) := by decide
  simpa using of_isAlphanum all h

theorem ne_space_of_isAlphanum {c : Char} (h : c.isAlphanum) : c ≠ ' ' := by
  rintro rfl
  exact absurd h (by decide)

theorem not_isWordChar_space : isWordChar ' ' = false := by decide

theorem not_isWordChar_of_isTerminalMark {c : Char} (h : isTerminalMark c) :
    isWordChar c = false := by
  have : (c = '.' ∨ c = ',') ∨ c = ';' := by simpa [isTerminalMark] using h
  rcases this with (rfl | rfl) | rfl <;> decide

theorem ne_space_of_isTerminalMark {c : Char} (h : isTerminalMark c) : c ≠ ' ' := by
  rintro rfl
  exact absurd h (by decide)

/-! ## Spacing -/

/-- No space stands at either end, behind another space or before a closing mark. -/
structure IsWellSpaced (t : Text) : Prop where
  first : t.head? ≠ some ' '
  last : t.getLast? ≠ some ' '
  inner : t.IsChain fun c d => c = ' ' → d ≠ ' ' ∧ isTerminalMark d = false

instance (t : Text) : Decidable (IsWellSpaced t) :=
  decidable_of_iff (t.head? ≠ some ' ' ∧ t.getLast? ≠ some ' ' ∧
      t.IsChain fun c d => c = ' ' → d ≠ ' ' ∧ isTerminalMark d = false)
    ⟨fun ⟨first, last, inner⟩ => ⟨first, last, inner⟩, fun h => ⟨h.first, h.last, h.inner⟩⟩

namespace IsWellSpaced

theorem nil : IsWellSpaced [] :=
  ⟨nofun, nofun, .nil⟩

/-- Nothing goes wrong where two well-spaced texts meet. -/
theorem append (h : IsWellSpaced t) (h' : IsWellSpaced u) : IsWellSpaced (t ++ u) where
  first := by
    cases t with
    | nil => exact h'.first
    | cons c t => exact h.first
  last := by
    rcases List.eq_nil_or_concat u with rfl | ⟨u, c, rfl⟩
    · simpa using h.last
    · have := h'.last
      simpa using this
  inner := by
    refine List.isChain_append.2 ⟨h.inner, h'.inner, fun c last d _ space => ?_⟩
    subst space
    exact absurd last h.last

theorem mark {c : Char} (h : isTerminalMark c) : IsWellSpaced [c] :=
  have other : some c ≠ some ' ' := fun eq => ne_space_of_isTerminalMark h (Option.some.inj eq)
  ⟨other, other, .singleton c⟩

/-- A single space between two texts, the second of which begins with no closing mark. -/
theorem append_space (h : IsWellSpaced t) (h' : IsWellSpaced u) (before : t ≠ [])
    (starts : ∃ c, u.head? = some c ∧ isTerminalMark c = false) :
    IsWellSpaced (t ++ ' ' :: u) where
  first := by
    obtain ⟨c, t, rfl⟩ := List.exists_cons_of_ne_nil before
    exact h.first
  last := by
    obtain ⟨c, first, -⟩ := starts
    obtain ⟨u, rfl⟩ := List.head?_eq_some_iff.1 first
    have := h'.last
    simpa using this
  inner := by
    obtain ⟨c, first, other⟩ := starts
    refine List.isChain_append.2 ⟨h.inner, List.isChain_cons.2 ⟨fun d mem _ => ?_, h'.inner⟩, ?_⟩
    · obtain rfl := Option.some.inj (first.symm.trans mem)
      exact ⟨fun eq => h'.first (eq ▸ first), other⟩
    · intro d last e _ space
      subst space
      exact absurd last h.last

end IsWellSpaced

/-! ## Wording -/

/-- Letters and digits with single spaces inside. -/
structure IsWording (t : Text) : Prop where
  ne_nil : t ≠ []
  chars : ∀ c ∈ t, c.isAlphanum ∨ c = ' '
  spaced : t.IsWellSpaced

/-- What can be checked of the characters of wording. -/
theorem forall_isAlphanum_iff : (∀ c ∈ t, c.isAlphanum ∨ c = ' ') ↔
    t.all fun c => c.isAlphanum || c == ' ' := by
  simp

instance (t : Text) : Decidable (IsWording t) :=
  decidable_of_iff (t ≠ [] ∧ t.all (fun c => c.isAlphanum || c == ' ') ∧ t.IsWellSpaced)
    ⟨fun ⟨ne, chars, spaced⟩ => ⟨ne, forall_isAlphanum_iff.2 chars, spaced⟩,
      fun h => ⟨h.ne_nil, forall_isAlphanum_iff.1 h.chars, h.spaced⟩⟩

namespace IsWording

theorem exists_head (h : IsWording t) : ∃ c u, t = c :: u ∧ c.isAlphanum := by
  obtain ⟨c, u, rfl⟩ := List.exists_cons_of_ne_nil h.ne_nil
  refine ⟨c, u, rfl, (h.chars c List.mem_cons_self).resolve_right ?_⟩
  rintro rfl
  exact h.spaced.first rfl

theorem exists_last (h : IsWording t) : ∃ u c, t = u ++ [c] ∧ c.isAlphanum := by
  obtain ⟨u, c, rfl⟩ := List.eq_nil_or_concat t |>.resolve_left h.ne_nil
  rw [List.concat_eq_append] at h ⊢
  refine ⟨u, c, rfl, (h.chars c (by simp)).resolve_right ?_⟩
  rintro rfl
  exact h.spaced.last (by simp)

theorem starts (h : IsWording t) : ∃ c, t.head? = some c ∧ isTerminalMark c = false := by
  obtain ⟨c, u, rfl, alphanum⟩ := h.exists_head
  exact ⟨c, rfl, isTerminalMark_of_isAlphanum alphanum⟩

/-- Letters and digits at the end of wording. -/
theorem append (h : IsWording t) {u : Text} (own : ∀ c ∈ u, c.isAlphanum) :
    IsWording (t ++ u) := by
  refine ⟨by simp [h.ne_nil], fun c mem => ?_, h.spaced.append ?_⟩
  · exact (List.mem_append.1 mem).elim (h.chars c) fun mem => .inl (own c mem)
  · have no_space : ' ' ∉ u := fun mem => ne_space_of_isAlphanum (own _ mem) rfl
    refine ⟨fun first => no_space (List.mem_of_mem_head? first),
      fun last => no_space (List.mem_of_mem_getLast? last), ?_⟩
    refine (List.pairwise_of_forall_mem_list ?_).isChain
    rintro c mem d - rfl
    exact absurd mem no_space

end IsWording

end RulesText.Text
