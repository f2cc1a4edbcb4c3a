import RulesText.Pattern.Edge

/-!
# Blanks and word characters

There are few blanks, so what holds of all of them can be checked. None is a word character, and
edges count none as one.

## Main statements

* `Text.of_isBlank`: what is checked of the blanks holds of each of them.
-/

namespace RulesText

variable {c : Char}

namespace Text

def blanks : Text :=
  "\t\n\u000B\u000C\r \u0085\u00A0\u1680\u2000\u2001\u2002\u2003\u2004\u2005\u2006" ++
    "\u2007\u2008\u2009\u200A\u2028\u2029\u202F\u205F\u3000"

theorem mem_blanks (blank : isBlank c) : c ∈ blanks := by
  have range : ∀ first count : Nat, (∀ k < count, Char.ofNat (first + k) ∈ blanks) →
      first ≤ c.toNat → c.toNat < first + count → c ∈ blanks := by
    intro first count all low high
    have mem := all (c.toNat - first) (by omega)
    rwa [Nat.add_sub_cancel' low, Char.ofNat_toNat] at mem
  simp only [isBlank, Bool.or_eq_true, Bool.and_eq_true, decide_eq_true_eq, beq_iff_eq] at blank
  rcases blank with (((((((((⟨low, high⟩ | rfl) | rfl) | rfl) | rfl) | ⟨low, high⟩) | rfl) | rfl) |
    rfl) | rfl) | rfl
  case inl.inl.inl.inl.inl.inl.inl.inl.inl.inl =>
    exact range 0x9 5 (by decide) low (Nat.lt_succ_of_le high)
  case inl.inl.inl.inl.inl.inr => exact range 0x2000 11 (by decide) low (Nat.lt_succ_of_le high)
  all_goals decide

/-- What can be checked of all blanks holds for each of them. -/
theorem of_isBlank {p : Char → Bool} (all : blanks.all p) (blank : isBlank c) : p c :=
  List.all_eq_true.1 all c (mem_blanks blank)

theorem isWordChar_of_isBlank (blank : isBlank c) : isWordChar c = false := by
  have all : blanks.all (!isWordChar ·) := by decide +kernel
  simpa using of_isBlank all blank

end Text

theorem Edge.ofChar_of_isBlank (blank : Text.isBlank c) : ofChar c = .other := by
  have all : Text.blanks.all (ofChar · == .other) := by decide +kernel
  simpa using Text.of_isBlank all blank

end RulesText
