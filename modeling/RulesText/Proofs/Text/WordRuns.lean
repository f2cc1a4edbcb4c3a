import Mathlib.Data.List.TakeWhile
import RulesText.Proofs.Text.Slices
import RulesText.Proofs.Text.Words

/-!
# Runs of words in a text

A part of a text makes whole words together with what stands around it up to the next blanks. A
run of the words of a text is written in it with single spaces, if no other blanks stand there.

## Main statements

* `Text.exists_words_around`: the words that a part of a text belongs to.
* `Text.isInfix_unwords_of_words`: where a run of words is found as it is written.
-/

namespace RulesText.Text

variable {s t front back pattern : Text} {ws : List Text}

theorem isSome_cut?_iff : (cut? pattern t).isSome ↔ pattern <:+: t := by
  induction t with
  | nil => cases pattern <;> simp [cut?]
  | cons c t ih =>
    rw [cut?, List.infix_cons_iff, ← ih]
    split
    · rename_i rest occurs
      exact iff_of_true rfl (.inl ⟨rest, List.isPrefixOf?_eq_some_iff_append_eq.1 occurs⟩)
    · rename_i none
      rw [Option.isSome_map]
      refine (or_iff_right ?_).symm
      rintro ⟨rest, eq⟩
      rw [List.isPrefixOf?_eq_some_iff_append_eq.2 eq] at none
      cases none

/-- Where a blank stands at the seam of two texts, no word runs across it. -/
theorem words_append (seam : (∀ b ∈ s.getLast?, isBlank b) ∨ ∀ b ∈ t.head?, isBlank b) :
    words (s ++ t) = words s ++ words t := by
  rcases seam with ends | starts
  · rcases List.eq_nil_or_concat s with rfl | ⟨s, b, rfl⟩
    · rfl
    · have blank := ends b (by simp)
      have own := words_append_cons blank s []
      rw [List.concat_eq_append, List.append_assoc, List.singleton_append,
        words_append_cons blank, own]
      simp [words]
  · cases t with
    | nil => simp [words]
    | cons b t =>
      have blank := starts b rfl
      have own := words_append_cons blank [] t
      rw [words_append_cons blank, ← List.nil_append (b :: t), own]
      simp [words]

theorem exists_first_word (t : Text) : ∃ w back, t = w ++ back ∧ (∀ c ∈ w, isBlank c = false) ∧
    ∀ b ∈ back.head?, isBlank b := by
  refine ⟨t.takeWhile (!isBlank ·), t.dropWhile (!isBlank ·),
    List.takeWhile_append_dropWhile.symm, fun c mem => ?_, fun b first => ?_⟩
  · simpa using List.mem_takeWhile_imp mem
  · have stops := List.head?_dropWhile_not (!isBlank ·) t
    rw [Option.mem_def.1 first] at stops
    simpa using stops

theorem exists_last_word (t : Text) : ∃ front w, t = front ++ w ∧ (∀ c ∈ w, isBlank c = false) ∧
    ∀ b ∈ front.getLast?, isBlank b := by
  obtain ⟨w, back, eq, own, starts⟩ := exists_first_word t.reverse
  refine ⟨back.reverse, w.reverse, ?_, fun c mem => own c (List.mem_reverse.1 mem),
    by rwa [List.getLast?_reverse]⟩
  rw [← List.reverse_append, ← eq, List.reverse_reverse]

/-- What stands around a part of a text up to the next blanks makes whole words of it. -/
theorem exists_words_around (part : s <:+: t) : ∃ before after : Text,
    (∀ c ∈ before ++ after, isBlank c = false) ∧ words (before ++ s ++ after) <:+: words t := by
  obtain ⟨front, back, rfl⟩ := part
  obtain ⟨front, before, rfl, own, ends⟩ := exists_last_word front
  obtain ⟨after, back, rfl, own', starts⟩ := exists_first_word back
  refine ⟨before, after, List.forall_mem_append.2 ⟨own, own'⟩, words front, words back, ?_⟩
  rw [← words_append (.inl ends), ← words_append (.inr starts)]
  simp

theorem unwords_singleton (w : Text) : unwords [w] = w := by
  rw [unwords, join, List.intercalate_singleton]

theorem unwords_append {us : List Text} (ne : ws ≠ []) (ne' : us ≠ []) :
    unwords (ws ++ us) = unwords ws ++ ' ' :: unwords us := by
  induction ws with
  | nil => contradiction
  | cons w ws ih =>
    cases ws with
    | nil =>
      obtain ⟨u, us, rfl⟩ := List.exists_cons_of_ne_nil ne'
      rw [List.singleton_append, unwords_cons, unwords_singleton]
    | cons v ws =>
      rw [List.cons_append, List.cons_append, unwords_cons, ← List.cons_append,
        ih (List.cons_ne_nil v ws), unwords_cons, List.append_assoc]
      rfl

theorem isInfix_unwords {us : List Text} (part : ws <:+: us) (ne : ws ≠ []) :
    unwords ws <:+: unwords us := by
  obtain ⟨front, back, rfl⟩ := part
  have behind : unwords ws <+: unwords (ws ++ back) := by
    by_cases none : back = []
    · simp [none]
    · rw [unwords_append ne none]
      exact List.prefix_append _ _
  rw [List.append_assoc]
  by_cases none : front = []
  · rw [none]
    exact behind.isInfix
  · rw [unwords_append none (List.append_ne_nil_of_left_ne_nil ne back)]
    exact (behind.isInfix.trans ⟨unwords front ++ [' '], [], by simp⟩)

/-- Where no blanks but single spaces stand between words, these are written as in the text. -/
theorem exists_unwords_words (spaces : ∀ c ∈ t, isBlank c → c = ' ') (single : ¬[' ', ' '] <:+: t) :
    ∃ front back, t = front ++ unwords (words t) ++ back ∧ ∀ b ∈ front, isBlank b := by
  induction size : t.length using Nat.strongRecOn generalizing t with
  | _ n ih =>
    obtain ⟨w, back, rfl, own, starts⟩ := exists_first_word t
    cases back with
    | nil =>
      by_cases none : w = []
      · subst none
        exact ⟨[], [], rfl, by simp⟩
      · refine ⟨[], [], ?_, by simp⟩
        rw [List.append_nil, words_of_isWord ⟨none, own⟩, unwords_singleton]
        simp
    | cons b back =>
      have blank := starts b rfl
      obtain rfl := spaces b (by simp) blank
      have shorter : back.length < n := by
        rw [← size, List.length_append, List.length_cons]
        omega
      obtain ⟨front, rest, eq, blanks⟩ := ih _ shorter (fun c mem => spaces c (by simp [mem]))
        (fun twice => single (twice.trans ⟨w ++ [' '], [], by simp⟩)) rfl
      by_cases none : w = []
      · subst none
        refine ⟨' ' :: front, rest, ?_, List.forall_mem_cons.2 ⟨blank, blanks⟩⟩
        have same : words ([] ++ ' ' :: back) = words back := words_append_cons blank [] back
        rw [same, List.nil_append, List.cons_append, List.cons_append, ← eq]
      · rw [words_append_cons blank, words_of_isWord ⟨none, own⟩]
        by_cases last : words back = []
        · refine ⟨[], ' ' :: back, ?_, by simp⟩
          rw [last, List.append_nil, unwords_singleton]
          rfl
        · refine ⟨[], rest, ?_, by simp⟩
          have none : front = [] := by
            cases front with
            | nil => rfl
            | cons c front =>
              have mem : c ∈ back := by rw [eq]; simp
              obtain rfl := spaces c (by simp [mem]) (blanks c List.mem_cons_self)
              refine absurd ⟨w, front ++ unwords (words back) ++ rest, ?_⟩ single
              conv => rhs; rw [eq]
              simp
          rw [unwords_append (by simp) last, unwords_singleton]
          conv => lhs; rw [eq, none]
          simp

theorem isInfix_unwords_of_words (run : ws <:+: words t) (ne : ws ≠ [])
    (spaces : ∀ c ∈ t, isBlank c → c = ' ') (single : ¬[' ', ' '] <:+: t) : unwords ws <:+: t := by
  obtain ⟨front, back, eq, -⟩ := exists_unwords_words spaces single
  exact (isInfix_unwords run ne).trans ⟨front, back, eq.symm⟩

end RulesText.Text
