import RulesText.Text.Basic

/-!
# The words of a text

The words of a text are not empty and have no blanks inside. Words with single spaces between
them are read back as the same words.
-/

namespace RulesText.Text

/-- A non-empty text without blanks. -/
def IsWord (w : Text) : Prop :=
  w ≠ [] ∧ ∀ c ∈ w, isBlank c = false

variable {t w : Text} {ws : List Text}

/-- No character that a text is split at is in a piece. -/
theorem not_of_mem_splitOnP {p : Char → Bool} (h : w ∈ t.splitOnP p) : ∀ c ∈ w, p c = false := by
  induction t generalizing w with
  | nil =>
    obtain rfl : w = [] := by simpa [List.splitOnP_nil] using h
    simp
  | cons x t ih =>
    rw [List.splitOnP_cons_eq_if_modifyHead] at h
    by_cases here : p x = true
    · rw [if_pos here, List.mem_cons] at h
      rcases h with rfl | h
      · simp
      · exact ih h
    · obtain ⟨piece, others, eq⟩ := List.exists_cons_of_ne_nil (List.splitOnP_ne_nil p t)
      rw [if_neg here, eq, List.modifyHead_cons, List.mem_cons] at h
      rw [eq] at ih
      rcases h with rfl | h
      · simpa [here] using ih List.mem_cons_self
      · exact ih (List.mem_cons_of_mem _ h)

/-- Nothing but the characters that a text is split at gets lost. -/
theorem flatten_splitOnP (p : Char → Bool) (t : Text) :
    (t.splitOnP p).flatten = t.filter (!p ·) := by
  induction t with
  | nil => simp [List.splitOnP_nil]
  | cons x t ih =>
    obtain ⟨piece, others, eq⟩ := List.exists_cons_of_ne_nil (List.splitOnP_ne_nil p t)
    rw [List.splitOnP_cons_eq_if_modifyHead]
    by_cases here : p x = true <;> simp_all

theorem flatten_words (t : Text) : (words t).flatten = t.filter (!isBlank ·) := by
  have : (words t).flatten = (t.splitOnP isBlank).flatten := by
    rw [words, List.flatten_filter_not_isEmpty]
  rw [this, flatten_splitOnP]

theorem isWord_of_mem_words (h : w ∈ words t) : IsWord w := by
  obtain ⟨mem, ne⟩ := List.mem_filter.1 h
  exact ⟨by simpa using ne, not_of_mem_splitOnP mem⟩

theorem words_of_isWord (h : IsWord w) : words w = [w] := by
  rw [words, List.splitOnP_eq_singleton h.2]
  simp [h.1]

/-- A blank ends a word. -/
theorem words_append_cons {b : Char} (h : isBlank b = true) (s t : Text) :
    words (s ++ b :: t) = words s ++ words t := by
  rw [words, List.splitOnP_append_cons s t h, List.filter_append, words, words]

theorem unwords_cons (w v : Text) (ws : List Text) :
    unwords (w :: v :: ws) = w ++ ' ' :: unwords (v :: ws) := by
  rw [unwords, unwords, join, join, List.intercalate_cons_cons, List.append_assoc,
    List.singleton_append]

theorem words_unwords (h : ∀ w ∈ ws, IsWord w) : words (unwords ws) = ws := by
  induction ws with
  | nil => rfl
  | cons w ws ih =>
    cases ws with
    | nil =>
      rw [unwords, join, List.intercalate_singleton]
      exact words_of_isWord (h w List.mem_cons_self)
    | cons v ws =>
      have space : isBlank ' ' = true := by decide
      rw [unwords_cons, words_append_cons space, words_of_isWord (h w List.mem_cons_self),
        ih fun u mem => h u (List.mem_cons_of_mem _ mem), List.singleton_append]

theorem unwords_inj {vs : List Text} (hw : ∀ w ∈ ws, IsWord w) (hv : ∀ v ∈ vs, IsWord v)
    (eq : unwords ws = unwords vs) : ws = vs := by
  rw [← words_unwords hw, eq, words_unwords hv]

end RulesText.Text
