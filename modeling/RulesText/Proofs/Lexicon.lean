import RulesText.Analysis.Line
import RulesText.Proofs.Results

/-!
# Entries of lexicons and tokenizers

Every phrase of a lexicon is searched for by its own expression, and a tokenizer tries phrases of
its lexicon only.
-/

namespace RulesText

namespace Lexicon

theorem search_of_buildEntry {phrase : Phrase} {pattern : Pattern} {e : LexiconEntry}
    (h : buildEntry phrase pattern = .ok e) : e.search = e.regex.finder := by
  simp only [buildEntry, bind_eq_ok] at h
  obtain ⟨regex, -, exact, -, fields, -, h⟩ := h
  obtain rfl := Except.ok.inj h
  rfl

theorem search_of_buildEntries {c : Compiler} {phrases : List Phrase}
    {entries : List LexiconEntry} (h : buildEntries c phrases = .ok entries) :
    ∀ e ∈ entries, e.search = e.regex.finder := by
  induction phrases generalizing c entries with
  | nil =>
    obtain rfl := Except.ok.inj h
    simp
  | cons phrase phrases ih =>
    simp only [buildEntries, bind_eq_ok] at h
    obtain ⟨pattern, -, entry, built, rest, later, h⟩ := h
    obtain rfl := Except.ok.inj h
    exact List.forall_mem_cons.2 ⟨search_of_buildEntry built, ih later⟩

theorem search_of_build {v : Vocabulary} {l : Lexicon} (h : build v = .ok l) :
    ∀ e ∈ l.entries, e.search = e.regex.finder := by
  simp only [build, bind_eq_ok] at h
  obtain ⟨compiler, -, entries, built, h⟩ := h
  obtain rfl := Except.ok.inj h
  exact search_of_buildEntries built

end Lexicon

namespace Tokenizer

theorem mem_of_prioritized {l : Lexicon} {priority : List Kind} {done first : List LexiconEntry}
    (h : prioritized l done priority = .ok first) (inside : ∀ e ∈ done, e ∈ l.entries) :
    ∀ e ∈ first, e ∈ l.entries := by
  induction priority generalizing done with
  | nil =>
    obtain rfl := Except.ok.inj h
    exact inside
  | cons kind priority ih =>
    rw [prioritized] at h
    split at h
    · contradiction
    · rename_i e found
      refine ih h ?_
      split
      · exact inside
      · intro a mem
        rcases List.mem_append.1 mem with mem | mem
        · exact inside a mem
        · obtain rfl := List.mem_singleton.1 mem
          exact List.mem_of_find?_eq_some found

theorem mem_of_new {l : Lexicon} {priority : List Kind} {t : Tokenizer}
    (h : Tokenizer.new l priority = .ok t) :
    t.lexicon = l ∧ ∀ e ∈ t.order, e ∈ l.entries := by
  simp only [Tokenizer.new, bind_eq_ok] at h
  obtain ⟨first, prioritized, h⟩ := h
  split at h
  · contradiction
  · obtain rfl := Except.ok.inj h
    refine ⟨rfl, fun e mem => ?_⟩
    rcases List.mem_append.1 mem with mem | mem
    · exact mem_of_prioritized prioritized (by simp) e mem
    · exact (List.mem_filter.1 (List.mem_mergeSort.1 mem)).1

/-- Every kind of a lexicon is tried. -/
theorem exists_mem_order {l : Lexicon} {priority : List Kind} {t : Tokenizer}
    (h : Tokenizer.new l priority = .ok t) {e : LexiconEntry} (mem : e ∈ l.entries) :
    ∃ other ∈ t.order, other.kind = e.kind := by
  simp only [Tokenizer.new, bind_eq_ok] at h
  obtain ⟨first, -, h⟩ := h
  split at h
  · contradiction
  · obtain rfl := Except.ok.inj h
    by_cases early : first.any (·.kind == e.kind)
    · obtain ⟨other, inside, same⟩ := List.any_eq_true.1 early
      exact ⟨other, List.mem_append_left _ inside, by simpa using same⟩
    · refine ⟨e, List.mem_append_right _ (List.mem_mergeSort.2 (List.mem_filter.2 ⟨mem, ?_⟩)), rfl⟩
      simpa using early

/-- A tokenizer of a vocabulary tries phrases of its lexicon, each by its own expression. -/
theorem entry_of_ofVocabulary {v : Vocabulary} {priority : List Kind} {t : Tokenizer}
    (h : ofVocabulary v priority = .ok t) :
    ∀ e ∈ t.order, e ∈ t.lexicon.entries ∧ e.search = e.regex.finder := by
  simp only [ofVocabulary, bind_eq_ok] at h
  obtain ⟨l, built, h⟩ := h
  obtain ⟨rfl, inside⟩ := mem_of_new h
  exact fun e mem => ⟨inside e mem, Lexicon.search_of_build built e (inside e mem)⟩

end Tokenizer

end RulesText
