import RulesText.Proofs.Capture.Checks
import RulesText.Proofs.Tokenizer.Tokenization

/-!
# Reading back the tokens of a line

Every matched token is a match of a phrase at a place of the line. In a faithful lexicon all of
these are read back, so no line makes an analysis fail.
-/

namespace RulesText.Tokenizer

variable {v : Vocabulary} {priority : List Kind} {t : Tokenizer} {line : Text} {token : Token}
  {kind : Kind}

/-- A matched token is a match of its phrase. -/
theorem exists_match_of_mem (h : ofVocabulary v priority = .ok t) (mem : token ∈ t.tokenize line)
    (label : token.label = .kind kind) : ∃ e ∈ t.lexicon.entries, e.kind = kind ∧
      ∃ c d : Cursor, c.IsPlace line ∧ e.search.stopAt? c = some d ∧ token.span = c.spanTo d := by
  obtain ⟨c, place, rfl, -⟩ := (reads_tokenize h line).exists_place (takesText_candidates h line)
    (Cursor.isPlace_start line) token mem
  rw [tokenAt] at label ⊢
  cases found : (t.candidates line).findSome? (claim? c) with
  | none =>
    rw [found] at label
    cases label
  | some result =>
    obtain ⟨e, candidate, claims⟩ := List.exists_of_findSome?_eq_some found
    obtain ⟨stops, -, eq⟩ := claim?_eq_some_iff.1 claims
    rw [found] at label
    have entry := (entry_of_ofVocabulary h e (List.mem_filter.1 candidate).1).1
    exact ⟨e, entry, Label.kind.inj (eq.symm.trans label), c, _, place, stops, rfl⟩

theorem build_of_ofVocabulary (h : ofVocabulary v priority = .ok t) :
    Lexicon.build v = .ok t.lexicon := by
  obtain ⟨l, built, h⟩ := bind_eq_ok.1 h
  rw [(mem_of_new h).1, built]

theorem exists_readTokens {tokens : List Token}
    (all : ∀ token ∈ tokens, ∃ tree?, t.lexicon.readToken line token = .ok tree?) :
    ∃ trees, t.readTokens line tokens = .ok trees := by
  induction tokens with
  | nil => exact ⟨[], rfl⟩
  | cons token tokens ih =>
    obtain ⟨tree?, first⟩ := all token List.mem_cons_self
    obtain ⟨trees, later⟩ := ih fun other mem => all other (List.mem_cons_of_mem _ mem)
    exact ⟨_, bind_eq_ok.2 ⟨tree?, first, bind_eq_ok.2 ⟨trees, later, rfl⟩⟩⟩

/-! ## Faithful lexicons -/

section

variable (h : ofVocabulary v priority = .ok t) (faithful : t.lexicon.isFaithful)

include h faithful

theorem exists_readToken (mem : token ∈ t.tokenize line) :
    ∃ tree?, t.lexicon.readToken line token = .ok tree? := by
  cases label : token.label with
  | unmatched => exact ⟨none, by rw [Lexicon.readToken, label]⟩
  | kind kind =>
    obtain ⟨e, entry, rfl, c, d, place, stops, span⟩ := exists_match_of_mem h mem label
    obtain ⟨tree, read⟩ :=
      Lexicon.exists_readBack (build_of_ofVocabulary h) faithful place entry stops
    refine ⟨some tree, ?_⟩
    rw [Lexicon.readToken, label]
    dsimp only
    rw [span, read]
    rfl

/-- No line makes an analysis fail. -/
theorem exists_analyzeLine {o : Options} (run : o.leastRun = 1 ∨ o.leastRun = 2) (line : Text) :
    ∃ a, t.analyzeLine o line = .ok a := by
  obtain ⟨trees, read⟩ := exists_readTokens fun token mem =>
    exists_readToken h faithful mem
  obtain ⟨gaps, found⟩ : ∃ gaps, Gap.find line (t.tokenize line) o.leastRun = .ok gaps :=
    ⟨_, bind_eq_ok.2 ⟨(), if_pos run, rfl⟩⟩
  rw [analyzeLine]
  cases o.captures with
  | true => exact ⟨_, bind_eq_ok.2 ⟨trees, read, bind_eq_ok.2 ⟨gaps, found, rfl⟩⟩⟩
  | false => exact ⟨_, bind_eq_ok.2 ⟨[], rfl, bind_eq_ok.2 ⟨gaps, found, rfl⟩⟩⟩

end

end RulesText.Tokenizer
