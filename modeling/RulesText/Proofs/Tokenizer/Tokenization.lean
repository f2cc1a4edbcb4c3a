import RulesText.Proofs.Lexicon
import RulesText.Proofs.Regex.Search
import RulesText.Proofs.Tokenizer.Reading
import RulesText.Proofs.Tokenizer.Unmatched

/-!
# The tokens of a line

The tokens of a line cover it without its blanks, whatever its phrases match. Phrases that do not
occur in the line are left out beforehand; the tokens are those that all phrases would give.

## Main definitions

* `Tokenizer.Covers`: tokens are stretches of a line that cover all but blanks.
* `Tokenizer.ungatedTokenAt`: the token at a place when all phrases are searched for from there on.
-/

namespace RulesText.Tokenizer

/-- Tokens are stretches of a line in order, none of which is empty or begins with a blank, and
every other character lies in exactly one of them. -/
structure Covers (line : Text) (tokens : List Token) : Prop where
  exists_text : ∀ token ∈ tokens, ∃ before x inner after,
    line = before ++ x :: inner ++ after ∧ Text.isBlank x = false ∧
      token.span = ⟨Text.byteSize before, Text.byteSize (before ++ x :: inner)⟩
  pairwise : tokens.Pairwise fun a b => a.span.stop ≤ b.span.start
  existsUnique : ∀ before x after, line = before ++ x :: after → Text.isBlank x = false →
    ∃! token, token ∈ tokens ∧ token.span.start ≤ Text.byteSize before ∧
      Text.byteSize (before ++ [x]) ≤ token.span.stop

theorem Reads.covers {step : Cursor → Label × Cursor} {line : Text} {tokens : List Token}
    (h : Reads step (Cursor.start line) tokens) (takes : TakesText step line) :
    Covers line tokens where
  exists_text token mem := by
    have place := Cursor.isPlace_start line
    obtain ⟨d, e, x, s, reach, through, nonblank, span⟩ :=
      h.exists_through takes place token mem
    have place_d := place.reaches reach
    refine ⟨d.behind.reverse, x, s, e.ahead, ?_, nonblank, ?_⟩
    · rw [← place_d.text, through.ahead, List.append_assoc]
    · rw [span, Cursor.spanTo, through.offset, place_d.offset, Text.byteSize_append,
        Text.byteSize_reverse]
  pairwise := h.pairwise takes (Cursor.isPlace_start line)
  existsUnique before x after eq nonblank := by
    have place := Cursor.isPlace_start line
    let d : Cursor := ⟨before.reverse, x :: after, Text.byteSize before⟩
    have place_d : d.IsPlace line := by
      refine ⟨?_, (Text.byteSize_reverse before).symm⟩
      rw [eq, List.reverse_reverse]
    obtain ⟨token, mem, start, stop⟩ :=
      h.exists_token takes place (Cursor.start_reaches place_d) (d := d) rfl nonblank
    have size : Text.byteSize (before ++ [x]) = Text.byteSize before + x.utf8Size := by
      rw [Text.byteSize_append, Text.byteSize_cons, Text.byteSize_nil, Nat.add_zero]
    have lt : Text.byteSize before < Text.byteSize (before ++ [x]) := by
      have := x.utf8Size_pos
      omega
    refine ⟨token, ⟨mem, start, size ▸ stop⟩, fun other ⟨mem', inside⟩ => ?_⟩
    exact h.token_unique takes place mem' mem lt inside ⟨start, size ▸ stop⟩

/-! ## Tokens take text -/

variable {v : Vocabulary} {priority : List Kind} {t : Tokenizer} {line : Text} {c d : Cursor}
  {e : LexiconEntry} {label : Label}

theorem claim?_eq_some_iff : claim? c e = some (label, d) ↔
    e.search.stopAt? c = some d ∧ c.offset < d.offset ∧ label = .kind e.kind := by
  rw [claim?, Option.bind_eq_bind, Option.bind_eq_some_iff]
  constructor
  · rintro ⟨stop, found, eq⟩
    split at eq
    · rename_i lt
      obtain ⟨rfl, rfl⟩ := Prod.mk.inj (Option.some.inj eq)
      exact ⟨found, lt, rfl⟩
    · contradiction
  · rintro ⟨found, lt, rfl⟩
    exact ⟨d, found, if_pos lt⟩

/-- A phrase that takes something takes text that begins where it was tried. -/
theorem exists_through_of_claim? {x : Char} (search : e.search = e.regex.finder)
    (next : c.next? = some (x, d)) {stop : Cursor} (claims : claim? c e = some (label, stop)) :
    ∃ s, c.Through (x :: s) stop := by
  obtain ⟨found, lt, -⟩ := claim?_eq_some_iff.1 claims
  rw [search] at found
  obtain ⟨s, through⟩ := Regex.matches_forward e.regex c stop (Regex.matches_of_stopAt? found)
  cases s with
  | nil =>
    rw [through.eq] at lt
    exact absurd lt (Nat.lt_irrefl _)
  | cons y s =>
    obtain ⟨rfl, -⟩ := through.of_next? next
    exact ⟨s, through⟩

theorem takesText_tokenAt {entries : List LexiconEntry}
    (search : ∀ e ∈ entries, e.search = e.regex.finder) (line : Text) :
    TakesText (tokenAt entries) line := by
  intro c d x place next nonblank
  rw [tokenAt]
  cases found : entries.findSome? (claim? c) with
  | some result =>
    obtain ⟨e, mem, claims⟩ := List.exists_of_findSome?_eq_some found
    exact exists_through_of_claim? (search e mem) next claims
  | none =>
    have ahead := Cursor.ahead_of_next? next
    have through := Cursor.through_past (unmatchedText_isPrefix c.ahead)
    rw [Option.getD_none, unmatchedEnd_eq ahead nonblank]
    have ne : unmatchedText (x :: d.ahead) ≠ [] := unmatchedText_ne_nil nonblank
    rw [← ahead] at ne
    obtain ⟨y, s, eq⟩ := List.exists_cons_of_ne_nil ne
    rw [eq] at through ⊢
    obtain ⟨rfl, -⟩ := through.of_next? next
    exact ⟨s, through⟩

theorem search_of_mem_candidates (h : ofVocabulary v priority = .ok t) (line : Text) :
    ∀ e ∈ t.candidates line, e.search = e.regex.finder :=
  fun e mem => (entry_of_ofVocabulary h e (List.mem_filter.1 mem).1).2

/-! ## The tokens of a line -/

/-- Two phrases, of which the shorter one is tried first. -/
def drawing : Vocabulary :=
  [{ kind := .drawCards, template := "draw" }, { kind := .discardCards, template := "draw two" }]

theorem exists_tokenize_drawing : ∃ t, ofVocabulary drawing [.drawCards] = .ok t ∧
    t.tokenize "draw two." =
      [⟨.kind .drawCards, 0, 4⟩, ⟨.unmatched, 5, 8⟩, ⟨.unmatched, 8, 9⟩] := by
  have tokens : (ofVocabulary drawing [.drawCards]).toOption.map (·.tokenize "draw two.") =
      some [⟨.kind .drawCards, 0, 4⟩, ⟨.unmatched, 5, 8⟩, ⟨.unmatched, 8, 9⟩] := by
    decide +kernel
  cases accepted : ofVocabulary drawing [.drawCards] with
  | error fault =>
    rw [accepted] at tokens
    contradiction
  | ok t =>
    rw [accepted] at tokens
    exact ⟨t, rfl, Option.some.inj tokens⟩

theorem takesText_candidates (h : ofVocabulary v priority = .ok t) (line : Text) :
    TakesText (tokenAt (t.candidates line)) line :=
  takesText_tokenAt (search_of_mem_candidates h line) line

theorem reads_tokenize (h : ofVocabulary v priority = .ok t) (line : Text) :
    Reads (tokenAt (t.candidates line)) (Cursor.start line) (t.tokenize line) :=
  reads_tokensFrom (takesText_candidates h line) (Cursor.isPlace_start line)

/-- The tokens of a line are those that are read from its start to its end, and they cover all
of it but blanks. -/
theorem tokenize_covers (h : ofVocabulary v priority = .ok t) (line : Text) :
    Reads (tokenAt (t.candidates line)) (Cursor.start line) (t.tokenize line) ∧
      Covers line (t.tokenize line) :=
  have reads := reads_tokenize h line
  ⟨reads, reads.covers (takesText_candidates h line)⟩

theorem covers_drawing : ∃ t, ofVocabulary drawing [.drawCards] = .ok t ∧
    Covers "draw two." (t.tokenize "draw two.") := by
  obtain ⟨t, accepted, -⟩ := exists_tokenize_drawing
  exact ⟨t, accepted, (tokenize_covers accepted _).2⟩

/-! ## All phrases -/

/-- The leftmost match from a place on: where it begins and where it ends. -/
def leftmost? (f : Regex.Finder) (c : Cursor) : Option (Cursor × Cursor) :=
  c.places.findSome? fun p => (f.stopAt? p).map (p, ·)

/-- The token of a phrase whose leftmost match from `c` on begins there and is not empty. -/
def ungatedClaim? (c : Cursor) (e : LexiconEntry) : Option (Label × Cursor) := do
  let (start, stop) ← leftmost? e.search c
  if start = c ∧ c.offset < stop.offset then some (.kind e.kind, stop) else none

/-- The token of the first phrase that has one at a place, or else the unmatched text. -/
def ungatedTokenAt (order : List LexiconEntry) (c : Cursor) : Label × Cursor :=
  (order.findSome? (ungatedClaim? c)).getD (.unmatched, c.past (unmatchedText c.ahead))

/-- The leftmost match begins at a place if any match does. -/
theorem leftmost?_eq_some_iff {f : Regex.Finder} :
    leftmost? f c = some (c, d) ↔ f.stopAt? c = some d := by
  constructor
  · intro found
    obtain ⟨p, -, eq⟩ := List.exists_of_findSome?_eq_some found
    obtain ⟨stop, stops, same⟩ := Option.map_eq_some_iff.1 eq
    obtain ⟨rfl, rfl⟩ := Prod.mk.inj same
    exact stops
  · intro stops
    obtain ⟨later, places⟩ := Cursor.exists_places_eq c
    rw [leftmost?, places, List.findSome?_cons, stops]
    rfl

theorem ungatedClaim?_eq (c : Cursor) (e : LexiconEntry) : ungatedClaim? c e = claim? c e := by
  refine Option.ext fun ⟨label, d⟩ => ?_
  rw [claim?_eq_some_iff, ungatedClaim?, Option.bind_eq_bind, Option.bind_eq_some_iff]
  constructor
  · rintro ⟨⟨start, stop⟩, found, eq⟩
    dsimp only at eq
    split at eq
    · rename_i here
      obtain ⟨rfl, lt⟩ := here
      obtain ⟨rfl, rfl⟩ := Prod.mk.inj (Option.some.inj eq)
      exact ⟨leftmost?_eq_some_iff.1 found, lt, rfl⟩
    · contradiction
  · rintro ⟨stops, lt, rfl⟩
    exact ⟨(c, d), leftmost?_eq_some_iff.2 stops, if_pos ⟨rfl, lt⟩⟩

/-- What gives nothing can be left out of a search for the first result. -/
theorem findSome?_filter {α β : Type} {p : α → Bool} {f : α → Option β} {l : List α}
    (h : ∀ a ∈ l, p a = false → f a = none) : (l.filter p).findSome? f = l.findSome? f := by
  induction l with
  | nil => rfl
  | cons a l ih =>
    have ih := ih fun b mem => h b (List.mem_cons_of_mem _ mem)
    cases keep : p a with
    | true => rw [List.filter_cons_of_pos keep, List.findSome?_cons, List.findSome?_cons, ih]
    | false =>
      rw [List.filter_cons_of_neg (Bool.not_eq_true _ ▸ keep), List.findSome?_cons,
        h a List.mem_cons_self keep, ih]

/-- Phrases that are left out match nowhere in the line. -/
theorem findSome?_candidates (search : ∀ e ∈ t.order, e ∈ t.lexicon.entries ∧
    e.search = e.regex.finder) (place : c.IsPlace line) :
    (t.candidates line).findSome? (claim? c) = t.order.findSome? (claim? c) := by
  refine findSome?_filter fun e mem inactive => ?_
  obtain ⟨entry, finder⟩ := search e mem
  rw [Option.eq_none_iff_forall_ne_some]
  rintro ⟨label, d⟩ claims
  obtain ⟨found, -, -⟩ := claim?_eq_some_iff.1 claims
  have occurs : e.search.occursIn line = true := by
    rw [finder] at found ⊢
    exact Regex.occursIn_of_stopAt? place found
  have active : e ∈ t.active line := List.mem_filter.2 ⟨entry, occurs⟩
  have := List.contains_iff_mem.2 (List.mem_map_of_mem (f := (·.kind)) active)
  rw [inactive] at this
  contradiction

theorem tokenAt_candidates (h : ofVocabulary v priority = .ok t) {x : Char}
    (place : c.IsPlace line) (next : c.next? = some (x, d)) (nonblank : Text.isBlank x = false) :
    tokenAt (t.candidates line) c = ungatedTokenAt t.order c := by
  rw [tokenAt, findSome?_candidates (entry_of_ofVocabulary h) place,
    unmatchedEnd_eq (Cursor.ahead_of_next? next) nonblank, ungatedTokenAt]
  congr 2
  exact funext fun e => (ungatedClaim?_eq c e).symm

/-- Leaving out phrases that do not occur in a line changes no token: the tokens are those that
all phrases give, each searched for from every place on. Where there is no blank, the catch-all
matches. -/
theorem tokenize_eq_ungated (h : ofVocabulary v priority = .ok t) (line : Text) :
    (∀ tokens, Reads (ungatedTokenAt t.order) (Cursor.start line) tokens ↔
      tokens = t.tokenize line) ∧
    (∀ c, c.IsPlace line →
      (t.candidates line).findSome? (claim? c) = t.order.findSome? (claim? c)) ∧
    ∀ (c d : Cursor) x, c.next? = some (x, d) → Text.isBlank x = false →
      (catchAll.finder.stopAt? c).isSome := by
  have place := Cursor.isPlace_start line
  have reads : Reads (ungatedTokenAt t.order) (Cursor.start line) (t.tokenize line) :=
    (reads_tokenize h line).congr (takesText_candidates h line) place
      fun _ _ _ place next nonblank => tokenAt_candidates h place next nonblank
  refine ⟨fun tokens => ⟨fun other => other.unique reads, ?_⟩, fun c place => ?_, ?_⟩
  · rintro rfl
    exact reads
  · exact findSome?_candidates (entry_of_ofVocabulary h) place
  · intro c d x next nonblank
    rw [stopAt?_catchAll (Cursor.ahead_of_next? next) nonblank]
    rfl

theorem reads_drawing : ∃ t, ofVocabulary drawing [.drawCards] = .ok t ∧
    Reads (ungatedTokenAt t.order) (Cursor.start "draw two.")
      [⟨.kind .drawCards, 0, 4⟩, ⟨.unmatched, 5, 8⟩, ⟨.unmatched, 8, 9⟩] := by
  obtain ⟨t, accepted, tokens⟩ := exists_tokenize_drawing
  exact ⟨t, accepted, ((tokenize_eq_ungated accepted _).1 _).2 tokens.symm⟩

end RulesText.Tokenizer
