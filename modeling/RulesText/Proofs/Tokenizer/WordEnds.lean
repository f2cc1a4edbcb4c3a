import RulesText.Proofs.Regex.WordEnds
import RulesText.Proofs.Tokenizer.Standard

/-!
# Tokens and words

Most standard patterns begin and end at the boundaries of words. Only those of events and of power
and toughness can stop inside a word, and only those of a loyalty cost and of power and toughness
can begin inside one, which they do right where another token has stopped.

## Main definitions

* `Text.IsInWord`: a place of a line, given in bytes, that is inside a word.
* `Tokenizer.splitting`: the standard kinds whose tokens can begin, or end, inside words.

## Main statements

* `Tokenizer.exists_splitting_standard`: which tokens of the standard tokenizer split words.
-/

namespace RulesText

/-- At this distance from the start there are ASCII letters on both sides. -/
def Text.IsInWord (line : Text) (offset : Nat) : Prop :=
  ∃ c : Cursor, c.IsPlace line ∧ c.offset = offset ∧ c.isInWord

theorem Text.IsInWord.of_place {line : Text} {c : Cursor} (place : c.IsPlace line)
    (h : Text.IsInWord line c.offset) : c.isInWord := by
  obtain ⟨d, place', same, inside⟩ := h
  rwa [place.eq_of_offset place' same.symm]

namespace Tokenizer

variable {line : Text} {c d : Cursor} {x : Char}

/-! ## Unmatched text -/

theorem isAlpha_of_isTerminal (h : isTerminal x) : x.isAlpha = false := by
  have mark : (x = '.' ∨ x = ',') ∨ x = ';' := by simpa [isTerminal] using h
  rcases mark with (rfl | rfl) | rfl <;> decide

theorem isAlpha_of_isBlank (h : Text.isBlank x) : x.isAlpha = false := by
  have all : Text.alphanumerics.all (!Text.isBlank ·) := by decide
  refine Bool.eq_false_iff.2 fun alpha => ?_
  have other := Text.of_isAlphanum all (c := x) (by simp [Char.isAlphanum, alpha])
  simp [h] at other

/-- An unmatched token goes on up to the end of its word. -/
theorem isInWord_unmatchedEnd (next : c.next? = some (x, d)) (nonblank : Text.isBlank x = false) :
    (unmatchedEnd c).isInWord = false := by
  have ahead := Cursor.ahead_of_next? next
  have through := Cursor.through_past (unmatchedText_isPrefix c.ahead)
  rw [unmatchedEnd_eq ahead nonblank]
  cases mark : isTerminal x with
  | true =>
    have one : unmatchedText c.ahead = [x] := by rw [ahead, unmatchedText, if_pos mark]
    rw [one] at through ⊢
    exact Cursor.isInWord_of_behind through.behind (isAlpha_of_isTerminal mark)
  | false =>
    let run : Char → Bool := fun y => !Text.isBlank y && !isTerminal y
    have text : unmatchedText c.ahead = c.ahead.takeWhile run := by
      rw [ahead, unmatchedText, if_neg (by simp [mark])]
    have rest : (c.past (unmatchedText c.ahead)).ahead = c.ahead.dropWhile run := by
      refine List.append_cancel_left (through.ahead.symm.trans ?_)
      rw [text]
      exact List.takeWhile_append_dropWhile.symm
    cases after : c.ahead.dropWhile run with
    | nil => simp [Cursor.isInWord, Cursor.aheadIs, rest, after]
    | cons y later =>
      have stops : run y = false := by
        have := List.head?_dropWhile_not run c.ahead
        rwa [after] at this
      refine Cursor.isInWord_of_ahead (rest.trans after) ?_
      cases blank : Text.isBlank y with
      | true => exact isAlpha_of_isBlank blank
      | false => exact isAlpha_of_isTerminal (by simpa [run, blank] using stops)

/-! ## Tokens that begin inside words -/

variable {step : Cursor → Label × Cursor} {tokens : List Token}

/-- A token begins inside a word only where the reading begins, or where another token ends. -/
theorem Reads.exists_before (h : Reads step c tokens) (takes : TakesText step line)
    (place : c.IsPlace line) : ∀ token ∈ tokens, Text.IsInWord line token.span.start →
      token.span.start = c.offset ∨
        ∃ before ∈ tokens, before.span.stop = token.span.start := by
  induction h with
  | done => simp
  | @blank c d x tokens next blank later ih =>
    have reach := Cursor.reaches_of_next? next
    intro token mem inside
    rcases ih (place.reaches reach) token mem inside with start | before
    · -- Behind a blank there is no word.
      have behind := (Cursor.next?_eq_some_iff.1 next).behind
      have outside := Cursor.isInWord_of_behind behind (isAlpha_of_isBlank blank)
      rw [start] at inside
      exact absurd (inside.of_place (place.reaches reach)) (by simp [outside])
    · exact .inr before
  | @token c d x tokens next nonblank later ih =>
    obtain ⟨s, through⟩ := takes c d x place next nonblank
    refine List.forall_mem_cons.2 ⟨fun _ => .inl rfl, fun token mem inside => .inr ?_⟩
    rcases ih (place.reaches ⟨_, through⟩) token mem inside with start | ⟨before, mem, same⟩
    · exact ⟨_, List.mem_cons_self, start.symm⟩
    · exact ⟨before, List.mem_cons_of_mem _ mem, same⟩

/-! ## Single tokens -/

theorem Reads.exists_cons {tokens : List Token} (h : Reads step c tokens)
    (next : c.next? = some (x, d)) (nonblank : Text.isBlank x = false) :
    ∃ later, tokens = ⟨(step c).1, c.spanTo (step c).2⟩ :: later := by
  cases h with
  | done atEnd => simp [next] at atEnd
  | blank next' blank =>
    obtain ⟨rfl, -⟩ := Cursor.next?_inj next next'
    simp [nonblank] at blank
  | @token _ _ _ later => exact ⟨later, rfl⟩

/-- Where only one phrase has a token, it is taken. -/
theorem tokenAt_of_claim? {v : Vocabulary} {priority : List Kind} {t : Tokenizer}
    (h : ofVocabulary v priority = .ok t) (place : c.IsPlace line) {e : LexiconEntry}
    (entry : e ∈ t.lexicon.entries) {result : Label × Cursor} (claims : claim? c e = some result)
    (others : ∀ other ∈ t.lexicon.entries, other.kind ≠ e.kind → claim? c other = none) :
    tokenAt (t.candidates line) c = result := by
  have built := build_of_ofVocabulary h
  obtain ⟨l, -, new⟩ := bind_eq_ok.1 h
  have lexicon := (mem_of_new new).1
  have only : ∀ other ∈ t.lexicon.entries, other.kind = e.kind → other = e := fun other mem same =>
    Option.some.inj ((Lexicon.find?_of_build built mem).symm.trans
      (same ▸ Lexicon.find?_of_build built entry))
  obtain ⟨other, mem, same⟩ := exists_mem_order new (lexicon ▸ entry)
  have own := (entry_of_ofVocabulary h other mem).1
  rw [only other own same] at mem
  rw [tokenAt, findSome?_candidates (entry_of_ofVocabulary h) place]
  cases found : t.order.findSome? (claim? c) with
  | none =>
    rw [List.findSome?_eq_none_iff] at found
    rw [found e mem] at claims
    cases claims
  | some first =>
    obtain ⟨other, inside, claims'⟩ := List.exists_of_findSome?_eq_some found
    have own := (entry_of_ofVocabulary h other inside).1
    by_cases same : other.kind = e.kind
    · rw [only other own same, claims] at claims'
      exact (Option.some.inj claims').symm
    · rw [others other own same] at claims'
      cases claims'

/-! ## The standard tokenizer -/

/-- The standard kinds whose tokens can have the given end inside a word. -/
def splitting : Side → List Kind
  | .leading => [.loyaltyCost, .powerToughness]
  | .trailing => [.event, .powerToughness, .ptModifier]

/-- The expression of a kind. -/
def expression? (v : Vocabulary) (kind : Kind) : Option Regex :=
  (Compiler.outcome v [] kind).toOption.bind (Regex.parse? ·.source)

/-- Whether the expression of a kind spares words at both ends, but for those that the kind may
split. -/
def sparesWords (kind : Kind) (r : Regex) : Bool :=
  [Side.leading, .trailing].all fun side => (splitting side).contains kind || r.sparesWords side

/-- Whether the expression of a kind matches at the start of `diesel` just if it is that of an
event, which takes the first four letters. -/
def takesDies (kind : Kind) (r : Regex) : Bool :=
  r.finder.stopAt? (.start "diesel") ==
    if kind = .event then some ((Cursor.start "diesel").past "dies") else none

/-- Both at once, since it takes long to read the expressions. -/
def checksWords (phrase : Phrase) : Bool :=
  (expression? Vocabulary.standard phrase.kind).any fun r =>
    sparesWords phrase.kind r && takesDies phrase.kind r

theorem checksWords_standard : ∀ phrase ∈ Vocabulary.standard, checksWords phrase := by
  unfold Vocabulary.standard
  repeat refine List.forall_mem_cons.2 ⟨by decide +kernel, ?_⟩
  exact List.forall_mem_nil _

section

variable {t : Tokenizer} (accepted : standard = .ok t)
include accepted

/-- The expressions of the standard lexicon have been checked. -/
theorem checks_entry {e : LexiconEntry} (entry : e ∈ t.lexicon.entries) :
    e.search = e.regex.finder ∧ sparesWords e.kind e.regex ∧ takesDies e.kind e.regex := by
  obtain ⟨phrase, describes⟩ := Lexicon.exists_describes (build_of_ofVocabulary accepted) entry
  have kind := Compiler.kind_of_find? describes.declared
  have expression : expression? Vocabulary.standard phrase.kind = some e.regex := by
    rw [kind, expression?,
      Compiler.outcome_of_renders describes.renders (by simp [Compiler.Descends])]
    exact Lexicon.parse_eq_ok describes.regex
  have check := checksWords_standard phrase (List.mem_of_find?_eq_some describes.declared)
  rw [checksWords, expression, Option.any_some, kind, Bool.and_eq_true] at check
  exact ⟨describes.search, check⟩

/-- A matched token is the match of an expression that spares words, but for those that its kind may
split. -/
theorem exists_match_standard {token : Token} (mem : token ∈ t.tokenize line) {kind : Kind}
    (label : token.label = .kind kind) :
    ∃ (c d : Cursor) (r : Regex), c.IsPlace line ∧ r.Matches c d ∧ token.span = c.spanTo d ∧
      ∀ side, kind ∈ splitting side ∨ r.sparesWords side := by
  obtain ⟨e, entry, rfl, c, d, place, stops, span⟩ := exists_match_of_mem accepted mem label
  obtain ⟨search, spares, -⟩ := checks_entry accepted entry
  rw [search] at stops
  refine ⟨c, d, e.regex, place, Regex.matches_of_stopAt? stops, span, fun side => ?_⟩
  have own := List.all_eq_true.1 spares side (by cases side <;> simp)
  simpa using own

end

/-- Unmatched tokens end outside of words. -/
theorem not_isInWord_of_unmatched {v : Vocabulary} {priority : List Kind} {t : Tokenizer}
    (h : ofVocabulary v priority = .ok t) {token : Token} (mem : token ∈ t.tokenize line)
    (label : token.label = .unmatched) : ¬ Text.IsInWord line token.span.stop := by
  have takes := takesText_candidates h line
  obtain ⟨c, place, rfl, x, d, next, nonblank⟩ :=
    (reads_tokenize h line).exists_place takes (Cursor.isPlace_start line) token mem
  obtain ⟨s, through⟩ := takes c d x place next nonblank
  intro inside
  have inside := inside.of_place (place.reaches ⟨_, through⟩)
  rw [tokenAt] at label inside
  cases found : (t.candidates line).findSome? (claim? c) with
  | none =>
    rw [found, Option.getD_none, isInWord_unmatchedEnd next nonblank] at inside
    cases inside
  | some result =>
    obtain ⟨e, -, claims⟩ := List.exists_of_findSome?_eq_some found
    obtain ⟨-, -, eq⟩ := claim?_eq_some_iff.1 claims
    rw [found, Option.getD_some, eq] at label
    cases label

/-- Only tokens of three kinds end inside words. -/
theorem exists_splitting_of_stop {t : Tokenizer} (accepted : standard = .ok t) {token : Token}
    (mem : token ∈ t.tokenize line) (inside : Text.IsInWord line token.span.stop) :
    ∃ kind ∈ splitting .trailing, token.label = .kind kind := by
  cases label : token.label with
  | kind kind =>
    obtain ⟨c, d, r, place, step, span, spares⟩ := exists_match_standard accepted mem label
    rw [span] at inside
    have inside := inside.of_place (place.reaches (Regex.matches_forward r c d step))
    refine ⟨kind, (spares .trailing).resolve_right fun spared => ?_, rfl⟩
    have outside := Regex.isInWord_of_sparesWords spared step
    exact absurd inside (by simpa [Cursor.atSide] using outside)
  | unmatched => exact absurd inside (not_isInWord_of_unmatched accepted mem label)

/-- No token of the standard tokenizer ends inside a word but those of events, of power and
toughness and of their change. No matched token begins inside a word but those of a loyalty cost
and of power and toughness, and where one does, one of the former ends. -/
theorem exists_splitting_standard : ∃ t, standard = .ok t ∧ ∀ (line : Text),
    ∀ token ∈ t.tokenize line,
      (Text.IsInWord line token.span.stop →
        ∃ kind ∈ [Kind.event, .powerToughness, .ptModifier], token.label = .kind kind) ∧
      (Text.IsInWord line token.span.start →
        (∀ kind, token.label = .kind kind → kind ∈ [Kind.loyaltyCost, .powerToughness]) ∧
        ∃ before ∈ t.tokenize line, before.span.stop = token.span.start ∧
          ∃ kind ∈ [Kind.event, .powerToughness, .ptModifier], before.label = .kind kind) := by
  obtain ⟨t, accepted, -⟩ := exists_standard
  refine ⟨t, accepted, fun line token mem =>
    ⟨exists_splitting_of_stop accepted mem, fun inside => ⟨fun kind label => ?_, ?_⟩⟩⟩
  · obtain ⟨c, d, r, place, step, span, spares⟩ := exists_match_standard accepted mem label
    rw [span] at inside
    have inside := inside.of_place place
    refine (spares .leading).resolve_right fun spared => ?_
    have outside := Regex.isInWord_of_sparesWords spared step
    exact absurd inside (by simpa [Cursor.atSide] using outside)
  · rcases (reads_tokenize accepted line).exists_before (takesText_candidates accepted line)
      (Cursor.isPlace_start line) token mem inside with start | ⟨before, mem, same⟩
    · rw [start] at inside
      have inside := inside.of_place (Cursor.isPlace_start line)
      simp [Cursor.isInWord, Cursor.start, Cursor.behindIs] at inside
    · exact ⟨before, mem, same, exists_splitting_of_stop accepted mem (same ▸ inside)⟩

/-- The standard tokenizer takes the verb out of the beginning of a longer word. -/
theorem exists_token_diesel : ∃ t, standard = .ok t ∧ ∃ token ∈ t.tokenize "diesel",
    token.label = .kind .event ∧ Text.IsInWord "diesel" token.span.stop := by
  obtain ⟨t, accepted, -⟩ := exists_standard
  have declared : Vocabulary.event ∈ Vocabulary.standard := by simp [Vocabulary.standard]
  obtain ⟨e, found, -⟩ := Lexicon.exists_entry (build_of_ofVocabulary accepted) declared
  have entry := List.mem_of_find?_eq_some found
  have kind : e.kind = .event := Lexicon.kind_of_find? found
  let start : Cursor := .start "diesel"
  have stops : ∀ other ∈ t.lexicon.entries, other.search.stopAt? start =
      if other.kind = .event then some (start.past "dies") else none := by
    intro other mem
    obtain ⟨search, -, takes⟩ := checks_entry accepted mem
    rw [search]
    exact beq_iff_eq.1 takes
  have claims : claim? start e = some (.kind .event, start.past "dies") :=
    claim?_eq_some_iff.2 ⟨by rw [stops e entry, if_pos kind], by decide, by rw [kind]⟩
  have others : ∀ other ∈ t.lexicon.entries, other.kind ≠ e.kind → claim? start other = none := by
    intro other mem ne
    rw [claim?, stops other mem, if_neg (kind ▸ ne)]
    rfl
  have first := tokenAt_of_claim? accepted (Cursor.isPlace_start _) entry claims others
  obtain ⟨later, tokens⟩ := (reads_tokenize accepted "diesel").exists_cons
    (x := 'd') rfl (by decide)
  rw [first] at tokens
  have place : (start.past "dies").IsPlace "diesel" :=
    (Cursor.isPlace_start _).reaches ⟨_, Cursor.through_past (by decide)⟩
  exact ⟨t, accepted, ⟨.kind .event, start.spanTo (start.past "dies")⟩,
    tokens ▸ List.mem_cons_self, rfl, start.past "dies", place, rfl, by decide⟩

end Tokenizer

end RulesText
