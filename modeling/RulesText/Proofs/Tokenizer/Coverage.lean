import Mathlib.Data.List.Basic
import RulesText.Proofs.Coverage
import RulesText.Proofs.Gap.Runs
import RulesText.Proofs.Tokenizer.Tokenization

/-!
# What coverage counts

Unmatched tokens hold no blanks, and between the tokens of a gap there is nothing else. So the
bytes that the coverage of a line counts as unmatched are those of its gaps that are not blank,
although coverage and gaps are computed apart.

## Main definitions

* `Text.solidSize`: the bytes of a text that are not blank.
* `Gap.Gathers`: a gap of a line is made of the given tokens.
* `Tokenizer.LeavesSolid`: unmatched tokens hold no blanks.
* `Coverage.Accounts`: the coverage of tokens agrees with the line and its gaps.
-/

namespace RulesText

/-! ## Solid text -/

namespace Text

/-- No character is blank. -/
def IsSolid (t : Text) : Prop :=
  ∀ c ∈ t, isBlank c = false

/-- The size of a text without its blanks. -/
def solidSize (t : Text) : Nat :=
  byteSize (t.filter (!isBlank ·))

variable {s t : Text}

@[simp] theorem solidSize_append (s t : Text) : solidSize (s ++ t) = solidSize s + solidSize t := by
  rw [solidSize, List.filter_append, byteSize_append, solidSize, solidSize]

theorem solidSize_of_isSolid (h : IsSolid t) : solidSize t = byteSize t := by
  rw [solidSize, List.filter_eq_self.2]
  intro c mem
  rw [h c mem, Bool.not_false]

theorem solidSize_singleton {b : Char} (blank : isBlank b = true) : solidSize [b] = 0 := by
  simp [solidSize, blank]

theorem solidSize_le (t : Text) : solidSize t ≤ byteSize t := by
  induction t with
  | nil => exact Nat.le_refl 0
  | cons c t ih =>
    rw [solidSize, List.filter_cons]
    split
    · exact Nat.add_le_add_left ih _
    · exact Nat.le_trans ih (Nat.le_add_left _ _)

end Text

/-! ## Gaps and the tokens that they are made of -/

/-- The text begins and ends with a character that is not blank. -/
structure Text.HasSolidEnds (w : Text) : Prop where
  first : ∃ x rest, w = x :: rest ∧ isBlank x = false
  last : ∃ front x, w = front ++ [x] ∧ isBlank x = false

/-- The text has no blanks at its ends, and without blanks it is as long as the tokens
together. -/
structure Text.Gathers (w : Text) (run : List Token) : Prop extends HasSolidEnds w where
  size : solidSize w = Coverage.extent run

/-- The gap stands in the line where the tokens are, and is made of them. -/
structure Gap.Gathers (line : Text) (g : Gap) (run : List Token) : Prop where
  tokens : g.tokens = run.length
  slice : Text.slice? line g.span = some g.text
  text : g.text.Gathers run

namespace Text

variable {t : Token} {run : List Token}

/-- One token by itself is gathered by its text. -/
theorem Gathers.singleton {x : Char} {s : Text} (solid : IsSolid (x :: s))
    (length : t.span.length = byteSize (x :: s)) : Gathers (x :: s) [t] where
  size := by
    rw [solidSize_of_isSolid solid, Coverage.extent_cons, length, Coverage.extent_nil,
      Nat.add_zero]
  first := ⟨x, s, rfl, solid x List.mem_cons_self⟩
  last := by
    obtain ⟨front, y, eq⟩ := List.eq_nil_or_concat' (x :: s) |>.resolve_left (by simp)
    refine ⟨front, y, eq, solid y ?_⟩
    rw [eq]
    exact List.mem_append_right _ (List.mem_singleton.2 rfl)

/-- A token, blanks and the text of later tokens. -/
theorem Gathers.cons {x : Char} {s b w : Text} (own : Gathers (x :: s) [t])
    (blanks : solidSize b = 0) (later : Gathers w run) :
    Gathers (x :: s ++ (b ++ w)) (t :: run) where
  size := by
    have size := own.size
    rw [Coverage.extent_cons, Coverage.extent_nil, Nat.add_zero] at size
    rw [solidSize_append, solidSize_append, size, blanks, later.size,
      Coverage.extent_cons, Nat.zero_add]
  first := by
    obtain ⟨y, rest, eq, nonblank⟩ := own.first
    exact ⟨y, rest ++ (b ++ w), by rw [eq, List.cons_append], nonblank⟩
  last := by
    obtain ⟨front, y, rfl, nonblank⟩ := later.last
    exact ⟨x :: s ++ (b ++ front), y, by simp, nonblank⟩

end Text

theorem Cursor.Through.length_spanTo {c d : Cursor} {s : Text} (h : c.Through s d) :
    (c.spanTo d).length = Text.byteSize s := by
  rw [Span.length, Cursor.spanTo, h.offset, Nat.add_sub_cancel_left]

namespace Tokenizer

/-- Where a token is unmatched, its text holds no blanks. -/
def LeavesSolid (step : Cursor → Label × Cursor) : Prop :=
  ∀ (c d : Cursor) x s, c.next? = some (x, d) → Text.isBlank x = false →
    (step c).1 = .unmatched → c.Through s (step c).2 → Text.IsSolid s

variable {step : Cursor → Label × Cursor} {line : Text} {c : Cursor} {tokens run after : List Token}

section

variable (takes : TakesText step line) (place : c.IsPlace line)

include takes place

/-- What is not blank is inside tokens. -/
theorem Reads.solidSize_le (h : Reads step c tokens) :
    Text.solidSize c.ahead ≤ Coverage.extent tokens := by
  induction h with
  | done atEnd =>
    rw [Cursor.next?_eq_none_iff.1 atEnd]
    exact Nat.le_refl 0
  | @blank c d x tokens next blank later ih =>
    have ih := ih (place.reaches (Cursor.reaches_of_next? next))
    rw [(Cursor.next?_eq_some_iff.1 next).ahead, Text.solidSize_append,
      Text.solidSize_singleton blank, Nat.zero_add]
    exact ih
  | @token c d x tokens next nonblank later ih =>
    obtain ⟨s, through⟩ := takes c d x place next nonblank
    have ih := ih (place.reaches ⟨_, through⟩)
    have own := Text.solidSize_le (x :: s)
    rw [through.ahead, Text.solidSize_append, Coverage.extent_cons, through.length_spanTo]
    omega

/-- A run of unmatched tokens at the start of what is read comes after blanks, and its text is
made of them. -/
theorem Reads.exists_run (solid : LeavesSolid step) (h : Reads step c (run ++ after))
    (ne : run ≠ []) (unmatched : ∀ t ∈ run, t.label = .unmatched) :
    ∃ d e b w, c.Through b d ∧ Text.solidSize b = 0 ∧ d.Through w e ∧ Text.Gathers w run ∧
      d.offset = (run.head ne).span.start ∧ e.offset = (run.getLast ne).span.stop ∧
      Reads step e after := by
  generalize eq : run ++ after = tokens at h
  induction h generalizing run with
  | done => simp_all
  | @blank c d x tokens next blank later ih =>
    have through := Cursor.next?_eq_some_iff.1 next
    obtain ⟨e, f, b, w, before, size, rest⟩ := ih (place.reaches ⟨_, through⟩) ne unmatched eq
    refine ⟨e, f, [x] ++ b, w, through.trans before, ?_, rest⟩
    rw [Text.solidSize_append, Text.solidSize_singleton blank, size]
  | @token c d x tokens next nonblank later ih =>
    obtain ⟨t, run, rfl⟩ := List.exists_cons_of_ne_nil ne
    obtain ⟨rfl, rfl⟩ := List.cons.inj eq
    obtain ⟨label, unmatched⟩ := List.forall_mem_cons.1 unmatched
    obtain ⟨s, through⟩ := takes c d x place next nonblank
    have own : Text.Gathers (x :: s) [⟨(step c).1, c.spanTo (step c).2⟩] :=
      Text.Gathers.singleton (solid c d x _ next nonblank label through) through.length_spanTo
    by_cases last : run = []
    · subst last
      exact ⟨c, _, [], x :: s, .refl c, rfl, through, own, rfl, rfl, later⟩
    · obtain ⟨e, f, b, w, before, blanks, inside, gathers, -, stop, later⟩ :=
        ih (place.reaches ⟨_, through⟩) last unmatched rfl
      refine ⟨c, f, [], x :: s ++ (b ++ w), .refl c, rfl, through.trans (before.trans inside),
        own.cons blanks gathers, rfl, ?_, later⟩
      rw [stop, List.getLast_cons last]

/-- Every token has text. -/
theorem Reads.length_pos (h : Reads step c tokens) : ∀ t ∈ tokens, 0 < t.span.length := by
  intro t mem
  obtain ⟨d, e, x, s, -, through, -, span⟩ := h.exists_through takes place t mem
  rw [span, through.length_spanTo]
  exact Nat.lt_add_right _ x.utf8Size_pos

/-- What is read after the first token is read from a later place. -/
theorem Reads.exists_tail {t : Token} (h : Reads step c (t :: tokens)) :
    ∃ d, c.Reaches d ∧ Reads step d tokens := by
  generalize eq : t :: tokens = all at h
  induction h with
  | done => cases eq
  | blank next blank later ih =>
    have reach := Cursor.reaches_of_next? next
    obtain ⟨d, reach', reads⟩ := ih (place.reaches reach) eq
    exact ⟨d, reach.trans reach', reads⟩
  | @token c d x tokens next nonblank later =>
    obtain ⟨-, rfl⟩ := List.cons.inj eq
    obtain ⟨s, through⟩ := takes c d x place next nonblank
    exact ⟨_, ⟨_, through⟩, later⟩

/-- The gaps of a line are made of its unmatched tokens: of all of them, and each of a run. -/
theorem Reads.exists_runs (solid : LeavesSolid step) (h : Reads step c tokens) {least : Nat}
    (le : least ≤ 1) (before : Neighbour) :
    ∃ runs : List (List Token),
      List.Forall₂ (Gap.Gathers line) (Gap.ofTokens line least before tokens) runs ∧
      runs.flatten = tokens.filter Gap.isUnmatched := by
  fun_induction Gap.ofTokens line least before tokens generalizing c with
  | case1 => exact ⟨[], .nil, rfl⟩
  | case2 before t rest kind label ih =>
    obtain ⟨d, reach, reads⟩ := h.exists_tail takes place
    obtain ⟨runs, gather, all⟩ := ih (place.reaches reach) reads
    have matched : ¬Gap.isUnmatched t = true := by simp [Gap.isUnmatched, label]
    exact ⟨runs, gather, by rw [all, List.filter_cons_of_neg matched]⟩
  | case3 before t rest label others after later long =>
    rename_i ih
    have split : others ++ after = rest := List.takeWhile_append_dropWhile
    have unmatched : ∀ u ∈ t :: others, Gap.isUnmatched u = true := by
      refine List.forall_mem_cons.2 ⟨by simp [Gap.isUnmatched, label], fun u mem => ?_⟩
      exact List.all_eq_true.1 List.all_takeWhile u mem
    rw [← split, ← List.cons_append] at h
    obtain ⟨d, e, b, w, blanks, -, through, gathers, start, stop, reads⟩ :=
      h.exists_run takes place solid (List.cons_ne_nil t others) fun u mem => by
        simpa [Gap.isUnmatched] using unmatched u mem
    have place_d := place.reaches ⟨_, blanks⟩
    obtain ⟨runs, gather, all⟩ := ih (place_d.reaches ⟨_, through⟩) reads
    refine ⟨(t :: others) :: runs, .cons ?_ gather, ?_⟩
    · have span : (Gap.ofRun line before t others after).span = d.spanTo e := by
        rw [Cursor.spanTo, start, stop]
        rfl
      have slice := place_d.slice?_spanTo through
      have text : (Gap.ofRun line before t others after).text = w := by
        rw [← span] at slice
        exact Text.slice_eq slice
      exact ⟨rfl, by rw [span, text, slice], text ▸ gathers⟩
    · rw [List.flatten_cons, all, ← split, ← List.cons_append, List.filter_append,
        List.filter_eq_self.2 unmatched]
  | case4 before t rest label others after later short => omega

end

/-! ## The text of unmatched tokens -/

theorem isSolid_unmatchedText {x : Char} {rest : Text} (nonblank : Text.isBlank x = false) :
    Text.IsSolid (unmatchedText (x :: rest)) := by
  rw [unmatchedText]
  split
  · intro y mem
    rw [List.mem_singleton.1 mem, nonblank]
  · intro y mem
    have := List.all_eq_true.1 List.all_takeWhile y mem
    simp_all

/-- A token is only unmatched where the catch-all took it. -/
theorem leavesSolid_tokenAt (entries : List LexiconEntry) : LeavesSolid (tokenAt entries) := by
  intro c d x s next nonblank label through
  rw [tokenAt] at label through
  cases found : entries.findSome? (claim? c) with
  | some result =>
    obtain ⟨e, -, claims⟩ := List.exists_of_findSome?_eq_some found
    obtain ⟨-, -, matched⟩ := claim?_eq_some_iff.1 claims
    rw [found, Option.getD_some, matched] at label
    contradiction
  | none =>
    have ahead := Cursor.ahead_of_next? next
    rw [found, Option.getD_none, unmatchedEnd_eq ahead nonblank] at through
    have past := Cursor.through_past (unmatchedText_isPrefix c.ahead)
    rw [List.append_cancel_right (through.ahead.symm.trans past.ahead), ahead]
    exact isSolid_unmatchedText nonblank

end Tokenizer

/-! ## Coverage and gaps -/

/-- The coverage of the tokens of a line agrees with its gaps. -/
structure Coverage.Accounts (line : Text) (tokens : List Token) (gaps : List Gap) : Prop where
  unmatched_eq : (ofTokens tokens).unmatched = (gaps.map fun g => Text.solidSize g.text).sum
  tokens_eq : (gaps.map (·.tokens)).sum = tokens.countP Gap.isUnmatched
  slice : ∀ g ∈ gaps, Text.slice? line g.span = some g.text
  ends : ∀ g ∈ gaps, g.text.HasSolidEnds
  solidSize_le : Text.solidSize line ≤ (ofTokens tokens).matched + (ofTokens tokens).unmatched
  unmatched_eq_zero : (ofTokens tokens).unmatched = 0 ↔ ∀ t ∈ tokens, t.label ≠ .unmatched
  matched_eq_zero : (ofTokens tokens).matched = 0 ↔ ∀ t ∈ tokens, t.label = .unmatched

namespace Gap

variable {line : Text} {gaps : List Gap} {runs : List (List Token)}

theorem sum_solidSize (gather : List.Forall₂ (Gathers line) gaps runs) :
    (gaps.map fun g => Text.solidSize g.text).sum = Coverage.extent runs.flatten := by
  induction gather with
  | nil => rfl
  | @cons g run gaps runs own later ih =>
    rw [List.map_cons, List.sum_cons, ih, own.text.size, List.flatten_cons, Coverage.extent_append]

theorem sum_tokens (gather : List.Forall₂ (Gathers line) gaps runs) :
    (gaps.map (·.tokens)).sum = runs.flatten.length := by
  induction gather with
  | nil => rfl
  | @cons g run gaps runs own later ih =>
    rw [List.map_cons, List.sum_cons, ih, own.tokens, List.flatten_cons, List.length_append]

end Gap

namespace Tokenizer

variable {v : Vocabulary} {priority : List Kind} {t : Tokenizer}

theorem Reads.accounts {step : Cursor → Label × Cursor} {line : Text} {tokens : List Token}
    (h : Reads step (Cursor.start line) tokens) (takes : TakesText step line)
    (solid : LeavesSolid step) (before : Neighbour) :
    Coverage.Accounts line tokens (Gap.ofTokens line 1 before tokens) := by
  have place := Cursor.isPlace_start line
  obtain ⟨runs, gather, all⟩ := h.exists_runs takes place solid (Nat.le_refl 1) before
  have pos := h.length_pos takes place
  have zero (p : Token → Bool) : Coverage.extent (tokens.filter p) = 0 ↔ tokens.filter p = [] :=
    Coverage.extent_eq_zero fun t mem => pos t (List.mem_filter.1 mem).1
  constructor
  case unmatched_eq => rw [Gap.sum_solidSize gather, all, Coverage.ofTokens_eq]
  case tokens_eq => rw [Gap.sum_tokens gather, all, List.countP_eq_length_filter]
  case slice =>
    intro g mem
    obtain ⟨run, -, own⟩ := exists_of_forall₂ gather mem
    exact own.slice
  case ends =>
    intro g mem
    obtain ⟨run, -, own⟩ := exists_of_forall₂ gather mem
    exact own.text.toHasSolidEnds
  case solidSize_le =>
    rw [Coverage.matched_add_unmatched]
    exact h.solidSize_le takes place
  case unmatched_eq_zero =>
    rw [Coverage.ofTokens_eq, zero, List.filter_eq_nil_iff]
    simp [Gap.isUnmatched]
  case matched_eq_zero =>
    rw [Coverage.ofTokens_eq, zero, List.filter_eq_nil_iff]
    refine forall₂_congr fun t _ => ?_
    cases t.label <;> simp [Label.isMatched]

/-- The gaps of a line, however short, are found, and the coverage of its tokens agrees with
them. -/
theorem tokenize_accounts (h : ofVocabulary v priority = .ok t) (line : Text) :
    ∃ gaps, Gap.find line (t.tokenize line) 1 = .ok gaps ∧
      Coverage.Accounts line (t.tokenize line) gaps :=
  ⟨_, rfl, (reads_tokenize h line).accounts (takesText_candidates h line)
    (leavesSolid_tokenAt _) .lineStart⟩

theorem accounts_drawing : ∃ t, ofVocabulary drawing [.drawCards] = .ok t ∧
    ∃ gaps, Gap.find "draw two." (t.tokenize "draw two.") 1 = .ok gaps ∧
      Coverage.Accounts "draw two." (t.tokenize "draw two.") gaps := by
  obtain ⟨t, accepted, -⟩ := exists_tokenize_drawing
  exact ⟨t, accepted, tokenize_accounts accepted _⟩

end Tokenizer

end RulesText
