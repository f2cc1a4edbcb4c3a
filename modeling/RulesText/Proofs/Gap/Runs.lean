import RulesText.Gap.Basic
import RulesText.Proofs.Text.Slices

/-!
# The gaps of a line

A gap reaches from the start of its first token to the end of its last one. If the tokens are
stretches of the line in order, then so are the gaps, and the text of a gap is its slice.

## Main definitions

* `Span.IsStretch`: a span covers some text of a line.
* `Gap.Fits`: a gap is a stretch of a line with its text.
-/

namespace RulesText

/-- The span covers some text of the line. -/
structure Span.IsStretch (line : Text) (s : Span) : Prop where
  nonempty : s.start < s.stop
  exists_slice : ∃ w, Text.slice? line s = some w

/-- From the start of one slice to a later end of another there is a slice. -/
theorem Text.exists_slice?_between {t u w : Text} {r s : Span} (hr : slice? t r = some u)
    (hs : slice? t s = some w) (le : r.start ≤ s.stop) :
    ∃ x, slice? t ⟨r.start, s.stop⟩ = some x := by
  obtain ⟨c, d, place_c, -, rfl⟩ := Cursor.exists_through_of_slice? hr
  obtain ⟨e, f, place_e, through, rfl⟩ := Cursor.exists_through_of_slice? hs
  have place_f := place_e.reaches ⟨_, through⟩
  apply Option.isSome_iff_exists.1
  rcases place_c.total place_f with reach | reach
  · exact place_c.isSome_slice? reach
  · obtain rfl := reach.eq_of_offset_le le
    exact place_f.isSome_slice? (.refl _)

/-- Tokens of which none begins before the one before it ends. -/
def Token.InOrder (tokens : List Token) : Prop :=
  tokens.Pairwise fun a b => a.span.stop ≤ b.span.start

namespace Gap

open Token (InOrder)

/-- The gap is a stretch of the line, and its text is what stands there. -/
structure Fits (line : Text) (g : Gap) : Prop where
  nonempty : g.span.start < g.span.stop
  slice : Text.slice? line g.span = some g.text

variable {line : Text} {least : Nat} {before : Neighbour} {tokens : List Token} {t : Token}
  {g : Gap}

theorem dropWhile_sublist_cons (p : Token → Bool) (t : Token) (tokens : List Token) :
    (tokens.dropWhile p).Sublist (t :: tokens) :=
  (List.dropWhile_suffix p).sublist.trans (List.sublist_cons_self t tokens)

/-- A gap goes from a token to the same or a later one. -/
theorem exists_tokens (inOrder : InOrder tokens) (mem : g ∈ ofTokens line least before tokens) :
    ∃ first ∈ tokens, ∃ last ∈ tokens, (first = last ∨ first.span.stop ≤ last.span.start) ∧
      g.span = ⟨first.span.start, last.span.stop⟩ ∧ g.text = Text.slice line g.span := by
  fun_induction ofTokens line least before tokens with
  | case1 => simp at mem
  | case2 before t rest kind label ih =>
    obtain ⟨first, hf, last, hl, spec⟩ := ih (List.pairwise_cons.1 inOrder).2 mem
    exact ⟨first, List.mem_cons_of_mem _ hf, last, List.mem_cons_of_mem _ hl, spec⟩
  | case3 before t rest label others after later long ih =>
    rcases List.mem_cons.1 mem with rfl | mem
    · have split : others ++ after = rest := List.takeWhile_append_dropWhile
      have last := List.getLast_mem (List.cons_ne_nil t others)
      have behind := (List.pairwise_cons.1 inOrder).1
      exact ⟨t, List.mem_cons_self, _, by grind, by grind, rfl, rfl⟩
    · have sub := dropWhile_sublist_cons isUnmatched t rest
      obtain ⟨first, hf, last, hl, spec⟩ := ih (inOrder.sublist sub) mem
      exact ⟨first, sub.subset hf, last, sub.subset hl, spec⟩
  | case4 before t rest label others after later short ih =>
    have sub := dropWhile_sublist_cons isUnmatched t rest
    obtain ⟨first, hf, last, hl, spec⟩ := ih (inOrder.sublist sub) mem
    exact ⟨first, sub.subset hf, last, sub.subset hl, spec⟩

theorem fits_of_mem (inOrder : InOrder tokens)
    (stretch : ∀ token ∈ tokens, token.span.IsStretch line)
    (mem : g ∈ ofTokens line least before tokens) : g.Fits line := by
  obtain ⟨first, hf, last, hl, order, span, text⟩ := exists_tokens inOrder mem
  obtain ⟨nonempty, u, start⟩ := stretch first hf
  obtain ⟨nonempty', w, stop⟩ := stretch last hl
  have lt : first.span.start < last.span.stop := by
    rcases order with rfl | le <;> omega
  obtain ⟨x, slice⟩ := Text.exists_slice?_between start stop (Nat.le_of_lt lt)
  rw [← span] at slice
  refine ⟨by rw [span]; exact lt, ?_⟩
  rw [text, Text.slice_eq slice, slice]

/-- No gap begins before the one before it ends. -/
theorem pairwise_ofTokens (inOrder : InOrder tokens) :
    (ofTokens line least before tokens).Pairwise fun a b => a.span.stop ≤ b.span.start := by
  fun_induction ofTokens line least before tokens with
  | case1 => exact .nil
  | case2 before t rest kind label ih => exact ih (List.pairwise_cons.1 inOrder).2
  | case3 before t rest label others after later long ih =>
    have sub := dropWhile_sublist_cons isUnmatched t rest
    refine List.pairwise_cons.2 ⟨fun g mem => ?_, ih (inOrder.sublist sub)⟩
    obtain ⟨first, hf, last, -, -, span, -⟩ := exists_tokens (inOrder.sublist sub) mem
    -- all tokens of the first gap come before those that the later gaps are made of
    have split : (t :: others) ++ after = t :: rest :=
      congrArg (t :: ·) List.takeWhile_append_dropWhile
    rw [← split] at inOrder
    rw [span]
    exact (List.pairwise_append.1 inOrder).2.2 _ (List.getLast_mem _) first hf
  | case4 before t rest label others after later short ih =>
    exact ih (inOrder.sublist (dropWhile_sublist_cons isUnmatched t rest))

end Gap

end RulesText
