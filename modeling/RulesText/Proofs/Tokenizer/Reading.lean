import Mathlib.Data.List.Pairwise
import Mathlib.Logic.ExistsUnique
import RulesText.Proofs.Cursor
import RulesText.Tokenizer

/-!
# Reading a line to its end

Reading a line alternates between skipping a blank and taking a token. If every token takes some
text where it starts, the reading comes to the end of the line, and its tokens cover exactly what
is not between blanks.

## Main definitions

* `Tokenizer.Reads`: the tokens that are read from a place on.
* `Tokenizer.TakesText`: every token takes some text of a line.
-/

namespace RulesText.Tokenizer

/-- From the place `c` to the end of the text these tokens are read, where `step` tells the token
at a place and where it ends. -/
inductive Reads (step : Cursor → Label × Cursor) : Cursor → List Token → Prop where
  | done {c} (atEnd : c.next? = none) : Reads step c []
  | blank {c d x tokens} (next : c.next? = some (x, d)) (blank : Text.isBlank x = true)
      (later : Reads step d tokens) : Reads step c tokens
  | token {c d x tokens} (next : c.next? = some (x, d)) (nonblank : Text.isBlank x = false)
      (later : Reads step (step c).2 tokens) :
      Reads step c (⟨(step c).1, c.spanTo (step c).2⟩ :: tokens)

/-- At every place of the line that is not blank the token takes some text. -/
def TakesText (step : Cursor → Label × Cursor) (line : Text) : Prop :=
  ∀ (c d : Cursor) x, c.IsPlace line → c.next? = some (x, d) → Text.isBlank x = false →
    ∃ s, c.Through (x :: s) (step c).2

variable {step step' : Cursor → Label × Cursor} {line : Text} {c d : Cursor}
  {tokens tokens' : List Token}

/-- What is read is determined. -/
theorem Reads.unique (h : Reads step c tokens) (h' : Reads step c tokens') :
    tokens = tokens' := by
  induction h generalizing tokens' with
  | done atEnd =>
    cases h' with
    | done => rfl
    | blank next => rw [atEnd] at next; contradiction
    | token next => rw [atEnd] at next; contradiction
  | blank next blank later ih =>
    cases h' with
    | done atEnd => rw [atEnd] at next; contradiction
    | blank next' blank' later' =>
      obtain ⟨-, rfl⟩ := Cursor.next?_inj next next'
      exact ih later'
    | token next' nonblank =>
      obtain ⟨rfl, -⟩ := Cursor.next?_inj next next'
      rw [blank] at nonblank
      contradiction
  | token next nonblank later ih =>
    cases h' with
    | done atEnd => rw [atEnd] at next; contradiction
    | blank next' blank' =>
      obtain ⟨rfl, -⟩ := Cursor.next?_inj next next'
      rw [blank'] at nonblank
      contradiction
    | token next' nonblank' later' => rw [ih later']

/-- Steps that agree at the places of a line that are not blank read the same tokens. -/
theorem Reads.congr (h : Reads step c tokens) (takes : TakesText step line)
    (place : c.IsPlace line)
    (agree : ∀ (c d : Cursor) x, c.IsPlace line → c.next? = some (x, d) → Text.isBlank x = false →
      step c = step' c) : Reads step' c tokens := by
  induction h with
  | done atEnd => exact .done atEnd
  | blank next blank later ih =>
    exact .blank next blank (ih (place.reaches (Cursor.reaches_of_next? next)))
  | token next nonblank later ih =>
    obtain ⟨s, through⟩ := takes _ _ _ place next nonblank
    have eq := agree _ _ _ place next nonblank
    have := ih (place.reaches ⟨_, through⟩)
    rw [eq] at this ⊢
    exact .token next nonblank this

/-- The guard on the length of what is ahead is never needed. -/
theorem reads_tokensFrom {entries : List LexiconEntry}
    (takes : TakesText (tokenAt entries) line) (place : c.IsPlace line) :
    Reads (tokenAt entries) c (tokensFrom entries c) := by
  fun_induction tokensFrom entries c with
  | case1 c ahead => exact .done (by simp [Cursor.next?, ahead])
  | case2 c x rest ahead blank ih =>
    have next : c.next? = some (x, ⟨x :: c.behind, rest, c.offset + x.utf8Size⟩) := by
      simp [Cursor.next?, ahead]
    exact .blank next blank (ih (place.reaches (Cursor.reaches_of_next? next)))
  | case3 c x rest ahead nonblank label stop eq shorter ih =>
    have next : c.next? = some (x, ⟨x :: c.behind, rest, c.offset + x.utf8Size⟩) := by
      simp [Cursor.next?, ahead]
    obtain ⟨s, through⟩ := takes c _ x place next (by simpa using nonblank)
    obtain ⟨rfl, rfl⟩ : label = (tokenAt entries c).1 ∧ stop = (tokenAt entries c).2 := by
      rw [eq]
      exact ⟨rfl, rfl⟩
    exact .token next (by simpa using nonblank) (ih (place.reaches ⟨_, through⟩))
  | case4 c x rest ahead nonblank label stop eq notShorter =>
    have next : c.next? = some (x, ⟨x :: c.behind, rest, c.offset + x.utf8Size⟩) := by
      simp [Cursor.next?, ahead]
    obtain ⟨s, through⟩ := takes c _ x place next (by simpa using nonblank)
    obtain rfl : stop = (tokenAt entries c).2 := by rw [eq]
    have length := congrArg List.length through.ahead
    rw [List.length_append, List.length_cons] at length
    omega

/-! ## Where tokens are -/

section

variable (takes : TakesText step line) (place : c.IsPlace line)

include takes place

/-- Every token begins with a character that is not blank. -/
theorem Reads.exists_through (h : Reads step c tokens) : ∀ token ∈ tokens, ∃ d e x s,
    c.Reaches d ∧ d.Through (x :: s) e ∧ Text.isBlank x = false ∧ token.span = d.spanTo e := by
  induction h with
  | done => simp
  | @blank c d x tokens next blank later ih =>
    have reach := Cursor.reaches_of_next? next
    intro token mem
    obtain ⟨e, f, y, s, reach', rest⟩ := ih (place.reaches reach) token mem
    exact ⟨e, f, y, s, reach.trans reach', rest⟩
  | @token c d x tokens next nonblank later ih =>
    obtain ⟨s, through⟩ := takes c d x place next nonblank
    refine List.forall_mem_cons.2 ⟨?_, fun token mem => ?_⟩
    · exact ⟨c, _, x, s, .refl c, through, nonblank, rfl⟩
    · obtain ⟨e, f, y, u, reach, rest⟩ := ih (place.reaches ⟨_, through⟩) token mem
      exact ⟨e, f, y, u, Cursor.Reaches.trans ⟨_, through⟩ reach, rest⟩

/-- Every token is the one at some place that is not blank. -/
theorem Reads.exists_place (h : Reads step c tokens) : ∀ token ∈ tokens, ∃ d : Cursor,
    d.IsPlace line ∧ token = ⟨(step d).1, d.spanTo (step d).2⟩ ∧
      ∃ x e, d.next? = some (x, e) ∧ Text.isBlank x = false := by
  induction h with
  | done => simp
  | blank next blank later ih => exact ih (place.reaches (Cursor.reaches_of_next? next))
  | @token c d x tokens next nonblank later ih =>
    obtain ⟨s, through⟩ := takes c d x place next nonblank
    exact List.forall_mem_cons.2
      ⟨⟨c, place, rfl, x, d, next, nonblank⟩, ih (place.reaches ⟨_, through⟩)⟩

/-- No token begins before the one before it ends. -/
theorem Reads.pairwise (h : Reads step c tokens) :
    tokens.Pairwise fun a b => a.span.stop ≤ b.span.start := by
  induction h with
  | done => exact .nil
  | blank next blank later ih => exact ih (place.reaches (Cursor.reaches_of_next? next))
  | @token c d x tokens next nonblank later ih =>
    obtain ⟨s, through⟩ := takes c d x place next nonblank
    have place' := place.reaches ⟨_, through⟩
    refine List.pairwise_cons.2 ⟨fun token mem => ?_, ih place'⟩
    obtain ⟨e, f, y, u, reach, -, -, eq⟩ := later.exists_through takes place' token mem
    rw [eq]
    exact reach.offset_le

/-- Every later character that is not blank lies in a token. -/
theorem Reads.exists_token (h : Reads step c tokens) {d e : Cursor} {x : Char}
    (reach : c.Reaches d) (next : d.next? = some (x, e)) (nonblank : Text.isBlank x = false) :
    ∃ token ∈ tokens, token.span.start ≤ d.offset ∧ e.offset ≤ token.span.stop := by
  induction h with
  | @done c atEnd =>
    rcases reach.eq_or_next with rfl | ⟨y, f, eq, -⟩
    · rw [atEnd] at next
      contradiction
    · rw [atEnd] at eq
      contradiction
  | @blank c f y tokens next' blank later ih =>
    rcases reach.eq_or_next with rfl | ⟨z, g, eq, rest⟩
    · obtain ⟨rfl, -⟩ := Cursor.next?_inj next next'
      rw [blank] at nonblank
      contradiction
    · obtain ⟨-, rfl⟩ := Cursor.next?_inj next' eq
      exact ih (place.reaches (Cursor.reaches_of_next? next')) rest
  | @token c f y tokens next' nonblank' later ih =>
    obtain ⟨s, through⟩ := takes c f y place next' nonblank'
    have place' := place.reaches ⟨_, through⟩
    -- the character is behind the token, or it is inside
    have later : (step c).2.Reaches d → ∃ token ∈ ⟨(step c).1, c.spanTo (step c).2⟩ :: tokens,
        token.span.start ≤ d.offset ∧ e.offset ≤ token.span.stop := by
      intro behind
      obtain ⟨token, mem, rest⟩ := ih place' behind
      exact ⟨token, List.mem_cons_of_mem _ mem, rest⟩
    rcases place'.total (place.reaches reach) with behind | inside
    · exact later behind
    · rcases inside.eq_or_next with eq | ⟨z, g, eq, rest⟩
      · exact later (eq ▸ .refl _)
      · obtain ⟨-, rfl⟩ := Cursor.next?_inj next eq
        exact ⟨_, List.mem_cons_self, reach.offset_le, rest.offset_le⟩

/-- No character lies in two tokens. -/
theorem Reads.token_unique (h : Reads step c tokens) {a b : Token} (ha : a ∈ tokens)
    (hb : b ∈ tokens) {i j : Nat} (lt : i < j) (in_a : a.span.start ≤ i ∧ j ≤ a.span.stop)
    (in_b : b.span.start ≤ i ∧ j ≤ b.span.stop) : a = b := by
  by_contra ne
  have apart : tokens.Pairwise fun a b =>
      a.span.stop ≤ b.span.start ∨ b.span.stop ≤ a.span.start :=
    (h.pairwise takes place).imp .inl
  have : Std.Symm fun a b : Token =>
      a.span.stop ≤ b.span.start ∨ b.span.stop ≤ a.span.start := ⟨fun _ _ => Or.symm⟩
  rcases apart.forall ha hb ne with le | le
  · omega
  · omega

end

end RulesText.Tokenizer
