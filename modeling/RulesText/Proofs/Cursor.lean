import RulesText.Cursor

/-!
# Places of a text

The places of one text are ordered: from each of them the later ones are reached through the
characters between them. A place is known by how much text is ahead of it, and also by its
distance from the start.

## Main definitions

* `Cursor.Through`: a place is reached from another one through a text.
* `Cursor.Reaches`: a place is reached from another one.
* `Cursor.past`: the place behind a text that is ahead.
* `Cursor.IsPlace`: a cursor is a place of a text.
-/

namespace RulesText

namespace Text

theorem byteSize_reverse (s : Text) : byteSize s.reverse = byteSize s := by
  induction s with
  | nil => rfl
  | cons x s ih => rw [List.reverse_cons, byteSize_append, ih, byteSize_cons, byteSize_cons,
      byteSize_nil, Nat.add_zero, Nat.add_comm]

end Text

namespace Cursor

/-- The place `d` is reached from `c` through the text `s`. -/
structure Through (c : Cursor) (s : Text) (d : Cursor) : Prop where
  ahead : c.ahead = s ++ d.ahead
  behind : d.behind = s.reverse ++ c.behind
  offset : d.offset = c.offset + Text.byteSize s

/-- The place `d` is `c` or a later one in the same text. -/
def Reaches (c d : Cursor) : Prop :=
  ∃ s, c.Through s d

/-- A cursor is a place of the text `t`. -/
structure IsPlace (t : Text) (c : Cursor) : Prop where
  text : c.behind.reverse ++ c.ahead = t
  offset : c.offset = Text.byteSize c.behind

variable {t s : Text} {c d e : Cursor} {x : Char}

/-! ## Going ahead -/

theorem Through.refl (c : Cursor) : c.Through [] c :=
  ⟨rfl, rfl, rfl⟩

theorem Through.eq (h : c.Through [] d) : d = c := by
  obtain ⟨ahead, behind, offset⟩ := h
  cases c
  cases d
  simp_all

theorem Through.trans {u : Text} (h : c.Through s d) (g : d.Through u e) :
    c.Through (s ++ u) e where
  ahead := by rw [h.ahead, g.ahead, List.append_assoc]
  behind := by rw [g.behind, h.behind, List.reverse_append, List.append_assoc]
  offset := by rw [g.offset, h.offset, Text.byteSize_append, Nat.add_assoc]

theorem next?_eq_some_iff : c.next? = some (x, d) ↔ c.Through [x] d := by
  obtain ⟨behind, ahead, offset⟩ := c
  constructor
  · intro h
    cases ahead with
    | nil => simp [next?] at h
    | cons y ahead =>
      simp only [next?, Option.some.injEq, Prod.mk.injEq] at h
      obtain ⟨rfl, rfl⟩ := h
      exact ⟨rfl, rfl, rfl⟩
  · rintro ⟨rfl, behind, offset⟩
    cases d
    simp_all [next?]

theorem next?_eq_none_iff : c.next? = none ↔ c.ahead = [] := by
  unfold next?
  split <;> simp_all

/-- To go ahead is to take the next character first. -/
theorem Through.cons (h : c.Through (x :: s) d) : ∃ e, c.next? = some (x, e) ∧ e.Through s d := by
  obtain ⟨behind, ahead, offset⟩ := c
  obtain ⟨rfl, behind', offset'⟩ := h
  refine ⟨⟨x :: behind, s ++ d.ahead, offset + x.utf8Size⟩, rfl, rfl, ?_, ?_⟩
  · simpa using behind'
  · simpa [Nat.add_assoc] using offset'

theorem through_append {u : Text} :
    c.Through (s ++ u) e ↔ ∃ d, c.Through s d ∧ d.Through u e := by
  refine ⟨fun h => ?_, fun ⟨d, first, rest⟩ => first.trans rest⟩
  induction s generalizing c with
  | nil => exact ⟨c, .refl c, h⟩
  | cons x s ih =>
    obtain ⟨d, next, rest⟩ := h.cons
    obtain ⟨f, front, back⟩ := ih rest
    exact ⟨f, (next?_eq_some_iff.1 next).trans front, back⟩

theorem next?_inj {y : Char} (h : c.next? = some (x, d)) (g : c.next? = some (y, e)) :
    x = y ∧ d = e :=
  Prod.mk.inj (Option.some.inj (h.symm.trans g))

/-- The first character that is gone through is the next one. -/
theorem Through.of_next? {y : Char} (h : c.Through (y :: s) e) (next : c.next? = some (x, d)) :
    x = y ∧ d.Through s e := by
  obtain ⟨f, eq, rest⟩ := h.cons
  obtain ⟨rfl, rfl⟩ := next?_inj next eq
  exact ⟨rfl, rest⟩

theorem offset_lt_of_next? (h : c.next? = some (x, d)) : c.offset < d.offset := by
  have := x.utf8Size_pos
  rw [(next?_eq_some_iff.1 h).offset, Text.byteSize_cons]
  omega

theorem Reaches.refl (c : Cursor) : c.Reaches c :=
  ⟨[], .refl c⟩

theorem Reaches.trans (h : c.Reaches d) (g : d.Reaches e) : c.Reaches e := by
  obtain ⟨s, h⟩ := h
  obtain ⟨u, g⟩ := g
  exact ⟨s ++ u, h.trans g⟩

theorem reaches_of_next? (h : c.next? = some (x, d)) : c.Reaches d :=
  ⟨[x], next?_eq_some_iff.1 h⟩

/-- What is reached is the place itself or reached from the next one. -/
theorem Reaches.eq_or_next (h : c.Reaches d) :
    d = c ∨ ∃ x e, c.next? = some (x, e) ∧ e.Reaches d := by
  obtain ⟨s, h⟩ := h
  cases s with
  | nil => exact .inl h.eq
  | cons x s =>
    obtain ⟨e, next, rest⟩ := h.cons
    exact .inr ⟨x, e, next, s, rest⟩

theorem Reaches.length_le (h : c.Reaches d) : d.ahead.length ≤ c.ahead.length := by
  obtain ⟨s, h⟩ := h
  rw [h.ahead, List.length_append]
  omega

/-- A place that is reached and has as much ahead is the same place. -/
theorem Reaches.eq_of_length_le (h : c.Reaches d) (le : c.ahead.length ≤ d.ahead.length) :
    d = c := by
  obtain ⟨s, h⟩ := h
  cases s with
  | nil => exact h.eq
  | cons x s =>
    rw [h.ahead, List.length_append, List.length_cons] at le
    omega

theorem Reaches.offset_le (h : c.Reaches d) : c.offset ≤ d.offset := by
  obtain ⟨s, h⟩ := h
  rw [h.offset]
  omega

theorem Reaches.eq_of_offset_le (h : c.Reaches d) (le : d.offset ≤ c.offset) : d = c := by
  obtain ⟨s, h⟩ := h
  cases s with
  | nil => exact h.eq
  | cons x s =>
    have := x.utf8Size_pos
    rw [h.offset, Text.byteSize_cons] at le
    omega

/-- The place behind a text that is ahead of `c`. -/
def past (c : Cursor) (s : Text) : Cursor :=
  ⟨s.reverse ++ c.behind, c.ahead.drop s.length, c.offset + Text.byteSize s⟩

theorem through_past (h : s <+: c.ahead) : c.Through s (c.past s) := by
  obtain ⟨rest, eq⟩ := h
  refine ⟨?_, rfl, rfl⟩
  rw [past, ← eq, List.drop_left]

/-! ## Places of one text -/

theorem isPlace_start (t : Text) : IsPlace t (start t) :=
  ⟨rfl, rfl⟩

theorem IsPlace.reaches (h : IsPlace t c) (r : c.Reaches d) : IsPlace t d := by
  obtain ⟨s, r⟩ := r
  refine ⟨?_, ?_⟩
  · rw [← h.text, r.behind, r.ahead, List.reverse_append, List.reverse_reverse,
      List.append_assoc]
  · rw [r.offset, h.offset, r.behind, Text.byteSize_append, Text.byteSize_reverse, Nat.add_comm]

/-- Of two places of a text one is reached from the other. -/
theorem IsPlace.total (hc : IsPlace t c) (hd : IsPlace t d) : c.Reaches d ∨ d.Reaches c := by
  have same : c.behind.reverse ++ c.ahead = d.behind.reverse ++ d.ahead :=
    hc.text.trans hd.text.symm
  have through : ∀ {a b : Cursor}, IsPlace t a → IsPlace t b → ∀ s : Text,
      b.behind.reverse = a.behind.reverse ++ s → a.ahead = s ++ b.ahead → a.Through s b := by
    intro a b ha hb s behind ahead
    have behind : b.behind = s.reverse ++ a.behind := by
      rw [← List.reverse_reverse b.behind, behind, List.reverse_append, List.reverse_reverse]
    refine ⟨ahead, behind, ?_⟩
    rw [hb.offset, ha.offset, behind, Text.byteSize_append, Text.byteSize_reverse, Nat.add_comm]
  rcases List.append_eq_append_iff.1 same with ⟨s, behind, ahead⟩ | ⟨s, behind, ahead⟩
  · exact .inl ⟨s, through hc hd s behind ahead⟩
  · exact .inr ⟨s, through hd hc s behind ahead⟩

theorem IsPlace.eq_of_offset (hc : IsPlace t c) (hd : IsPlace t d) (eq : c.offset = d.offset) :
    c = d := by
  rcases hc.total hd with r | r
  · exact (r.eq_of_offset_le (Nat.le_of_eq eq.symm)).symm
  · exact r.eq_of_offset_le (Nat.le_of_eq eq)

theorem start_reaches (h : IsPlace t c) : (start t).Reaches c := by
  refine ⟨c.behind.reverse, h.text.symm, ?_, ?_⟩
  · simp [start]
  · rw [h.offset, Text.byteSize_reverse, start, Nat.zero_add]

theorem exists_places_eq (c : Cursor) : ∃ later, c.places = c :: later := by
  obtain ⟨behind, ahead, offset⟩ := c
  cases ahead with
  | nil => exact ⟨[], rfl⟩
  | cons x ahead => exact ⟨_, rfl⟩

theorem mem_places_iff : d ∈ c.places ↔ c.Reaches d := by
  obtain ⟨behind, ahead, offset⟩ := c
  rw [places]
  induction ahead generalizing behind offset with
  | nil =>
    rw [places.go, List.mem_singleton]
    refine ⟨fun eq => eq ▸ .refl _, fun r => r.eq_of_length_le ?_⟩
    exact Nat.zero_le _
  | cons x ahead ih =>
    rw [places.go, List.mem_cons, ih]
    have step : Reaches ⟨behind, x :: ahead, offset⟩
        ⟨x :: behind, ahead, offset + x.utf8Size⟩ := reaches_of_next? (x := x) rfl
    constructor
    · rintro (rfl | r)
      · exact .refl _
      · exact step.trans r
    · rintro ⟨s, h⟩
      cases s with
      | nil => exact .inl h.eq
      | cons y s =>
        obtain ⟨rfl, eq⟩ := List.cons.inj h.ahead
        refine .inr ⟨s, eq, ?_, ?_⟩
        · simpa using h.behind
        · simpa [Nat.add_assoc] using h.offset

end Cursor

end RulesText
