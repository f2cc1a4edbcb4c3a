import RulesText.Proofs.Regex.Search
import RulesText.Proofs.Text.Slices

/-!
# Where groups are captured

A way through an expression keeps the groups that have been captured before it, and captures new
ones between the places where it begins and where it ends. So what a search captures are slices
of the text.

## Main definitions

* `Cursor.Spans`: a span lies between two places.
-/

namespace RulesText

/-- The span goes from a place to a later one, both of them between `c` and `d`. -/
def Cursor.Spans (c d : Cursor) (s : Span) : Prop :=
  ∃ a b : Cursor, c.Reaches a ∧ a.Reaches b ∧ b.Reaches d ∧ s = a.spanTo b

namespace Cursor

variable {c d e : Cursor} {s : Span} {t : Text}

theorem Spans.trans_left (h : c.Reaches d) (g : d.Spans e s) : c.Spans e s := by
  obtain ⟨a, b, left, middle, right, rfl⟩ := g
  exact ⟨a, b, h.trans left, middle, right, rfl⟩

theorem Spans.trans_right (h : c.Spans d s) (g : d.Reaches e) : c.Spans e s := by
  obtain ⟨a, b, left, middle, right, rfl⟩ := h
  exact ⟨a, b, left, middle, right.trans g, rfl⟩

theorem Spans.isSome_slice? (h : c.Spans d s) (place : c.IsPlace t) :
    (Text.slice? t s).isSome := by
  obtain ⟨a, b, left, middle, -, rfl⟩ := h
  exact (place.reaches left).isSome_slice? middle

end Cursor

namespace Regex

variable {r : Regex} {m n : Match} {t : Text} {name : Text} {s : Span}

/-- The groups of `n` are those of `m` and others between the places of `m` and `n`. -/
structure Adds (m n : Match) : Prop where
  reaches : m.stop.Reaches n.stop
  group : ∀ p ∈ n.groups, p ∈ m.groups ∨ m.stop.Spans n.stop p.2

namespace Adds

theorem refl (m : Match) : Adds m m :=
  ⟨.refl _, fun _ => .inl⟩

theorem trans {e : Match} (h : Adds m e) (g : Adds e n) : Adds m n where
  reaches := h.reaches.trans g.reaches
  group p mem := by
    rcases g.group p mem with mem | spans
    · exact (h.group p mem).imp_right (·.trans_right g.reaches)
    · exact .inr (spans.trans_left h.reaches)

theorem of_groups_eq (reaches : m.stop.Reaches n.stop) (same : n.groups = m.groups) :
    Adds m n :=
  ⟨reaches, fun _ mem => .inl (same ▸ mem)⟩

theorem capture (h : Adds m n) (name : Text) : Adds m (n.capture name m.stop) where
  reaches := h.reaches
  group p mem := by
    rcases List.mem_cons.1 mem with rfl | mem
    · exact .inr ⟨m.stop, n.stop, .refl _, h.reaches, .refl _, rfl⟩
    · exact h.group p mem

theorem rounds {W : Ends Match} (step : ∀ m n, W m n → Adds m n) {k : Nat}
    (h : W.Rounds k m n) : Adds m n := by
  induction k generalizing m with
  | zero =>
    obtain rfl := h
    exact refl _
  | succ k ih =>
    obtain ⟨e, first, rest⟩ := h
    exact (step m e first).trans (ih rest)

end Adds

theorem adds_of_carries (h : r.Carries m n) : Adds m n := by
  induction r generalizing m n with
  | empty =>
    obtain rfl := h
    exact .refl _
  | one rule set =>
    obtain ⟨⟨x, next, -⟩, same⟩ := h
    exact .of_groups_eq (Cursor.reaches_of_next? next) same
  | look condition =>
    obtain ⟨-, stop, same⟩ := h
    exact .of_groups_eq (stop ▸ .refl _) same
  | group name? body ih =>
    cases name? with
    | none => exact ih h
    | some name =>
      obtain ⟨e, inside, rfl⟩ := h
      exact (ih inside).capture name
  | seq first second ih₁ ih₂ =>
    obtain ⟨e, front, back⟩ := h
    exact (ih₁ front).trans (ih₂ back)
  | alt preferred other ih₁ ih₂ => exact h.elim ih₁ ih₂
  | repetition body least most greedy ih =>
    obtain ⟨k, -, -, rounds⟩ := h
    exact .rounds (fun _ _ => ih) rounds

theorem mem_of_group? (h : m.group? name = some s) : (name, s) ∈ m.groups := by
  obtain ⟨later, earlier, eq, -⟩ := List.lookup_eq_some_iff.1 h
  simp [eq]

namespace Searcher

/-- What a search in a text captures are slices of the text. -/
theorem isSome_slice?_of_find? (found : r.searcher.find? t = some m)
    (captured : m.group? name = some s) : (Text.slice? t s).isSome := by
  rw [find?, findFrom?] at found
  obtain ⟨⟨c, n⟩, first, rfl⟩ := Option.map_eq_some_iff.1 found
  obtain ⟨mem, carries⟩ := (sound_searcher r .atOnce).firstMatch? first
  have place := (Cursor.isPlace_start t).reaches (Cursor.mem_places_iff.1 mem)
  rcases (adds_of_carries carries).group _ (mem_of_group? captured) with old | spans
  · simp at old
  · exact spans.isSome_slice? place

end Searcher

end Regex

end RulesText
