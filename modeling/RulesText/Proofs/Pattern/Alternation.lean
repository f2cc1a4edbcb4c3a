import RulesText.Proofs.Pattern.Pieces

/-!
# Alternations of plain patterns

The alternation of plain patterns is a piece without groups of its own, with plurals or without
and between word boundaries or not.
-/

namespace RulesText

open Pattern (Piece)
open Regex (IsPlain IsFragment)

theorem Regex.IsPlain.piece {t : Text} (h : IsPlain t) : Piece t [] :=
  .plain h.isFragment h.noAngle h.noFinalBackslash

namespace Alternation

variable {t word : Text} {ts : List Text}

/-! ## Plurals -/

theorem piece_pluralizeReversed {reversed : Text} (h : IsPlain reversed.reverse) :
    Piece (pluralizeReversed reversed) [] := by
  fun_cases pluralizeReversed reversed with
  | case1 => exact .nil
  | case2 last front => exact h.piece
  | case3 last front _ y =>
    obtain ⟨rfl, consonant⟩ : last = 'y' ∧ front.head?.any (fun c => c.isAlpha && !isVowel c) := by
      simpa using y
    rw [List.reverse_cons] at h
    have endings : IsFragment "y|ies" [] :=
      ⟨[.char 'y', .branch, .char 'i', .char 'e', .char 's'], true,
        .cons rfl trivial (.cons rfl trivial (.cons rfl trivial (.cons rfl trivial
          (.cons rfl trivial .nil)))), rfl, rfl⟩
    have stem : Piece front.reverse [] := by
      refine .plain h.isFragment.of_append_y (fun mem => h.noAngle (List.mem_append_left _ mem)) ?_
      rw [List.getLast?_reverse]
      intro backslash
      rw [backslash] at consonant
      exact absurd consonant (by decide)
    exact .append stem (.group (.plain endings (by decide) (by decide)))
  | case4 last front _ _ sibilant =>
    have ending : IsFragment "es" [] :=
      ⟨[.char 'e', .char 's'], true, .cons rfl trivial (.cons rfl trivial .nil), rfl, rfl⟩
    exact .append h.piece (.optional (.plain ending (by decide) (by decide)))
  | case5 last front _ _ _ =>
    have ending : IsFragment "s" [] := ⟨[.char 's'], true, .cons rfl trivial .nil, rfl, rfl⟩
    exact .append h.piece (.optional (.plain ending (by decide) (by decide)))

/-- The plural of a plain pattern can stand in a pattern like the pattern itself. -/
theorem piece_pluralize (h : IsPlain word) : Piece (pluralize word) [] :=
  piece_pluralizeReversed (by rwa [List.reverse_reverse])

/-! ## One of several -/

theorem piece_wordBoundary : Piece "\\b" [] :=
  .single (.look .wordBoundary) rfl trivial rfl rfl (by decide) (by decide)

theorem mem_distinct : t ∈ distinct ts ↔ t ∈ ts := by
  have gathered : ∀ found : List Text,
      t ∈ ts.foldl (fun found a => if found.contains a then found else found ++ [a]) found ↔
        t ∈ found ∨ t ∈ ts := by
    induction ts with
    | nil => simp
    | cons a ts ih =>
      intro found
      rw [List.foldl_cons, ih, List.mem_cons, ← or_assoc]
      split
      · rename_i known
        have known : a ∈ found := by simpa using known
        grind
      · rw [List.mem_append, List.mem_singleton]
  exact (gathered []).trans (or_iff_right List.not_mem_nil)

theorem mem_insertByLength {a : Text} : t ∈ insertByLength a ts ↔ t = a ∨ t ∈ ts := by
  induction ts with
  | nil => simp [insertByLength]
  | cons b ts ih =>
    rw [insertByLength]
    split <;> simp [ih, or_left_comm]

theorem mem_longestFirst : t ∈ longestFirst ts ↔ t ∈ ts := by
  induction ts with
  | nil => rfl
  | cons a ts ih =>
    rw [longestFirst, List.foldr_cons, mem_insertByLength, List.mem_cons, ← ih]
    rfl

theorem piece_join (all : ∀ t ∈ ts, Piece t []) : Piece (Text.join ['|'] ts) [] := by
  have bar : Piece ['|'] [] :=
    .single .branch rfl trivial rfl rfl (by decide) (by decide)
  induction ts with
  | nil => exact .nil
  | cons t ts ih =>
    obtain ⟨first, all⟩ := List.forall_mem_cons.1 all
    cases ts with
    | nil =>
      rw [Text.join, List.intercalate_singleton]
      exact first
    | cons u ts =>
      rw [Text.join, List.intercalate_cons_cons]
      exact .append (.append first bar) (ih all)

/-- An alternation of plain patterns. -/
theorem piece_source (all : ∀ t ∈ ts, IsPlain t) (plural bounded : Bool) :
    Piece (source ts plural bounded) [] := by
  have forms : ∀ t ∈ if plural then ts.map pluralize else ts, Piece t [] := by
    split
    · intro t mem
      obtain ⟨word, inside, rfl⟩ := List.mem_map.1 mem
      exact piece_pluralize (all word inside)
    · exact fun t mem => (all t mem).piece
  have body := Piece.group (piece_join fun t mem =>
    forms t (mem_distinct.1 (mem_longestFirst.1 mem)))
  unfold source
  dsimp only
  split
  · exact .append (.append piece_wordBoundary body) piece_wordBoundary
  · exact body

end Alternation

end RulesText
