import RulesText.Pattern.Rendering
import RulesText.Proofs.Pattern.Markers
import RulesText.Proofs.Regex.Fragments

/-!
# Pieces of patterns

Pattern texts are put together from plain fragments: one after the other, in groups, in optional
groups and in named groups. Every text made in this way is a fragment, its markers can be read
off, and qualifying its groups gives a text made in the same way.

## Main definitions

* `Pattern.Piece`: a text that is put together from plain fragments, with the names of its groups.
-/

namespace RulesText

namespace Template

variable {name field : Text} {c : Char}

theorem isAscii_of_isNameChar (h : isNameChar c = true) : Text.isAscii c = true := by
  simp only [isNameChar, Bool.or_eq_true, beq_iff_eq] at h
  rw [Text.isAscii, decide_eq_true_eq]
  rcases h with (lower | digit) | rfl
  · have le : c.val ≤ 122 := of_decide_eq_true ((Bool.and_eq_true _ _).mp lower).2
    have := UInt32.le_iff_toNat_le.1 le
    exact Nat.lt_of_le_of_lt this (by decide)
  · have le : c.val ≤ 57 := of_decide_eq_true ((Bool.and_eq_true _ _).mp digit).2
    have := UInt32.le_iff_toNat_le.1 le
    exact Nat.lt_of_le_of_lt this (by decide)
  · decide

theorem isAlpha_of_isLower (lower : c.isLower = true) : c.isAlpha = true :=
  (Bool.or_eq_true _ _).mpr (.inr lower)

theorem isGroupNameChar_of_isNameChar (h : isNameChar c = true) :
    Regex.isGroupNameChar c = true := by
  have ascii := isAscii_of_isNameChar h
  simp only [isNameChar, Bool.or_eq_true] at h
  rcases h with (lower | digit) | underscore
  · simp [Regex.isGroupNameChar, Text.isAlphanumeric, ascii, Char.isAlphanum,
      isAlpha_of_isLower lower]
  · simp [Regex.isGroupNameChar, Text.isAlphanumeric, ascii, Char.isAlphanum, digit]
  · simp [Regex.isGroupNameChar, underscore]

theorem isGroupNameStart_of_isNameStart (h : isNameStart c = true) :
    Regex.isGroupNameStart c = true := by
  simp only [isNameStart, Bool.or_eq_true] at h
  rcases h with lower | underscore
  · have ascii : Text.isAscii c = true := isAscii_of_isNameChar (by simp [isNameChar, lower])
    simp [Regex.isGroupNameStart, Text.isLetter, ascii, isAlpha_of_isLower lower]
  · simp [Regex.isGroupNameStart, underscore]

namespace IsName

/-- The name of a placeholder can be the name of a group. -/
theorem readGroupName? (h : IsName name) :
    Regex.readGroupName? (name ++ ['>']) = some (name, []) := by
  obtain ⟨c, name, rfl⟩ := List.exists_cons_of_ne_nil h.ne_nil
  have start : Regex.isGroupNameStart c = true :=
    isGroupNameStart_of_isNameStart (by simpa using h.starts)
  have others : name.all Regex.isGroupNameChar = true := List.all_eq_true.2 fun d mem =>
    isGroupNameChar_of_isNameChar (h.chars d (List.mem_cons_of_mem _ mem))
  obtain ⟨front, back⟩ := Regex.takeWhile_cut (h.notMem_of_not_isNameChar (c := '>') (by decide)) []
  simp only [Regex.readGroupName?, front, back, start, others, Bool.and_self, if_true]

theorem qualified (h : IsName field) (h' : IsName name) :
    IsName (Pattern.qualified field name) where
  ne_nil := by simp [Pattern.qualified, h.ne_nil]
  starts := by
    obtain ⟨c, field, rfl⟩ := List.exists_cons_of_ne_nil h.ne_nil
    exact h.starts
  chars := by
    have between : Pattern.qualifier.all isNameChar = true := by decide
    simp only [Pattern.qualified, List.mem_append]
    rintro c ((mem | mem) | mem)
    exacts [h.chars c mem, List.all_eq_true.1 between c mem, h'.chars c mem]

end IsName

end Template

namespace Pattern

open Regex (IsFragment)
open Template (IsName)

variable {s t name field : Text} {names more : List Text}

/-- A text that is put together from plain fragments, with the names of its groups from left to
right. -/
inductive Piece : Text → List Text → Prop
  | plain {t : Text} (fragment : IsFragment t []) (noAngle : '<' ∉ t)
    (noFinalBackslash : t.getLast? ≠ some '\\') : Piece t []
  | append {s t : Text} {names more : List Text} (first : Piece s names) (second : Piece t more) :
    Piece (s ++ t) (names ++ more)
  | group {t : Text} {names : List Text} (inner : Piece t names) : Piece ("(?:" ++ t ++ ")") names
  | optional {t : Text} {names : List Text} (inner : Piece t names) :
    Piece ("(?:" ++ t ++ ")?") names
  | named {t name : Text} {names : List Text} (isName : IsName name) (inner : Piece t names) :
    Piece (RenderedField.wrap name t) (name :: names)

namespace Piece

theorem nil : Piece [] [] :=
  .plain .nil List.not_mem_nil nofun

/-- A lexeme that is neither a count nor the start or the end of a group. -/
theorem single (lexeme : Regex.Lexeme) {countable : Bool}
    (read : Regex.readLexeme? false t = some (lexeme, [])) (keeps : lexeme.KeepsFlags)
    (step : Regex.Shape.step? ⟨false, 0⟩ lexeme = some ⟨countable, 0⟩)
    (unnamed : lexeme.name? = none) (noAngle : '<' ∉ t)
    (noFinalBackslash : t.getLast? ≠ some '\\') : Piece t [] :=
  .plain (.single lexeme read keeps step unnamed) noAngle noFinalBackslash

theorem fragment (h : Piece t names) : IsFragment t names := by
  induction h with
  | plain fragment => exact fragment
  | append _ _ first second => exact first.append second
  | group _ inner => exact inner.group
  | optional _ inner => exact inner.optional
  | named isName _ inner => exact inner.named isName.readGroupName?

/-! ## Markers -/

theorem getLast?_ne (h : Piece t names) : t.getLast? ≠ some '\\' := by
  induction h with
  | plain _ _ last => exact last
  | append _ _ first second => exact getLast?_append_ne first second
  | group _ ih => exact getLast?_append_ne (getLast?_append_ne (by decide) ih) (by decide)
  | optional _ ih => exact getLast?_append_ne (getLast?_append_ne (by decide) ih) (by decide)
  | named _ _ ih => exact getLast?_append_ne (getLast?_append_ne (by simp) ih) (by decide)

theorem marked (h : Piece t names) : Marked t names := by
  induction h with
  | plain _ noAngle => exact .text noAngle
  | append first _ ih ih' => exact (ih.append first.getLast?_ne ih').1
  | group inner ih =>
    exact (ih.enclose inner.getLast?_ne (by decide) (by decide) (by decide)).1
  | optional inner ih =>
    exact (ih.enclose inner.getLast?_ne (by decide) (by decide) (by decide)).1
  | named isName inner ih => exact (ih.wrap inner.getLast?_ne isName).1

/-- Qualifying the groups of a piece gives a piece with the qualified names. -/
theorem qualifyGroups (h : Piece t names) (isName : IsName field) :
    Piece (Pattern.qualifyGroups t field) (names.map (qualified field)) := by
  -- Each step of the construction is qualified apart, because none escapes what follows it.
  induction h with
  | plain fragment noAngle last =>
    rw [qualifyGroups_of_noAngle noAngle]
    exact .plain fragment noAngle last
  | append first second ih ih' =>
    rw [(first.marked.append first.getLast?_ne second.marked).2, List.map_append]
    exact .append ih ih'
  | group inner ih =>
    rw [(inner.marked.enclose inner.getLast?_ne (by decide) (by decide) (by decide)).2]
    exact .group ih
  | optional inner ih =>
    rw [(inner.marked.enclose inner.getLast?_ne (by decide) (by decide) (by decide)).2]
    exact .optional ih
  | named own inner ih =>
    rw [(inner.marked.wrap inner.getLast?_ne own).2, List.map_cons]
    exact .named (isName.qualified own) ih

end Piece

end Pattern

end RulesText
