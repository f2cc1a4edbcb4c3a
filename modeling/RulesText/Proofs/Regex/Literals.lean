import RulesText.Proofs.Regex.Nesting
import RulesText.Proofs.Regex.Words

/-!
# Patterns of literal texts

An escaped text stands for itself in a pattern, whatever it is. Several rows of expressions with
bars between them are always an expression, one that is known.

## Main definitions

* `Regex.IsRow`: a text that is read as a row of expressions, without groups.

## Main statements

* `Regex.isRow_escape`: an escaped text is read as its characters.
* `Regex.IsRow.parse?_join`: the expression of several rows.
-/

namespace RulesText.Regex

variable {s t : Text} {rs rs' : List Regex} {c : Char}

/-! ## Escaped characters -/

theorem isEscapable_of_isSpecial (special : isSpecial c) : isEscapable c := by
  have all : ∀ c ∈ ("\\.+*?()|[]\x7b\x7d^$#&-~" : Text), isEscapable c :=
    List.all_eq_true.1 (by decide)
  exact all c (List.contains_iff_mem.1 special)

theorem readLexeme?_special (special : isSpecial c) :
    readLexeme? false ['\\', c] = some (.char c, []) := by
  have escaped : readEscape? false [c] = some (.char c, []) := by
    unfold readEscape?
    dsimp only
    split <;> first
      | exact absurd special (by decide)
      | exact if_pos (isEscapable_of_isSpecial special)
  simp only [readLexeme?, escaped]

theorem readLexeme?_ordinary (ordinary : isSpecial c = false) :
    readLexeme? false [c] = some (.char c, []) := by
  unfold readLexeme?
  dsimp only
  split <;> first | rfl | exact absurd ordinary (by decide)

/-! ## Rows of expressions -/

/-- The text is read as the expressions wherever it stands, and it has no groups. -/
structure IsRow (t : Text) (rs : List Regex) : Prop where
  fragment : IsFragment t []
  reads : Reads false t rs
  nests : NestsWithin 0 t

namespace IsRow

theorem nil : IsRow [] [] :=
  ⟨.nil, .nil, .nil⟩

theorem append (h : IsRow s rs) (h' : IsRow t rs') : IsRow (s ++ t) (rs ++ rs') :=
  ⟨h.fragment.append h'.fragment, h.reads.append h'.reads h'.fragment.stands,
    h.nests.append h'.nests h'.fragment.stands⟩

theorem wordBoundary : IsRow "\\b" [look .wordBoundary] :=
  ⟨.single (.look .wordBoundary) rfl trivial rfl rfl, .wordBoundary, .wordBoundary⟩

theorem char (read : readLexeme? false t = some (.char c, [])) : IsRow t [char c] where
  fragment := .single _ read trivial rfl rfl
  reads := .lexeme read trivial fun a flags => by
    rw [Reader.step?, Reader.flags, flags]
    rfl
  nests := .char read

end IsRow

theorem escape_cons (c : Char) (t : Text) :
    escape (c :: t) = (if isSpecial c then ['\\', c] else [c]) ++ escape t :=
  List.flatMap_cons ..

/-- An escaped text is read as its characters. -/
theorem isRow_escape (t : Text) : IsRow (escape t) (t.map char) := by
  induction t with
  | nil => exact .nil
  | cons c t ih =>
    have own : IsRow (if isSpecial c then ['\\', c] else [c]) [char c] := by
      split
      · exact .char (readLexeme?_special ‹_›)
      · exact .char (readLexeme?_ordinary (Bool.eq_false_iff.2 ‹_›))
    rw [escape_cons]
    exact own.append ih

theorem IsFragment.join {texts : List Text} (all : ∀ t ∈ texts, IsFragment t []) :
    IsFragment (Text.join ['|'] texts) [] := by
  have bar : IsFragment ['|'] [] := .single .branch rfl trivial rfl rfl
  induction texts with
  | nil => exact .nil
  | cons t texts ih =>
    obtain ⟨own, others⟩ := List.forall_mem_cons.1 all
    cases texts with
    | nil =>
      rw [Text.join, List.intercalate_singleton]
      exact own
    | cons u texts =>
      rw [Text.join, List.intercalate_cons_cons]
      exact (own.append bar).append (ih others)

/-- Rows with bars between them are an expression. -/
theorem IsRow.parse?_join {α : Type} {l : List α} (text : α → Text) {exprs : α → List Regex}
    (nonempty : l ≠ []) (all : ∀ a ∈ l, IsRow (text a) (exprs a)) :
    parse? (Text.join ['|'] (l.map text)) = some (oneOf (l.map fun a => branchOf (exprs a))) := by
  have fragment : IsFragment (Text.join ['|'] (l.map text)) [] :=
    .join (List.forall_mem_map.2 fun a mem => (all a mem).fragment)
  have nests : NestsWithin 0 (Text.join ['|'] (l.map text)) :=
    .join (List.forall_mem_map.2 fun a mem => (all a mem).nests)
  have branches := HasBranches.join_map text nonempty fun a mem => (all a mem).reads.hasBranches
  obtain ⟨r, parsed⟩ := Option.isSome_iff_exists.1
    (fragment.isSome_parse? List.nodup_nil nests (by decide))
  rw [parsed, branches.parse? parsed, List.map_eq_flatMap]

end RulesText.Regex
