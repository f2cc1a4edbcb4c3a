import RulesText.Proofs.Pattern.Alternation
import RulesText.Proofs.Regex.Widening
import RulesText.Proofs.Regex.Words

/-!
# What an alternation matches, its members match too

The alternatives of a choice are matched in context, with regard to case and as one alternation;
its members are matched one by one, as a whole and without regard to case. For monotone patterns
the second can do all that the first can, with plurals and word boundaries or without.

## Main definitions

* `Alternation.form`: an alternative, or its plural.

## Main statements

* `Alternation.exists_covered`: the expression of an alternation, and what covers it.
-/

namespace RulesText.Alternation

open Regex (Reads HasBranches IsMonotone Widened WidenedParts Widens oneOf branchOf look repeated)

variable {t word : Text} {ts : List Text}

/-! ## Plurals -/

/-- A letter, read in both ways. -/
theorem widens_char (c : Char) : Widens ((Regex.initialFlags false).char c)
    ((Regex.initialFlags true).char c) := by
  refine .one fun x mem => ?_
  exact Regex.CharSet.contains_of_isMonotone rfl mem _

/-- Endings that are written as letters, read in both ways. -/
theorem widens_branchOf_chars (w : Text) :
    Widens (branchOf (w.map (Regex.initialFlags false).char))
      (branchOf (w.map (Regex.initialFlags true).char)) := by
  refine .branchOf ?_
  rw [List.forall₂_map_left_iff, List.forall₂_map_right_iff]
  exact List.forall₂_same.2 fun c _ => widens_char c

theorem widenedParts_append_optional (h : WidenedParts t) {w : Text}
    (lower : ∀ c ∈ w, c.isLower) : WidenedParts (t ++ ("(?:" ++ w ++ ")?")) := by
  have letters (caseless : Bool) : Reads caseless w _ := .letters lower
  have ending (caseless : Bool) := (letters caseless).hasBranches.optional
  refine h.append (ending false) (ending true) ?_ ⟨by simp, by simp⟩
  exact .repeated (.oneOf (.cons (widens_branchOf_chars w) .nil)) ..

/-- The plural of a monotone pattern can be read in both ways. -/
theorem widened_pluralizeReversed {reversed : Text} (h : IsMonotone reversed.reverse) :
    Widened (pluralizeReversed reversed) := by
  fun_cases pluralizeReversed reversed with
  | case1 => exact h.widenedParts.widened
  | case2 last front => exact h.widenedParts.widened
  | case3 last front _ y =>
    obtain ⟨rfl, -⟩ : last = 'y' ∧ front.head?.any (fun c => c.isAlpha && !isVowel c) := by
      simpa using y
    rw [List.reverse_cons] at h
    have singular (caseless : Bool) : Reads caseless ['y'] _ :=
      .letters (List.all_eq_true.1 (by decide))
    have plural (caseless : Bool) : Reads caseless "ies" _ :=
      .letters (List.all_eq_true.1 (by decide))
    have endings (caseless : Bool) : Reads caseless "(?:y|ies)" _ :=
      ((singular caseless).hasBranches.or (plural caseless).hasBranches).group
    refine (h.widenedParts_of_append_y.append (endings false) (endings true) ?_
      ⟨by decide, by decide⟩).widened
    exact .oneOf (.cons (widens_branchOf_chars _) (.cons (widens_branchOf_chars _) .nil))
  | case4 last front =>
    have lower : ∀ c ∈ ("es" : Text), c.isLower := List.all_eq_true.1 (by decide)
    exact (widenedParts_append_optional h.widenedParts lower).widened
  | case5 last front =>
    have lower : ∀ c ∈ ['s'], c.isLower := List.all_eq_true.1 (by decide)
    exact (widenedParts_append_optional h.widenedParts lower).widened

/-! ## Forms -/

/-- An alternative as it stands in an alternation. -/
def form (plural : Bool) (t : Text) : Text :=
  if plural then pluralize t else t

theorem widened_form (h : IsMonotone t) (plural : Bool) : Widened (form plural t) := by
  unfold form
  split
  · exact widened_pluralizeReversed (by rwa [List.reverse_reverse])
  · exact h.widenedParts.widened

/-- The expression matches only texts that one of the alternatives matches as a whole and without
regard to case. -/
def Covered (plural : Bool) (ts : List Text) (body : Regex) : Prop :=
  ∀ {u : Text} {c d : Cursor}, c.Through u d → body.Matches c d → ∃ t ∈ ts, ∀ r,
    Regex.parse? (Regex.anchored (form plural t)) true = some r → r.searcher.occursIn u

theorem hasBranches_ne_nil {caseless : Bool} {bs : List Regex} (h : HasBranches caseless t bs) :
    bs ≠ [] := by
  obtain ⟨front, rs, -, rfl⟩ := h
  simp

/-- What a wider branch matches as a whole. -/
theorem occursIn_of_widens {bs : List Regex} {b s r : Regex} {u : Text} {c d : Cursor}
    (branches : HasBranches true t bs) (mem : s ∈ bs) (wider : Widens b s)
    (through : c.Through u d) (step : b.Matches c d)
    (parsed : Regex.parse? (Regex.anchored t) true = some r) : r.searcher.occursIn u := by
  rw [branches.anchored parsed, Regex.occursIn_whole_iff]
  have all : (Cursor.start u).Through u ((Cursor.start u).past u) :=
    Cursor.through_past (List.prefix_refl u)
  refine ⟨(Cursor.start u).past u, Cursor.ahead_past (List.append_nil u).symm, ?_⟩
  exact (Regex.matches_oneOf (hasBranches_ne_nil branches)).2
    ⟨s, mem, wider.matches_of through all step⟩

/-- Several forms side by side. -/
theorem exists_covered_join {forms : List Text} {plural : Bool} (nonempty : forms ≠ [])
    (all : ∀ q ∈ forms, ∃ t ∈ ts, IsMonotone t ∧ q = form plural t) :
    ∃ bs, HasBranches false (Text.join ['|'] forms) bs ∧ Covered plural ts (oneOf bs) := by
  have widened : ∀ q ∈ forms, Widened q := by
    intro q mem
    obtain ⟨t, -, monotone, rfl⟩ := all q mem
    exact widened_form monotone plural
  choose! branches wider exact_ caseless related using widened
  refine ⟨_, .join nonempty exact_, fun {u c d} through step => ?_⟩
  have some_branch : forms.flatMap branches ≠ [] := by
    obtain ⟨q, mem⟩ := List.exists_mem_of_ne_nil _ nonempty
    obtain ⟨b, inside⟩ := List.exists_mem_of_ne_nil _ (hasBranches_ne_nil (exact_ q mem))
    exact List.ne_nil_of_mem (List.mem_flatMap.2 ⟨q, mem, inside⟩)
  obtain ⟨b, mem, step⟩ := (Regex.matches_oneOf some_branch).1 step
  obtain ⟨q, inside, mem⟩ := List.mem_flatMap.1 mem
  obtain ⟨s, mem', widens⟩ := exists_of_forall₂ (related q inside) mem
  obtain ⟨t, known, -, rfl⟩ := all q inside
  exact ⟨t, known, fun r parsed =>
    occursIn_of_widens (caseless _ inside) mem' widens through step parsed⟩

/-- An alternation of monotone patterns is covered by its alternatives. -/
theorem exists_covered (nonempty : ts ≠ []) (all : ∀ t ∈ ts, IsMonotone t)
    (plural bounded : Bool) : ∃ bs, HasBranches false (source ts plural bounded) bs ∧
      Covered plural ts (oneOf bs) := by
  let forms := longestFirst (distinct (ts.map (form plural)))
  have same : ∀ q, q ∈ forms ↔ q ∈ ts.map (form plural) := fun q => by
    rw [mem_longestFirst, mem_distinct]
  have some_form : forms ≠ [] := by
    obtain ⟨t, mem⟩ := List.exists_mem_of_ne_nil _ nonempty
    exact List.ne_nil_of_mem ((same _).2 (List.mem_map_of_mem mem))
  have origin : ∀ q ∈ forms, ∃ t ∈ ts, IsMonotone t ∧ q = form plural t := by
    intro q mem
    obtain ⟨t, known, rfl⟩ := List.mem_map.1 ((same q).1 mem)
    exact ⟨t, known, all t known, rfl⟩
  obtain ⟨bs, branches, covered⟩ := exists_covered_join some_form origin
  have text : source ts plural bounded = if bounded then
      ("\\b" : Text) ++ ("(?:" ++ Text.join ['|'] forms ++ ")") ++ ("\\b" : Text)
      else "(?:" ++ Text.join ['|'] forms ++ ")" := by
    have mapped : ts.map (form plural) = if plural then ts.map pluralize else ts := by
      cases plural with
      | true => rfl
      | false => exact List.map_id' ts
    simp [source, forms, mapped]
  rw [text]
  cases bounded with
  | false =>
    refine ⟨_, branches.group.hasBranches, fun through step => covered through ?_⟩
    rw [Regex.oneOf_singleton, Regex.matches_branchOf] at step
    obtain ⟨e, step, rfl⟩ := step
    exact step
  | true =>
    have reads := (Reads.wordBoundary.append branches.group ⟨by simp, by simp⟩).append
      Reads.wordBoundary ⟨by decide, by decide⟩
    refine ⟨_, reads.hasBranches, fun through step => covered through ?_⟩
    rw [Regex.oneOf_singleton, Regex.matches_branchOf] at step
    obtain ⟨_, ⟨-, rfl⟩, e, step, _, ⟨-, rfl⟩, rfl⟩ := step
    exact step

end RulesText.Alternation
