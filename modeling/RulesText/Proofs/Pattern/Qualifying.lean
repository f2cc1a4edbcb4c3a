import Mathlib.Data.List.Basic
import RulesText.Proofs.Pattern.Markers

/-!
# Qualifying groups more than once

A pattern text is cut behind every marker of a named group that is not escaped. Qualifying puts the
name of a field at each cut, and the qualified text is cut at the same places again, whatever
backslashes and parts of markers stand between them. So a text can be qualified level by level, and
the names can be taken out of it again.

## Main definitions

* `Pattern.cuts`: a text, cut behind its markers.
* `Pattern.unqualifyGroups?`: a text without the name of a field behind its markers.

## Main statements

* `Pattern.qualifyGroups_qualifyGroups`: qualifying composes, and it can be undone.
-/

namespace RulesText.Pattern

open Template (IsName)

variable {t u p q behind other : Text} {c : Char}

/-- What stands behind a place, the nearest character first, escapes what follows if it begins with
an odd number of backslashes. -/
def escapes (behind : Text) : Bool :=
  (behind.takeWhile (· == '\\')).length % 2 == 1

/-- A text, cut behind every marker that is not escaped: what stands in front of the first cut and
what stands behind each of them. `behind` is the text before, the nearest character first. -/
def cutsFrom (behind : Text) : Text → Text × List Text
  | [] => ([], [])
  | '(' :: '?' :: 'P' :: '<' :: rest =>
    let cuts := cutsFrom (groupMarker.reverse ++ behind) rest
    if escapes behind then (groupMarker ++ cuts.1, cuts.2) else (groupMarker, cuts.1 :: cuts.2)
  | c :: rest =>
    let cuts := cutsFrom (c :: behind) rest
    (c :: cuts.1, cuts.2)

def cuts (t : Text) : Text × List Text :=
  cutsFrom [] t

/-- Delete the name and the qualifier behind every marker that is not escaped. There is no such
text if one of these markers has something else behind it. -/
def unqualifyGroups? (source field : Text) : Option Text :=
  ((cuts source).2.mapM (List.dropPrefix? · (field ++ qualifier))).map fun others =>
    (cuts source).1 ++ others.flatten

/-! ## Texts by their markers -/

/-- A text is empty, or it begins with a marker, or with a character at which no marker begins. -/
@[elab_as_elim]
theorem markerInduction {motive : Text → Prop} (nil : motive [])
    (marker : ∀ rest, motive rest → motive (groupMarker ++ rest))
    (cons : ∀ c t, (∀ r, c :: t ≠ groupMarker ++ r) → motive t → motive (c :: t)) (t : Text) :
    motive t := by
  fun_induction groupNames t with
  | case1 => exact nil
  | case2 rest ih => exact marker rest ih
  | case3 c rest other ih =>
    refine cons c rest (fun r eq => ?_) ih
    obtain ⟨rfl, rfl⟩ := List.cons.inj eq
    exact other r rfl rfl

theorem cutsFrom_cons (h : ∀ r, c :: t ≠ groupMarker ++ r) (behind : Text) :
    cutsFrom behind (c :: t) =
      (c :: (cutsFrom (c :: behind) t).1, (cutsFrom (c :: behind) t).2) := by
  rw [cutsFrom]
  rintro r rfl rfl
  exact h r rfl

theorem cutsFrom_marker (behind rest : Text) : cutsFrom behind (groupMarker ++ rest) =
    if escapes behind then
      (groupMarker ++ (cutsFrom (groupMarker.reverse ++ behind) rest).1,
        (cutsFrom (groupMarker.reverse ++ behind) rest).2)
    else (groupMarker, (cutsFrom (groupMarker.reverse ++ behind) rest).1 ::
      (cutsFrom (groupMarker.reverse ++ behind) rest).2) := rfl

theorem qualifyFrom_groupMarker (field rest : Text) (escaped : Bool) :
    qualifyFrom field escaped (groupMarker ++ rest) =
      groupMarker ++
        ((if escaped then [] else field ++ qualifier) ++ qualifyFrom field false rest) := by
  rw [← List.append_assoc]
  rfl

theorem escapes_cons (c : Char) (behind : Text) :
    escapes (c :: behind) = (c == '\\' && !escapes behind) := by
  by_cases eq : c = '\\'
  · subst eq
    simp only [escapes, List.takeWhile_cons, beq_self_eq_true, if_true, List.length_cons,
      Bool.true_and]
    rw [Bool.eq_iff_iff]
    simp only [Bool.not_eq_true', beq_iff_eq, beq_eq_false_iff_ne]
    omega
  · simp [escapes, eq]

theorem escapes_marker (behind : Text) : escapes (groupMarker.reverse ++ behind) = false := rfl

/-- Where a text is cut depends on nothing before it but whether that escapes it. -/
theorem cutsFrom_congr (same : escapes behind = escapes other) (t : Text) :
    cutsFrom behind t = cutsFrom other t := by
  induction t using markerInduction generalizing behind other with
  | nil => rfl
  | marker rest ih =>
    have ih := ih ((escapes_marker behind).trans (escapes_marker other).symm)
    rw [cutsFrom_marker, cutsFrom_marker, ih, same]
  | cons c t h ih =>
    have same : escapes (c :: behind) = escapes (c :: other) := by
      rw [escapes_cons, escapes_cons, same]
    have ih := ih same
    rw [cutsFrom_cons h, cutsFrom_cons h, ih]

theorem flatten_cutsFrom (behind t : Text) :
    (cutsFrom behind t).1 ++ (cutsFrom behind t).2.flatten = t := by
  induction t using markerInduction generalizing behind with
  | nil => rfl
  | marker rest ih =>
    rw [cutsFrom_marker]
    split <;> simp [ih]
  | cons c t h ih => rw [cutsFrom_cons h, List.cons_append, ih]

/-- In a text without opening parentheses there is nothing to cut. -/
theorem cutsFrom_append (noOpen : '(' ∉ u) (behind t : Text) :
    cutsFrom behind (u ++ t) =
      (u ++ (cutsFrom (u.reverse ++ behind) t).1, (cutsFrom (u.reverse ++ behind) t).2) := by
  induction u generalizing behind with
  | nil => rfl
  | cons c u ih =>
    simp only [List.mem_cons, not_or] at noOpen
    have other : ∀ r, c :: (u ++ t) ≠ groupMarker ++ r := fun r eq =>
      noOpen.1 (List.cons.inj eq).1.symm
    rw [List.cons_append, cutsFrom_cons other, ih noOpen.2]
    simp

/-! ## Qualified texts -/

/-- Qualifying puts the name of the field at every cut. -/
theorem qualifyFrom_eq (p behind t : Text) : qualifyFrom p (escapes behind) t =
    (cutsFrom behind t).1 ++ (cutsFrom behind t).2.flatMap (p ++ qualifier ++ ·) := by
  induction t using markerInduction generalizing behind with
  | nil => rfl
  | marker rest ih =>
    rw [qualifyFrom_groupMarker, cutsFrom_marker, ← escapes_marker behind, ih]
    split <;> simp
  | cons c t h ih => rw [qualifyFrom_cons h, cutsFrom_cons h, ← escapes_cons, ih, List.cons_append]

/-- A name is put in only behind a marker. -/
theorem take_qualifyFrom (p : Text) (escaped : Bool) (t : Text) {n : Nat} (le : n ≤ 4) :
    (qualifyFrom p escaped t).take n = t.take n := by
  induction t using markerInduction generalizing escaped n with
  | nil => rfl
  | marker rest ih =>
    have le : n ≤ groupMarker.length := le
    rw [qualifyFrom_groupMarker, List.take_append_of_le_length le, List.take_append_of_le_length le]
  | cons c t h ih =>
    rw [qualifyFrom_cons h]
    cases n with
    | zero => rfl
    | succ n => rw [List.take_succ_cons, List.take_succ_cons, ih _ (by omega)]

theorem qualifyFrom_ne_marker (h : ∀ r, c :: t ≠ groupMarker ++ r) (escaped : Bool) (r : Text) :
    c :: qualifyFrom p escaped t ≠ groupMarker ++ r := by
  intro eq
  have front := congrArg (List.take 4) eq
  rw [List.take_succ_cons, take_qualifyFrom p escaped t (by decide)] at front
  refine h (t.drop 3) ?_
  rw [← List.take_append_drop 3 t, ← List.cons_append, front, List.take_append_drop]
  rfl

/-- A qualified text is cut where the text was cut, in front of the names that were put in. -/
theorem cutsFrom_qualifyFrom (noOpen : '(' ∉ p) (behind t : Text) :
    cutsFrom behind (qualifyFrom p (escapes behind) t) =
      ((cutsFrom behind t).1, (cutsFrom behind t).2.map (p ++ qualifier ++ ·)) := by
  induction t using markerInduction generalizing behind with
  | nil => rfl
  | marker rest ih =>
    have noneOpen : '(' ∉ p ++ qualifier := by
      rw [List.mem_append, not_or]
      exact ⟨noOpen, by decide⟩
    have ih := ih (groupMarker.reverse ++ behind)
    rw [escapes_marker] at ih
    rw [qualifyFrom_groupMarker, cutsFrom_marker, cutsFrom_marker]
    split
    · rw [List.nil_append, ih]
    · -- the name escapes nothing, so what follows it is cut as before
      have quiet : escapes ((p ++ qualifier).reverse ++ (groupMarker.reverse ++ behind)) =
          escapes (groupMarker.reverse ++ behind) := by
        rw [List.reverse_append]
        rfl
      rw [cutsFrom_append noneOpen, cutsFrom_congr quiet, ih, List.map_cons]
  | cons c t h ih =>
    have ih := ih (c :: behind)
    rw [escapes_cons] at ih
    rw [qualifyFrom_cons h, cutsFrom_cons (qualifyFrom_ne_marker h _), ih, cutsFrom_cons h]

theorem mapM_dropPrefix? (u : Text) (parts : List Text) :
    (parts.map (u ++ ·)).mapM (List.dropPrefix? · u) = some parts := by
  induction parts with
  | nil => rfl
  | cons t parts ih =>
    rw [List.map_cons, List.mapM_cons, ih, List.dropPrefix?_append_of_beq t (beq_self_eq_true u)]
    rfl

/-- Qualifying with the name of a field and then with that of the field around it qualifies with
both names, and a name that was put in can be taken out again. -/
theorem qualifyGroups_qualifyGroups (s : Text) (hp : IsName p) (hq : IsName q) :
    qualifyGroups (qualifyGroups s q) p = qualifyGroups s (qualified p q) ∧
      unqualifyGroups? (qualifyGroups s p) p = some s := by
  have noOpen {name : Text} (h : IsName name) : '(' ∉ name := h.notMem_of_not_isNameChar (by decide)
  have form (name t : Text) : qualifyGroups t name =
      (cuts t).1 ++ (cuts t).2.flatMap (name ++ qualifier ++ ·) := qualifyFrom_eq name [] t
  constructor
  · have parts : cuts (qualifyGroups s q) = _ := cutsFrom_qualifyFrom (noOpen hq) [] s
    rw [form, parts, form, qualified, List.flatMap_map]
    simp only [List.append_assoc]
    rfl
  · have parts : cuts (qualifyGroups s p) = _ := cutsFrom_qualifyFrom (noOpen hp) [] s
    have flat : (cuts s).1 ++ (cuts s).2.flatten = s := flatten_cutsFrom [] s
    rw [unqualifyGroups?, parts, mapM_dropPrefix?, Option.map_some]
    exact congrArg some flat

/-- Markers behind one, two and three backslashes, one right behind another, and a part of one. -/
def escapedMarkers : Text :=
  "(?P<a>x)\\(?P<b>\\\\(?P<c>\\\\\\(?P<(?P<d(?P"

theorem qualifyGroups_escapedMarkers :
    IsName "cost" ∧ IsName "mana" ∧
    qualifyGroups (qualifyGroups escapedMarkers "mana") "cost" =
      ("(?P<cost__mana__a>x)\\(?P<b>\\\\(?P<cost__mana__c>\\\\\\(?P<(?P<cost__mana__d(?P" : Text) ∧
    unqualifyGroups? (qualifyGroups escapedMarkers "cost") "cost" = some escapedMarkers := by
  have hp : IsName "cost" := ⟨by decide, by decide, List.all_eq_true.1 (by decide)⟩
  have hq : IsName "mana" := ⟨by decide, by decide, List.all_eq_true.1 (by decide)⟩
  obtain ⟨composed, restored⟩ := qualifyGroups_qualifyGroups escapedMarkers hp hq
  exact ⟨hp, hq, composed.trans (by decide), restored⟩

end RulesText.Pattern
