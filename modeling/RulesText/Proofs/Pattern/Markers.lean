import RulesText.Pattern.Rendering
import RulesText.Proofs.Regex.Classes
import RulesText.Proofs.Template

/-!
# The markers of named groups

In a pattern text whose angle brackets all belong to markers of named groups, the names that
follow the markers can be read off the text, and qualifying the groups puts the name of the field
in front of each of them and changes nothing else.

## Main definitions

* `Pattern.groupNames`: the names that follow the markers of a text.
* `Pattern.Marked`: a text with the names that follow its markers.
-/

namespace RulesText.Pattern

open Template (IsName)

variable {s t rest field name : Text} {names more : List Text}

/-- The names between each marker of a named group and the next closing angle bracket. -/
def groupNames : (source : Text) → List Text
  | [] => []
  | '(' :: '?' :: 'P' :: '<' :: rest => rest.takeWhile (· != '>') :: groupNames rest
  | _ :: rest => groupNames rest

/-- Every opening angle bracket of the text belongs to a marker that is not escaped and has a
name behind it. -/
inductive Marked : Text → List Text → Prop
  | text {t : Text} (noAngle : '<' ∉ t) : Marked t []
  | marker {t name rest : Text} {names : List Text} (noAngle : '<' ∉ t)
    (unescaped : t.getLast? ≠ some '\\') (isName : IsName name) (tail : Marked rest names) :
    Marked (t ++ (groupMarker ++ (name ++ '>' :: rest))) (name :: names)

/-! ## One marker -/

theorem groupMarker_eq : groupMarker = ['(', '?', 'P', '<'] := rfl

/-- A marker does not begin before a text without angle brackets ends. -/
theorem ne_marker_append {c : Char} (noAngle : '<' ∉ t) (rest r : Text) :
    c :: (t ++ (groupMarker ++ rest)) ≠ groupMarker ++ r := by
  rw [groupMarker_eq]
  intro eq
  rcases t with _ | ⟨a, _ | ⟨b, _ | ⟨d, t⟩⟩⟩ <;> simp_all

theorem ne_marker {c : Char} (noAngle : '<' ∉ t) (r : Text) : c :: t ≠ groupMarker ++ r := by
  rw [groupMarker_eq]
  intro eq
  obtain ⟨-, rfl⟩ := List.cons.inj eq
  simp at noAngle

theorem qualifyFrom_cons {c : Char} (h : ∀ r, c :: t ≠ groupMarker ++ r) (escaped : Bool) :
    qualifyFrom field escaped (c :: t) = c :: qualifyFrom field (c == '\\' && !escaped) t := by
  rw [qualifyFrom]
  rintro r rfl rfl
  exact h r rfl

theorem groupNames_cons {c : Char} (h : ∀ r, c :: t ≠ groupMarker ++ r) :
    groupNames (c :: t) = groupNames t := by
  rw [groupNames]
  rintro r rfl rfl
  exact h r rfl

theorem qualifyFrom_of_noAngle (noAngle : '<' ∉ t) (escaped : Bool) :
    qualifyFrom field escaped t = t := by
  induction t generalizing escaped with
  | nil => rfl
  | cons c t ih =>
    have inner : '<' ∉ t := fun mem => noAngle (List.mem_cons_of_mem _ mem)
    rw [qualifyFrom_cons (ne_marker inner) escaped, ih inner]

theorem qualifyFrom_marker {escaped : Bool} (noAngle : '<' ∉ t)
    (unescaped : t.getLast? ≠ some '\\') (first : t = [] → escaped = false) (rest : Text) :
    qualifyFrom field escaped (t ++ (groupMarker ++ rest)) =
      t ++ (groupMarker ++ (field ++ qualifier ++ qualifyFrom field false rest)) := by
  induction t generalizing escaped with
  | nil =>
    rw [first rfl]
    rfl
  | cons c t ih =>
    have inner : '<' ∉ t := fun mem => noAngle (List.mem_cons_of_mem _ mem)
    rw [List.cons_append, qualifyFrom_cons (ne_marker_append inner rest), ih inner]
    · rfl
    · cases t <;> simp_all
    · rintro rfl
      simp_all

/-- A text in which no group begins, however it goes on, stays as it is. -/
theorem qualifyFrom_append_of_notMem (field : Text) (noOpen : '(' ∉ t) (noEscape : '\\' ∉ t)
    (rest : Text) :
    qualifyFrom field false (t ++ rest) = t ++ qualifyFrom field false rest := by
  induction t with
  | nil => rfl
  | cons c t ih =>
    simp only [List.mem_cons, not_or] at noOpen noEscape
    have other : ∀ r, c :: (t ++ rest) ≠ groupMarker ++ r := fun r eq =>
      noOpen.1 (List.cons.inj eq).1.symm
    have quiet : (c == '\\' && !false) = false := by simpa using Ne.symm noEscape.1
    rw [List.cons_append, qualifyFrom_cons other, quiet, ih noOpen.2 noEscape.2, List.cons_append]

theorem groupNames_append_of_notMem (noOpen : '(' ∉ t) (rest : Text) :
    groupNames (t ++ rest) = groupNames rest := by
  induction t with
  | nil => rfl
  | cons c t ih =>
    simp only [List.mem_cons, not_or] at noOpen
    have other : ∀ r, c :: (t ++ rest) ≠ groupMarker ++ r := fun r eq =>
      noOpen.1 (List.cons.inj eq).1.symm
    rw [List.cons_append, groupNames_cons other, ih noOpen.2]

theorem groupNames_of_noAngle (noAngle : '<' ∉ t) : groupNames t = [] := by
  induction t with
  | nil => rfl
  | cons c t ih =>
    have inner : '<' ∉ t := fun mem => noAngle (List.mem_cons_of_mem _ mem)
    rw [groupNames_cons (ne_marker inner), ih inner]

theorem groupNames_marker (noAngle : '<' ∉ t) (rest : Text) :
    groupNames (t ++ (groupMarker ++ rest)) =
      rest.takeWhile (· != '>') :: groupNames rest := by
  induction t with
  | nil => rfl
  | cons c t ih =>
    have inner : '<' ∉ t := fun mem => noAngle (List.mem_cons_of_mem _ mem)
    rw [List.cons_append, groupNames_cons (ne_marker_append inner rest), ih inner]

/-! ## All markers -/

theorem qualifyGroups_of_noAngle (noAngle : '<' ∉ t) : qualifyGroups t field = t :=
  qualifyFrom_of_noAngle noAngle false

/-- The name behind the first marker is qualified, and so are the names behind it. -/
theorem qualifyGroups_marker (noAngle : '<' ∉ t) (unescaped : t.getLast? ≠ some '\\')
    (isName : IsName name) (rest : Text) :
    qualifyGroups (t ++ (groupMarker ++ (name ++ '>' :: rest))) field =
      t ++ (groupMarker ++ (qualified field name ++ '>' :: qualifyGroups rest field)) := by
  have noOpen : '(' ∉ name ++ ['>'] := by simpa using isName.notMem_of_not_isNameChar (by decide)
  have noEscape : '\\' ∉ name ++ ['>'] := by
    simpa using isName.notMem_of_not_isNameChar (by decide)
  have behind := qualifyFrom_append_of_notMem field noOpen noEscape rest
  rw [List.append_assoc, List.append_assoc, List.singleton_append, List.singleton_append] at behind
  rw [qualifyGroups, qualifyFrom_marker noAngle unescaped fun _ => rfl, behind, qualified,
    List.append_assoc _ name]
  rfl

theorem getLast?_ne_of_append {c : Char} (h : (s ++ t).getLast? ≠ some c) :
    t.getLast? ≠ some c := by
  intro eq
  rw [List.getLast?_append, eq] at h
  exact h rfl

theorem getLast?_append_ne {c : Char} (h : s.getLast? ≠ some c) (h' : t.getLast? ≠ some c) :
    (s ++ t).getLast? ≠ some c := by
  rw [List.getLast?_append]
  cases eq : t.getLast? with
  | none => exact h
  | some d => exact fun same => h' (eq.trans same)

namespace Marked

theorem groupNames_eq (h : Marked t names) : groupNames t = names := by
  induction h with
  | text noAngle => exact groupNames_of_noAngle noAngle
  | @marker t name rest names noAngle _ isName _ ih =>
    have closed : (name ++ '>' :: rest).takeWhile (· != '>') = name :=
      (Regex.takeWhile_cut (isName.notMem_of_not_isNameChar (by decide)) rest).1
    have noOpen : '(' ∉ name ++ ['>'] := by
      simpa using isName.notMem_of_not_isNameChar (by decide)
    have behind := groupNames_append_of_notMem noOpen rest
    rw [List.append_assoc, List.singleton_append] at behind
    rw [groupNames_marker noAngle, closed, behind, ih]

/-- Marked texts one after the other, where the first escapes nothing in the second. Its groups
and those of the second are qualified apart. -/
theorem append (h : Marked s names) (last : s.getLast? ≠ some '\\') (h' : Marked t more) :
    Marked (s ++ t) (names ++ more) ∧
      ∀ field, qualifyGroups (s ++ t) field = qualifyGroups s field ++ qualifyGroups t field := by
  induction h with
  | @text s noAngle =>
    cases h' with
    | text noAngle' =>
      have both : '<' ∉ s ++ t := by simp [noAngle, noAngle']
      refine ⟨.text both, fun field => ?_⟩
      rw [qualifyGroups_of_noAngle both, qualifyGroups_of_noAngle noAngle,
        qualifyGroups_of_noAngle noAngle']
    | @marker t name rest names noAngle' unescaped isName tail =>
      have both : '<' ∉ s ++ t := by simp [noAngle, noAngle']
      have last := getLast?_append_ne last unescaped
      rw [← List.append_assoc]
      refine ⟨.marker both last isName tail, fun field => ?_⟩
      rw [qualifyGroups_marker both last isName, qualifyGroups_of_noAngle noAngle,
        qualifyGroups_marker noAngle' unescaped isName, List.append_assoc]
  | @marker s name rest names noAngle unescaped isName tail ih =>
    have last : rest.getLast? ≠ some '\\' := by
      have front : s ++ (groupMarker ++ (name ++ '>' :: rest)) =
          s ++ groupMarker ++ name ++ ['>'] ++ rest := by simp
      exact getLast?_ne_of_append (front ▸ last)
    obtain ⟨marked, apart⟩ := ih last
    simp only [List.append_assoc, List.cons_append]
    refine ⟨.marker noAngle unescaped isName marked, fun field => ?_⟩
    rw [qualifyGroups_marker noAngle unescaped isName, apart,
      qualifyGroups_marker noAngle unescaped isName]
    simp

/-- A marked text between two texts without angle brackets. -/
theorem enclose {opening closing : Text} (h : Marked t names) (last : t.getLast? ≠ some '\\')
    (noAngle : '<' ∉ opening) (unescaped : opening.getLast? ≠ some '\\')
    (noAngle' : '<' ∉ closing) :
    Marked (opening ++ t ++ closing) names ∧ ∀ field,
      qualifyGroups (opening ++ t ++ closing) field =
        opening ++ qualifyGroups t field ++ closing := by
  obtain ⟨front, apart⟩ := (Marked.text noAngle).append unescaped h
  obtain ⟨all, apart'⟩ := front.append (getLast?_append_ne unescaped last) (.text noAngle')
  rw [List.nil_append, List.append_nil] at all
  refine ⟨all, fun field => ?_⟩
  rw [apart', apart, qualifyGroups_of_noAngle noAngle, qualifyGroups_of_noAngle noAngle']

/-- A marked text in a group of the given name. -/
theorem wrap (h : Marked t names) (last : t.getLast? ≠ some '\\') (isName : IsName name) :
    Marked (RenderedField.wrap name t) (name :: names) ∧ ∀ field,
      qualifyGroups (RenderedField.wrap name t) field =
        RenderedField.wrap (qualified field name) (qualifyGroups t field) := by
  have form (name t : Text) : RenderedField.wrap name t =
      [] ++ (groupMarker ++ (name ++ '>' :: (t ++ [')']))) := by simp [RenderedField.wrap]
  obtain ⟨body, apart⟩ := h.append last (.text (by decide : '<' ∉ [')']))
  rw [List.append_nil] at body
  rw [form]
  refine ⟨.marker List.not_mem_nil nofun isName body, fun field => ?_⟩
  rw [qualifyGroups_marker List.not_mem_nil nofun isName, apart, form]
  rfl

end Marked

end RulesText.Pattern
