import Mathlib.Data.List.Perm.Basic
import RulesText.Proofs.Pattern.Acceptance
import RulesText.Proofs.Pattern.Alternation

/-!
# The groups of a rendered pattern

Where all literal texts and all alternatives are plain, a pattern is a piece, and the names of the
groups in its text are those that it lists, though maybe in another order.

## Main definitions

* `Pattern.HasGroups`: a piece with the given names in any order.
* `Phrase.IsPlain`: a phrase of plain literal texts and plain alternatives.
-/

namespace RulesText

open Regex (IsPlain)
open Template (IsName)
open Pattern (Piece)

/-! ## Pieces with groups in any order -/

namespace Pattern

variable {s t name field : Text} {names more : List Text}

/-- A text that is put together from plain fragments and has groups of the given names, in any
order. -/
def HasGroups (t : Text) (names : List Text) : Prop :=
  ∃ order, Piece t order ∧ order.Perm names

theorem Piece.hasGroups (h : Piece t names) : HasGroups t names :=
  ⟨names, h, .refl _⟩

namespace HasGroups

theorem perm (h : HasGroups t names) (p : names.Perm more) : HasGroups t more :=
  let ⟨order, piece, same⟩ := h
  ⟨order, piece, same.trans p⟩

theorem append (h : HasGroups s names) (h' : HasGroups t more) :
    HasGroups (s ++ t) (names ++ more) :=
  let ⟨_, piece, same⟩ := h
  let ⟨_, piece', same'⟩ := h'
  ⟨_, .append piece piece', same.append same'⟩

theorem optional (h : HasGroups t names) : HasGroups ("(?:" ++ t ++ ")?") names :=
  let ⟨_, piece, same⟩ := h
  ⟨_, .optional piece, same⟩

theorem named (h : HasGroups t names) (isName : IsName name) :
    HasGroups (RenderedField.wrap name t) (name :: names) :=
  let ⟨_, piece, same⟩ := h
  ⟨_, .named isName piece, same.cons name⟩

theorem qualifyGroups (h : HasGroups t names) (isName : IsName field) :
    HasGroups (Pattern.qualifyGroups t field) (names.map (qualified field)) :=
  let ⟨_, piece, same⟩ := h
  ⟨_, piece.qualifyGroups isName, same.map _⟩

/-- Texts one after the other. -/
theorem flatMap {α : Type} {l : List α} {text : α → Text} {groups : α → List Text}
    (all : ∀ a ∈ l, HasGroups (text a) (groups a)) :
    HasGroups (l.flatMap text) (l.flatMap groups) := by
  induction l with
  | nil => exact Piece.nil.hasGroups
  | cons a l ih =>
    obtain ⟨first, rest⟩ := List.forall_mem_cons.1 all
    exact first.append (ih rest)

end HasGroups

end Pattern

open Pattern (HasGroups)

/-! ## Fields -/

theorem RenderedField.hasGroups_ofAlternatives {f : Field} {alternatives : List Text}
    (isName : IsName f.name) (plain : ∀ t ∈ alternatives, IsPlain t) :
    HasGroups (ofAlternatives f alternatives).group [f.name] :=
  (Alternation.piece_source plain f.isPlural f.isBounded).hasGroups.named isName

theorem RenderedField.hasGroups_ofNested {f : Field} {p : Pattern} (isName : IsName f.name)
    (inner : HasGroups p.source p.groups) :
    HasGroups (ofNested f p).group (f.name :: (ofNested f p).groups) :=
  (inner.qualifyGroups isName).named isName

/-! ## Joining -/

/-- The literal texts of a snippet; quotes and closing marks are no pattern text. -/
def Snippet.literals : Snippet → List Text
  | .parts ps => ps.filterMap fun
    | .literal text => some text
    | .field _ => none
  | _ => []

theorem Snippet.mem_literals {ps : List Part} {text : Text} :
    text ∈ (Snippet.parts ps).literals ↔ .literal text ∈ ps := by
  rw [literals, List.mem_filterMap]
  constructor
  · rintro ⟨_ | name, mem, eq⟩
    · exact Option.some.inj eq ▸ mem
    · cases eq
  · exact fun mem => ⟨_, mem, rfl⟩

namespace Rendering

variable {fields : List RenderedField} {name : Text} {f : RenderedField} {s : Snippet}

/-- The groups of the field that a placeholder stands for. -/
def groupsOf (fields : List RenderedField) (name : Text) : List Text :=
  (find? fields name).toList.flatMap fun f => f.name :: f.groups

theorem optionalField?_eq_some (h : optionalField? fields s = some f) :
    ∃ name, s = .parts [.field name] ∧ find? fields name = some f ∧ f.isOptional = true := by
  obtain ⟨found, optional⟩ := Option.filter_eq_some_iff.1 h
  obtain ⟨name, sole, found⟩ := Option.bind_eq_some_iff.1 found
  refine ⟨name, ?_, found, optional⟩
  unfold Snippet.soleField? at sole
  split at sole
  · rw [Option.some.inj sole]
  · cases sole

theorem piece_space : Piece [' '] [] :=
  .single (.char ' ') rfl trivial rfl rfl (by decide) (by decide)

theorem piece_quote : Piece (Regex.escape ['"']) [] :=
  .single (.char '"') rfl trivial rfl rfl (by decide) (by decide)

theorem piece_terminal {mark : Char} (h : Template.isTerminalMark mark = true) :
    Piece (Regex.escape [mark]) [] := by
  have : (mark = '.' ∨ mark = ',') ∨ mark = ';' := by simpa [Template.isTerminalMark] using h
  rcases this with (rfl | rfl) | rfl
  · exact .single (.char '.') rfl trivial rfl rfl (by decide) (by decide)
  · exact .single (.char ',') rfl trivial rfl rfl (by decide) (by decide)
  · exact .single (.char ';') rfl trivial rfl rfl (by decide) (by decide)

/-- Every field is a piece with the groups that it lists. -/
def Regular (fields : List RenderedField) : Prop :=
  ∀ f ∈ fields, HasGroups f.group (f.name :: f.groups)

theorem groupsOf_eq (found : find? fields name = some f) :
    groupsOf fields name = f.name :: f.groups := by
  rw [groupsOf, found, Option.toList_some, List.flatMap_singleton]

variable (regular : Regular fields)
include regular

theorem hasGroups_partSource {p : Part} (plain : ∀ text, p = .literal text → IsPlain text) :
    HasGroups (partSource fields p) (p.field?.toList.flatMap (groupsOf fields)) := by
  cases p with
  | literal text => exact (plain text rfl).piece.hasGroups
  | field name =>
    rw [partSource, Part.field?, Option.toList_some, List.flatMap_singleton]
    cases found : find? fields name with
    | none =>
      rw [groupsOf, found]
      exact Piece.nil.hasGroups
    | some f =>
      have own := regular f (List.mem_of_find?_eq_some found)
      rw [groupsOf_eq found]
      dsimp only
      split
      · exact own.optional
      · exact own

/-- A snippet of a template, however it is joined to those before it. -/
theorem hasGroups_snippetSource {template : Text} (mem : s ∈ Template.parse template)
    (plain : ∀ text ∈ s.literals, IsPlain text) :
    HasGroups (snippetSource fields s) (s.fields.flatMap (groupsOf fields)) := by
  rcases Template.mem_parse mem with ⟨body, -, rfl⟩ | rfl | ⟨mark, isMark, rfl⟩
  · generalize Template.splitParts [] body = parts at plain
    rw [snippetSource, Snippet.fields, List.filterMap_eq_flatMap_toList, List.flatMap_assoc]
    exact .flatMap fun p inside => hasGroups_partSource regular fun text eq =>
      plain text (Snippet.mem_literals.2 (eq ▸ inside))
  · exact piece_quote.hasGroups
  · exact (piece_terminal isMark).hasGroups

theorem hasGroups_joinOne {template : Text} (mem : s ∈ Template.parse template)
    (plain : ∀ text ∈ s.literals, IsPlain text) (at_ : Position) :
    HasGroups (joinOne fields at_ s).1 (s.fields.flatMap (groupsOf fields)) := by
  have glue (glued : Bool) : HasGroups (if glued then [] else [' ']) [] := by
    cases glued with
    | true => exact Piece.nil.hasGroups
    | false => exact piece_space.hasGroups
  unfold joinOne
  dsimp only
  rw [← List.nil_append (List.flatMap _ _)]
  refine (glue _).append ?_
  cases optional : optionalField? fields s with
  | none => exact hasGroups_snippetSource regular mem plain
  | some f =>
    obtain ⟨name, rfl, found, -⟩ := optionalField?_eq_some optional
    have own := regular f (List.mem_of_find?_eq_some found)
    have names : (Snippet.parts [.field name]).fields.flatMap (groupsOf fields) =
        f.name :: f.groups := by
      rw [← groupsOf_eq found]
      exact List.flatMap_singleton ..
    rw [names]
    dsimp only
    split
    · have padded := (own.append piece_space.hasGroups).optional
      simpa using padded
    · have padded := (piece_space.hasGroups.append own).optional
      simpa using padded

theorem hasGroups_join {template : Text} {snippets : List Snippet}
    (inside : ∀ s ∈ snippets, s ∈ Template.parse template)
    (plain : ∀ s ∈ snippets, ∀ text ∈ s.literals, IsPlain text) (at_ : Position) :
    HasGroups (join fields at_ snippets)
      ((Template.placeholders snippets).flatMap (groupsOf fields)) := by
  induction snippets generalizing at_ with
  | nil => exact Piece.nil.hasGroups
  | cons s snippets ih =>
    obtain ⟨here, inside⟩ := List.forall_mem_cons.1 inside
    obtain ⟨own, plain⟩ := List.forall_mem_cons.1 plain
    rw [Template.placeholders, List.flatMap_cons, List.flatMap_append]
    exact (hasGroups_joinOne regular here own at_).append (ih inside plain _)

omit regular

theorem piece_boundary (edge : Edge) : Piece (boundary edge) [] := by
  cases edge with
  | word => exact Alternation.piece_wordBoundary
  | other => exact .nil

theorem hasGroups_bounded {t : Text} {names : List Text} (h : HasGroups t names)
    (leading trailing : Edge) :
    HasGroups (boundary leading ++ t ++ boundary trailing) names :=
  (((piece_boundary leading).hasGroups.append h).append (piece_boundary trailing).hasGroups).perm
    (by simp)

theorem flatMap_groupsOf (distinct : (fields.map (·.name)).Nodup) :
    (fields.map (·.name)).flatMap (groupsOf fields) =
      fields.flatMap fun f => f.name :: f.groups := by
  rw [List.flatMap_map]
  exact List.flatMap_congr fun f mem => groupsOf_eq (find?_key distinct mem)

/-- An assembled pattern has the groups that it lists. -/
theorem hasGroups_assemble {kind : Kind} {template : Text} {p : Pattern} (regular : Regular fields)
    (names : fields.map (·.name) = Template.placeholders (Template.parse template))
    (distinct : (fields.map (·.name)).Nodup)
    (plain : ∀ s ∈ Template.parse template, ∀ text ∈ s.literals, IsPlain text)
    (h : assemble kind (Template.parse template) fields = .ok p) : HasGroups p.source p.groups := by
  have joined := hasGroups_join regular (fun _ mem => mem) plain {}
  rw [← names, flatMap_groupsOf distinct] at joined
  rw [assemble] at h
  split at h
  · cases h
  · obtain rfl := Except.ok.inj h
    have listed : (fields.map (·.name) ++ fields.flatMap (·.groups)).Perm
        (fields.flatMap fun f => f.name :: f.groups) := by
      rw [List.map_eq_flatMap]
      exact List.flatMap_append_perm fields (fun f => [f.name]) (·.groups)
    exact (hasGroups_bounded joined _ _).perm listed.symm

end Rendering

/-! ## Phrases -/

/-- The pattern text of a template outside its placeholders. -/
def Phrase.literals (phrase : Phrase) : List Text :=
  (Template.parse phrase.template).flatMap Snippet.literals

/-- Everything that a phrase contributes to patterns itself is plain. -/
structure Phrase.IsPlain (phrase : Phrase) : Prop where
  literals : ∀ text ∈ phrase.literals, Regex.IsPlain text
  alternatives : ∀ f ∈ phrase.fields, ∀ text ∈ f.alternatives, Regex.IsPlain text

instance (phrase : Phrase) : Decidable phrase.IsPlain :=
  decidable_of_iff ((∀ text ∈ phrase.literals, Regex.IsPlain text) ∧
      ∀ f ∈ phrase.fields, ∀ text ∈ f.alternatives, Regex.IsPlain text)
    ⟨fun ⟨literals, alternatives⟩ => ⟨literals, alternatives⟩,
      fun h => ⟨h.literals, h.alternatives⟩⟩

namespace Compiler

variable {v : Vocabulary} {kind : Kind} {p : Pattern}

theorem hasGroups_renderedField {f : Field} {nested : Kind → Pattern} (isName : IsName f.name)
    (plain : ∀ text ∈ f.alternatives, IsPlain text)
    (inner : ∀ other, f.kind = .nested other →
      HasGroups (nested other).source (nested other).groups) :
    HasGroups (renderedField nested f).group
      ((renderedField nested f).name :: (renderedField nested f).groups) := by
  unfold renderedField
  unfold Field.alternatives at plain
  cases eq : f.kind with
  | nested other => exact RenderedField.hasGroups_ofNested isName (inner other eq)
  | _ =>
    rw [eq] at plain
    exact RenderedField.hasGroups_ofAlternatives isName plain

/-- A pattern of plain phrases has the groups that it lists. -/
theorem Renders.hasGroups (h : Renders v kind p)
    (plain : ∀ inner, Relation.ReflTransGen (Nests v) inner kind →
      ∀ phrase, v.find? (·.kind == inner) = some phrase → phrase.IsPlain) :
    HasGroups p.source p.groups := by
  induction h with
  | @intro kind phrase fields nested p declared placed inner assembled ih =>
    have own := plain kind .refl phrase declared
    have names : (fields.map (renderedField nested)).map (·.name) = phrase.placeholders := by
      rw [← placed.map_name, List.map_map]
      exact List.map_congr_left fun f _ => name_renderedField nested f
    refine Rendering.hasGroups_assemble ?_ names (names ▸ placed.distinct)
      (fun s mem text inside => own.literals text (List.mem_flatMap.2 ⟨s, mem, inside⟩)) assembled
    intro r mem
    obtain ⟨f, inside, rfl⟩ := List.mem_map.1 mem
    have isName : IsName f.name := Template.isName_of_mem_placeholders
      (placed.mem_placeholders (placed.declares inside))
    refine hasGroups_renderedField isName (own.alternatives f (placed.declares inside)) ?_
    intro other eq
    have nests := nests_of_placed declared placed inside eq
    exact ih f inside other eq fun deeper reaches => plain deeper (reaches.tail nests)

end Compiler

end RulesText
