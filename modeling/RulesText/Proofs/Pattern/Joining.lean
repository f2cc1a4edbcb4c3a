import Mathlib.Data.List.DropRight
import RulesText.Proofs.LexiconEntry
import RulesText.Proofs.Pattern.FieldTexts
import RulesText.Proofs.Pattern.Groups
import RulesText.Proofs.Regex.Depth

/-!
# What the body of a pattern matches

The body of a pattern is its text between the word boundaries at the ends. It is joined from the
snippets of the template, so it matches what the snippets match one after the other, each with
the space that it brings. All this is said of phrases whose literal texts and alternatives are
wording.

## Main definitions

* `Rendering.joinEnds`: what joined snippets match.
* `Pattern.body`: a pattern without the word boundaries at its ends.
* `Pattern.MatchesInFull`: the body matches a text from its start to its end.
* `Phrase.IsWording`: a phrase of wording.

## Main statements

* `Compiler.Renders.exists_means`: every rendered pattern has a meaning.
* `LexiconEntry.Describes.matchesInFull_iff`: the bodies of accepted patterns can be matched.
-/

namespace RulesText

open Pattern (Denotes Piece)
open Regex (Reads)

theorem Pattern.Denotes.char {t : Text} {x : Char} (piece : Piece t [])
    (read : Regex.readLexeme? false t = some (.char x, [])) : Denotes t (Ends.text [x]) := by
  have reads : Reads false t [(Regex.initialFlags false).char x] :=
    .lexeme read trivial fun a flags => by rw [Regex.Reader.step?, Regex.Reader.flags, flags]
  exact (Denotes.plain piece reads).congr fun _ _ => Regex.matchesAll_chars (t := [x])

namespace Rendering

variable {fields : List RenderedField} {meaning : Text → Ends Cursor} {s : Snippet}
  {snippets : List Snippet}

/-! ## Snippets -/

section

variable (fields : List RenderedField) (meaning : Text → Ends Cursor)

/-- What a part matches, where the fields have the given meaning. -/
def partEnds : Part → Ends Cursor
  | .literal text => .text text
  | .field name =>
    match find? fields name with
    | none => .skip
    | some f => if f.isOptional then (meaning f.name).option else meaning f.name

/-- What parts match one after the other. -/
def partsEnds : List Part → Ends Cursor
  | [] => .skip
  | p :: ps => (partEnds fields meaning p).seq (partsEnds ps)

/-- What a snippet matches that is not an optional placeholder of its own. -/
def snippetEnds : Snippet → Ends Cursor
  | .parts ps => partsEnds fields meaning ps
  | .terminal mark => .text [mark]
  | .quote => .text ['"']

/-- The space before a snippet that brings none itself. -/
def gap (at_ : Position) (s : Snippet) : Ends Cursor :=
  if at_.isFirst || s.isTerminal || at_.inQuotes || at_.spaced then .skip else .text [' ']

/-- What one snippet matches, with the space that it brings. -/
def oneEnds (at_ : Position) (s : Snippet) : Ends Cursor :=
  match optionalField? fields s with
  | some f =>
    if at_.inLead then (gap at_ s).seq ((meaning f.name).seq (.text [' '])).option
    else ((Ends.text [' ']).seq (meaning f.name)).option
  | none => (gap at_ s).seq (snippetEnds fields meaning s)

/-- What all snippets match from a position on. -/
def joinEnds : Position → List Snippet → Ends Cursor
  | _, [] => .skip
  | at_, s :: rest => (oneEnds fields meaning at_ s).seq (joinEnds (joinOne fields at_ s).2 rest)

/-- The groups of the fields have the given meaning. -/
def Voices : Prop :=
  ∀ f ∈ fields, Denotes f.group (meaning f.name)

end

section

variable (voices : Voices fields meaning)
include voices

theorem denotes_partSource {p : Part} (wording : ∀ text, p = .literal text → text.IsWording) :
    Denotes (partSource fields p) (partEnds fields meaning p) := by
  cases p with
  | literal text => exact .text (wording text rfl).chars
  | field name =>
    unfold partSource partEnds
    dsimp only
    cases found : find? fields name with
    | none => exact .nil
    | some f =>
      have own := voices f (List.mem_of_find?_eq_some found)
      dsimp only
      split
      · exact .optional own
      · exact own

theorem denotes_parts {ps : List Part} (wording : ∀ text, .literal text ∈ ps → text.IsWording) :
    Denotes (ps.flatMap (partSource fields)) (partsEnds fields meaning ps) := by
  induction ps with
  | nil => exact .nil
  | cons p ps ih =>
    refine .append (denotes_partSource voices fun text eq => wording text ?_)
      (ih fun text mem => ?_)
    · exact eq ▸ List.mem_cons_self
    · exact wording text (List.mem_cons_of_mem _ mem)

theorem denotes_snippetSource {template : Text} (mem : s ∈ Template.parse template)
    (wording : ∀ text ∈ s.literals, text.IsWording) :
    Denotes (snippetSource fields s) (snippetEnds fields meaning s) := by
  rcases Template.mem_parse mem with ⟨body, -, rfl⟩ | rfl | ⟨mark, isMark, rfl⟩
  · exact denotes_parts voices fun text mem => wording text (Snippet.mem_literals.2 mem)
  · exact .char piece_quote rfl
  · have kinds : (mark = '.' ∨ mark = ',') ∨ mark = ';' := by
      simpa [Template.isTerminalMark] using isMark
    rcases kinds with (rfl | rfl) | rfl <;> exact .char (piece_terminal isMark) rfl

omit voices in
theorem denotes_gap (at_ : Position) (s : Snippet) :
    Denotes (if at_.isFirst || s.isTerminal || at_.inQuotes || at_.spaced then [] else [' '])
      (gap at_ s) := by
  unfold gap
  split
  · exact .nil
  · exact .text (by simp)

theorem denotes_joinOne {template : Text} (mem : s ∈ Template.parse template)
    (wording : ∀ text ∈ s.literals, text.IsWording) (at_ : Position) :
    Denotes (joinOne fields at_ s).1 (oneEnds fields meaning at_ s) := by
  have space : Denotes [' '] (Ends.text [' ']) := .text (by simp)
  have before := denotes_gap at_ s
  unfold joinOne oneEnds
  dsimp only
  cases optional : optionalField? fields s with
  | none =>
    simp only [Option.isSome_none, Bool.false_and, Bool.or_false]
    exact .append before (denotes_snippetSource voices mem wording)
  | some f =>
    obtain ⟨name, -, found, -⟩ := optionalField?_eq_some optional
    have own := voices f (List.mem_of_find?_eq_some found)
    cases lead : at_.inLead with
    | true =>
      have behind : ("(?:" : Text) ++ f.group ++ (" )?" : Text) =
          ("(?:" : Text) ++ (f.group ++ [' ']) ++ (")?" : Text) := by simp
      simp only [Option.isSome_some, Bool.true_and, Bool.not_true, Bool.or_false, if_true]
      exact .append before (behind ▸ .optional (.append own space))
    | false =>
      have ahead : ("(?: " : Text) ++ f.group ++ (")?" : Text) =
          ("(?:" : Text) ++ ([' '] ++ f.group) ++ (")?" : Text) := by simp
      simp only [Option.isSome_some, Bool.true_and, Bool.not_false, Bool.or_true, Bool.true_or,
        if_true, List.nil_append, Bool.false_eq_true, if_false]
      exact ahead ▸ .optional (.append space own)

/-- Joined snippets match what the snippets match one after the other. -/
theorem denotes_join {template : Text} (inside : ∀ s ∈ snippets, s ∈ Template.parse template)
    (wording : ∀ s ∈ snippets, ∀ text ∈ s.literals, text.IsWording) (at_ : Position) :
    Denotes (join fields at_ snippets) (joinEnds fields meaning at_ snippets) := by
  induction snippets generalizing at_ with
  | nil => exact .nil
  | cons s snippets ih =>
    obtain ⟨mem, inside⟩ := List.forall_mem_cons.1 inside
    obtain ⟨own, wording⟩ := List.forall_mem_cons.1 wording
    exact .append (denotes_joinOne voices mem own at_) (ih inside wording _)

end

/-! ## Word boundaries -/

/-- What the word boundary at an end of a pattern matches. -/
def boundaryEnds : Edge → Ends Cursor
  | .word => .boundary
  | .other => .skip

theorem denotes_boundary (edge : Edge) : Denotes (boundary edge) (boundaryEnds edge) := by
  cases edge with
  | word => exact .wordBoundary
  | other => exact .nil

theorem cuts_boundary (edge : Edge) : ∃ lexemes, Regex.Cuts (boundary edge) lexemes ∧
    ∀ l ∈ lexemes, ∃ condition, l = .look condition := by
  cases edge with
  | word => exact ⟨[.look .wordBoundary], .cons rfl trivial .nil, by simp⟩
  | other => exact ⟨[], .nil, by simp⟩

end Rendering

/-! ## Bodies -/

namespace Pattern

/-- The source of a pattern without the word boundaries at its ends. -/
def body (p : Pattern) : Text :=
  (p.source.drop (Rendering.boundary p.leading).length).rdrop
    (Rendering.boundary p.trailing).length

/-- The body matches the text from its start to its end. -/
def MatchesInFull (p : Pattern) (t : Text) : Prop :=
  ∃ r, Regex.parse? (Regex.anchored p.body) = some r ∧ r.searcher.occursIn t

instance (p : Pattern) (t : Text) : Decidable (p.MatchesInFull t) :=
  decidable_of_iff ((Regex.parse? (Regex.anchored p.body)).any (·.searcher.occursIn t))
    (Option.any_eq_true _ _)

end Pattern

namespace Rendering

variable {kind : Kind} {snippets : List Snippet} {fields : List RenderedField} {p : Pattern}

/-- An assembled pattern is its joined snippets between the boundaries of its edges. -/
theorem of_assemble (h : assemble kind snippets fields = .ok p) :
    p.body = join fields {} snippets ∧
      p.source = boundary p.leading ++ p.body ++ boundary p.trailing ∧
      p.leading = outerEdge fields .leading snippets ∧
      p.trailing = outerEdge fields .trailing snippets.reverse := by
  rw [assemble] at h
  split at h
  · cases h
  · obtain rfl := Except.ok.inj h
    have body : ∀ front middle back : Text,
        ((front ++ middle ++ back).drop front.length).rdrop back.length = middle := by
      intro front middle back
      rw [List.append_assoc, List.drop_left, List.rdrop_append_length]
    refine ⟨body _ _ _, ?_, rfl, rfl⟩
    rw [Pattern.body, body]

end Rendering

/-! ## Phrases -/

/-- All literal texts and all alternatives of the phrase are wording. -/
structure Phrase.IsWording (phrase : Phrase) : Prop where
  literals : ∀ text ∈ phrase.literals, text.IsWording
  alternatives : ∀ f ∈ phrase.fields, ∀ text ∈ f.alternatives, text.IsWording

instance (phrase : Phrase) : Decidable phrase.IsWording :=
  decidable_of_iff ((∀ text ∈ phrase.literals, text.IsWording) ∧
      ∀ f ∈ phrase.fields, ∀ text ∈ f.alternatives, text.IsWording)
    ⟨fun ⟨literals, alternatives⟩ => ⟨literals, alternatives⟩,
      fun h => ⟨h.literals, h.alternatives⟩⟩

/-- What the field of a given name matches. -/
def Phrase.meaning (phrase : Phrase) (nested : Kind → Ends Cursor) (name : Text) : Ends Cursor :=
  (phrase.field? name).elim .skip (Field.ends nested)

/-- Every match at the start of a text, or at its end, has a word character there. -/
def Ends.HasWord (M : Ends Cursor) : Side → Prop
  | .leading => ∀ c d, M c d → c.atStart → c.aheadIs Text.isWordChar
  | .trailing => ∀ c d, M c d → d.atEnd → d.behindIs Text.isWordChar

/-- At the start of a text a word begins where there is a boundary, and at its end a word ends. -/
theorem Ends.hasWord_boundary (side : Side) : Ends.boundary.HasWord side := by
  cases side with
  | leading =>
    rintro c _ ⟨holds, -⟩ start
    have none : c.behindIs Text.isWordChar = false := by
      simp_all [Cursor.atStart, Cursor.behindIs]
    change (c.behindIs Text.isWordChar != c.aheadIs Text.isWordChar) = true at holds
    simpa [none] using holds
  | trailing =>
    rintro c d ⟨holds, same⟩ stop
    subst same
    have none : d.aheadIs Text.isWordChar = false := by
      simp_all [Cursor.atEnd, Cursor.aheadIs]
    change (d.behindIs Text.isWordChar != d.aheadIs Text.isWordChar) = true at holds
    simpa [none] using holds

namespace Pattern

def edge (p : Pattern) : Side → Edge
  | .leading => p.leading
  | .trailing => p.trailing

/-- The source of the pattern has the given meaning, and a word edge is one in every match. -/
structure Means (p : Pattern) (M : Ends Cursor) : Prop where
  denotes : Denotes p.source M
  hasWord : ∀ side, p.edge side = .word → M.HasWord side

end Pattern

open Pattern (Means)

namespace Compiler

open Rendering (joinEnds boundaryEnds)

variable {v : Vocabulary} {kind : Kind} {p : Pattern} {phrase : Phrase} {fields : List Field}
  {nested : Kind → Pattern} {meanings : Kind → Ends Cursor}

theorem voices_of_placed (placed : Placed phrase fields) (wording : phrase.IsWording)
    (inner : ∀ f ∈ fields, ∀ other, f.kind = .nested other →
      Denotes (nested other).source (meanings other)) :
    Rendering.Voices (fields.map (renderedField nested)) (phrase.meaning meanings) := by
  intro r mem
  obtain ⟨f, inside, rfl⟩ := List.mem_map.1 mem
  have declared := placed.declares inside
  have isName := Template.isName_of_mem_placeholders (placed.mem_placeholders declared)
  rw [name_renderedField, Phrase.meaning, placed.field?_name declared]
  exact denotes_group isName (wording.alternatives f declared) (inner f inside)

/-- The body of an assembled pattern matches what its snippets match. -/
theorem denotes_body (placed : Placed phrase fields) (wording : phrase.IsWording)
    (inner : ∀ f ∈ fields, ∀ other, f.kind = .nested other →
      Denotes (nested other).source (meanings other))
    (assembled : Rendering.assemble phrase.kind (Template.parse phrase.template)
      (fields.map (renderedField nested)) = .ok p) :
    Denotes p.body (joinEnds (fields.map (renderedField nested)) (phrase.meaning meanings) {}
      (Template.parse phrase.template)) := by
  rw [(Rendering.of_assemble assembled).1]
  exact Rendering.denotes_join (voices_of_placed placed wording inner) (fun _ mem => mem)
    (fun s mem text inside => wording.literals text (List.mem_flatMap.2 ⟨s, mem, inside⟩)) {}

/-- The word boundaries at the ends of a pattern make its word edges ones in every match. -/
theorem means_of_body {M : Ends Cursor} (body : Denotes p.body M)
    (source : p.source =
      Rendering.boundary p.leading ++ p.body ++ Rendering.boundary p.trailing) :
    Means p (((boundaryEnds p.leading).seq M).seq (boundaryEnds p.trailing)) where
  denotes := source ▸ .append (.append (Rendering.denotes_boundary _) body)
    (Rendering.denotes_boundary _)
  hasWord := by
    rintro (_ | _) word c d ⟨e, ⟨b, first, -⟩, last⟩ outermost
    · rw [show p.leading = .word from word] at first
      exact Ends.hasWord_boundary .leading c b first outermost
    · rw [show p.trailing = .word from word] at last
      have same : d = e := last.2
      subst same
      exact Ends.hasWord_boundary .trailing d d last outermost

/-- Nested patterns that have meanings have them all together. -/
theorem exists_meanings
    (inner : ∀ f ∈ fields, ∀ other, f.kind = .nested other → ∃ M, Means (nested other) M) :
    ∃ meanings : Kind → Ends Cursor, ∀ f ∈ fields, ∀ other, f.kind = .nested other →
      Means (nested other) (meanings other) := by
  have exists_nested : ∀ other, ∃ M, (∃ f ∈ fields, f.kind = .nested other) →
      Means (nested other) M := by
    intro other
    by_cases used : ∃ f ∈ fields, f.kind = .nested other
    · obtain ⟨f, mem, eq⟩ := used
      obtain ⟨M, means⟩ := inner f mem other eq
      exact ⟨M, fun _ => means⟩
    · exact ⟨.skip, fun used' => absurd used' used⟩
  choose meanings means using exists_nested
  exact ⟨meanings, fun f mem other eq => means other ⟨f, mem, eq⟩⟩

/-- In a vocabulary of wording, every rendered pattern has a meaning. -/
theorem Renders.exists_means (h : Renders v kind p) (wording : ∀ phrase ∈ v, phrase.IsWording) :
    ∃ M, Means p M := by
  induction h with
  | @intro kind phrase fields nested p declared placed inner assembled ih =>
    obtain ⟨meanings, means⟩ := exists_meanings ih
    have own := wording phrase (List.mem_of_find?_eq_some declared)
    have body := denotes_body placed own
      (fun f mem other eq => (means f mem other eq).denotes) assembled
    exact ⟨_, means_of_body body (Rendering.of_assemble assembled).2.1⟩

end Compiler

/-! ## Entries -/

namespace LexiconEntry.Describes

variable {v : Vocabulary} {e : LexiconEntry} {phrase : Phrase} {M : Ends Cursor} {t : Text}

/-- The pattern of an entry is assembled from its phrase. -/
theorem exists_assembled (h : e.Describes v phrase) :
    ∃ (fields : List Field) (nested : Kind → Pattern), Compiler.Placed phrase fields ∧
      (∀ f ∈ fields, ∀ other, f.kind = .nested other → Compiler.Renders v other (nested other)) ∧
      Rendering.assemble phrase.kind (Template.parse phrase.template)
        (fields.map (Compiler.renderedField nested)) = .ok e.pattern := by
  obtain ⟨declared, placed, inner, assembled⟩ := h.renders
  obtain rfl := Option.some.inj (h.declared.symm.trans declared)
  exact ⟨_, _, placed, inner, assembled⟩

/-- The body of an accepted pattern can be read, and matches in full what it denotes. -/
theorem matchesInFull_iff (h : e.Describes v phrase) (denotes : Denotes e.pattern.body M) :
    e.pattern.MatchesInFull t ↔ ∃ d : Cursor, d.ahead = [] ∧ M (.start t) d := by
  constructor
  · rintro ⟨r, parsed, occurs⟩
    exact (denotes.occursIn_iff parsed).1 occurs
  · intro matched
    obtain ⟨_, _, -, -, assembled⟩ := h.exists_assembled
    obtain ⟨names, fragment⟩ := denotes.exists_isFragment
    obtain ⟨front, cuts, looks⟩ := Rendering.cuts_boundary e.pattern.leading
    obtain ⟨back, cuts', looks'⟩ := Rendering.cuts_boundary e.pattern.trailing
    obtain ⟨names', boundary⟩ := (Rendering.denotes_boundary e.pattern.trailing).exists_isFragment
    obtain ⟨whole, parsed, -⟩ := h.exact
    have readable : (Regex.parse? (Regex.anchored e.pattern.source)).isSome :=
      Option.isSome_iff_exists.2 ⟨whole, Lexicon.parse_eq_ok parsed⟩
    rw [(Rendering.of_assemble assembled).2.1] at readable
    obtain ⟨r, own⟩ := Option.isSome_iff_exists.1 (fragment.isSome_parse?_anchored cuts cuts'
      (List.forall_mem_append.2 ⟨looks, looks'⟩) boundary.stands readable)
    exact ⟨r, own, (denotes.occursIn_iff own).2 matched⟩

end LexiconEntry.Describes

end RulesText
