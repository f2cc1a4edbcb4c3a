import RulesText.Proofs.Capture.Checks
import RulesText.Proofs.Pattern.Slots

/-!
# The expression of a template of words

The pattern of a phrase that is written in words and placeholders for words is the row of its
slots between word boundaries: both ends of every match are words.

## Main definitions

* `Phrase.IsWritten`: a template as a row of slots.

## Main statements

* `Phrase.IsWritten.regex_eq`: the expression of such a phrase.
-/

namespace RulesText

open Regex (Reads HasBranches Stands branchOf oneOf look char)
open Template (IsName)

/-- The template of the phrase is a row of slots; its fields have neither plurals nor boundaries
of their own. -/
structure Phrase.IsWritten (p : Phrase) (slots : List Slot) : Prop where
  template : Template.parse p.template = slots.map Slot.snippet
  fields : ∀ f, .field f ∈ slots → f ∈ p.fields
  plain : ∀ f ∈ p.fields, f.isPlural = false ∧ f.isBounded = false
  reading : p.reading = .fields

/-- The words that can stand in a slot, and there is one. -/
structure Slot.IsWordy (s : Slot) : Prop where
  nonempty : s.words ≠ []
  lower : ∀ w ∈ s.words, w.IsLowerWord

/-! ## Groups -/

namespace Slot

variable {f : Field} {fields : List RenderedField} {slots : List Slot} {s : Slot}

/-- The field as a named group. -/
def rendered (f : Field) : RenderedField :=
  .ofAlternatives f f.alternatives

theorem reads_group (isName : IsName f.name) (plural : f.isPlural = false)
    (bounded : f.isBounded = false) (wordy : (field f).IsWordy) :
    Reads false (rendered f).group (field f).exprs := by
  let forms := Alternation.longestFirst (Alternation.distinct f.alternatives)
  have same : ∀ a, a ∈ forms ↔ a ∈ f.alternatives := fun a => by
    rw [Alternation.mem_longestFirst, Alternation.mem_distinct]
  have nonempty : forms ≠ [] := by
    obtain ⟨a, mem⟩ := List.exists_mem_of_ne_nil _ wordy.nonempty
    exact List.ne_nil_of_mem ((same a).2 mem)
  have all : HasBranches false (Text.join ['|'] forms) (forms.map Regex.literal) := by
    rw [← List.flatMap_singleton' (forms.map _), List.flatMap_map]
    refine HasBranches.join nonempty fun a mem => ?_
    have word := wordy.lower a ((same a).1 mem)
    have letters : Reads false a (a.map char) := Reads.letters word.lower
    exact Regex.branchOf_chars a ▸ letters.hasBranches
  have named := all.group.hasBranches.named isName.readGroupName?
  have text : (rendered f).group = "(?P<" ++ f.name ++ ['>'] ++
      (("(?:" : Text) ++ Text.join ['|'] forms ++ (")" : Text)) ++ (")" : Text) := by
    simp [rendered, RenderedField.ofAlternatives, RenderedField.wrap, Alternation.source, plural,
      bounded, Pattern.groupMarker, forms]
  rw [text]
  rw [Regex.oneOf_singleton] at named
  exact named

/-! ## Joining -/

/-- The slots of a template with their groups. -/
structure Groups (fields : List RenderedField) (slots : List Slot) : Prop where
  wordy : ∀ s ∈ slots, s.IsWordy
  found : ∀ f, field f ∈ slots → Rendering.find? fields f.name = some (rendered f)
  reads : ∀ f, field f ∈ slots → Reads false (rendered f).group (field f).exprs

theorem Groups.tail (h : Groups fields (s :: slots)) : Groups fields slots where
  wordy := (List.forall_mem_cons.1 h.wordy).2
  found := fun f mem => h.found f (List.mem_cons_of_mem _ mem)
  reads := fun f mem => h.reads f (List.mem_cons_of_mem _ mem)

/-- The text of a slot that has to be filled. -/
def source : Slot → Text
  | word w => w
  | field f => (rendered f).group

theorem Groups.reads_source (h : Groups fields (s :: slots)) : Reads false s.source s.exprs := by
  cases s with
  | word w => exact Reads.letters ((h.wordy _ List.mem_cons_self).lower w List.mem_cons_self).lower
  | field f => exact h.reads f List.mem_cons_self

theorem Groups.stands_source (h : Groups fields (s :: slots)) : Stands s.source := by
  cases s with
  | word w =>
    exact Regex.stands_of_lower ((h.wordy _ List.mem_cons_self).lower w List.mem_cons_self).lower
  | field f => exact ⟨by simp [source, rendered, RenderedField.ofAlternatives, RenderedField.wrap,
      Pattern.groupMarker], by simp [source, rendered, RenderedField.ofAlternatives,
      RenderedField.wrap, Pattern.groupMarker]⟩

theorem Groups.optionalField?_eq (h : Groups fields (s :: slots)) :
    Rendering.optionalField? fields s.snippet =
      match s with
      | word _ => none
      | field f => if f.isOptional then some (rendered f) else none := by
  cases s with
  | word w => rfl
  | field f =>
    simp only [Rendering.optionalField?, snippet, Snippet.soleField?, Option.bind_some,
      h.found f List.mem_cons_self, Option.filter_some]
    rfl

theorem Groups.quotes_eq (h : Groups fields (s :: slots)) : s.snippet.quotes = 0 := by
  cases s with
  | word w =>
    have lower := ((h.wordy _ List.mem_cons_self).lower w List.mem_cons_self).lower
    have none : '"' ∉ w := fun mem => absurd (lower _ mem) (by decide)
    simp [snippet, Snippet.quotes, Snippet.literalText, Part.literalText, List.count_eq_zero.2 none]
  | field f => rfl

theorem Groups.snippetSource_eq (h : Groups fields (s :: slots)) (required : s.isOptional = false) :
    Rendering.snippetSource fields s.snippet = s.source := by
  cases s with
  | word w => simp [snippet, Rendering.snippetSource, Rendering.partSource, source]
  | field f =>
    have required : (rendered f).isOptional = false := required
    simp [snippet, Rendering.snippetSource, Rendering.partSource, source,
      h.found f List.mem_cons_self, required]

/-- Behind the first required snippet. -/
def after : Rendering.Position :=
  { isFirst := false, inLead := false, inQuotes := false, spaced := false }

theorem Groups.joinOne_after (h : Groups fields (s :: slots)) :
    Rendering.joinOne fields after s.snippet =
      (if s.isOptional then "(?: " ++ s.source ++ ")?" else ' ' :: s.source, after) := by
  have terminal : s.snippet.isTerminal = false := by cases s <;> rfl
  cases s with
  | word w =>
    simp [Rendering.joinOne, h.optionalField?_eq, h.quotes_eq, h.snippetSource_eq rfl, after,
      terminal, isOptional]
  | field f =>
    by_cases optional : f.isOptional
    · simp [Rendering.joinOne, h.optionalField?_eq, h.quotes_eq, after, optional,
        isOptional, source]
    · have required : (field f).isOptional = false := by simpa [isOptional] using optional
      simp [Rendering.joinOne, h.optionalField?_eq, h.quotes_eq, h.snippetSource_eq required, after,
        optional, terminal, required]

/-- A position up to the first required snippet. What comes next stands there without a space. -/
structure AtLead (position : Rendering.Position) : Prop where
  inLead : position.inLead = true
  inQuotes : position.inQuotes = false
  glued : (position.isFirst || position.spaced) = true

theorem Groups.joinOne_lead (h : Groups fields (s :: slots)) {position : Rendering.Position}
    (lead : AtLead position) : Rendering.joinOne fields position s.snippet =
      if s.isOptional then ("(?:" ++ s.source ++ " )?",
        { isFirst := false, inLead := true, inQuotes := false, spaced := true })
      else (s.source, after) := by
  have terminal : s.snippet.isTerminal = false := by cases s <;> rfl
  have glued : position.isFirst = true ∨ position.spaced = true := by simpa using lead.glued
  cases s with
  | word w =>
    simp [Rendering.joinOne, h.optionalField?_eq, h.quotes_eq, h.snippetSource_eq rfl, after,
      lead.inQuotes, isOptional, glued, terminal]
  | field f =>
    by_cases optional : f.isOptional
    · simp [Rendering.joinOne, h.optionalField?_eq, h.quotes_eq, lead.inLead, lead.inQuotes,
        optional, isOptional, source, glued, terminal]
    · have required : (field f).isOptional = false := by simpa [isOptional] using optional
      simp [Rendering.joinOne, h.optionalField?_eq, h.quotes_eq, h.snippetSource_eq required, after,
        lead.inQuotes, optional, required, glued, terminal]

theorem Stands.append {t u : Text} (h : Stands t) (h' : Stands u) : Stands (t ++ u) := by
  cases t with
  | nil => exact h'
  | cons c t => exact ⟨h.question, h.brace⟩

theorem reads_space : Reads false [' '] [char ' '] :=
  .char rfl

theorem repeated_eq_optionally (rs : List Regex) :
    Regex.repeated (oneOf [branchOf rs]) 0 (some 1) true = optionally rs := by
  rw [Regex.repeated_one, Regex.oneOf_singleton, optionally]

/-- The text of slots behind the first required one. -/
theorem Groups.reads_join_after (h : Groups fields slots) :
    Reads false (Rendering.join fields after (slots.map snippet)) (slots.flatMap following) ∧
      Stands (Rendering.join fields after (slots.map snippet)) := by
  induction slots with
  | nil => exact ⟨.nil, by simp [Rendering.join], by simp [Rendering.join]⟩
  | cons s slots ih =>
    obtain ⟨rest, stands⟩ := ih h.tail
    have own : Reads false (' ' :: s.source) (char ' ' :: s.exprs) :=
      reads_space.append h.reads_source h.stands_source
    rw [List.map_cons, Rendering.join, h.joinOne_after, List.flatMap_cons, following]
    by_cases optional : s.isOptional
    · rw [if_pos optional, if_pos optional]
      have option := own.hasBranches.optional
      rw [repeated_eq_optionally] at option
      have text : ("(?: " : Text) ++ s.source ++ (")?" : Text) =
          ("(?:" : Text) ++ ' ' :: s.source ++ (")?" : Text) := by simp
      rw [text]
      exact ⟨option.append rest stands, Stands.append ⟨by simp, by simp⟩ stands⟩
    · rw [if_neg optional, if_neg optional]
      exact ⟨own.append rest stands, Stands.append ⟨by simp, by simp⟩ stands⟩

/-- The text of slots from the first one on. -/
theorem Groups.reads_join (h : Groups fields slots) {position : Rendering.Position}
    (lead : AtLead position) :
    Reads false (Rendering.join fields position (slots.map snippet)) (leading slots) ∧
      Stands (Rendering.join fields position (slots.map snippet)) := by
  induction slots generalizing position with
  | nil => exact ⟨.nil, by simp [Rendering.join], by simp [Rendering.join]⟩
  | cons s slots ih =>
    rw [List.map_cons, Rendering.join, h.joinOne_lead lead, leading]
    by_cases optional : s.isOptional
    · rw [if_pos optional, if_pos optional]
      have lead : AtLead { isFirst := false, inLead := true, inQuotes := false, spaced := true } :=
        ⟨rfl, rfl, rfl⟩
      obtain ⟨rest, stands⟩ := ih h.tail lead
      have option := (h.reads_source.append reads_space ⟨by simp, by simp⟩).hasBranches.optional
      rw [repeated_eq_optionally] at option
      have text : ("(?:" : Text) ++ s.source ++ (" )?" : Text) =
          ("(?:" : Text) ++ (s.source ++ [' ']) ++ (")?" : Text) := by simp
      rw [text]
      exact ⟨option.append rest stands, Stands.append ⟨by simp, by simp⟩ stands⟩
    · rw [if_neg optional, if_neg optional]
      obtain ⟨rest, stands⟩ := h.tail.reads_join_after
      exact ⟨h.reads_source.append rest stands, Stands.append h.stands_source stands⟩

/-! ## Edges -/

theorem ofChar_of_isLower {c : Char} (lower : c.isLower) : Edge.ofChar c = .word := by
  have all : Text.lowercaseLetters.all (Edge.ofChar · == .word) := by decide +kernel
  simpa using Text.of_isLower all lower

theorem edge_of_isLowerWord {w : Text} (word : w.IsLowerWord) (side : Side) :
    side.edge w = .word := by
  have not_backslash : ∀ c ∈ w, c ≠ '\\' := by
    rintro c mem rfl
    exact absurd (word.lower _ mem) (by decide)
  cases side with
  | leading =>
    obtain ⟨c, w, rfl⟩ := List.exists_cons_of_ne_nil word.ne_nil
    have lower := word.lower c List.mem_cons_self
    have ordinary := not_backslash c List.mem_cons_self
    change Edge.leading (c :: w) = .word
    unfold Edge.leading
    split <;> simp_all [ofChar_of_isLower]
  | trailing =>
    obtain ⟨w, c, rfl⟩ := List.eq_nil_or_concat w |>.resolve_left word.ne_nil
    have lower := word.lower c (by simp)
    have quantifier : Edge.isQuantifier c = false := by
      have all : Text.lowercaseLetters.all (!Edge.isQuantifier ·) := by decide
      simpa using Text.of_isLower all lower
    have last : Edge.ofLast (c :: w.reverse) = .word := by
      unfold Edge.ofLast
      split
      · rename_i eq
        obtain ⟨-, rest⟩ := List.cons.inj eq
        refine absurd rfl (not_backslash '\\' ?_)
        have mem : '\\' ∈ w.reverse := rest ▸ List.mem_cons_self
        simp [List.mem_reverse.1 mem]
      · rename_i eq
        obtain ⟨rfl, -⟩ := List.cons.inj eq
        exact ofChar_of_isLower lower
      · rename_i eq
        cases eq
    simp [Side.edge, Edge.trailing, quantifier, last]

theorem edge_rendered (wordy : (field f).IsWordy) (side : Side) :
    (rendered f).edge side = .word := by
  have all : Edge.ofAll side.edge f.alternatives = .word := by
    have nonempty : f.alternatives.isEmpty = false :=
      List.isEmpty_eq_false_iff.2 wordy.nonempty
    have every : f.alternatives.all (side.edge · == .word) = true := by
      rw [List.all_eq_true]
      intro w mem
      rw [edge_of_isLowerWord (wordy.lower w mem)]
      rfl
    simp [Edge.ofAll, nonempty, every]
  cases side <;> exact all

/-- At either end a row of slots with a required one has a word. -/
theorem Groups.outerEdge_eq (h : Groups fields slots)
    (required : ∃ s ∈ slots, s.isOptional = false) (side : Side) :
    Rendering.outerEdge fields side (slots.map snippet) = .word := by
  induction slots with
  | nil => simp at required
  | cons s slots ih =>
    have wordy := h.wordy s List.mem_cons_self
    cases s with
    | word w =>
      have edge := edge_of_isLowerWord (wordy.lower w List.mem_cons_self) side
      cases side <;>
        simp [snippet, Rendering.outerEdge, Side.inward, Rendering.partsEdge?, edge]
    | field f =>
      have edge := edge_rendered wordy side
      have found := h.found f List.mem_cons_self
      have single : side.inward [Part.field f.name] = [.field f.name] := by cases side <;> rfl
      rw [List.map_cons, snippet, Rendering.outerEdge, single, Rendering.partsEdge?, found]
      by_cases optional : f.isOptional
      · have rest := ih h.tail (by
          obtain ⟨s, mem, required⟩ := required
          rcases List.mem_cons.1 mem with rfl | mem
          · exact absurd (optional.symm.trans required) (by simp)
          · exact ⟨s, mem, required⟩)
        have optional : (rendered f).isOptional = true := optional
        simp [edge, optional, Rendering.partsEdge?, rest]
      · have required : (rendered f).isOptional = false := Bool.eq_false_iff.2 optional
        simp [edge, required]

/-- The pattern of a row of slots. -/
theorem Groups.reads_assemble (h : Groups fields slots)
    (required : ∃ s ∈ slots, s.isOptional = false) {kind : Kind} {p : Pattern}
    (assembled : Rendering.assemble kind (slots.map snippet) fields = .ok p) :
    Reads false p.source (row slots) := by
  have leading := h.outerEdge_eq required .leading
  have reversed : Groups fields slots.reverse :=
    ⟨fun s mem => h.wordy s (List.mem_reverse.1 mem),
      fun f mem => h.found f (List.mem_reverse.1 mem),
      fun f mem => h.reads f (List.mem_reverse.1 mem)⟩
  have trailing := reversed.outerEdge_eq (by simpa using required) .trailing
  rw [List.map_reverse] at trailing
  rw [Rendering.assemble] at assembled
  split at assembled
  · cases assembled
  · obtain rfl := Except.ok.inj assembled
    have lead : AtLead {} := ⟨rfl, rfl, rfl⟩
    obtain ⟨body, stands⟩ := h.reads_join lead
    have whole := (Reads.wordBoundary.append body stands).append Reads.wordBoundary
      ⟨by decide, by decide⟩
    dsimp only
    rw [leading, trailing]
    exact whole

end Slot

/-! ## Entries -/

variable {phrase : Phrase} {slots : List Slot}

theorem Compiler.renderedField_eq {nested : Kind → Pattern} {f : Field}
    (nonempty : f.alternatives ≠ []) : renderedField nested f = Slot.rendered f := by
  unfold renderedField Slot.rendered Field.alternatives
  split <;> rename_i eq <;> simp_all [Field.alternatives]

/-- The expression of a phrase that is written in words. -/
theorem Phrase.IsWritten.regex_eq (h : phrase.IsWritten slots) (wordy : ∀ s ∈ slots, s.IsWordy)
    (required : ∃ s ∈ slots, s.isOptional = false) {v : Vocabulary} {e : LexiconEntry}
    (describes : e.Describes v phrase) :
    e.regex = branchOf (Slot.row slots) ∧ e.exact = (branchOf (Slot.row slots)).whole.searcher := by
  obtain ⟨declared, placed, -, assembled⟩ := describes.renders
  rename_i fields nested
  obtain rfl := Option.some.inj (declared.symm.trans describes.declared)
  have groups : Slot.Groups (fields.map (Compiler.renderedField nested)) slots := by
    have found : ∀ f, Slot.field f ∈ slots →
        Rendering.find? (fields.map (Compiler.renderedField nested)) f.name =
          some (Slot.rendered f) := by
      intro f mem
      have distinct : ((fields.map (Compiler.renderedField nested)).map (·.name)).Nodup := by
        have names : (fields.map (Compiler.renderedField nested)).map (·.name) =
            fields.map (·.name) := by simp [Function.comp_def]
        rw [names, placed.map_name]
        exact placed.distinct
      have inside : Compiler.renderedField nested f ∈ fields.map (Compiler.renderedField nested) :=
        List.mem_map_of_mem (placed.mem_fields (h.fields f mem))
      have key := find?_key distinct inside
      rw [Compiler.renderedField_eq (wordy _ mem).nonempty] at key
      exact key
    refine ⟨wordy, found, fun f mem => ?_⟩
    have inside := h.fields f mem
    have isName : IsName f.name :=
      Template.isName_of_mem_placeholders (placed.mem_placeholders inside)
    exact Slot.reads_group isName (h.plain f inside).1 (h.plain f inside).2 (wordy _ mem)
  rw [h.template] at assembled
  have branches := (groups.reads_assemble required assembled).hasBranches
  constructor
  · have parsed := branches.parse? (Lexicon.parse_eq_ok describes.regex)
    rwa [Regex.oneOf_singleton] at parsed
  · obtain ⟨r, parsed, exact_eq⟩ := describes.exact
    have anchored := branches.anchored (Lexicon.parse_eq_ok parsed)
    rw [Regex.oneOf_singleton] at anchored
    rw [exact_eq, anchored]

end RulesText
