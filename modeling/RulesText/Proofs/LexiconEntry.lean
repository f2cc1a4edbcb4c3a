import RulesText.Proofs.Lexicon
import RulesText.Proofs.Pattern.Compiled

/-!
# What a lexicon keeps of its vocabulary

Every entry of a lexicon belongs to a phrase of the vocabulary: its pattern is the one that the
vocabulary determines, its expressions are read from that pattern, and its fields are the fields
of the phrase in template order.

A phrase may come with any hook. What holds of the trees that a hook answers with is up to the
hook, so a result on what is read back asks for it of all hooks in the vocabulary.

## Main definitions

* `LexiconEntry.Describes`: an entry belongs to a phrase.
* `Vocabulary.HooksKeep`: all hooks of a vocabulary have some property.
-/

namespace RulesText

open Compiler (Renders Placed)

/-- The entry belongs to the phrase of its kind in the vocabulary. -/
structure LexiconEntry.Describes (v : Vocabulary) (e : LexiconEntry) (phrase : Phrase) : Prop where
  declared : v.find? (·.kind == e.kind) = some phrase
  renders : Renders v e.kind e.pattern
  regex : Lexicon.parse e.kind Lexicon.patternLimit e.pattern.source = .ok e.regex
  search : e.search = e.regex.finder
  exact : ∃ r, Lexicon.parse e.kind Lexicon.patternLimit (Regex.anchored e.pattern.source) = .ok r ∧
    e.exact = r.searcher
  fields : ∃ fields, Placed phrase fields ∧
    List.Forall₂ (fun f g => Lexicon.buildField e.kind f = .ok g) fields e.fields
  reading : e.reading = phrase.reading

/-- Every hook of the vocabulary has the property `P` for the kind that it reads. -/
def Vocabulary.HooksKeep (v : Vocabulary) (P : Kind → Hook → Prop) : Prop :=
  ∀ phrase ∈ v, ∀ hook, phrase.reading.hook? = some hook → P phrase.kind hook

namespace Lexicon

variable {v : Vocabulary} {phrase : Phrase} {pattern : Pattern} {e : LexiconEntry} {l : Lexicon}

theorem parse_eq_ok {kind : Kind} {limit : Nat} {source : Text} {caseless : Bool} {r : Regex}
    (h : parse kind limit source caseless = .ok r) : Regex.parse? source caseless = some r := by
  rw [parse] at h
  split at h
  · split at h
    · rename_i found _
      exact found.trans (congrArg some (Except.ok.inj h))
    · cases h
  · cases h

theorem filterMap_of_map_eq {α β : Type} {f : α → Option β} {l : List α} {l' : List β}
    (h : l.map f = l'.map some) : l.filterMap f = l' := by
  simpa [List.filterMap_map, Function.comp_def] using congrArg (List.filterMap id) h

theorem describes_of_buildEntry (declared : v.find? (·.kind == phrase.kind) = some phrase)
    (renders : Renders v phrase.kind pattern) (h : buildEntry phrase pattern = .ok e) :
    e.Describes v phrase := by
  simp only [buildEntry, bind_eq_ok] at h
  obtain ⟨regex, parsed, exact, parsed_exact, fields, built, h⟩ := h
  obtain rfl := Except.ok.inj h
  obtain ⟨_, placedFields, declared', placed, names⟩ := renders.placed
  obtain rfl := Option.some.inj (declared.symm.trans declared')
  rw [names, filterMap_of_map_eq placed.found] at built
  constructor
  all_goals simp only [LexiconEntry.kind, renders.kind_eq]
  · exact declared
  · exact renders
  · exact parsed
  · exact ⟨exact, parsed_exact, rfl⟩
  · exact ⟨placedFields, placed, mapM_eq_ok.1 built⟩

theorem describes_of_buildEntries {c : Compiler} (eq : c.vocabulary = v)
    (all : ∀ p ∈ c.rendered, Renders v p.kind p) {phrases : List Phrase}
    (declared : ∀ phrase ∈ phrases, v.find? (·.kind == phrase.kind) = some phrase)
    {entries : List LexiconEntry} (h : buildEntries c phrases = .ok entries) :
    List.Forall₂ (fun e phrase => e.Describes v phrase) entries phrases := by
  induction phrases generalizing c entries with
  | nil =>
    obtain rfl := Except.ok.inj h
    exact .nil
  | cons phrase phrases ih =>
    simp only [buildEntries, bind_eq_ok] at h
    obtain ⟨pattern, compiled, entry, built, rest, later, h⟩ := h
    obtain rfl := Except.ok.inj h
    subst eq
    obtain ⟨same, all', renders⟩ := Compiler.renders_compile all phrase.kind
    have first := declared phrase List.mem_cons_self
    refine .cons (describes_of_buildEntry first (renders pattern compiled) built) ?_
    exact ih same all' (fun other mem => declared other (List.mem_cons_of_mem _ mem)) later

/-- The entries of a lexicon belong to the phrases of its vocabulary, in their order. -/
theorem describes_of_build (h : build v = .ok l) :
    List.Forall₂ (fun e phrase => e.Describes v phrase) l.entries v := by
  simp only [build, bind_eq_ok] at h
  obtain ⟨compiler, new, entries, built, h⟩ := h
  obtain rfl := Except.ok.inj h
  have fresh : compiler = { vocabulary := v } := by
    rw [Compiler.new] at new
    split at new
    · cases new
    · exact (Except.ok.inj new).symm
  subst fresh
  exact describes_of_buildEntries rfl (by simp) (fun phrase mem => Compiler.find?_of_new new mem)
    built

theorem of_buildField {kind : Kind} {f : Field} {g : LexiconField}
    (h : buildField kind f = .ok g) :
    g.name = f.name ∧ g.kind = f.kind ∧ memberPatterns kind f = .ok g.members := by
  obtain ⟨members, built, h⟩ := bind_eq_ok.1 h
  obtain rfl := Except.ok.inj h
  exact ⟨rfl, rfl, built⟩

theorem exists_describes (h : build v = .ok l) (mem : e ∈ l.entries) :
    ∃ phrase, e.Describes v phrase := by
  obtain ⟨phrase, -, describes⟩ := exists_of_forall₂ (describes_of_build h) mem
  exact ⟨phrase, describes⟩

/-- The kinds of a lexicon are those of its vocabulary. -/
theorem map_kind_of_build (h : build v = .ok l) :
    l.entries.map (·.kind) = v.map (·.kind) := by
  refine List.forall₂_eq_eq_eq ▸ List.forall₂_map_left_iff.2 (List.forall₂_map_right_iff.2 ?_)
  exact (describes_of_build h).imp fun e phrase describes =>
    (Compiler.kind_of_find? describes.declared).symm

theorem nodup_of_build (h : build v = .ok l) : (l.entries.map (·.kind)).Nodup := by
  rw [map_kind_of_build h]
  obtain ⟨compiler, new, -⟩ := bind_eq_ok.1 h
  rw [Compiler.new] at new
  split at new
  · cases new
  · rename_i none
    exact (Compiler.nodup_of_repeatedKind? none).1

/-- Every entry is found by its kind. -/
theorem find?_of_build (h : build v = .ok l) (mem : e ∈ l.entries) : l.find? e.kind = some e :=
  find?_key (nodup_of_build h) mem

/-- Every phrase of the vocabulary has an entry. -/
theorem exists_entry (h : build v = .ok l) (mem : phrase ∈ v) :
    ∃ e, l.find? phrase.kind = some e ∧ e.Describes v phrase := by
  obtain ⟨e, inside, describes⟩ := exists_of_forall₂ (describes_of_build h).flip mem
  rw [Compiler.kind_of_find? describes.declared]
  exact ⟨e, find?_of_build h inside, describes⟩

end Lexicon

namespace LexiconEntry.Describes

variable {v : Vocabulary} {phrase : Phrase} {e : LexiconEntry}

/-- The fields of an entry have the names of the placeholders. -/
theorem map_name (h : e.Describes v phrase) : e.fields.map (·.name) = phrase.placeholders := by
  obtain ⟨fields, placed, built⟩ := h.fields
  rw [← placed.map_name]
  refine List.forall₂_eq_eq_eq ▸ List.forall₂_map_left_iff.2 (List.forall₂_map_right_iff.2 ?_)
  exact built.flip.imp fun g f same => (Lexicon.of_buildField same).1

/-- A field of an entry is one of the phrase. -/
theorem field?_eq (h : e.Describes v phrase) {g : LexiconField} (mem : g ∈ e.fields) :
    ∃ f, phrase.field? g.name = some f ∧ Lexicon.buildField e.kind f = .ok g := by
  obtain ⟨fields, placed, built⟩ := h.fields
  obtain ⟨f, mem, same⟩ := exists_of_forall₂ built.flip mem
  refine ⟨f, ?_, same⟩
  have found : some f ∈ phrase.placeholders.map phrase.field? :=
    placed.found ▸ List.mem_map_of_mem mem
  obtain ⟨name, -, found⟩ := List.mem_map.1 found
  rwa [(Lexicon.of_buildField same).1, Compiler.name_of_field? found]

/-- Every declared field is a field of the entry. -/
theorem exists_field (h : e.Describes v phrase) {f : Field} (mem : f ∈ phrase.fields) :
    ∃ g ∈ e.fields, Lexicon.buildField e.kind f = .ok g := by
  obtain ⟨fields, placed, built⟩ := h.fields
  exact exists_of_forall₂ built (placed.mem_fields mem)

/-- The hook of an entry is one of the vocabulary. -/
theorem keeps {P : Kind → Hook → Prop} {hook : Hook} (h : e.Describes v phrase)
    (hooks : v.HooksKeep P) (reads : e.reading.hook? = some hook) : P e.kind hook := by
  rw [← Compiler.kind_of_find? h.declared]
  exact hooks phrase (List.mem_of_find?_eq_some h.declared) hook (h.reading ▸ reads)

end LexiconEntry.Describes

/-- Where the only hook is the one for loyalty costs, it is the only one to ask. -/
theorem Vocabulary.HooksKeep.of_loyaltyCost {v : Vocabulary} {P : Kind → Hook → Prop}
    (only : ∀ phrase ∈ v, ∀ hook, phrase.reading ≠ .hook hook)
    (keeps : ∀ kind, P kind LoyaltyCost.readBack) : v.HooksKeep P := by
  intro phrase mem hook reads
  cases reading : phrase.reading with
  | fields =>
    rw [reading] at reads
    cases reads
  | loyaltyCost =>
    rw [reading] at reads
    obtain rfl := Option.some.inj reads
    exact keeps phrase.kind
  | hook read => exact absurd reading (only phrase mem read)

end RulesText
