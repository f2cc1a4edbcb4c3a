import RulesText.Proofs.Pattern.Spelling
import RulesText.Proofs.Tokenizer.Tokenization

/-!
# Lines that are spelled from a template

A phrase that is written in words and placeholders for words takes every line that is spelled
from its template, as one token, and reads from it the words that it was spelled with: each field
has the word of its slot and the span of that word.

## Main definitions

* `Field.Holds`: what a tree holds for a field in whose slot a word stands, or none.
* `Filling.readings`: the fields of a filling, each with the span of its word.

## Main statements

* `Tokenizer.tokenize_line`: spelling a line and reading it back.
-/

namespace RulesText

open Regex (branchOf)

/-- What a field reads, where its word, if there is one, begins at `start`. -/
def Field.reading? (f : Field) (start : Nat) (word? : Option Text) : Option CaptureField :=
  let span? := word?.map fun w => Span.mk start (start + Text.byteSize w)
  match f.kind, word? with
  | .flag _, _ => some { name := f.name, value := .flag word?.isSome, span? }
  | .choice family, some w =>
    let index := family.sources.idxOf w
    family.members[index]?.map fun m =>
      { name := f.name, value := .choice family.name m.name index, span? }
  | .words _, some w => some { name := f.name, value := .text w, span? }
  | _, _ => none

/-- What a tree holds for a field, where its word, if there is one, begins at `start`. -/
inductive Field.Holds (f : Field) (start : Nat) : Option Text → Option CaptureField → Prop
  | unset {alternatives} (kind : f.kind = .flag alternatives) :
    Holds f start none (some { name := f.name, value := .flag false, span? := none })
  | absent (kind : ∀ alternatives, f.kind ≠ .flag alternatives) : Holds f start none none
  | set {alternatives w} (kind : f.kind = .flag alternatives) :
    Holds f start (some w) (some
      { name := f.name, value := .flag true, span? := some ⟨start, start + Text.byteSize w⟩ })
  | member {family m i w} (kind : f.kind = .choice family) (found : family.members[i]? = some m)
    (source : m.source = w) : Holds f start (some w) (some
      { name := f.name, value := .choice family.name m.name i
        span? := some ⟨start, start + Text.byteSize w⟩ })
  | words {alternatives w} (kind : f.kind = .words alternatives) :
    Holds f start (some w) (some
      { name := f.name, value := .text w, span? := some ⟨start, start + Text.byteSize w⟩ })

namespace Slot

def field? : Slot → Option Field
  | word _ => none
  | field f => some f

end Slot

namespace Filling

/-- Where the next word begins. Words are one space apart. -/
def nextStart (start : Nat) : Option Text → Nat
  | none => start
  | some w => start + Text.byteSize w + 1

/-- The fields of a filling in order, where the first word begins at `start`. -/
def readings : Nat → Filling → List CaptureField
  | _, [] => []
  | start, (s, w?) :: filled =>
    (s.field?.bind (·.reading? start w?)).toList ++ readings (nextStart start w?) filled

/-- The fields of the slots. -/
def slotFields (filled : Filling) : List Field :=
  filled.flatMap (·.1.field?.toList)

variable {filled : Filling} {s : Slot} {w : Text} {start : Nat} {f : Field} {span : Span}

/-! ## Groups -/

theorem name?_eq (s : Slot) : s.name? = s.field?.map (·.name) := by
  cases s <;> rfl

theorem name_of_mem_captured {p : Text × Span} (mem : p ∈ filled.captured start) :
    p.1 ∈ filled.slotFields.map (·.name) := by
  induction filled generalizing start with
  | nil => cases mem
  | cons q filled ih =>
    obtain ⟨s, w?⟩ := q
    change p.1 ∈ (s.field?.toList ++ slotFields filled).map (·.name)
    rw [List.map_append, List.mem_append]
    cases w? with
    | none => exact .inr (ih mem)
    | some w =>
      rw [captured, name?_eq, List.mem_append] at mem
      refine mem.imp (fun mem => ?_) fun mem => ih mem
      cases own : s.field? with
      | none => simp [own] at mem
      | some f => simp_all

theorem nodup_captured (distinct : (filled.slotFields.map (·.name)).Nodup) :
    ((filled.captured start).map (·.1)).Nodup := by
  induction filled generalizing start with
  | nil => exact .nil
  | cons q filled ih =>
    obtain ⟨s, w?⟩ := q
    change ((s.field?.toList ++ slotFields filled).map (·.name)).Nodup at distinct
    rw [List.map_append, List.nodup_append] at distinct
    obtain ⟨-, later, fresh⟩ := distinct
    cases w? with
    | none => exact ih later
    | some w =>
      rw [captured, name?_eq, List.map_append, List.nodup_append]
      refine ⟨by cases s.field? <;> simp, ih later, ?_⟩
      rintro name mem _ mem' rfl
      obtain ⟨p, inside, rfl⟩ := List.mem_map.1 mem'
      refine fresh p.1 ?_ _ (name_of_mem_captured inside) rfl
      cases own : s.field? with
      | none => simp [own] at mem
      | some f => simp_all

/-- With different keys, it makes no difference from which end one looks. -/
theorem lookup_reverse {α : Type} {l : List (Text × α)} (distinct : (l.map (·.1)).Nodup)
    (k : Text) : l.reverse.lookup k = l.lookup k := by
  induction l with
  | nil => rfl
  | cons p l ih =>
    obtain ⟨name, a⟩ := p
    obtain ⟨fresh, distinct⟩ := List.nodup_cons.1 distinct
    rw [List.reverse_cons, List.lookup_append, ih distinct]
    by_cases eq : k = name
    · subst eq
      have none : l.lookup k = none := by
        rw [List.lookup_eq_none_iff]
        intro q mem
        rw [bne_iff_ne]
        rintro rfl
        exact fresh (List.mem_map.2 ⟨q, mem, rfl⟩)
      rw [none, Option.none_or, List.lookup_cons, List.lookup_cons, beq_self_eq_true]
    · have other : (k == name) = false := beq_eq_false_iff_ne.2 eq
      rw [List.lookup_cons, List.lookup_cons, other]
      simp

/-! ## Members -/

/-- A lowercase word is read as the member that it is. -/
theorem findIdx_members {kind : Kind} {family : Family} {members : List MemberPattern}
    (choice : f.kind = .choice family) (plural : f.isPlural = false)
    (lower : ∀ a ∈ family.sources, a.IsLowerWord) (word : w.IsLowerWord)
    (built : Lexicon.memberPatterns kind f = .ok members) :
    members.findIdx (·.searcher.occursIn w) = family.sources.idxOf w := by
  have all := Lexicon.forall₂_memberPatterns built choice
  unfold Family.sources at lower ⊢
  generalize family.members = ms at all lower
  clear built
  induction all with
  | nil => rfl
  | cons first rest ih =>
    rename_i m p ms ps
    obtain ⟨own, lower⟩ := List.forall_mem_cons.1 lower
    obtain ⟨source, r, parsed, searcher⟩ := first
    have plain : p.source = Regex.anchored m.source := by
      simp [source, Lexicon.memberSource, plural]
    have same := Regex.occursIn_anchored_word own word (plain ▸ parsed)
    have here : p.searcher.occursIn w = (m.source == w) := by
      rw [Bool.eq_iff_iff, searcher, same, beq_iff_eq]
    rw [List.map_cons, List.idxOf_cons, List.findIdx_cons, ih lower, here]

/-! ## Reading fields -/

/-- What is expected of a field of a lexicon: it was built from a field that words can stand in. -/
structure Built (kind : Kind) (f : Field) (g : LexiconField) : Prop where
  field : Lexicon.buildField kind f = .ok g
  plural : f.isPlural = false
  wordy : (Slot.field f).IsWordy

variable {kind : Kind} {g : LexiconField} {nested : Kind → Span → Except Fault Capture}
  {text : Text} {m : Match} {w? : Option Text}

/-- A field reads the word of its slot. -/
theorem readField_eq (built : Built kind f g) (fits : (Slot.field f).Fits w?)
    (slice : ∀ w ∈ w?, Text.slice text ⟨start, start + Text.byteSize w⟩ = w) :
    Lexicon.readField nested text 0 g (w?.map fun w => ⟨start, start + Text.byteSize w⟩) =
      .ok ((f.reading? start w?).map (·, none)) := by
  obtain ⟨name, same, members⟩ := Lexicon.of_buildField built.field
  have shift : ∀ s : Span, s.shift 0 = s := fun s => by simp [Span.shift]
  have nonempty : f.alternatives ≠ [] := built.wordy.nonempty
  have lower : ∀ a ∈ f.alternatives, a.IsLowerWord := built.wordy.lower
  rw [Lexicon.readField.eq_def, same, name]
  cases kind_eq : f.kind with
  | flag alternatives =>
    cases w? <;> simp [Field.reading?, kind_eq, shift]
  | words alternatives =>
    cases w? with
    | none => simp [Field.reading?, kind_eq]
    | some w => simp [Field.reading?, kind_eq, shift, slice w rfl]
  | nested other => simp [Field.alternatives, kind_eq] at nonempty
  | choice family =>
    cases w? with
    | none => simp [Field.reading?, kind_eq]
    | some w =>
      have sources : f.alternatives = family.sources := by simp [Field.alternatives, kind_eq]
      have mem : w ∈ f.alternatives := fits
      have found := findIdx_members kind_eq built.plural (sources ▸ lower) (lower w mem) members
      have bound : family.sources.idxOf w < family.members.length := by
        have := List.idxOf_lt_length_of_mem (sources ▸ mem)
        rwa [Family.sources, List.length_map] at this
      simp only [Option.map_some, slice w rfl, found, Field.reading?, kind_eq,
        List.getElem?_eq_getElem bound, shift]

/-- A tree holds for a field what stands in its slot. -/
theorem holds_reading? (fits : (Slot.field f).Fits w?) (start : Nat) :
    f.Holds start w? (f.reading? start w?) := by
  unfold Field.reading?
  cases w? with
  | none =>
    cases kind : f.kind with
    | flag alternatives => exact .unset kind
    | choice family => exact .absent (by simp [kind])
    | words alternatives => exact .absent (by simp [kind])
    | nested other => exact .absent (by simp [kind])
  | some w =>
    have mem : w ∈ f.alternatives := fits
    cases kind : f.kind with
    | flag alternatives => exact .set kind
    | words alternatives => exact .words kind
    | nested other => simp [Field.alternatives, kind] at mem
    | choice family =>
      have mem : w ∈ family.sources := by simpa [Field.alternatives, kind] using mem
      have bound := List.idxOf_lt_length_of_mem mem
      have inside : family.sources.idxOf w < family.members.length := by
        rwa [Family.sources, List.length_map] at bound
      have found := List.getElem?_eq_getElem inside
      have source : family.members[family.sources.idxOf w].source = w := by
        rw [← List.getElem_map Member.source (h := by rwa [List.length_map])]
        exact List.getElem_idxOf bound
      dsimp only
      rw [found]
      exact .member kind found source

/-- From some place on, the text goes on with the words of the filling. -/
def Spells (text : Text) (start : Nat) (filled : Filling) : Prop :=
  filled.words ≠ [] → ∃ before, text = before ++ filled.line ∧ Text.byteSize before = start

theorem Spells.slice (spells : Spells text start ((s, some w) :: filled)) :
    Text.slice? text ⟨start, start + Text.byteSize w⟩ = some w := by
  obtain ⟨before, rfl, rfl⟩ := spells (by simp [words])
  have whole : line ((s, some w) :: filled) = w ++ behind filled := unwords_cons_eq w _
  exact Text.slice?_eq_some_iff.2 ⟨before, behind filled, by rw [whole, List.append_assoc], rfl⟩

theorem Spells.tail (spells : Spells text start ((s, w?) :: filled)) :
    Spells text (nextStart start w?) filled := by
  cases w? with
  | none => exact spells
  | some w =>
    intro more
    obtain ⟨before, rfl, rfl⟩ := spells (by simp [words])
    obtain ⟨v, vs, eq⟩ := List.exists_cons_of_ne_nil more
    have whole : line ((s, some w) :: filled) = w ++ ' ' :: line filled := by
      change Text.unwords (w :: words filled) = w ++ ' ' :: Text.unwords (words filled)
      rw [eq, Text.unwords_cons]
    refine ⟨before ++ w ++ [' '], by simp [whole], ?_⟩
    rw [Text.byteSize_append, Text.byteSize_append]
    rfl

theorem readFields_eq {gs : List LexiconField} (fits : ∀ p ∈ filled, p.1.Fits p.2)
    (built : List.Forall₂ (Built kind) filled.slotFields gs)
    (distinct : (filled.slotFields.map (·.name)).Nodup)
    (groups : ∀ f ∈ filled.slotFields, m.group? f.name = (filled.captured start).lookup f.name)
    (spells : Spells text start filled) :
    Lexicon.readFields nested text 0 m gs = .ok ((filled.readings start).map (·, none)) := by
  induction filled generalizing start gs with
  | nil =>
    cases built
    rfl
  | cons q filled ih =>
    obtain ⟨s, w?⟩ := q
    have rest_fits := (List.forall_mem_cons.1 fits).2
    cases s with
    | word a =>
      refine ih rest_fits built distinct (fun f mem => ?_) spells.tail
      rw [groups f mem]
      cases w? <;> rfl
    | field f =>
      cases built with
      | cons first others =>
        rename_i g gs
        obtain ⟨fresh, distinct⟩ := List.nodup_cons.1 (show
          (f.name :: (slotFields filled).map (·.name)).Nodup from distinct)
        have name : g.name = f.name := (Lexicon.of_buildField first.field).1
        have group : m.group? g.name =
            w?.map fun w => ⟨start, start + Text.byteSize w⟩ := by
          rw [name, groups f List.mem_cons_self]
          cases w? with
          | none =>
            change (captured start filled).lookup f.name = none
            rw [List.lookup_eq_none_iff]
            intro p mem
            rw [bne_iff_ne]
            intro same
            exact fresh (same ▸ name_of_mem_captured mem)
          | some w => simp [captured, Slot.name?]
        have own : Lexicon.readField nested text 0 g (m.group? g.name) =
            .ok ((f.reading? start w?).map (·, none)) := by
          rw [group]
          refine readField_eq first (List.forall_mem_cons.1 fits).1 fun w mem => ?_
          obtain rfl : w? = some w := mem
          exact Text.slice_eq spells.slice
        have rest := ih rest_fits others distinct (fun f' mem => by
          rw [groups f' (List.mem_cons_of_mem _ mem)]
          cases w? with
          | none => rfl
          | some w =>
            have other : (f'.name == f.name) = false :=
              beq_eq_false_iff_ne.2 fun eq => fresh (eq ▸ List.mem_map_of_mem mem)
            simp [captured, Slot.name?, nextStart, List.lookup_cons, other]) spells.tail
        rw [Lexicon.readFields, own, rest]
        cases eq : f.reading? start w? <;> simp [readings, Slot.field?, eq] <;> rfl

theorem name_of_reading? {r : CaptureField} (read : f.reading? start w? = some r) :
    r.name = f.name := by
  unfold Field.reading? at read
  dsimp only at read
  split at read
  · obtain rfl := Option.some.inj read
    rfl
  · obtain ⟨member, -, rfl⟩ := Option.map_eq_some_iff.1 read
    rfl
  · obtain rfl := Option.some.inj read
    rfl
  · cases read

theorem name_of_mem_readings {r : CaptureField} (mem : r ∈ filled.readings start) :
    r.name ∈ filled.slotFields.map (·.name) := by
  induction filled generalizing start with
  | nil => cases mem
  | cons q filled ih =>
    obtain ⟨s, w?⟩ := q
    change r.name ∈ (s.field?.toList ++ slotFields filled).map (·.name)
    rw [readings, List.mem_append] at mem
    rw [List.map_append, List.mem_append]
    refine mem.imp (fun mem => ?_) fun mem => ih mem
    cases own : s.field? with
    | none => simp [own] at mem
    | some f =>
      have read : f.reading? start w? = some r := by simpa [own] using mem
      simp [name_of_reading? read]

/-- Every field of the slots reads the word of its slot, with the span of that word. -/
theorem find?_readings (distinct : (filled.slotFields.map (·.name)).Nodup)
    (spells : Spells text start filled) (mem : f ∈ filled.slotFields) :
    ∃ at_ w?, (Slot.field f, w?) ∈ filled ∧
      (filled.readings start).find? (·.name == f.name) = f.reading? at_ w? ∧
      ∀ w ∈ w?, Text.slice? text ⟨at_, at_ + Text.byteSize w⟩ = some w := by
  induction filled generalizing start with
  | nil => cases mem
  | cons q filled ih =>
    obtain ⟨s, w?⟩ := q
    cases s with
    | word a =>
      obtain ⟨at_, v?, inside, found, slice⟩ := ih distinct spells.tail mem
      exact ⟨at_, v?, List.mem_cons_of_mem _ inside, found, slice⟩
    | field f' =>
      obtain ⟨fresh, distinct⟩ := List.nodup_cons.1 (show
        (f'.name :: (slotFields filled).map (·.name)).Nodup from distinct)
      have whole : readings start ((.field f', w?) :: filled) =
        (f'.reading? start w?).toList ++ readings (nextStart start w?) filled := rfl
      rcases List.mem_cons.1 (show f ∈ f' :: slotFields filled from mem) with rfl | mem
      · refine ⟨start, w?, List.mem_cons_self, ?_, fun w mem => ?_⟩
        · rw [whole]
          cases read : f.reading? start w? with
          | none =>
            refine List.find?_eq_none.2 fun r mem same => fresh ?_
            have name : r.name = f.name := by simpa using same
            exact name ▸ name_of_mem_readings mem
          | some r => simp [name_of_reading? read]
        · obtain rfl : w? = some w := mem
          exact spells.slice
      · obtain ⟨at_, v?, inside, found, slice⟩ := ih distinct spells.tail mem
        refine ⟨at_, v?, List.mem_cons_of_mem _ inside, ?_, slice⟩
        have other : f'.name ≠ f.name := fun eq => fresh (eq ▸ List.mem_map_of_mem mem)
        rw [whole, ← found, List.find?_append]
        cases read : f'.reading? start w? with
        | none => rfl
        | some r => simp [name_of_reading? read, other]

end Filling

/-! ## Reading a line back -/

namespace Lexicon

/-- Without nested phrases the tree has the fields as they were read. -/
theorem assembleTree_eq (kind : Kind) (span : Span) (fields : List CaptureField) :
    assembleTree kind span (fields.map (·, none)) = { kind, span, fields } := by
  have trees : sortedTrees (fields.map (·, none)) = [] := by
    rw [List.eq_nil_iff_forall_not_mem]
    rintro ⟨place, tree⟩ mem
    obtain ⟨f, eq⟩ := mem_sortedTrees.1 mem
    obtain ⟨f', -, eq⟩ := List.mem_map.1 (List.mem_of_getElem? eq)
    cases eq
  rw [assembleTree, trees, List.zipIdx_map, List.map_map]
  have same : fields.zipIdx.map Prod.fst = fields := List.zipIdx_map_fst ..
  congr 1

end Lexicon

namespace Tokenizer

variable {phrase : Phrase} {filled : Filling} {priority : List Kind} {t : Tokenizer}

/-- The only phrase of a lexicon is tried. -/
theorem findSome?_order {α : Type} {e : LexiconEntry} (h : ofVocabulary [phrase] priority = .ok t)
    (single : t.lexicon.entries = [e]) (claims : LexiconEntry → Option α) :
    t.order.findSome? claims = claims e := by
  have all : ∀ other ∈ t.order, other = e := by
    intro other mem
    have inside := (entry_of_ofVocabulary h other mem).1
    rw [single] at inside
    exact List.mem_singleton.1 inside
  obtain ⟨l, -, new⟩ := bind_eq_ok.1 h
  obtain ⟨rfl, -⟩ := mem_of_new new
  obtain ⟨other, mem, -⟩ := exists_mem_order new (single ▸ List.mem_singleton_self e)
  obtain ⟨first, others, order⟩ := List.exists_cons_of_ne_nil (List.ne_nil_of_mem mem)
  rw [order, all first (order ▸ List.mem_cons_self)]
  cases claimed : claims e with
  | some a => rw [List.findSome?_cons, claimed]
  | none =>
    rw [List.findSome?_eq_none_iff]
    intro other mem
    rcases List.mem_cons.1 mem with rfl | mem
    · exact claimed
    · rw [all other (order ▸ List.mem_cons_of_mem _ mem), claimed]

/-- The entry of a phrase that is written in words, and how one line is spelled from it. -/
structure Spelled (phrase : Phrase) (filled : Filling) (v : Vocabulary) (e : LexiconEntry) :
    Prop where
  describes : e.Describes v phrase
  written : phrase.IsWritten (filled.map (·.1))
  wordy : filled.IsWordy
  required : ∃ p ∈ filled, p.1.isOptional = false

namespace Spelled

variable {v : Vocabulary} {e : LexiconEntry} {l : Lexicon} (h : Spelled phrase filled v e)

theorem spells (filled : Filling) : filled.Spells filled.line 0 :=
  fun _ => ⟨[], rfl, rfl⟩

theorem next?_past (line : Text) : ((Cursor.start line).past line).next? = none :=
  Cursor.next?_eq_none_iff.2 (Cursor.ahead_past (List.append_nil _).symm)

include h

theorem slots_wordy : ∀ s ∈ filled.map (·.1), s.IsWordy := by
  intro s mem
  obtain ⟨p, inside, rfl⟩ := List.mem_map.1 mem
  exact ⟨h.wordy.nonempty p inside, h.wordy.lower p inside⟩

theorem mem_fields {f : Field} (mem : f ∈ filled.slotFields) :
    f ∈ phrase.fields ∧ (Slot.field f).IsWordy := by
  obtain ⟨⟨s, w?⟩, mem, own⟩ := List.mem_flatMap.1 mem
  have inside : s ∈ filled.map (·.1) := List.mem_map_of_mem mem
  cases s with
  | word w => cases own
  | field g =>
    obtain rfl := List.mem_singleton.1 own
    exact ⟨h.written.fields f inside, h.slots_wordy _ inside⟩

theorem placeholders_eq : phrase.placeholders = filled.slotFields.map (·.name) := by
  have template : Template.parse phrase.template = (filled.map (·.1)).map Slot.snippet :=
    h.written.template
  rw [Phrase.placeholders, template, Template.placeholders, List.map_map, List.flatMap_map,
    Filling.slotFields, List.map_flatMap]
  congr 1
  funext ⟨s, w?⟩
  cases s <;> rfl

/-- The fields of the entry are those of the slots. -/
theorem built : List.Forall₂ (Filling.Built e.kind) filled.slotFields e.fields := by
  obtain ⟨fields, placed, built⟩ := h.describes.fields
  have same : filled.slotFields = fields := by
    have found : filled.slotFields.map some = fields.map some := by
      rw [← placed.found, h.placeholders_eq, List.map_map]
      refine List.map_congr_left fun f mem => ?_
      exact (placed.field?_name (h.mem_fields mem).1).symm
    exact List.map_injective_iff.2 (fun _ _ => Option.some.inj) found
  rw [← same] at built
  refine ((List.forall₂_and_left _ _).2 ⟨fun f mem => h.mem_fields mem, built⟩).imp ?_
  rintro f g ⟨⟨mem, wordy⟩, built⟩
  exact ⟨built, (h.written.plain f mem).1, wordy⟩

theorem distinct : (filled.slotFields.map (·.name)).Nodup := by
  obtain ⟨fields, placed, -⟩ := h.describes.fields
  exact h.placeholders_eq ▸ placed.distinct

theorem mem_slotFields {f : Field} (mem : f ∈ phrase.fields) : f ∈ filled.slotFields := by
  obtain ⟨fields, placed, -⟩ := h.describes.fields
  have name := placed.mem_placeholders mem
  rw [h.placeholders_eq] at name
  obtain ⟨g, inside, same⟩ := List.mem_map.1 name
  have own := placed.field?_name (h.mem_fields inside).1
  rw [same, placed.field?_name mem] at own
  exact Option.some.inj own ▸ inside

/-- The place behind the line. -/
theorem stop_led : (filled.led { stop := .start filled.line }).stop =
    (Cursor.start filled.line).past filled.line :=
  Filling.stop_led h.wordy h.required _

/-- The phrase takes the whole line. -/
theorem claim?_eq : claim? (.start filled.line) e =
    some (.kind e.kind, (Cursor.start filled.line).past filled.line) := by
  obtain ⟨regex, -⟩ := h.written.regex_eq h.slots_wordy (by simpa using h.required) h.describes
  refine claim?_eq_some_iff.2 ⟨?_, ?_, rfl⟩
  · rw [h.describes.search, Regex.stopAt?_finder (regex ▸ Slot.looksInLoop_row _), regex,
      Regex.matchAt?_eq_head? (Slot.isSteady_row _) (Cursor.isPlace_start _),
      Filling.head?_row h.wordy h.required, Option.map_some, h.stop_led]
  · obtain ⟨x, rest, eq, -⟩ := h.wordy.exists_line h.required
    have positive := x.utf8Size_pos
    change 0 < 0 + Text.byteSize filled.line
    rw [eq, Text.byteSize_cons]
    omega

/-- What is matched of the line as a whole. -/
theorem find?_exact : e.exact.find? filled.line =
    some (filled.led { stop := .start filled.line }) := by
  obtain ⟨-, exact_eq⟩ := h.written.regex_eq h.slots_wordy (by simpa using h.required) h.describes
  have atEnd : (filled.led { stop := .start filled.line }).stop.atEnd = true := by
    rw [h.stop_led, Cursor.atEnd, Cursor.next?_eq_none_iff.1 (next?_past filled.line)]
    rfl
  rw [exact_eq]
  refine Regex.find?_eq_some_of_head? (Regex.isSteady_whole (Slot.isSteady_row _)) ?_
  rw [Regex.ways_whole]
  have head := Filling.head?_row h.wordy h.required
  cases ways : (branchOf (Slot.row (filled.map (·.1)))).ways { stop := .start filled.line } with
  | nil => simp [ways] at head
  | cons first others =>
    rw [ways] at head
    obtain rfl := Option.some.inj head
    simp [atEnd]

theorem group?_led {f : Field} : (filled.led { stop := .start filled.line }).group? f.name =
    (filled.captured 0).lookup f.name := by
  rw [Match.group?, Filling.groups_led, List.append_nil]
  exact Filling.lookup_reverse (Filling.nodup_captured h.distinct) f.name

/-- The line is read back as the words that it was spelled with. -/
theorem readBack_eq (find : l.find? e.kind = some e) :
    l.readBack e.kind filled.line ⟨0, Text.byteSize filled.line⟩ =
      .ok { kind := e.kind
            span := ⟨0, Text.byteSize filled.line⟩
            fields := filled.readings 0 } := by
  have whole := Text.slice_eq (Text.slice?_self filled.line)
  refine Lexicon.readWithin_eq_ok.2 ⟨e, find, .inr ⟨h.describes.reading.trans h.written.reading,
    filled.led { stop := .start filled.line }, (filled.readings 0).map (·, none), ?_⟩⟩
  rw [whole]
  refine ⟨h.find?_exact, ?_, Lexicon.assembleTree_eq ..⟩
  exact Filling.readFields_eq h.wordy.fits h.built h.distinct (fun _ _ => h.group?_led)
    (spells filled)

/-- The line is one token of the tokenizer that has this phrase only. -/
theorem tokenize_eq (accepted : ofVocabulary [phrase] priority = .ok t)
    (single : t.lexicon.entries = [e]) :
    t.tokenize filled.line = [⟨.kind e.kind, 0, Text.byteSize filled.line⟩] := by
  refine (reads_tokenize accepted filled.line).unique ?_
  have first : tokenAt (t.candidates filled.line) (.start filled.line) =
      (.kind e.kind, (Cursor.start filled.line).past filled.line) := by
    rw [tokenAt, findSome?_candidates (entry_of_ofVocabulary accepted) (Cursor.isPlace_start _),
      findSome?_order accepted single, h.claim?_eq, Option.getD_some]
  obtain ⟨x, rest, eq, lower⟩ := h.wordy.exists_line h.required
  obtain ⟨d, next⟩ : ∃ d, (Cursor.start filled.line).next? = some (x, d) := by
    rw [eq]
    exact ⟨_, rfl⟩
  have atEnd : (tokenAt (t.candidates filled.line) (.start filled.line)).2.next? = none := by
    rw [first]
    exact next?_past filled.line
  have taken := Reads.token next (Text.not_isBlank_of_isLower lower) (.done atEnd)
  have span : (Cursor.start filled.line).spanTo ((Cursor.start filled.line).past filled.line) =
      ⟨0, Text.byteSize filled.line⟩ := congrArg (Span.mk 0) (Nat.zero_add _)
  rwa [first, span] at taken

end Spelled

/-- The lexicon of one phrase has one entry. -/
theorem exists_entry (h : ofVocabulary [phrase] priority = .ok t) :
    ∃ e, t.lexicon.entries = [e] ∧ e.Describes [phrase] phrase := by
  obtain ⟨l, built, new⟩ := bind_eq_ok.1 h
  obtain ⟨rfl, -⟩ := mem_of_new new
  have all := Lexicon.describes_of_build built
  generalize t.lexicon.entries = entries at all
  obtain _ | ⟨describes, rest⟩ := all
  cases rest
  exact ⟨_, rfl, describes⟩

/-- A line that is spelled from the template of a phrase of words is one token, and reading it
back gives every field the word that stands in its slot and the span of that word. -/
theorem tokenize_line (h : ofVocabulary [phrase] priority = .ok t)
    (written : phrase.IsWritten (filled.map (·.1))) (wordy : filled.IsWordy)
    (required : ∃ p ∈ filled, p.1.isOptional = false) :
    t.tokenize filled.line = [⟨.kind phrase.kind, 0, Text.byteSize filled.line⟩] ∧
    ∃ tree, t.lexicon.readBack phrase.kind filled.line ⟨0, Text.byteSize filled.line⟩ = .ok tree ∧
      tree.kind = phrase.kind ∧ tree.span = ⟨0, Text.byteSize filled.line⟩ ∧
      tree.fields = filled.readings 0 ∧ tree.children = [] ∧
      ∀ f ∈ phrase.fields, ∃ start word?, (Slot.field f, word?) ∈ filled ∧
        f.Holds start word? (tree.get? f.name) ∧
        ∀ w ∈ word?, Text.slice? filled.line ⟨start, start + Text.byteSize w⟩ = some w := by
  obtain ⟨e, single, describes⟩ := exists_entry h
  have spelled : Spelled phrase filled [phrase] e := ⟨describes, written, wordy, required⟩
  have kind : phrase.kind = e.kind := Compiler.kind_of_find? describes.declared
  rw [kind]
  have find : t.lexicon.find? e.kind = some e := by
    rw [Lexicon.find?, single]
    simp
  refine ⟨spelled.tokenize_eq h single, _, spelled.readBack_eq find, rfl, rfl, rfl, rfl,
    fun f mem => ?_⟩
  obtain ⟨start, word?, inside, found, slices⟩ := Filling.find?_readings spelled.distinct
    (Spelled.spells filled) (spelled.mem_slotFields mem)
  have holds := Filling.holds_reading? (wordy.fits _ inside) start
  rw [← found] at holds
  exact ⟨start, word?, inside, holds, slices⟩

/-- A phrase with a flag in front, a choice and a text that may be left out. -/
def drawMore : Phrase where
  kind := .drawCards
  template := "{may} draw {amount} {more} cards"
  fields := [.flag "may" ["may"],
    .choice "amount" { name := "Amount", members := [⟨"One", none⟩, ⟨"Two", none⟩] },
    (Field.words "more" ["additional", "more"]).optional]

/-- The flag is left out, the choice and the text are there. -/
def drawTwoMore : Filling :=
  [(.field (.flag "may" ["may"]), none), (.word "draw", some "draw"),
    (.field (.choice "amount" { name := "Amount", members := [⟨"One", none⟩, ⟨"Two", none⟩] }),
      some "two"),
    (.field (Field.words "more" ["additional", "more"]).optional, some "more"),
    (.word "cards", some "cards")]

theorem tokenize_drawTwoMore : ∃ t, ofVocabulary [drawMore] [] = .ok t ∧
    t.tokenize "draw two more cards" = [⟨.kind .drawCards, 0, 19⟩] ∧
    ∃ tree, t.lexicon.readBack .drawCards "draw two more cards" ⟨0, 19⟩ = .ok tree ∧
      tree.fields = [{ name := "may", value := .flag false, span? := none },
        { name := "amount", value := .choice "Amount" "Two" 1, span? := some ⟨5, 8⟩ },
        { name := "more", value := .text "more", span? := some ⟨9, 13⟩ }] := by
  have accepted : (ofVocabulary [drawMore] []).toOption.isSome := by decide +kernel
  obtain ⟨t, built⟩ := Option.isSome_iff_exists.1 accepted
  have ok := (Regex.Searcher.toOption_eq_some_iff ..).1 built
  have written : drawMore.IsWritten (drawTwoMore.map (·.1)) :=
    { template := by decide +kernel
      fields := by simp [drawTwoMore, drawMore]
      plain := by decide
      reading := rfl }
  have wordy : drawTwoMore.IsWordy :=
    { nonempty := by decide
      lower := by decide
      distinct := by decide
      fits := by decide }
  obtain ⟨tokens, tree, read, -, -, fields, -⟩ :=
    tokenize_line ok written wordy ⟨(.word "draw", some "draw"), by simp [drawTwoMore], rfl⟩
  exact ⟨t, ok, tokens, tree, read, fields⟩

end Tokenizer

end RulesText
