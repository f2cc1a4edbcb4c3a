import RulesText.Proofs.Pattern.Takings

/-!
# Spacing

What the body of a pattern matches has one space between the snippets that are taken and none
before closing punctuation, and no other spaces than those inside of wording. This fails in one
case: optional placeholders in front bring a space behind them, and it stays where a closing mark
or nothing follows.

## Main definitions

* `Phrase.IsUnbound`: a phrase of wording without quotes, bounded fields and nested phrases.
* `Phrase.IsStrung`: a phrase of wording whose snippets have one part each.
* `Phrase.LeadsOn`: optional placeholders in front are followed by wording.

## Main statements

* `Lexicon.matchesInFull_iff_spell`: a body matches the lines that are spelled from its template.
* `Lexicon.isWellSpaced_iff`: just which phrases have well-spaced matches only.
-/

namespace RulesText

open Template (isTerminalMark)

namespace Phrase

variable {phrase : Phrase} {s first : Snippet} {snippets : List Snippet} {taken : Taking} {t : Text}

/-! ## Lines that are spelled from the front -/

/-- The first snippet that cannot be left out. -/
def firstRequired? (phrase : Phrase) (snippets : List Snippet) : Option Snippet :=
  snippets.find? (!phrase.isSoleOptional ·)

theorem isTerminal_of_isSoleOptional (h : phrase.isSoleOptional s) : s.isTerminal = false := by
  cases s with
  | terminal mark => cases h
  | parts ps => rfl
  | quote => rfl

theorem firstRequired?_of_optional (h : phrase.isSoleOptional s) (snippets : List Snippet) :
    phrase.firstRequired? (s :: snippets) = phrase.firstRequired? snippets :=
  List.find?_cons_of_neg (by simp [h])

theorem firstRequired?_of_required (h : ¬ phrase.isSoleOptional s) (snippets : List Snippet) :
    phrase.firstRequired? (s :: snippets) = some s :=
  List.find?_cons_of_pos (by simp [h])

theorem behind_eq_lead (takes : phrase.Takes snippets taken)
    (found : phrase.firstRequired? snippets = some first) (word : first.isTerminal = false) :
    behind taken = ' ' :: phrase.lead taken := by
  induction takes with
  | nil => cases found
  | @take s t rest taken mem tail ih =>
    rw [behind_cons, lead_cons]
    by_cases optional : phrase.isSoleOptional s
    · rw [firstRequired?_of_optional optional] at found
      rw [isTerminal_of_isSoleOptional optional, if_neg Bool.false_ne_true, if_pos optional,
        ih found, List.cons_append]
    · rw [firstRequired?_of_required optional] at found
      obtain rfl := Option.some.inj found
      rw [word, if_neg Bool.false_ne_true, if_neg optional, List.cons_append]
  | skip optional tail ih =>
    rw [firstRequired?_of_optional optional] at found
    exact ih found

/-- Before wording it makes no difference on which side optional placeholders have their space. -/
theorem lead_eq_spell (takes : phrase.Takes snippets taken)
    (found : phrase.firstRequired? snippets = some first) (word : first.isTerminal = false) :
    phrase.lead taken = spell taken := by
  induction takes with
  | nil => rfl
  | @take s t rest taken mem tail ih =>
    rw [lead_cons, spell]
    by_cases optional : phrase.isSoleOptional s
    · rw [firstRequired?_of_optional optional] at found
      rw [if_pos optional, behind_eq_lead tail found word]
    · rw [if_neg optional]
  | skip optional tail ih =>
    rw [firstRequired?_of_optional optional] at found
    exact ih found

end Phrase

/-- Wording without quotes, bounded fields and nested phrases. -/
structure Phrase.IsUnbound (phrase : Phrase) : Prop where
  wording : phrase.IsWording
  flat : ∀ f ∈ phrase.fields, f.nestedKind? = none
  unbounded : ∀ f ∈ phrase.fields, f.isBounded = false
  unquoted : '"' ∉ phrase.template

theorem Phrase.IsUnbound.isSimple {phrase : Phrase} (h : phrase.IsUnbound) : phrase.IsSimple :=
  { h with bounded := fun f mem bounded => by simp [h.unbounded f mem] at bounded }

namespace Lexicon

variable {v : Vocabulary} {l : Lexicon} {phrase : Phrase}

/-- If the first snippet that cannot be left out is no closing mark, the body of the pattern
matches just the lines with one space before each snippet that is taken, but for the first one and
for closing marks. -/
theorem matchesInFull_iff_spell (built : build v = .ok l) (mem : phrase ∈ v)
    (unbound : phrase.IsUnbound) {first : Snippet}
    (found : phrase.firstRequired? (Template.parse phrase.template) = some first)
    (word : first.isTerminal = false) :
    ∃ e, l.find? phrase.kind = some e ∧ ∀ s, e.pattern.MatchesInFull s ↔
      ∃ taken, phrase.Takes (Template.parse phrase.template) taken ∧ s = Phrase.spell taken := by
  obtain ⟨e, entry, describes⟩ := exists_entry built mem
  refine ⟨e, entry, fun s => ?_⟩
  rw [describes.matchesInFull_iff_lead unbound.isSimple]
  refine exists_congr fun taken => and_congr_right fun takes => ?_
  rw [Phrase.lead_eq_spell takes found word]

/-- Two flags in front, one inside a word and one before a comma. -/
def drawnCards : Phrase where
  kind := .objectRef
  template := "{each} {other} {non}land {noun} {tapped}, drawn."
  fields := [.flag "each" ["each"], .flag "other" ["other"], .flag "non" ["non"],
    .plural (.words "noun" ["card"]), .flag "tapped" ["tapped"]]

theorem matchesInFull_drawnCards : ∃ l e, build [drawnCards] = .ok l ∧
    l.find? .objectRef = some e ∧ e.pattern.MatchesInFull "other land cards, drawn." := by
  have accepted : (build [drawnCards]).toOption.isSome := by decide +kernel
  obtain ⟨l, built⟩ := Option.isSome_iff_exists.1 accepted
  have ok := Regex.Searcher.toOption_eq_some_iff.1 built
  have unbound : drawnCards.IsUnbound :=
    ⟨by decide +kernel, by decide, by decide, by decide⟩
  have found : drawnCards.firstRequired? (Template.parse drawnCards.template) =
      some (.parts [.field "non", .literal "land"]) := by decide +kernel
  obtain ⟨e, entry, all⟩ := matchesInFull_iff_spell ok List.mem_cons_self unbound found rfl
  refine ⟨l, e, ok, entry, (all _).2 ⟨[
    (.parts [.field "other"], "other"), (.parts [.field "non", .literal "land"], "land"),
    (.parts [.field "noun"], "cards"), (.terminal ',', ","), (.parts [.literal "drawn"], "drawn"),
    (.terminal '.', ".")], ?_, rfl⟩⟩
  have template : Template.parse drawnCards.template = [
      .parts [.field "each"], .parts [.field "other"], .parts [.field "non", .literal "land"],
      .parts [.field "noun"], .parts [.field "tapped"], .terminal ',', .parts [.literal "drawn"],
      .terminal '.'] := by decide +kernel
  rw [template]
  refine .skip (by decide) (.take (by decide) (.take (by decide) (.take (by decide)
    (.skip (by decide) (.take (by decide) (.take (by decide) (.take (by decide) .nil)))))))

end Lexicon

/-! ## Well-spaced lines -/

/-- The number of parts of a snippet. -/
def Snippet.size : Snippet → Nat
  | .parts ps => ps.length
  | _ => 1

/-- Wording in snippets of one part, without quotes and nested phrases, where every field has an
alternative. -/
structure Phrase.IsStrung (phrase : Phrase) : Prop where
  wording : phrase.IsWording
  flat : ∀ f ∈ phrase.fields, f.nestedKind? = none
  unquoted : '"' ∉ phrase.template
  single : ∀ s ∈ Template.parse phrase.template, s.size ≤ 1
  nonempty : ∀ f ∈ phrase.fields, f.alternatives ≠ []

namespace Phrase

variable {phrase : Phrase} {s first : Snippet} {snippets : List Snippet} {taken : Taking} {t : Text}

theorem IsStrung.isSimple (h : phrase.IsStrung) : phrase.IsSimple where
  wording := h.wording
  flat := h.flat
  unquoted := h.unquoted
  bounded := by
    refine fun f own _ => ⟨h.nonempty f own, fun s mem inside => ?_⟩
    cases s with
    | parts ps =>
      have field := Template.mem_fields_parts.1 inside
      obtain ⟨p, rfl⟩ := List.length_eq_one_iff.1
        (Nat.le_antisymm (h.single _ mem) (List.length_pos_of_mem field))
      obtain rfl := List.mem_singleton.1 field
      rfl
    | terminal mark => cases inside
    | quote => cases inside

/-- A snippet that is no closing mark stands for wording. -/
theorem IsStrung.isWording_of_mem_texts (h : phrase.IsStrung) {fields : List Field}
    (placed : Compiler.Placed phrase fields) (mem : s ∈ Template.parse phrase.template)
    (word : s.isTerminal = false) (own : t ∈ phrase.texts s) : t.IsWording := by
  rcases Template.mem_parse mem with ⟨body, nonempty, rfl⟩ | rfl | ⟨mark, -, rfl⟩
  · have source := Template.source_splitParts [] body
    have length := h.single _ mem
    generalize Template.splitParts [] body = ps at *
    obtain _ | ⟨p, _ | ⟨q, ps⟩⟩ := ps
    · simp_all
    · cases p with
      | literal text =>
        obtain rfl : t = text := by
          simpa [texts, soleField?, Snippet.soleField?, snippetTexts, partsTexts, partTexts]
            using own
        exact h.wording.literals t (List.mem_flatMap.2 ⟨_, mem, Snippet.mem_literals.2 (by simp)⟩)
      | field name =>
        have placeholder : name ∈ phrase.placeholders :=
          List.mem_flatMap.2 ⟨_, mem, Template.mem_fields_parts.2 (by simp)⟩
        obtain ⟨f, declared, found⟩ := placed.exists_field? placeholder
        have own : t ∈ f.texts := by
          simpa [texts, soleField?, Snippet.soleField?, found] using own
        exact Field.isWording_of_mem_texts (h.wording.alternatives f declared)
          (h.nonempty f declared) t own
    · simp [Snippet.size] at length
  · have quotes := h.isSimple.quotes_eq mem
    cases quotes
  · cases word

/-- Closing marks and wording are taken. -/
def IsWorded (taken : Taking) : Prop :=
  ∀ p ∈ taken, if p.1.isTerminal then ∃ mark, isTerminalMark mark ∧ p.2 = [mark] else p.2.IsWording

theorem IsStrung.isWorded (h : phrase.IsStrung) {fields : List Field}
    (placed : Compiler.Placed phrase fields) (takes : phrase.Takes snippets taken)
    (inside : ∀ s ∈ snippets, s ∈ Template.parse phrase.template) : IsWorded taken := by
  induction takes with
  | nil => exact fun _ mem => nomatch mem
  | @take s t rest taken own tail ih =>
    obtain ⟨mem, inside⟩ := List.forall_mem_cons.1 inside
    refine List.forall_mem_cons.2 ⟨?_, ih inside⟩
    split
    · rename_i terminal
      obtain ⟨mark, rfl⟩ := exists_of_isTerminal terminal
      rcases Template.mem_parse mem with ⟨body, -, eq⟩ | eq | ⟨mark, isMark, eq⟩
      · cases eq
      · cases eq
      · obtain rfl := Snippet.terminal.inj eq
        exact ⟨_, isMark, List.mem_singleton.1 own⟩
    · rename_i word
      exact h.isWording_of_mem_texts placed mem (Bool.eq_false_iff.2 word) own
  | skip optional tail ih => exact ih (List.forall_mem_cons.1 inside).2

theorem isWellSpaced_behind (worded : IsWorded taken) (spaced : t.IsWellSpaced)
    (nonempty : t ≠ []) : (t ++ behind taken).IsWellSpaced := by
  induction taken generalizing t with
  | nil => simpa [behind] using spaced
  | cons p taken ih =>
    obtain ⟨s, u⟩ := p
    obtain ⟨own, worded⟩ := List.forall_mem_cons.1 worded
    rw [behind_cons, ← List.append_assoc]
    refine ih worded ?_ (by simp [nonempty])
    split at own
    · rename_i terminal
      obtain ⟨mark, isMark, rfl⟩ := own
      rw [if_pos terminal]
      exact spaced.append (.mark isMark)
    · rename_i word
      rw [if_neg word]
      exact spaced.append_space own.spaced nonempty own.starts

/-- A line that is spelled from the front is well spaced. -/
theorem isWellSpaced_spell (worded : IsWorded taken) : (spell taken).IsWellSpaced := by
  cases taken with
  | nil => exact .nil
  | cons p taken =>
    obtain ⟨s, t⟩ := p
    obtain ⟨own, rest⟩ := List.forall_mem_cons.1 worded
    rw [spell]
    split at own
    · obtain ⟨mark, isMark, rfl⟩ := own
      exact isWellSpaced_behind rest (.mark isMark) (List.cons_ne_nil _ _)
    · exact isWellSpaced_behind rest own.spaced own.ne_nil

/-! ## Spaces that stay behind -/

/-- If the first snippet can be left out, there is one that cannot, and the first such one is no
closing mark. -/
def LeadsOn (phrase : Phrase) : Prop :=
  ∀ s ∈ (Template.parse phrase.template).head?, phrase.isSoleOptional s →
    ∃ first, phrase.firstRequired? (Template.parse phrase.template) = some first ∧
      first.isTerminal = false

theorem lead_eq_spell_of_leadsOn (leads : phrase.LeadsOn)
    (takes : phrase.Takes (Template.parse phrase.template) taken) :
    phrase.lead taken = spell taken := by
  unfold LeadsOn at leads
  generalize Template.parse phrase.template = snippets at leads takes
  cases takes with
  | nil => rfl
  | @take s t rest taken own tail =>
    by_cases optional : phrase.isSoleOptional s
    · obtain ⟨first, found, word⟩ := leads s rfl optional
      exact lead_eq_spell (.take own tail) found word
    · rw [lead_cons, if_neg optional, spell]
  | @skip s rest taken optional tail =>
    obtain ⟨first, found, word⟩ := leads s rfl optional
    exact lead_eq_spell (.skip optional tail) found word

theorem texts_ne_nil (phrase : Phrase) (s : Snippet) : phrase.texts s ≠ [] := by
  have fields (f : Field) : f.texts ≠ [] := Alternation.texts_ne_nil _ _
  have part (p : Part) : phrase.partTexts p ≠ [] := by
    cases p with
    | literal text => exact List.cons_ne_nil _ _
    | field name =>
      rw [partTexts]
      split
      · exact List.cons_ne_nil _ _
      · split
        · exact List.cons_ne_nil _ _
        · exact fields _
  have parts (ps : List Part) : phrase.partsTexts ps ≠ [] := by
    induction ps with
    | nil => exact List.cons_ne_nil _ _
    | cons p ps ih =>
      obtain ⟨t, mem⟩ := List.exists_mem_of_ne_nil _ (part p)
      obtain ⟨u, mem'⟩ := List.exists_mem_of_ne_nil _ ih
      exact List.ne_nil_of_mem (List.mem_flatMap.2 ⟨t, mem, List.mem_map_of_mem mem'⟩)
  rw [texts]
  cases phrase.soleField? s with
  | some f => exact fields f
  | none =>
    cases s with
    | parts ps => exact parts ps
    | terminal mark => exact List.cons_ne_nil _ _
    | quote => exact List.cons_ne_nil _ _

theorem exists_takes (phrase : Phrase) (snippets : List Snippet) :
    ∃ taken, phrase.Takes snippets taken := by
  induction snippets with
  | nil => exact ⟨[], .nil⟩
  | cons s snippets ih =>
    obtain ⟨taken, takes⟩ := ih
    obtain ⟨t, mem⟩ := List.exists_mem_of_ne_nil _ (phrase.texts_ne_nil s)
    exact ⟨(s, t) :: taken, .take mem takes⟩

/-- What comes before the first snippet that cannot be left out can be left out altogether. -/
theorem exists_takes_firstRequired (phrase : Phrase) (snippets : List Snippet) :
    ∃ taken, phrase.Takes snippets taken ∧
      taken.head?.map (·.1) = phrase.firstRequired? snippets := by
  induction snippets with
  | nil => exact ⟨[], .nil, rfl⟩
  | cons s snippets ih =>
    by_cases optional : phrase.isSoleOptional s
    · obtain ⟨taken, takes, head⟩ := ih
      refine ⟨taken, .skip optional takes, ?_⟩
      rw [head, firstRequired?_of_optional optional]
    · obtain ⟨taken, takes⟩ := exists_takes phrase snippets
      obtain ⟨t, mem⟩ := List.exists_mem_of_ne_nil _ (phrase.texts_ne_nil s)
      refine ⟨(s, t) :: taken, .take mem takes, ?_⟩
      rw [firstRequired?_of_required optional]
      rfl

/-- A space that stays well spaced in front of what is taken is followed by wording. -/
theorem exists_word_of_isWellSpaced (worded : IsWorded taken)
    (spaced : (t ++ ' ' :: phrase.lead taken).IsWellSpaced) :
    ∃ first, taken.head?.map (·.1) = some first ∧ first.isTerminal = false := by
  cases taken with
  | nil =>
    -- Nothing follows the space.
    exact absurd (by simp [lead]) spaced.last
  | cons p taken =>
    obtain ⟨s, u⟩ := p
    refine ⟨s, rfl, Bool.eq_false_iff.2 fun terminal => ?_⟩
    have own := worded (s, u) List.mem_cons_self
    rw [if_pos terminal] at own
    obtain ⟨mark, isMark, rfl⟩ := own
    have required : ¬ phrase.isSoleOptional s := fun optional =>
      absurd terminal (by simp [isTerminal_of_isSoleOptional optional])
    rw [lead_cons, if_neg required] at spaced
    have follows := List.isChain_cons_cons.1 (List.isChain_append.1 spaced.inner).2.1
    simp [isMark] at follows

end Phrase

namespace Lexicon

variable {v : Vocabulary} {l : Lexicon} {phrase : Phrase}

/-- The body of the pattern matches well-spaced lines only, unless optional placeholders in front
are followed by a closing mark or by nothing that cannot be left out. -/
theorem isWellSpaced_iff (built : build v = .ok l) (mem : phrase ∈ v) (strung : phrase.IsStrung) :
    ∃ e, l.find? phrase.kind = some e ∧
      ((∀ s, e.pattern.MatchesInFull s → s.IsWellSpaced) ↔ phrase.LeadsOn) := by
  obtain ⟨e, entry, describes⟩ := exists_entry built mem
  obtain ⟨fields, placed, -⟩ := describes.fields
  refine ⟨e, entry, fun all s head optional => ?_, fun leads s matched => ?_⟩
  · obtain ⟨rest, template⟩ := List.head?_eq_some_iff.1 head
    obtain ⟨taken, takes, first⟩ := phrase.exists_takes_firstRequired rest
    obtain ⟨t, own⟩ := List.exists_mem_of_ne_nil _ (phrase.texts_ne_nil s)
    have spaced := all _ ((describes.matchesInFull_iff_lead strung.isSimple _).2
      ⟨(s, t) :: taken, template ▸ .take own takes, rfl⟩)
    rw [Phrase.lead_cons, if_pos optional] at spaced
    rw [template, Phrase.firstRequired?_of_optional optional, ← first]
    exact Phrase.exists_word_of_isWellSpaced
      (strung.isWorded placed takes fun s mem => template ▸ List.mem_cons_of_mem _ mem) spaced
  · obtain ⟨taken, takes, rfl⟩ := (describes.matchesInFull_iff_lead strung.isSimple s).1 matched
    rw [Phrase.lead_eq_spell_of_leadsOn leads takes]
    exact Phrase.isWellSpaced_spell (strung.isWorded placed takes fun _ mem => mem)

/-- A flag in front of a word, and another one before a full stop. -/
def thenShuffle : Phrase where
  kind := .shuffle
  template := "{then} shuffle {again}."
  fields := [.flag "then" ["then"], .flag "again" ["again"]]

theorem isWellSpaced_thenShuffle : ∃ l e, build [thenShuffle] = .ok l ∧
    l.find? .shuffle = some e ∧ ∀ s, e.pattern.MatchesInFull s → s.IsWellSpaced := by
  have accepted : (build [thenShuffle]).toOption.isSome := by decide +kernel
  obtain ⟨l, built⟩ := Option.isSome_iff_exists.1 accepted
  have ok := Regex.Searcher.toOption_eq_some_iff.1 built
  have leads : thenShuffle.firstRequired? (Template.parse thenShuffle.template) =
      some (.parts [.literal "shuffle"]) := by decide +kernel
  have strung : thenShuffle.IsStrung :=
    { wording := by decide +kernel
      flat := by decide
      unquoted := by decide
      single := by decide +kernel
      nonempty := by decide }
  obtain ⟨e, entry, same⟩ := isWellSpaced_iff ok List.mem_cons_self strung
  exact ⟨l, e, ok, entry, same.2 fun s _ _ => ⟨_, leads, rfl⟩⟩

/-- A flag right before a full stop. -/
def thenStop : Phrase where
  kind := .shuffle
  template := "{then}."
  fields := [.flag "then" ["then"]]

/-- The space behind a flag in front stays there before a full stop. -/
theorem matchesInFull_thenStop : thenStop.IsStrung ∧ ∃ l e, build [thenStop] = .ok l ∧
    l.find? .shuffle = some e ∧ e.pattern.MatchesInFull "then ." ∧
      ¬ Text.IsWellSpaced "then ." := by
  have strung : thenStop.IsStrung :=
    { wording := by decide +kernel
      flat := by decide
      unquoted := by decide
      single := by decide +kernel
      nonempty := by decide }
  have checked : (build [thenStop]).toOption.any fun l =>
      (l.find? .shuffle).any fun e => decide (e.pattern.MatchesInFull "then .") := by
    decide +kernel
  obtain ⟨l, built, check⟩ := (Option.any_eq_true _ _).1 checked
  obtain ⟨e, entry, matched⟩ := (Option.any_eq_true _ _).1 check
  exact ⟨strung, l, e, Regex.Searcher.toOption_eq_some_iff.1 built, entry,
    of_decide_eq_true matched, by decide⟩

end Lexicon

end RulesText
