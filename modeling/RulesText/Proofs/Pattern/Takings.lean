import RulesText.Proofs.Pattern.Joining
import RulesText.Proofs.Pattern.Spelling

/-!
# Spelling out a template

A line is spelled from a template by taking all snippets but some of those that are optional
placeholders of their own, and one of its texts for each. What the body of a pattern matches is
spelled in this way: each snippet brings the space before it, only the optional ones in front of
the first required snippet bring a space behind them instead.

## Main definitions

* `Phrase.texts`: the texts that a snippet stands for.
* `Phrase.Takes`: the snippets that are taken, each with one of its texts.
* `Phrase.lead`, `Phrase.spell`: the line that they make up.

## Main statements

* `LexiconEntry.Describes.matchesInFull_iff_lead`: what a body matches is spelled from its template.
-/

namespace RulesText

open Rendering (optionalField? snippetEnds partEnds partsEnds oneEnds joinEnds joinOne)
open Slot (after AtLead)

/-! ## Texts of snippets -/

/-- The texts that a field stands for. -/
def Field.texts (f : Field) : List Text :=
  Alternation.texts f.isPlural f.alternatives

/-- Snippets that are taken, each with the text that it is taken with. -/
abbrev Taking := List (Snippet × Text)

namespace Phrase

section

variable (phrase : Phrase)

/-- The field of a snippet that is one placeholder. -/
def soleField? (s : Snippet) : Option Field :=
  s.soleField?.bind phrase.field?

/-- Whether a snippet is an optional placeholder of its own. -/
def isSoleOptional (s : Snippet) : Bool :=
  (phrase.soleField? s).any Field.isOptional

/-- The texts that a part of a word stands for. An optional field may be left out. -/
def partTexts : Part → List Text
  | .literal text => [text]
  | .field name =>
    match phrase.field? name with
    | none => [[]]
    | some f => if f.isOptional then [] :: f.texts else f.texts

/-- The texts that several parts stand for one after the other. -/
def partsTexts : List Part → List Text
  | [] => [[]]
  | p :: ps => (phrase.partTexts p).flatMap fun t => (partsTexts ps).map (t ++ ·)

/-- The texts that a snippet stands for part by part. -/
def snippetTexts : Snippet → List Text
  | .parts ps => phrase.partsTexts ps
  | .terminal mark => [[mark]]
  | .quote => [['"']]

/-- The texts that a snippet stands for where it is taken. A placeholder of its own that is taken
is not left empty. -/
def texts (s : Snippet) : List Text :=
  ((phrase.soleField? s).map Field.texts).getD (phrase.snippetTexts s)

/-- All required snippets are taken in their order, and some of the optional ones. -/
inductive Takes : List Snippet → Taking → Prop
  | nil : Takes [] []
  | take {s : Snippet} {t : Text} {rest : List Snippet} {taken : Taking}
    (mem : t ∈ phrase.texts s) (tail : Takes rest taken) : Takes (s :: rest) ((s, t) :: taken)
  | skip {s : Snippet} {rest : List Snippet} {taken : Taking}
    (optional : phrase.isSoleOptional s) (tail : Takes rest taken) : Takes (s :: rest) taken

end

/-- What is spelled behind another snippet: a space before each one but closing punctuation. -/
def behind (taken : Taking) : Text :=
  taken.flatMap fun p => if p.1.isTerminal then p.2 else ' ' :: p.2

/-- One space before each snippet but the first one and closing punctuation. -/
def spell : Taking → Text
  | [] => []
  | (_, t) :: taken => t ++ behind taken

/-- The same, but optional placeholders in front have the space behind them. -/
def lead (phrase : Phrase) : Taking → Text
  | [] => []
  | (s, t) :: taken =>
    if phrase.isSoleOptional s then t ++ ' ' :: phrase.lead taken else t ++ behind taken

end Phrase

theorem Snippet.eq_of_soleField? {s : Snippet} {name : Text} (h : s.soleField? = some name) :
    s = .parts [.field name] := by
  unfold soleField? at h
  split at h
  · rw [Option.some.inj h]
  · cases h

/-! ## Meanings and texts -/

namespace Ends

variable {M : Ends Cursor} {ts us : List Text} {c d : Cursor} {t : Text}

theorem text_eq_oneOf (t : Text) : text t = oneOf [t] := by
  funext c d
  simp [text, oneOf]

theorem skip_eq_oneOf : skip = oneOf [[]] := by
  funext c d
  refine propext ⟨fun same => ⟨[], by simp, same ▸ .refl c⟩, ?_⟩
  rintro ⟨t, mem, through⟩
  obtain rfl := List.mem_singleton.1 mem
  exact through.eq

theorem option_oneOf (ts : List Text) : option (oneOf ts) = oneOf ([] :: ts) := by
  funext c d
  have skip : d = c ↔ c.Through [] d := ⟨fun same => same ▸ .refl c, fun through => through.eq⟩
  simp [option, oneOf, skip]

theorem seq_oneOf (ts us : List Text) :
    seq (oneOf ts) (oneOf us) = oneOf (ts.flatMap fun t => us.map (t ++ ·)) := by
  funext c d
  refine propext ⟨?_, ?_⟩
  · rintro ⟨e, ⟨t, mem, first⟩, u, mem', rest⟩
    exact ⟨t ++ u, by simpa using ⟨t, mem, u, mem', rfl⟩, first.trans rest⟩
  · rintro ⟨_, mem, through⟩
    obtain ⟨t, own, mem⟩ := List.mem_flatMap.1 mem
    obtain ⟨u, own', rfl⟩ := List.mem_map.1 mem
    obtain ⟨e, first, rest⟩ := Cursor.through_append.1 through
    exact ⟨e, ⟨t, own, first⟩, u, own', rest⟩

/-- One of the texts is matched, and each of them is where it does not go on with a word. -/
structure Bears (M : Ends Cursor) (ts : List Text) : Prop where
  sound : ∀ c d, M c d → oneOf ts c d
  complete : ∀ c d, c.behindIs Text.isWordChar = false → d.aheadIs Text.isWordChar = false →
    oneOf ts c d → M c d

theorem bears_oneOf (ts : List Text) : (oneOf ts).Bears ts :=
  ⟨fun _ _ step => step, fun _ _ _ _ step => step⟩

/-- Wording begins and ends with word characters, so it has word boundaries around it. -/
theorem bears_bounded (wording : ∀ t ∈ ts, t.IsWording) :
    ((boundary.seq (oneOf ts)).seq boundary).Bears ts where
  sound := by
    rintro c d ⟨e, ⟨b, ⟨-, rfl⟩, step⟩, -, rfl⟩
    exact step
  complete := by
    rintro c d none none' ⟨t, mem, through⟩
    obtain ⟨x, u, first, alphanum⟩ := (wording t mem).exists_head
    obtain ⟨v, y, last, alphanum'⟩ := (wording t mem).exists_last
    have starts : c.aheadIs Text.isWordChar = true := by
      rw [Cursor.aheadIs, through.ahead, first]
      exact Text.isWordChar_of_isAlphanum alphanum
    have stops : d.behindIs Text.isWordChar = true := by
      rw [Cursor.behindIs, through.behind, last]
      simpa using Text.isWordChar_of_isAlphanum alphanum'
    have here : Regex.Look.wordBoundary.holds c = true := by
      change (c.behindIs Text.isWordChar != c.aheadIs Text.isWordChar) = true
      rw [none, starts]
      rfl
    have there : Regex.Look.wordBoundary.holds d = true := by
      change (d.behindIs Text.isWordChar != d.aheadIs Text.isWordChar) = true
      rw [none', stops]
      rfl
    exact ⟨d, ⟨c, ⟨here, rfl⟩, t, mem, through⟩, there, rfl⟩

end Ends

/-! ## Fields and snippets -/

theorem Field.isWording_of_mem_texts {f : Field} (wording : ∀ t ∈ f.alternatives, t.IsWording)
    (nonempty : f.alternatives ≠ []) : ∀ t ∈ f.texts, t.IsWording := by
  intro t mem
  rw [Field.texts, Alternation.texts_of_ne_nil nonempty] at mem
  obtain ⟨w, inside, mem⟩ := List.mem_flatMap.1 mem
  exact Alternation.isWording_of_mem_textsOf (wording w inside) mem

theorem Field.ends_eq {f : Field} (nested : Kind → Ends Cursor) (flat : f.nestedKind? = none) :
    f.ends nested = Alternation.ends f.isPlural f.isBounded f.alternatives := by
  unfold Field.ends
  unfold Field.nestedKind? at flat
  cases eq : f.kind with
  | nested kind => simp [eq] at flat
  | choice family | flag alternatives | words alternatives => rfl

/-- What a field matches, if it holds no nested phrase. -/
theorem Field.bears_ends {f : Field} (nested : Kind → Ends Cursor) (flat : f.nestedKind? = none)
    (wording : ∀ t ∈ f.alternatives, t.IsWording)
    (bounded : f.isBounded → f.alternatives ≠ []) : (f.ends nested).Bears f.texts := by
  rw [Field.ends_eq nested flat, Alternation.ends]
  split
  · rename_i isBounded
    exact Ends.bears_bounded (Field.isWording_of_mem_texts wording (bounded isBounded))
  · exact Ends.bears_oneOf _

namespace Compiler

variable {phrase : Phrase} {fields : List Field} {nested : Kind → Pattern}

@[simp] theorem isOptional_renderedField (nested : Kind → Pattern) (f : Field) :
    (renderedField nested f).isOptional = f.isOptional := by
  unfold renderedField
  split <;> rfl

/-- Every placeholder stands for a declared field. -/
theorem Placed.exists_field? (placed : Placed phrase fields) {name : Text}
    (mem : name ∈ phrase.placeholders) : ∃ f ∈ phrase.fields, phrase.field? name = some f := by
  have known : phrase.field? name ∈ fields.map some := placed.found ▸ List.mem_map_of_mem mem
  obtain ⟨f, -, found⟩ := List.mem_map.1 known
  exact ⟨f, List.mem_of_find?_eq_some found.symm, found.symm⟩

/-- A rendered field is found by its name like the field itself. -/
theorem find?_rendered (placed : Placed phrase fields) (name : Text) :
    Rendering.find? (fields.map (renderedField nested)) name =
      (phrase.field? name).map (renderedField nested) := by
  have same : fields.find? (·.name == name) = phrase.field? name := by
    cases found : phrase.field? name with
    | none =>
      refine List.find?_eq_none.2 fun f mem => ?_
      exact List.find?_eq_none.1 found f (placed.declares mem)
    | some f =>
      have distinct : (fields.map (·.name)).Nodup := placed.map_name ▸ placed.distinct
      have mem := placed.mem_fields (List.mem_of_find?_eq_some found)
      rw [← name_of_field? found]
      exact find?_key distinct mem
  rw [Rendering.find?, List.find?_map, ← same]
  exact congrArg (Option.map _) (congrArg (List.find? · fields)
    (funext fun f => congrArg (· == name) (name_renderedField nested f)))

end Compiler

/-! ## Positions -/

namespace Rendering

variable {fields : List RenderedField} {meaning : Text → Ends Cursor} {s : Snippet}
  {position : Position}

theorem oneEnds_after (s : Snippet) : oneEnds fields meaning after s =
    match optionalField? fields s with
    | some f => ((Ends.text [' ']).seq (meaning f.name)).option
    | none => (if s.isTerminal then Ends.skip else .text [' ']).seq
        (snippetEnds fields meaning s) := by
  unfold oneEnds gap
  cases optionalField? fields s <;> simp [after]

theorem joinOne_after (h : s.quotes = 0) : (joinOne fields after s).2 = after := by
  simp [joinOne, after, h]

/-- Up to the first required snippet, when one more of the optional ones has been passed. -/
def passed : Position :=
  { isFirst := false, inLead := true, inQuotes := false, spaced := true }

theorem atLead_passed : AtLead passed := ⟨rfl, rfl, rfl⟩

theorem oneEnds_lead (lead : AtLead position) (s : Snippet) : oneEnds fields meaning position s =
    match optionalField? fields s with
    | some f => ((meaning f.name).seq (.text [' '])).option
    | none => snippetEnds fields meaning s := by
  have glued :
      (position.isFirst || s.isTerminal || position.inQuotes || position.spaced) = true := by
    have := lead.glued
    cases isFirst : position.isFirst <;> simp_all
  unfold oneEnds gap
  cases optionalField? fields s <;> simp [glued, lead.inLead, Ends.skip_seq]

theorem joinOne_lead (lead : AtLead position) (h : s.quotes = 0) :
    (joinOne fields position s).2 = if (optionalField? fields s).isSome then passed else after := by
  cases optional : optionalField? fields s <;>
    simp [joinOne, optional, h, lead.inLead, lead.inQuotes, passed, after]

end Rendering

open Rendering (oneEnds_after joinOne_after atLead_passed oneEnds_lead joinOne_lead)

namespace Phrase

variable {phrase : Phrase} {fields : List RenderedField} {meaning : Text → Ends Cursor}
  {s : Snippet} {snippets : List Snippet} {taken : Taking} {t : Text} {c d : Cursor}

/-- In the body, the snippet matches the texts that it stands for. -/
structure Spells (phrase : Phrase) (fields : List RenderedField) (meaning : Text → Ends Cursor)
    (s : Snippet) : Prop where
  quotes : s.quotes = 0
  optional : ∀ f, optionalField? fields s = some f →
    phrase.isSoleOptional s ∧ (meaning f.name).Bears (phrase.texts s)
  required : optionalField? fields s = none →
    phrase.isSoleOptional s = false ∧ (snippetEnds fields meaning s).Bears (phrase.texts s)
  terminal : ∀ mark, s = .terminal mark → Template.isTerminalMark mark

/-! ## Behind the first required snippet -/

theorem behind_cons (s : Snippet) (t : Text) (taken : Taking) :
    behind ((s, t) :: taken) = (if s.isTerminal then t else ' ' :: t) ++ behind taken := rfl

theorem exists_of_isTerminal (h : s.isTerminal) : ∃ mark, s = .terminal mark := by
  cases s with
  | terminal mark => exact ⟨mark, rfl⟩
  | parts ps => cases h
  | quote => cases h

theorem isTerminal_of_optionalField? {f : RenderedField}
    (optional : optionalField? fields s = some f) : s.isTerminal = false := by
  obtain ⟨name, rfl, -⟩ := Rendering.optionalField?_eq_some optional
  rfl

theorem behindIs_of_space (h : c.Through [' '] d) : d.behindIs Text.isWordChar = false := by
  rw [Cursor.behindIs, h.behind]
  exact Text.not_isWordChar_space

/-- What comes behind a snippet goes on with no word. -/
theorem aheadIs_of_behind (spells : ∀ s ∈ snippets, phrase.Spells fields meaning s)
    (takes : phrase.Takes snippets taken) (through : c.Through (behind taken) d)
    (stop : d.ahead = []) : c.aheadIs Text.isWordChar = false := by
  induction takes with
  | nil =>
    have same := through.eq
    rw [Cursor.aheadIs, ← same, stop]
    rfl
  | @take s t rest taken mem tail ih =>
    rw [Cursor.aheadIs, through.ahead, behind_cons]
    by_cases terminal : s.isTerminal
    · obtain ⟨mark, rfl⟩ := exists_of_isTerminal terminal
      have isMark := (spells _ List.mem_cons_self).terminal mark rfl
      obtain rfl : t = [mark] := List.mem_singleton.1 mem
      exact Text.not_isWordChar_of_isTerminalMark isMark
    · rw [if_neg terminal]
      exact Text.not_isWordChar_space
  | skip optional tail ih =>
    exact ih (fun s mem => spells s (List.mem_cons_of_mem _ mem)) through

/-- Behind the first required snippet, one that is taken brings the space before it. -/
theorem oneEnds_after_iff (own : phrase.Spells fields meaning s)
    (ends : d.aheadIs Text.isWordChar = false) : oneEnds fields meaning after s c d ↔
      (phrase.isSoleOptional s ∧ d = c) ∨
        ∃ t ∈ phrase.texts s, c.Through (if s.isTerminal then t else ' ' :: t) d := by
  -- Behind a space the texts are matched where they do not go on with a word.
  have spaced {M : Ends Cursor} (bears : M.Bears (phrase.texts s)) :
      (Ends.text [' ']).seq M c d ↔ ∃ t ∈ phrase.texts s, c.Through ([' '] ++ t) d := by
    simp only [Cursor.through_append]
    constructor
    · rintro ⟨b, space, step⟩
      obtain ⟨t, mem, step⟩ := bears.sound b d step
      exact ⟨t, mem, b, space, step⟩
    · rintro ⟨t, mem, b, space, step⟩
      exact ⟨b, space, bears.complete b d (behindIs_of_space space) ends ⟨t, mem, step⟩⟩
  rw [oneEnds_after]
  cases optional : optionalField? fields s with
  | some f =>
    obtain ⟨isSole, bears⟩ := own.optional f optional
    simp only [isSole, true_and, isTerminal_of_optionalField? optional, Bool.false_eq_true,
      if_false]
    exact or_congr_right (spaced bears)
  | none =>
    obtain ⟨required, bears⟩ := own.required optional
    simp only [required, Bool.false_eq_true, false_and, false_or]
    by_cases terminal : s.isTerminal
    · obtain ⟨mark, rfl⟩ := exists_of_isTerminal terminal
      rw [if_pos terminal, Ends.skip_seq, snippetEnds, Ends.text_eq_oneOf]
      rfl
    · simp only [terminal, if_false, Bool.false_eq_true]
      exact spaced bears

/-- Behind the first required snippet, all that are taken bring the space before them. -/
theorem joinEnds_after_iff (spells : ∀ s ∈ snippets, phrase.Spells fields meaning s)
    (stop : d.ahead = []) : joinEnds fields meaning after snippets c d ↔
      ∃ taken, phrase.Takes snippets taken ∧ c.Through (behind taken) d := by
  induction snippets generalizing c with
  | nil =>
    constructor
    · intro same
      exact ⟨[], .nil, same ▸ .refl c⟩
    · rintro ⟨taken, takes, through⟩
      cases takes
      exact through.eq
  | cons s snippets ih =>
    obtain ⟨own, others⟩ := List.forall_mem_cons.1 spells
    rw [joinEnds, joinOne_after own.quotes]
    constructor
    · rintro ⟨e, one, rest⟩
      obtain ⟨taken, takes, through⟩ := (ih others).1 rest
      have ends := aheadIs_of_behind others takes through stop
      rcases (oneEnds_after_iff own ends).1 one with ⟨optional, rfl⟩ | ⟨t, mem, first⟩
      · exact ⟨taken, .skip optional takes, through⟩
      · exact ⟨(s, t) :: taken, .take mem takes, first.trans through⟩
    · rintro ⟨taken, takes, through⟩
      cases takes with
      | skip optional tail =>
        have ends := aheadIs_of_behind others tail through stop
        exact ⟨c, (oneEnds_after_iff own ends).2 (.inl ⟨optional, rfl⟩),
          (ih others).2 ⟨taken, tail, through⟩⟩
      | @take _ t _ taken mem tail =>
        rw [behind_cons] at through
        obtain ⟨e, first, rest⟩ := Cursor.through_append.1 through
        have ends := aheadIs_of_behind others tail rest stop
        exact ⟨e, (oneEnds_after_iff own ends).2 (.inr ⟨t, mem, first⟩),
          (ih others).2 ⟨taken, tail, rest⟩⟩

/-! ## From the start -/

variable {position : Rendering.Position}

theorem lead_cons (s : Snippet) (t : Text) (taken : Taking) : phrase.lead ((s, t) :: taken) =
    if phrase.isSoleOptional s then t ++ ' ' :: phrase.lead taken else t ++ behind taken := rfl

theorem aheadIs_of_space (h : c.Through (' ' :: t) d) : c.aheadIs Text.isWordChar = false := by
  rw [Cursor.aheadIs, h.ahead]
  exact Text.not_isWordChar_space

/-- Up to the first required snippet, an optional one that is taken brings the space behind it. -/
theorem oneEnds_lead_iff {f : RenderedField} (own : phrase.Spells fields meaning s)
    (lead : AtLead position) (optional : optionalField? fields s = some f)
    (fresh : c.behindIs Text.isWordChar = false) : oneEnds fields meaning position s c d ↔
      d = c ∨ ∃ t ∈ phrase.texts s, c.Through (t ++ [' ']) d := by
  obtain ⟨-, bears⟩ := own.optional f optional
  rw [oneEnds_lead lead, optional]
  simp only [Cursor.through_append]
  refine or_congr_right ⟨?_, ?_⟩
  · rintro ⟨b, step, space⟩
    obtain ⟨t, mem, step⟩ := bears.sound c b step
    exact ⟨t, mem, b, step, space⟩
  · rintro ⟨t, mem, b, step, space⟩
    exact ⟨b, bears.complete c b fresh (aheadIs_of_space space) ⟨t, mem, step⟩, space⟩

/-- What is matched from the first required snippet on. -/
theorem joinEnds_required_iff (own : phrase.Spells fields meaning s)
    (others : ∀ s ∈ snippets, phrase.Spells fields meaning s) (lead : AtLead position)
    (required : optionalField? fields s = none) (fresh : c.behindIs Text.isWordChar = false)
    (stop : d.ahead = []) : joinEnds fields meaning position (s :: snippets) c d ↔
      ∃ t ∈ phrase.texts s, ∃ taken, phrase.Takes snippets taken ∧
        c.Through (t ++ behind taken) d := by
  obtain ⟨-, bears⟩ := own.required required
  rw [joinEnds, joinOne_lead lead own.quotes, oneEnds_lead lead, required, Option.isSome_none,
    if_neg Bool.false_ne_true]
  constructor
  · rintro ⟨e, step, rest⟩
    obtain ⟨t, mem, first⟩ := bears.sound c e step
    obtain ⟨taken, takes, through⟩ := (joinEnds_after_iff others stop).1 rest
    exact ⟨t, mem, taken, takes, first.trans through⟩
  · rintro ⟨t, mem, taken, takes, through⟩
    obtain ⟨e, first, rest⟩ := Cursor.through_append.1 through
    have ends := aheadIs_of_behind others takes rest stop
    exact ⟨e, bears.complete c e fresh ends ⟨t, mem, first⟩,
      (joinEnds_after_iff others stop).2 ⟨taken, takes, rest⟩⟩

/-- Up to the first required snippet, all that are taken bring the space behind them. -/
theorem joinEnds_lead_iff (spells : ∀ s ∈ snippets, phrase.Spells fields meaning s)
    (lead : AtLead position) (fresh : c.behindIs Text.isWordChar = false) (stop : d.ahead = []) :
    joinEnds fields meaning position snippets c d ↔
      ∃ taken, phrase.Takes snippets taken ∧ c.Through (phrase.lead taken) d := by
  induction snippets generalizing c position with
  | nil =>
    constructor
    · intro same
      exact ⟨[], .nil, same ▸ .refl c⟩
    · rintro ⟨taken, takes, through⟩
      cases takes
      exact through.eq
  | cons s snippets ih =>
    obtain ⟨own, others⟩ := List.forall_mem_cons.1 spells
    cases optional : optionalField? fields s with
    | none =>
      have required := (own.required optional).1
      rw [joinEnds_required_iff own others lead optional fresh stop]
      constructor
      · rintro ⟨t, mem, taken, takes, through⟩
        refine ⟨(s, t) :: taken, .take mem takes, ?_⟩
        rwa [lead_cons, required, if_neg Bool.false_ne_true]
      · rintro ⟨taken, takes, through⟩
        cases takes with
        | skip isSole tail => simp [required] at isSole
        | @take _ t _ taken mem tail =>
          rw [lead_cons, required, if_neg Bool.false_ne_true] at through
          exact ⟨t, mem, taken, tail, through⟩
    | some f =>
      have isSole := (own.optional f optional).1
      rw [joinEnds, joinOne_lead lead own.quotes, optional, Option.isSome_some, if_pos rfl]
      have one {e : Cursor} := oneEnds_lead_iff own lead optional fresh (d := e)
      have word (t : Text) (taken : Taking) : phrase.lead ((s, t) :: taken) =
          (t ++ [' ']) ++ phrase.lead taken := by
        rw [lead_cons, if_pos isSole, List.append_assoc, List.singleton_append]
      constructor
      · rintro ⟨e, step, rest⟩
        rcases one.1 step with rfl | ⟨t, mem, first⟩
        · obtain ⟨taken, takes, through⟩ := (ih others atLead_passed fresh).1 rest
          exact ⟨taken, .skip isSole takes, through⟩
        · obtain ⟨b, -, space⟩ := Cursor.through_append.1 first
          obtain ⟨taken, takes, through⟩ :=
            (ih others atLead_passed (behindIs_of_space space)).1 rest
          exact ⟨(s, t) :: taken, .take mem takes, word t taken ▸ first.trans through⟩
      · rintro ⟨taken, takes, through⟩
        cases takes with
        | skip _ tail =>
          exact ⟨c, one.2 (.inl rfl), (ih others atLead_passed fresh).2 ⟨taken, tail, through⟩⟩
        | @take _ t _ taken mem tail =>
          rw [word] at through
          obtain ⟨e, first, rest⟩ := Cursor.through_append.1 through
          obtain ⟨b, -, space⟩ := Cursor.through_append.1 first
          exact ⟨e, one.2 (.inr ⟨t, mem, first⟩),
            (ih others atLead_passed (behindIs_of_space space)).2 ⟨taken, tail, rest⟩⟩

end Phrase

/-! ## Phrases -/

/-- Wording without quotes and nested phrases, where a bounded field has alternatives and makes
up a snippet of its own. -/
structure Phrase.IsSimple (phrase : Phrase) : Prop where
  wording : phrase.IsWording
  flat : ∀ f ∈ phrase.fields, f.nestedKind? = none
  unquoted : '"' ∉ phrase.template
  bounded : ∀ f ∈ phrase.fields, f.isBounded → f.alternatives ≠ [] ∧
    ∀ s ∈ Template.parse phrase.template, f.name ∈ s.fields → s.soleField? = some f.name

namespace Phrase.IsSimple

variable {phrase : Phrase} {fields : List Field} {nested : Kind → Pattern}
  {meanings : Kind → Ends Cursor} {s : Snippet} {f : Field} {name : Text}

theorem quotes_eq (h : phrase.IsSimple) (mem : s ∈ Template.parse phrase.template) :
    s.quotes = 0 := by
  have all := Template.count_literalText phrase.template
  rw [List.count_eq_zero.2 h.unquoted, List.count_eq_zero] at all
  exact List.count_eq_zero.2 fun inside => all (List.mem_flatMap.2 ⟨s, mem, inside⟩)

theorem bears_meaning (h : phrase.IsSimple) (found : phrase.field? name = some f) :
    (phrase.meaning meanings name).Bears f.texts := by
  have mem : f ∈ phrase.fields := List.mem_of_find?_eq_some found
  rw [Phrase.meaning, found]
  exact Field.bears_ends meanings (h.flat f mem) (h.wording.alternatives f mem)
    fun bounded => (h.bounded f mem bounded).1

theorem meaning_eq (h : phrase.IsSimple) (found : phrase.field? name = some f)
    (unbounded : f.isBounded = false) : phrase.meaning meanings name = .oneOf f.texts := by
  have mem : f ∈ phrase.fields := List.mem_of_find?_eq_some found
  rw [Phrase.meaning, found, Option.elim_some, Field.ends_eq meanings (h.flat f mem),
    Alternation.ends, if_neg (by simp [unbounded]), Field.texts]

variable (placed : Compiler.Placed phrase fields)
include placed

/-- Parts without bounded fields match just the texts that they stand for. -/
theorem partsEnds_eq (h : phrase.IsSimple) {ps : List Part}
    (unbounded : ∀ name f, .field name ∈ ps → phrase.field? name = some f → f.isBounded = false) :
    partsEnds (fields.map (Compiler.renderedField nested)) (phrase.meaning meanings) ps =
      .oneOf (phrase.partsTexts ps) := by
  induction ps with
  | nil => exact Ends.skip_eq_oneOf
  | cons p ps ih =>
    have rest := ih fun name f mem => unbounded name f (List.mem_cons_of_mem _ mem)
    have own : partEnds (fields.map (Compiler.renderedField nested)) (phrase.meaning meanings) p =
        .oneOf (phrase.partTexts p) := by
      cases p with
      | literal text => exact Ends.text_eq_oneOf text
      | field name =>
        rw [partEnds, partTexts, Compiler.find?_rendered placed]
        cases found : phrase.field? name with
        | none => exact Ends.skip_eq_oneOf
        | some f =>
          have one : phrase.meaning meanings name = .oneOf f.texts :=
            h.meaning_eq found (unbounded name f List.mem_cons_self found)
          simp only [Option.map_some, Compiler.isOptional_renderedField,
            Compiler.name_renderedField, Compiler.name_of_field? found, one]
          split
          · exact Ends.option_oneOf _
          · rfl
    rw [partsEnds, partsTexts, own, rest, Ends.seq_oneOf]

/-- A snippet that is one placeholder matches the texts of its field. -/
theorem spells_field (h : phrase.IsSimple) (found : phrase.field? name = some f) :
    phrase.Spells (fields.map (Compiler.renderedField nested)) (phrase.meaning meanings)
      (.parts [.field name]) := by
  have found' : phrase.soleField? (.parts [.field name]) = some f := found
  have sole : optionalField? (fields.map (Compiler.renderedField nested)) (.parts [.field name]) =
      (some (Compiler.renderedField nested f)).filter (·.isOptional) := by
    rw [optionalField?, Snippet.soleField?, Option.bind_some, Compiler.find?_rendered placed,
      found, Option.map_some]
  have isSole : phrase.isSoleOptional (.parts [.field name]) = f.isOptional := by
    rw [isSoleOptional, found', Option.any_some]
  have texts : phrase.texts (.parts [.field name]) = f.texts := by
    rw [Phrase.texts, found', Option.map_some, Option.getD_some]
  have bears : (phrase.meaning meanings name).Bears f.texts := h.bears_meaning found
  refine ⟨rfl, fun r optional => ?_, fun required => ?_, fun _ quote => by cases quote⟩
  · rw [sole] at optional
    obtain ⟨eq, optional⟩ := Option.filter_eq_some_iff.1 optional
    obtain rfl := Option.some.inj eq
    rw [Compiler.isOptional_renderedField] at optional
    rw [isSole, texts, Compiler.name_renderedField, Compiler.name_of_field? found]
    exact ⟨optional, bears⟩
  · have required : f.isOptional = false := by simpa [sole] using required
    have ends : snippetEnds (fields.map (Compiler.renderedField nested)) (phrase.meaning meanings)
        (.parts [.field name]) = phrase.meaning meanings name := by
      simp [snippetEnds, partsEnds, partEnds, Compiler.find?_rendered placed, found, required,
        Compiler.name_of_field? found, Ends.seq_skip]
    rw [isSole, texts, ends]
    exact ⟨required, bears⟩

/-- Every snippet of the template matches the texts that it stands for. -/
theorem spells (h : phrase.IsSimple) (mem : s ∈ Template.parse phrase.template) :
    phrase.Spells (fields.map (Compiler.renderedField nested)) (phrase.meaning meanings) s := by
  cases sole : phrase.soleField? s with
  | some f =>
    obtain ⟨name, sole, found⟩ := Option.bind_eq_some_iff.1 sole
    obtain rfl := Snippet.eq_of_soleField? sole
    exact h.spells_field placed found
  | none =>
    have isSole : phrase.isSoleOptional s = false := by rw [isSoleOptional, sole, Option.any_none]
    have texts : phrase.texts s = phrase.snippetTexts s := by
      rw [Phrase.texts, sole, Option.map_none, Option.getD_none]
    refine ⟨h.quotes_eq mem, fun r optional => ?_, fun _ => ⟨isSole, ?_⟩, fun mark eq => ?_⟩
    · obtain ⟨name, rfl, found, -⟩ := Rendering.optionalField?_eq_some optional
      have none : phrase.field? name = none := sole
      simp [Compiler.find?_rendered placed, none] at found
    · rw [texts]
      cases s with
      | parts ps =>
        rw [snippetEnds, snippetTexts, h.partsEnds_eq placed]
        · exact Ends.bears_oneOf _
        · intro name f inside found
          have own := Compiler.name_of_field? found
          refine Bool.eq_false_iff.2 fun bounded => ?_
          have single := (h.bounded f (List.mem_of_find?_eq_some found) bounded).2 _ mem
            (Template.mem_fields_parts.2 (own ▸ inside))
          simp [soleField?, single, own, found] at sole
      | terminal mark =>
        rw [snippetEnds, Ends.text_eq_oneOf]
        exact Ends.bears_oneOf _
      | quote =>
        rw [snippetEnds, Ends.text_eq_oneOf]
        exact Ends.bears_oneOf _
    · subst eq
      rcases Template.mem_parse mem with ⟨body, -, eq⟩ | eq | ⟨mark, isMark, eq⟩
      · cases eq
      · cases eq
      · obtain rfl := Snippet.terminal.inj eq
        exact isMark

end Phrase.IsSimple

/-- What the body of a simple phrase matches in full is spelled from its template. -/
theorem LexiconEntry.Describes.matchesInFull_iff_lead {v : Vocabulary} {e : LexiconEntry}
    {phrase : Phrase} (h : e.Describes v phrase) (simple : phrase.IsSimple) (s : Text) :
    e.pattern.MatchesInFull s ↔
      ∃ taken, phrase.Takes (Template.parse phrase.template) taken ∧ s = phrase.lead taken := by
  obtain ⟨fields, nested, placed, -, assembled⟩ := h.exists_assembled
  have flat : ∀ f ∈ fields, ∀ other, f.kind = .nested other →
      Pattern.Denotes (nested other).source Ends.skip := by
    intro f mem other eq
    have flat := simple.flat f (placed.declares mem)
    simp [Field.nestedKind?, eq] at flat
  have body := Compiler.denotes_body placed simple.wording flat assembled
  rw [h.matchesInFull_iff body]
  constructor
  · rintro ⟨d, stop, joined⟩
    obtain ⟨taken, takes, through⟩ :=
      (Phrase.joinEnds_lead_iff (fun s mem => simple.spells placed mem) ⟨rfl, rfl, rfl⟩ rfl
        stop).1 joined
    refine ⟨taken, takes, ?_⟩
    simpa [stop, Cursor.start] using through.ahead
  · rintro ⟨taken, takes, rfl⟩
    have through := (Cursor.start (phrase.lead taken)).through_past (List.prefix_refl _)
    have stop : ((Cursor.start (phrase.lead taken)).past (phrase.lead taken)).ahead = [] :=
      List.drop_length
    exact ⟨_, stop, (Phrase.joinEnds_lead_iff (fun s mem => simple.spells placed mem)
      ⟨rfl, rfl, rfl⟩ rfl stop).2 ⟨taken, takes, through⟩⟩

end RulesText
