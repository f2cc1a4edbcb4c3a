import RulesText.Proofs.Pattern.Spacing

/-!
# Word edges of templates

A word edge tells that every match of the body has a word character at that end. This is so if
snippets at that end that can be empty are optional placeholders of their own: only those leave no
space behind where they are left out.

## Main definitions

* `Ends.MayHaveWord`: what is matched has a word character at one end, or nothing is matched.
* `Phrase.IsSettled`: the snippets of a template that can be empty at one end are placeholders.

## Main statements

* `Lexicon.isWordChar_of_edge`: what a body with a word edge matches has a word character there.
-/

namespace RulesText

open Slot (AtLead)

namespace Side

variable {α : Type} {a : α} {l : List α}

theorem mem_inward (side : Side) : a ∈ side.inward l ↔ a ∈ l := by
  cases side with
  | leading => exact .rfl
  | trailing => exact List.mem_reverse

theorem inward_inward (side : Side) (l : List α) : side.inward (side.inward l) = l := by
  cases side with
  | leading => rfl
  | trailing => exact List.reverse_reverse l

end Side

/-! ## Words at the ends of matches -/

namespace Ends

variable {M N : Ends Cursor} {side : Side} {ts : List Text}

/-- As `HasWord`, but nothing may be matched at all. -/
def MayHaveWord (M : Ends Cursor) : Side → Prop
  | .leading => ∀ c d, M c d → c.atStart → c.aheadIs Text.isWordChar ∨ d = c
  | .trailing => ∀ c d, M c d → d.atEnd → d.behindIs Text.isWordChar ∨ d = c

/-- Both after each other, `M` on the given side. -/
def outside (M : Ends Cursor) (side : Side) (N : Ends Cursor) : Ends Cursor :=
  match side with
  | .leading => M.seq N
  | .trailing => N.seq M

theorem HasWord.outside (h : M.HasWord side) (N : Ends Cursor) :
    (M.outside side N).HasWord side := by
  cases side with
  | leading =>
    rintro c d ⟨e, first, -⟩ start
    exact h c e first start
  | trailing =>
    rintro c d ⟨e, -, last⟩ stop
    exact h e d last stop

theorem MayHaveWord.outside (h : M.MayHaveWord side) (h' : N.HasWord side) :
    (M.outside side N).HasWord side := by
  cases side with
  | leading =>
    rintro c d ⟨e, first, last⟩ start
    rcases h c e first start with word | rfl
    · exact word
    · exact h' e d last start
  | trailing =>
    rintro c d ⟨e, first, last⟩ stop
    rcases h e d last stop with word | rfl
    · exact word
    · exact h' c d first stop

theorem MayHaveWord.both (h : M.MayHaveWord side) (h' : N.MayHaveWord side) :
    (M.outside side N).MayHaveWord side := by
  cases side with
  | leading =>
    rintro c d ⟨e, first, last⟩ start
    rcases h c e first start with word | rfl
    · exact .inl word
    · exact h' e d last start
  | trailing =>
    rintro c d ⟨e, first, last⟩ stop
    rcases h e d last stop with word | rfl
    · exact .inl word
    · exact h' c d first stop

theorem mayHaveWord_skip (side : Side) : skip.MayHaveWord side := by
  cases side <;> exact fun _ _ same _ => .inr same

theorem HasWord.option (h : M.HasWord side) : M.option.MayHaveWord side := by
  cases side with
  | leading =>
    rintro c d (rfl | step) start
    · exact .inr rfl
    · exact .inl (h c d step start)
  | trailing =>
    rintro c d (rfl | step) stop
    · exact .inr rfl
    · exact .inl (h c d step stop)

/-- Wording has word characters at its ends. -/
theorem hasWord_of_sound (sound : ∀ c d, M c d → oneOf ts c d) (wording : ∀ t ∈ ts, t.IsWording)
    (side : Side) : M.HasWord side := by
  cases side with
  | leading =>
    intro c d step _
    obtain ⟨t, mem, through⟩ := sound c d step
    obtain ⟨x, u, rfl, alphanum⟩ := (wording t mem).exists_head
    rw [Cursor.aheadIs, through.ahead]
    exact Text.isWordChar_of_isAlphanum alphanum
  | trailing =>
    intro c d step _
    obtain ⟨t, mem, through⟩ := sound c d step
    obtain ⟨u, y, rfl, alphanum⟩ := (wording t mem).exists_last
    rw [Cursor.behindIs, through.behind]
    simpa using Text.isWordChar_of_isAlphanum alphanum

end Ends

/-! ## Edges of templates -/

namespace Rendering

variable {fields : List RenderedField} {meaning : Text → Ends Cursor} {side : Side}
  {ps : List Part} {snippets : List Snippet} {position : Position}

/-- Fields with a word edge have a word in every match. -/
def Sounds (fields : List RenderedField) (meaning : Text → Ends Cursor) : Prop :=
  ∀ f ∈ fields, ∀ side, f.edge side = .word → (meaning f.name).HasWord side

theorem partsEnds_append (ps qs : List Part) : partsEnds fields meaning (ps ++ qs) =
    (partsEnds fields meaning ps).seq (partsEnds fields meaning qs) := by
  induction ps with
  | nil => exact (Ends.skip_seq _).symm
  | cons p ps ih => rw [List.cons_append, partsEnds, partsEnds, ih, Ends.seq_assoc]

theorem partsEnds_inward (side : Side) (p : Part) (ps : List Part) :
    partsEnds fields meaning (side.inward (p :: ps)) =
      (partEnds fields meaning p).outside side (partsEnds fields meaning (side.inward ps)) := by
  cases side with
  | leading => rfl
  | trailing =>
    rw [Side.inward, Side.inward, List.reverse_cons, partsEnds_append, partsEnds, partsEnds,
      Ends.seq_skip, Ends.outside]

/-- The edge of some parts tells what they match at that end. -/
theorem hasWord_of_partsEdge? (sounds : Sounds fields meaning)
    (wording : ∀ text, .literal text ∈ ps → text.IsWording) :
    (partsEdge? fields side ps = some .word →
      (partsEnds fields meaning (side.inward ps)).HasWord side) ∧
    (partsEdge? fields side ps = none →
      (partsEnds fields meaning (side.inward ps)).MayHaveWord side) := by
  induction ps with
  | nil =>
    refine ⟨fun edge => (by cases edge), fun _ => ?_⟩
    cases side <;> exact Ends.mayHaveWord_skip _
  | cons p ps ih =>
    have rest := ih fun text mem => wording text (List.mem_cons_of_mem _ mem)
    rw [partsEnds_inward]
    cases p with
    | literal text =>
      refine ⟨fun _ => Ends.HasWord.outside ?_ _, fun edge => (by cases edge)⟩
      rw [partEnds, Ends.text_eq_oneOf]
      refine Ends.hasWord_of_sound (fun _ _ step => step) (fun t mem => ?_) side
      rw [List.mem_singleton.1 mem]
      exact wording text List.mem_cons_self
    | field name =>
      rw [partsEdge?, partEnds]
      cases found : find? fields name with
      | none => exact ⟨fun edge => (by cases edge), fun edge => (by cases edge)⟩
      | some f =>
        have own := sounds f (List.mem_of_find?_eq_some found) side
        dsimp only
        by_cases word : f.edge side = .word
        · by_cases optional : f.isOptional
          · rw [if_pos (by simp [word, optional]), if_pos optional]
            exact ⟨fun edge => (own word).option.outside (rest.1 edge),
              fun edge => (own word).option.both (rest.2 edge)⟩
          · rw [if_neg (by simp [optional]), if_neg optional]
            exact ⟨fun _ => (own word).outside _, fun edge => (by cases edge)⟩
        · rw [if_neg (by simp [word])]
          exact ⟨fun edge => absurd (Option.some.inj edge) word, fun edge => (by cases edge)⟩

/-- Where snippets have a word edge, it is that of one of them, and those before it do not tell. -/
theorem exists_of_outerEdge (h : outerEdge fields side snippets = .word) :
    ∃ run ps rest, snippets = run ++ .parts ps :: rest ∧
      (∀ s ∈ run, ∃ ps, s = .parts ps ∧ partsEdge? fields side (side.inward ps) = none) ∧
      partsEdge? fields side (side.inward ps) = some .word := by
  induction snippets with
  | nil => cases h
  | cons s snippets ih =>
    cases s with
    | parts ps =>
      rw [outerEdge] at h
      cases edge : partsEdge? fields side (side.inward ps) with
      | some _ =>
        rw [edge, Option.getD_some] at h
        exact ⟨[], ps, snippets, rfl, by simp, h ▸ edge⟩
      | none =>
        rw [edge, Option.getD_none] at h
        obtain ⟨run, qs, rest, rfl, all, word⟩ := ih h
        exact ⟨.parts ps :: run, qs, rest, rfl, List.forall_mem_cons.2 ⟨⟨ps, rfl, edge⟩, all⟩, word⟩
    | terminal mark => cases h
    | quote => cases h

theorem partsEdge?_eq_none (h : partsEdge? fields side ps = none) {p : Part} (mem : p ∈ ps) :
    ∃ name f, p = .field name ∧ find? fields name = some f ∧ f.edge side = .word ∧
      f.isOptional = true := by
  induction ps with
  | nil => cases mem
  | cons q ps ih =>
    cases q with
    | literal text => cases h
    | field name =>
      rw [partsEdge?] at h
      cases found : find? fields name with
      | none => simp [found] at h
      | some f =>
        by_cases passes : f.edge side = .word ∧ f.isOptional = true
        · rcases List.mem_cons.1 mem with rfl | mem
          · exact ⟨name, f, rfl, found, passes⟩
          · exact ih (by simpa [found, passes] using h) mem
        · simp [found, passes] at h

/-! ## Edges of joined snippets -/

/-- The snippet is an optional placeholder that has a word edge. -/
def IsWordOption (fields : List RenderedField) (side : Side) (s : Snippet) : Prop :=
  ∃ f, optionalField? fields s = some f ∧ f.edge side = .word

theorem mem_of_optionalField? {s : Snippet} {f : RenderedField}
    (h : optionalField? fields s = some f) : f ∈ fields := by
  obtain ⟨name, -, found, -⟩ := optionalField?_eq_some h
  exact List.mem_of_find?_eq_some found

variable {run rest : List Snippet}

theorem hasWord_joinEnds_leading (sounds : Sounds fields meaning) (lead : AtLead position)
    (options : ∀ s ∈ run, IsWordOption fields .leading s)
    (required : optionalField? fields (.parts ps) = none)
    (own : (partsEnds fields meaning ps).HasWord .leading) :
    (joinEnds fields meaning position (run ++ .parts ps :: rest)).HasWord .leading := by
  induction run generalizing position with
  | nil =>
    rw [List.nil_append, joinEnds, oneEnds_lead lead, required]
    exact own.outside _
  | cons s run ih =>
    obtain ⟨⟨f, optional, edge⟩, options⟩ := List.forall_mem_cons.1 options
    have word := sounds f (mem_of_optionalField? optional) .leading edge
    have quotes : s.quotes = 0 := by
      obtain ⟨name, rfl, -⟩ := optionalField?_eq_some optional
      rfl
    rw [List.cons_append, joinEnds, oneEnds_lead lead, joinOne_lead lead quotes, optional,
      Option.isSome_some, if_pos rfl]
    exact (word.outside (.text [' '])).option.outside (ih atLead_passed options)

/-- Behind the first required snippet, optional placeholders bring the space before them. -/
theorem mayHaveWord_joinEnds (sounds : Sounds fields meaning) (behind : position.inLead = false)
    (options : ∀ s ∈ run, IsWordOption fields .trailing s) :
    (joinEnds fields meaning position run).MayHaveWord .trailing := by
  induction run generalizing position with
  | nil => exact Ends.mayHaveWord_skip _
  | cons s run ih =>
    obtain ⟨⟨f, optional, edge⟩, options⟩ := List.forall_mem_cons.1 options
    have word := sounds f (mem_of_optionalField? optional) .trailing edge
    have one : oneEnds fields meaning position s =
        ((Ends.text [' ']).seq (meaning f.name)).option := by
      rw [oneEnds, optional, behind]
      rfl
    have next : (joinOne fields position s).2.inLead = false := by simp [joinOne, behind]
    rw [joinEnds, one]
    exact (ih next options).both (word.outside (.text [' '])).option

variable (fields meaning) in
theorem joinEnds_append (position : Position) (front back : List Snippet) :
    ∃ next, joinEnds fields meaning position (front ++ back) =
      (joinEnds fields meaning position front).seq (joinEnds fields meaning next back) := by
  induction front generalizing position with
  | nil => exact ⟨position, (Ends.skip_seq _).symm⟩
  | cons s front ih =>
    obtain ⟨next, rest⟩ := ih (joinOne fields position s).2
    exact ⟨next, by rw [List.cons_append, joinEnds, joinEnds, rest, Ends.seq_assoc]⟩

theorem hasWord_joinEnds_trailing (sounds : Sounds fields meaning) (position : Position)
    (options : ∀ s ∈ run, IsWordOption fields .trailing s)
    (required : optionalField? fields (.parts ps) = none)
    (own : (partsEnds fields meaning ps).HasWord .trailing) :
    (joinEnds fields meaning position (rest ++ .parts ps :: run)).HasWord .trailing := by
  obtain ⟨next, split⟩ := joinEnds_append fields meaning position rest (.parts ps :: run)
  have one : oneEnds fields meaning next (.parts ps) =
      (gap next (.parts ps)).seq (partsEnds fields meaning ps) := by
    rw [oneEnds, required, snippetEnds]
  have behind : (joinOne fields next (.parts ps)).2.inLead = false := by simp [joinOne, required]
  rw [split, joinEnds, one]
  have word : (((gap next (.parts ps)).seq (partsEnds fields meaning ps)).seq
      (joinEnds fields meaning (joinOne fields next (.parts ps)).2 run)).HasWord .trailing :=
    (mayHaveWord_joinEnds sounds behind options).outside (own.outside _)
  exact word.outside _

/-- Parts with a word edge cannot be left out. -/
theorem optionalField?_eq_none (h : partsEdge? fields side (side.inward ps) = some .word) :
    optionalField? fields (.parts ps) = none := by
  cases optional : optionalField? fields (.parts ps) with
  | none => rfl
  | some f =>
    obtain ⟨name, eq, found, isOptional⟩ := optionalField?_eq_some optional
    obtain rfl := Snippet.parts.inj eq
    have single : side.inward [Part.field name] = [.field name] := by cases side <;> rfl
    rw [single, partsEdge?, found] at h
    by_cases word : f.edge side = .word <;> simp [word, isOptional, partsEdge?] at h

theorem edge_of_assemble {kind : Kind} {p : Pattern} (h : assemble kind snippets fields = .ok p)
    (side : Side) : p.edge side = outerEdge fields side (side.inward snippets) := by
  obtain ⟨-, -, leading, trailing⟩ := of_assemble h
  cases side with
  | leading => exact leading
  | trailing => exact trailing

/-- If snippets at one end that can be empty are optional placeholders of their own, then a word
edge at that end is a word in every match. -/
theorem hasWord_joinEnds (sounds : Sounds fields meaning)
    (wording : ∀ s ∈ snippets, ∀ text ∈ s.literals, text.IsWording)
    (edge : outerEdge fields side (side.inward snippets) = .word)
    (settled : ∀ run rest, side.inward snippets = run ++ rest →
      (∀ s ∈ run, ∃ ps, s = .parts ps ∧ partsEdge? fields side (side.inward ps) = none) →
        ∀ s ∈ run, IsWordOption fields side s) :
    (joinEnds fields meaning {} snippets).HasWord side := by
  obtain ⟨run, ps, rest, split, silent, word⟩ := exists_of_outerEdge edge
  have options := settled run _ split silent
  have mem : .parts ps ∈ snippets := side.mem_inward.1 (by simp [split])
  have own : (partsEnds fields meaning (side.inward (side.inward ps))).HasWord side :=
    (hasWord_of_partsEdge? sounds fun text inside =>
      wording _ mem text (Snippet.mem_literals.2 (side.mem_inward.1 inside))).1 word
  rw [side.inward_inward] at own
  have required := optionalField?_eq_none word
  cases side with
  | leading =>
    rw [show snippets = run ++ .parts ps :: rest from split]
    exact hasWord_joinEnds_leading sounds ⟨rfl, rfl, rfl⟩ options required own
  | trailing =>
    have reversed : snippets = rest.reverse ++ .parts ps :: run.reverse := by
      have split : snippets.reverse = run ++ .parts ps :: rest := split
      simpa using congrArg List.reverse split
    rw [reversed]
    exact hasWord_joinEnds_trailing sounds {} (fun s mem => options s (List.mem_reverse.1 mem))
      required own

end Rendering

/-! ## Phrases -/

namespace Phrase

def isOptionalPart (phrase : Phrase) : Part → Bool
  | .literal _ => false
  | .field name => (phrase.field? name).any Field.isOptional

/-- Whether all parts of a snippet can be left out. -/
def mayBeEmpty (phrase : Phrase) : Snippet → Bool
  | .parts ps => ps.all phrase.isOptionalPart
  | _ => false

/-- From the given end on, the snippets that can be empty are placeholders of their own. -/
def IsSettled (phrase : Phrase) (side : Side) : Prop :=
  ∀ s ∈ (side.inward (Template.parse phrase.template)).takeWhile phrase.mayBeEmpty,
    phrase.isSoleOptional s

instance (phrase : Phrase) (side : Side) : Decidable (phrase.IsSettled side) :=
  inferInstanceAs (Decidable (∀ s ∈ _, _))

end Phrase

namespace Compiler

open Rendering (Sounds IsWordOption partsEdge? optionalField?)

variable {phrase : Phrase} {fields : List Field} {nested : Kind → Pattern}
  {meanings : Kind → Ends Cursor} {side : Side}

theorem edge_renderedField {f : Field} (flat : f.nestedKind? = none) :
    (renderedField nested f).edge side = Edge.ofAll side.edge f.alternatives := by
  unfold renderedField Field.alternatives
  unfold Field.nestedKind? at flat
  cases eq : f.kind with
  | nested kind => simp [eq] at flat
  | choice family | flag alternatives | words alternatives => cases side <;> rfl

theorem sounds_of_placed (placed : Placed phrase fields) (wording : phrase.IsWording)
    (means : ∀ f ∈ fields, ∀ other, f.kind = .nested other →
      Pattern.Means (nested other) (meanings other)) :
    Sounds (fields.map (renderedField nested)) (phrase.meaning meanings) := by
  intro r mem side edge
  obtain ⟨f, inside, rfl⟩ := List.mem_map.1 mem
  have declared := placed.declares inside
  rw [name_renderedField, Phrase.meaning, placed.field?_name declared, Option.elim_some]
  cases kind : f.nestedKind? with
  | none =>
    rw [edge_renderedField kind] at edge
    have nonempty : f.alternatives ≠ [] := fun empty => by simp [Edge.ofAll, empty] at edge
    have own := wording.alternatives f declared
    exact Ends.hasWord_of_sound (Field.bears_ends meanings kind own fun _ => nonempty).sound
      (Field.isWording_of_mem_texts own nonempty) side
  | some other =>
    have nests : f.kind = .nested other := by
      unfold Field.nestedKind? at kind
      split at kind
      · rename_i eq
        rw [eq, Option.some.inj kind]
      · cases kind
    have ends : f.ends meanings = meanings other := by rw [Field.ends, nests]
    have same : (renderedField nested f).edge side = (nested other).edge side := by
      rw [renderedField, nests]
      cases side <;> rfl
    rw [ends]
    exact (means f inside other nests).hasWord side (same ▸ edge)

/-- Snippets that can be empty at a settled end are optional placeholders. -/
theorem isWordOption_of_isSettled (placed : Placed phrase fields) (settled : phrase.IsSettled side)
    {run rest : List Snippet} (split : side.inward (Template.parse phrase.template) = run ++ rest)
    (silent : ∀ s ∈ run, ∃ ps, s = .parts ps ∧
      partsEdge? (fields.map (renderedField nested)) side (side.inward ps) = none) :
    ∀ s ∈ run, IsWordOption (fields.map (renderedField nested)) side s := by
  have empty : ∀ s ∈ run, phrase.mayBeEmpty s := by
    intro s mem
    obtain ⟨ps, rfl, edge⟩ := silent s mem
    refine List.all_eq_true.2 fun p inside => ?_
    obtain ⟨name, r, rfl, found, -, optional⟩ :=
      Rendering.partsEdge?_eq_none edge (side.mem_inward.2 inside)
    rw [find?_rendered placed] at found
    obtain ⟨f, declared, rfl⟩ := Option.map_eq_some_iff.1 found
    rw [isOptional_renderedField] at optional
    rw [Phrase.isOptionalPart, declared, Option.any_some, optional]
  intro s mem
  have sole : phrase.isSoleOptional s := by
    refine settled s ?_
    rw [split, List.takeWhile_append_of_pos empty]
    exact List.mem_append_left _ mem
  obtain ⟨f, found, -⟩ := (Option.any_eq_true _ _).1 sole
  obtain ⟨name, sole, -⟩ := Option.bind_eq_some_iff.1 found
  obtain ⟨ps, rfl, edge⟩ := silent s mem
  obtain rfl := Snippet.parts.inj (Snippet.eq_of_soleField? sole)
  obtain ⟨_, r, eq, found, word, optional⟩ :=
    Rendering.partsEdge?_eq_none edge (side.mem_inward.2 List.mem_cons_self)
  obtain rfl := Part.field.inj eq
  refine ⟨r, ?_, word⟩
  rw [optionalField?, sole, Option.bind_some, found, Option.filter_some, if_pos optional]

end Compiler

namespace Lexicon

variable {v : Vocabulary} {l : Lexicon} {phrase : Phrase}

/-- If the pattern has a word edge at one end, and the snippets of the template that can be empty
at that end are placeholders of their own, then what the body matches has a word character
there. -/
theorem isWordChar_of_edge (built : build v = .ok l) (wording : ∀ phrase ∈ v, phrase.IsWording)
    (mem : phrase ∈ v) : ∃ e, l.find? phrase.kind = some e ∧
      ∀ side, phrase.IsSettled side → e.pattern.edge side = .word →
        ∀ s, e.pattern.MatchesInFull s → (side.inward s).head?.any Text.isWordChar := by
  obtain ⟨e, entry, describes⟩ := exists_entry built mem
  refine ⟨e, entry, fun side settled edge s matched => ?_⟩
  obtain ⟨fields, nested, placed, inner, assembled⟩ := describes.exists_assembled
  have own := wording phrase mem
  obtain ⟨meanings, means⟩ := Compiler.exists_meanings fun f mem other eq =>
    (inner f mem other eq).exists_means wording
  have body := Compiler.denotes_body placed own
    (fun f mem other eq => (means f mem other eq).denotes) assembled
  rw [Rendering.edge_of_assemble assembled] at edge
  have word := Rendering.hasWord_joinEnds (Compiler.sounds_of_placed placed own means)
    (fun s mem text inside => own.literals text (List.mem_flatMap.2 ⟨s, mem, inside⟩)) edge
    fun run rest split silent => Compiler.isWordOption_of_isSettled placed settled split silent
  obtain ⟨d, stop, step⟩ := (describes.matchesInFull_iff body).1 matched
  cases side with
  | leading => exact word _ d step rfl
  | trailing =>
    have ends := word _ d step (by simp [Cursor.atEnd, stop])
    obtain ⟨t, through⟩ := body.forward _ d step
    have whole : s = t := by simpa [stop, Cursor.start] using through.ahead
    rw [Cursor.behindIs, through.behind, Cursor.start, List.append_nil, ← whole] at ends
    exact ends

/-- A flag in front of a nested phrase, and one at the end. -/
def otherCreature : Vocabulary := [
  { kind := .colorFilter
    template := "{color}"
    fields := [.choice "color" { name := "Color", members := [⟨"Red", none⟩, ⟨"Blue", none⟩] }] },
  { kind := .objectRef
    template := "{other} {filter} creature {tapped}"
    fields := [.flag "other" ["other"], .nested "filter" .colorFilter,
      .flag "tapped" ["tapped"]] }]

theorem isWordChar_otherCreature : ∃ l e, build otherCreature = .ok l ∧
    l.find? .objectRef = some e ∧ ∀ s, e.pattern.MatchesInFull s →
      s.head?.any Text.isWordChar ∧ s.reverse.head?.any Text.isWordChar := by
  have checked : (build otherCreature).toOption.any fun l => (l.find? .objectRef).any fun e =>
      e.pattern.leading == .word && e.pattern.trailing == .word := by decide +kernel
  obtain ⟨l, built, check⟩ := (Option.any_eq_true _ _).1 checked
  obtain ⟨e, entry, edges⟩ := (Option.any_eq_true _ _).1 check
  have ok := Regex.Searcher.toOption_eq_some_iff.1 built
  obtain ⟨leading, trailing⟩ : e.pattern.leading = .word ∧ e.pattern.trailing = .word := by
    simpa using edges
  have wording : ∀ phrase ∈ otherCreature, phrase.IsWording := by decide +kernel
  obtain ⟨e', entry', all⟩ :=
    isWordChar_of_edge ok wording (List.mem_cons_of_mem _ List.mem_cons_self)
  obtain rfl := Option.some.inj (entry.symm.trans entry')
  exact ⟨l, e, ok, entry, fun s matched =>
    ⟨all .leading (by decide +kernel) leading s matched,
      all .trailing (by decide +kernel) trailing s matched⟩⟩

/-- Two flags that make up one word. -/
def nonMoreCreature : Phrase where
  kind := .colorFilter
  template := "{non}{more} creature"
  fields := [.flag "non" ["non"], .flag "more" ["more"]]

/-- Two flags in one word leave the space behind it, and the edge is read off the next word. -/
theorem matchesInFull_nonMoreCreature : nonMoreCreature.IsWording ∧
    ∃ l e, build [nonMoreCreature] = .ok l ∧ l.find? .colorFilter = some e ∧
      e.pattern.leading = .word ∧ e.pattern.MatchesInFull " creature" ∧
        ¬ (" creature" : Text).head?.any Text.isWordChar := by
  have checked : (build [nonMoreCreature]).toOption.any fun l =>
      (l.find? .colorFilter).any fun e =>
        decide (e.pattern.leading = .word ∧ e.pattern.MatchesInFull " creature") := by
    decide +kernel
  obtain ⟨l, built, check⟩ := (Option.any_eq_true _ _).1 checked
  obtain ⟨e, entry, matched⟩ := (Option.any_eq_true _ _).1 check
  obtain ⟨leading, matched⟩ := of_decide_eq_true matched
  exact ⟨by decide +kernel, l, e, Regex.Searcher.toOption_eq_some_iff.1 built, entry, leading,
    matched, by decide⟩

end Lexicon

end RulesText
