import RulesText.Proofs.Pattern.Choices
import RulesText.Proofs.Pattern.Compiled
import RulesText.Proofs.Pattern.Meaning

/-!
# The texts that a field stands for

A field whose alternatives are wording stands for a finite list of texts, its alternatives and,
where they are asked for, their plurals. The group of the field matches just these, at the
boundaries of words if the field is bounded.

## Main definitions

* `Alternation.plural?`: the plural of a word.
* `Alternation.texts`: the texts that some alternatives stand for.
* `Field.ends`: what a field matches.

## Main statements

* `Alternation.denotes_source`: the meaning of an alternation.
* `Compiler.denotes_group`: the meaning of the group of a field.
-/

namespace RulesText

open Pattern (Denotes Piece)
open Template (IsName)

namespace Alternation

variable {word t : Text} {words : List Text} {plural bounded : Bool} {c d : Cursor}

/-! ## Plurals -/

/-- The plural of a word that is given from its end. -/
def pluralOfReversed? : (reversed : Text) → Option Text
  | [] => none
  | last :: front =>
    if !last.isAlpha then none
    else if last == 'y' && front.head?.any (fun c => c.isAlpha && !isVowel c) then
      some (front.reverse ++ "ies")
    else if endsInSibilant (last :: front) then some ((last :: front).reverse ++ "es")
    else some ((last :: front).reverse ++ "s")

/-- The plural of a word, if it has one. -/
def plural? (word : Text) : Option Text :=
  pluralOfReversed? word.reverse

/-- The texts that an alternative stands for. -/
def textsOf (plural : Bool) (word : Text) : List Text :=
  word :: if plural then (plural? word).toList else []

/-- The texts that some alternatives stand for. If there are none, this is the empty text, which
is what a group without branches matches. -/
def texts (plural : Bool) : (alternatives : List Text) → List Text
  | [] => [[]]
  | words => words.flatMap (textsOf plural)

theorem texts_of_ne_nil (nonempty : words ≠ []) :
    texts plural words = words.flatMap (textsOf plural) := by
  cases words with
  | nil => exact absurd rfl nonempty
  | cons word words => rfl

theorem texts_ne_nil (plural : Bool) (words : List Text) : texts plural words ≠ [] := by
  cases words <;> simp [texts, textsOf]

/-- Wording that ends in a consonant and a letter y is wording without that letter. -/
theorem isWording_stem {front : Text} {y : Char} (h : Text.IsWording (front.reverse ++ [y]))
    (consonant : front.head?.any fun c => c.isAlpha && !isVowel c) :
    Text.IsWording front.reverse := by
  cases front with
  | nil => cases consonant
  | cons last front =>
    have alpha : last.isAlpha := by simp_all
    have other : last ≠ ' ' := by
      rintro rfl
      exact absurd alpha (by decide)
    refine ⟨by simp, fun c mem => h.chars c (List.mem_append_left _ mem), ?_, ?_, ?_⟩
    · have first := h.spaced.first
      rwa [List.head?_append_of_ne_nil _ (by simp)] at first
    · simpa using other
    · exact (List.isChain_append.1 h.spaced.inner).1

theorem isWording_pluralOfReversed? {reversed : Text} (h : Text.IsWording reversed.reverse) :
    ∀ t ∈ pluralOfReversed? reversed, t.IsWording := by
  fun_cases pluralOfReversed? reversed with
  | case1 => simp
  | case2 => simp
  | case3 last front _ y =>
    rintro _ ⟨⟩
    simp only [Bool.and_eq_true] at y
    rw [List.reverse_cons] at h
    exact (isWording_stem h y.2).append (List.all_eq_true.1 (by decide))
  | case4 last front =>
    rintro _ ⟨⟩
    exact h.append (List.all_eq_true.1 (by decide))
  | case5 last front =>
    rintro _ ⟨⟩
    exact h.append (List.all_eq_true.1 (by decide))

/-- The texts of wording are wording. -/
theorem isWording_of_mem_textsOf (h : word.IsWording) (mem : t ∈ textsOf plural word) :
    t.IsWording := by
  rcases List.mem_cons.1 mem with rfl | mem
  · exact h
  · split at mem
    · have reversed : Text.IsWording word.reverse.reverse := by rwa [List.reverse_reverse]
      exact isWording_pluralOfReversed? reversed t (Option.mem_toList.1 mem)
    · cases mem

/-! ## Forms -/

theorem denotes_append_optional {ending : Text} (chars : ∀ x ∈ word, x.isAlphanum ∨ x = ' ')
    (chars' : ∀ x ∈ ending, x.isAlphanum ∨ x = ' ') :
    Denotes (word ++ ("(?:" ++ ending ++ ")?")) (Ends.oneOf [word, word ++ ending]) := by
  refine (Denotes.append (.text chars) (.optional (.text chars'))).congr fun c d => ?_
  simp only [Ends.oneOf, List.mem_cons, List.not_mem_nil, or_false, exists_eq_or_imp,
    exists_eq_left, Cursor.through_append]
  constructor
  · rintro ⟨e, through, rfl | rest⟩
    · exact .inl through
    · exact .inr ⟨e, through, rest⟩
  · rintro (through | ⟨e, first, rest⟩)
    · exact ⟨d, through, .inl rfl⟩
    · exact ⟨e, first, .inr rest⟩

theorem denotes_pluralizeReversed {reversed : Text} (h : Text.IsWording reversed.reverse) :
    Denotes (pluralizeReversed reversed)
      (Ends.oneOf (reversed.reverse :: (pluralOfReversed? reversed).toList)) := by
  have itself : ∀ t : Text, Ends.oneOf [t] = Ends.text t := fun t => by
    funext c d
    simp [Ends.oneOf, Ends.text]
  unfold pluralOfReversed?
  fun_cases pluralizeReversed reversed with
  | case1 => exact absurd rfl h.ne_nil
  | case2 last front noLetter =>
    simp only [noLetter, if_true, Option.toList_none, itself]
    exact .text h.chars
  | case3 last front letter y =>
    obtain ⟨rfl, consonant⟩ : last = 'y' ∧ front.head?.any (fun c => c.isAlpha && !isVowel c) := by
      simpa using y
    rw [List.reverse_cons] at h
    have stem := (isWording_stem h consonant).chars
    have endings : ∀ t ∈ [("y" : Text), "ies"], ∀ x ∈ t, x.isAlphanum ∨ x = ' ' := by simp
    simp only [letter, y, if_true, List.reverse_cons]
    refine (Denotes.append (.text stem) (.oneOf (by simp) endings)).congr fun c d => ?_
    simp [Ends.oneOf, Ends.seq, Ends.text, Cursor.through_append, ← exists_or, ← and_or_left]
  | case4 last front letter y sibilant =>
    have ending : ∀ x ∈ ("es" : Text), x.isAlphanum ∨ x = ' ' :=
      Text.forall_isAlphanum_iff.2 (by decide)
    simp only [letter, y, sibilant, if_true]
    exact denotes_append_optional h.chars ending
  | case5 last front letter y sibilant =>
    have ending : ∀ x ∈ ("s" : Text), x.isAlphanum ∨ x = ' ' :=
      Text.forall_isAlphanum_iff.2 (by decide)
    simp only [letter, y, sibilant]
    exact denotes_append_optional h.chars ending

/-- A form of a word matches the texts that the word stands for. -/
theorem denotes_form (h : word.IsWording) (plural : Bool) :
    Denotes (form plural word) (Ends.oneOf (textsOf plural word)) := by
  unfold form textsOf
  split
  · have reversed : Text.IsWording word.reverse.reverse := by rwa [List.reverse_reverse]
    have denotes := denotes_pluralizeReversed reversed
    rwa [List.reverse_reverse] at denotes
  · refine (Denotes.text h.chars).congr fun c d => ?_
    simp [Ends.oneOf, Ends.text]

theorem notMem_form (h : word.IsWording) (plural : Bool) : '<' ∉ form plural word := by
  have own : '<' ∉ word := fun mem => absurd (h.chars _ mem) (by decide)
  have letters : ∀ reversed : Text, '<' ∉ reversed → '<' ∉ pluralizeReversed reversed := by
    intro reversed none
    fun_cases pluralizeReversed reversed <;> simp_all
  unfold form pluralize
  split
  · exact letters _ (by simpa using own)
  · exact own

/-! ## Alternations -/

/-- What an alternation matches. -/
def ends (plural bounded : Bool) (words : List Text) : Ends Cursor :=
  if bounded then (Ends.boundary.seq (.oneOf (texts plural words))).seq Ends.boundary
  else .oneOf (texts plural words)

/-- The group of an alternation. -/
theorem denotes_group_forms (all : ∀ w ∈ words, Text.IsWording w) (plural : Bool) :
    Denotes ("(?:" ++ Text.join ['|'] (longestFirst (distinct (words.map (form plural)))) ++ ")")
      (Ends.oneOf (texts plural words)) := by
  by_cases nonempty : words = []
  · subst nonempty
    refine Denotes.emptyGroup.congr fun c d => ?_
    simp only [Ends.oneOf, texts, List.mem_singleton, exists_eq_left, Ends.skip]
    exact ⟨fun same => same ▸ .refl c, fun through => through.eq⟩
  have same : ∀ q, q ∈ longestFirst (distinct (words.map (form plural))) ↔
      ∃ w ∈ words, form plural w = q := fun q => by
    rw [mem_longestFirst, mem_distinct, List.mem_map]
  have some_form : longestFirst (distinct (words.map (form plural))) ≠ [] := by
    obtain ⟨w, mem⟩ := List.exists_mem_of_ne_nil _ nonempty
    exact List.ne_nil_of_mem ((same _).2 ⟨w, mem, rfl⟩)
  have pieces : ∀ w ∈ words, Piece (form plural w) [] := fun w mem =>
    (denotes_form (all w mem) plural).piece_of_noAngle (notMem_form (all w mem) plural)
  refine (Denotes.choice some_form (fun q mem => ?_) fun q mem => ?_).congr fun c d => ?_
  · obtain ⟨w, own, rfl⟩ := (same q).1 mem
    exact pieces w own
  · obtain ⟨w, own, rfl⟩ := (same q).1 mem
    exact ⟨_, denotes_form (all w own) plural⟩
  · simp only [same, texts_of_ne_nil nonempty, Ends.oneOf, List.mem_flatMap]
    constructor
    · rintro ⟨q, ⟨w, mem, rfl⟩, M, denotes, step⟩
      obtain ⟨t, own, through⟩ :=
        (denotes.unique (denotes_form (all w mem) plural) (pieces w mem)).1 step
      exact ⟨t, ⟨w, mem, own⟩, through⟩
    · rintro ⟨t, ⟨w, mem, own⟩, through⟩
      exact ⟨_, ⟨w, mem, rfl⟩, _, denotes_form (all w mem) plural, t, own, through⟩

/-- An alternation of wording matches the texts that its alternatives stand for. -/
theorem denotes_source (all : ∀ w ∈ words, Text.IsWording w) (plural bounded : Bool) :
    Denotes (source words plural bounded) (ends plural bounded words) := by
  have mapped : words.map (form plural) = if plural then words.map pluralize else words := by
    cases plural with
    | true => rfl
    | false => exact List.map_id' words
  have body := denotes_group_forms all plural
  rw [mapped] at body
  unfold source ends
  dsimp only
  split
  · exact .append (.append .wordBoundary body) .wordBoundary
  · exact body

end Alternation

/-! ## Fields -/

/-- What a field matches, where nested phrases match what is given. -/
def Field.ends (nested : Kind → Ends Cursor) (f : Field) : Ends Cursor :=
  match f.kind with
  | .nested kind => nested kind
  | _ => Alternation.ends f.isPlural f.isBounded f.alternatives

namespace Compiler

/-- The group of a field matches what the field matches. -/
theorem denotes_group {nested : Kind → Pattern} {meaning : Kind → Ends Cursor} {f : Field}
    (isName : IsName f.name) (wording : ∀ t ∈ f.alternatives, t.IsWording)
    (inner : ∀ kind, f.kind = .nested kind → Denotes (nested kind).source (meaning kind)) :
    Denotes (renderedField nested f).group (f.ends meaning) := by
  unfold renderedField Field.ends
  unfold Field.alternatives at wording ⊢
  cases eq : f.kind with
  | nested kind => exact .named isName ((inner kind eq).qualifyGroups isName)
  | choice family | flag alternatives | words alternatives =>
    rw [eq] at wording
    exact .named isName (Alternation.denotes_source wording f.isPlural f.isBounded)

end Compiler

end RulesText
