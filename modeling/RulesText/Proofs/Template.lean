import RulesText.Proofs.Text.Words
import RulesText.Template

/-!
# What a template is made of

The snippets of a template, written out again one after the other, are the template without its
blanks. The names of placeholders hold no double quotes, so all quotes of a template are in the
literal text of its snippets.

## Main definitions

* `Template.IsName`: a text that can be the name of a placeholder.
-/

namespace RulesText

namespace Template

variable {t literal word rest name : Text} {p : Part} {s : Snippet}

/-! ## Names -/

/-- A name of lowercase letters, digits and underscores that does not begin with a digit. -/
structure IsName (name : Text) : Prop where
  ne_nil : name ≠ []
  starts : name.head?.any isNameStart = true
  chars : ∀ c ∈ name, isNameChar c = true

theorem placeholder?_eq_some (h : placeholder? t = some (name, rest)) :
    IsName name ∧ t = name ++ '}' :: rest := by
  have parted := List.takeWhile_append_dropWhile (p := isNameChar) (l := t)
  have inside : ∀ c ∈ t.takeWhile isNameChar, isNameChar c = true :=
    fun c mem => List.all_eq_true.1 List.all_takeWhile c mem
  unfold placeholder? at h
  split at h
  case h_2 => cases h
  case h_1 c front back eq_front eq_back =>
    split at h
    case isFalse => cases h
    case isTrue starts =>
      obtain ⟨rfl, rfl⟩ := Prod.mk.inj (Option.some.inj h)
      rw [eq_front] at inside parted
      rw [eq_back] at parted
      exact ⟨⟨List.cons_ne_nil _ _, by simpa using starts, inside⟩, parted.symm⟩

theorem IsName.notMem_of_not_isNameChar (h : IsName name) {c : Char}
    (other : isNameChar c = false) : c ∉ name :=
  fun mem => by simp [h.chars c mem] at other

/-! ## The parts of a word -/

theorem source_flush (literal : Text) (parts : List Part) :
    (flush literal parts).flatMap Part.source = literal.reverse ++ parts.flatMap Part.source := by
  unfold flush
  split <;> simp_all [Part.source]

theorem source_splitParts (literal word : Text) :
    (splitParts literal word).flatMap Part.source = literal.reverse ++ word := by
  fun_induction splitParts literal word with
  | case1 literal => simp [source_flush]
  | case2 literal c word opens name rest found ih =>
    obtain ⟨-, rfl⟩ := placeholder?_eq_some found
    have : c = '{' := by simp_all
    simp [source_flush, Part.source, ih, this]
  | case3 literal c word opens none ih => simp [ih]
  | case4 literal c word opens ih => simp [ih]

theorem mem_flush {parts : List Part} (mem : p ∈ flush literal parts) :
    p = .literal literal.reverse ∧ literal ≠ [] ∨ p ∈ parts := by
  unfold flush at mem
  split at mem <;> simp_all

/-- The placeholders of a word have names. -/
theorem isName_of_mem_splitParts (mem : .field name ∈ splitParts literal word) : IsName name := by
  fun_induction splitParts literal word with
  | case1 literal => simpa using mem_flush mem
  | case2 literal c word opens other rest found ih =>
    rcases mem_flush mem with ⟨eq, -⟩ | mem
    · cases eq
    · rcases List.mem_cons.1 mem with eq | mem
      · obtain rfl := Part.field.inj eq
        exact (placeholder?_eq_some found).1
      · exact ih mem
  | case3 literal c word opens none ih => exact ih mem
  | case4 literal c word opens ih => exact ih mem

/-! ## Words -/

theorem source_peelEnd (reversed : Text) (closing : List Snippet) :
    (peelEnd reversed closing).1.reverse ++ (peelEnd reversed closing).2.flatMap Snippet.source =
      reversed.reverse ++ closing.flatMap Snippet.source := by
  fun_induction peelEnd reversed closing with
  | case1 closing => rfl
  | case2 c rest closing quote ih =>
    have : c = '"' := by simpa using quote
    simp [ih, this, Snippet.source]
  | case3 c rest closing quote mark ih => simp [ih, Snippet.source]
  | case4 c rest closing quote mark => rfl

theorem source_parseWord (word : Text) : (parseWord word).flatMap Snippet.source = word := by
  have opening : ((word.takeWhile (· == '"')).map fun _ => Snippet.quote).flatMap Snippet.source =
      word.takeWhile (· == '"') := by
    have : ∀ c ∈ word.takeWhile (· == '"'), c = '"' := fun c mem => by
      simpa using List.all_eq_true.1 List.all_takeWhile c mem
    generalize word.takeWhile (· == '"') = quotes at this ⊢
    induction quotes with
    | nil => rfl
    | cons c quotes ih => simp_all [Snippet.source]
  have peeled := source_peelEnd (word.drop (word.takeWhile (· == '"')).length).reverse []
  have inner : ∀ body : Text, (if body.isEmpty then [] else
      [Snippet.parts (splitParts [] body.reverse)]).flatMap Snippet.source = body.reverse := by
    intro body
    cases body <;> simp [Snippet.source, source_splitParts]
  have rest := List.prefix_iff_eq_append.1 (List.takeWhile_prefix (l := word) (· == '"'))
  rw [parseWord, List.flatMap_append, List.flatMap_append, opening, inner, List.append_assoc,
    peeled]
  simpa using rest

/-- Nothing of a template is lost but its blanks. -/
theorem source_parse (template : Text) :
    (parse template).flatMap Snippet.source = template.filter (!Text.isBlank ·) := by
  rw [parse, List.flatMap_assoc, funext source_parseWord, List.flatMap_id', Text.flatten_words]

/-! ## Snippets -/

theorem mem_peelEnd {reversed : Text} {closing : List Snippet}
    (mem : s ∈ (peelEnd reversed closing).2) :
    s ∈ closing ∨ s = .quote ∨ ∃ mark, isTerminalMark mark = true ∧ s = .terminal mark := by
  fun_induction peelEnd reversed closing with
  | case1 closing => exact .inl mem
  | case2 c rest closing quote ih =>
    rcases ih mem with mem | other
    · rcases List.mem_cons.1 mem with eq | mem
      · exact .inr (.inl eq)
      · exact .inl mem
    · exact .inr other
  | case3 c rest closing quote mark ih =>
    rcases ih mem with mem | other
    · rcases List.mem_cons.1 mem with eq | mem
      · exact .inr (.inr ⟨c, by simp_all, eq⟩)
      · exact .inl mem
    · exact .inr other
  | case4 c rest closing quote mark => exact .inl mem

/-- A snippet is the parts of a text, a closing mark or a quote. -/
theorem mem_parse (mem : s ∈ parse t) :
    (∃ body, body ≠ [] ∧ s = .parts (splitParts [] body)) ∨ s = .quote ∨
      ∃ mark, isTerminalMark mark = true ∧ s = .terminal mark := by
  obtain ⟨word, -, mem⟩ := List.mem_flatMap.1 mem
  rw [parseWord] at mem
  simp only [List.mem_append, List.mem_map] at mem
  rcases mem with (⟨_, -, rfl⟩ | mem) | mem
  · exact .inr (.inl rfl)
  · split at mem
    · simp at mem
    · exact .inl ⟨_, by simp_all, List.mem_singleton.1 mem⟩
  · exact .inr ((mem_peelEnd mem).resolve_left List.not_mem_nil)

theorem mem_fields_parts {parts : List Part} :
    name ∈ (Snippet.parts parts).fields ↔ .field name ∈ parts := by
  rw [Snippet.fields, List.mem_filterMap]
  constructor
  · rintro ⟨_ | other, mem, eq⟩
    · cases eq
    · exact Option.some.inj eq ▸ mem
  · exact fun mem => ⟨_, mem, rfl⟩

/-- The placeholders of a template have names. -/
theorem isName_of_mem_fields (mem : s ∈ parse t) (field : name ∈ s.fields) : IsName name := by
  rcases mem_parse mem with ⟨body, -, rfl⟩ | rfl | ⟨mark, -, rfl⟩
  · exact isName_of_mem_splitParts (mem_fields_parts.1 field)
  · cases field
  · cases field

theorem isName_of_mem_placeholders (mem : name ∈ placeholders (parse t)) : IsName name := by
  obtain ⟨s, mem, field⟩ := List.mem_flatMap.1 mem
  exact isName_of_mem_fields mem field

/-! ## Quotes -/

theorem count_source (names : ∀ name ∈ s.fields, IsName name) :
    s.source.count '"' = s.quotes := by
  cases s with
  | quote => rfl
  | terminal mark => rfl
  | parts parts =>
    simp only [mem_fields_parts] at names
    rw [Snippet.source, Snippet.quotes, Snippet.literalText]
    induction parts with
    | nil => rfl
    | cons p parts ih =>
      rw [List.flatMap_cons, List.flatMap_cons, List.count_append, List.count_append,
        ih fun name mem => names name (List.mem_cons_of_mem _ mem)]
      congr 1
      cases p with
      | literal text => rfl
      | field name =>
        have : '"' ∉ name :=
          (names name List.mem_cons_self).notMem_of_not_isNameChar (by decide)
        simpa [Part.source, Part.literalText] using List.count_eq_zero.2 this

/-- The quotes of a template are in the literal text of its snippets. -/
theorem count_literalText (template : Text) :
    ((parse template).flatMap Snippet.literalText).count '"' = template.count '"' := by
  have quote : Text.isBlank '"' = false := by decide
  calc ((parse template).flatMap Snippet.literalText).count '"'
    _ = ((parse template).map Snippet.quotes).sum := List.count_flatMap
    _ = ((parse template).map fun s => s.source.count '"').sum := by
      refine congrArg List.sum (List.map_congr_left fun s mem => ?_)
      exact (count_source fun name => isName_of_mem_fields mem).symm
    _ = ((parse template).flatMap Snippet.source).count '"' := List.count_flatMap.symm
    _ = template.count '"' := by
      rw [source_parse, List.count_filter (by simp [quote])]

end Template

end RulesText
