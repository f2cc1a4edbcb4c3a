import RulesText.Proofs.Pattern.FieldTexts

/-!
# The order of the forms in an alternation

An alternation has each of its forms once, longer ones first, and forms of one length in the order
in which their words were declared. The form of a word that has a plural is longer than the word
by more or less: by the ending and by the characters of the group around it. So a longer word can
have a form that is no longer.

## Main definitions

* `Alternation.Inflects`: how a word makes its plural, and the form for both.

## Main statements

* `Alternation.exists_order`: the words in the order in which an alternation tries their forms.
* `Alternation.isPrefix_of_longer`: only a word that another one begins with can hide it.
-/

namespace RulesText.Alternation

open Text (byteSize)

variable {a b w p q t f g : Text} {ws l : List Text} {plural : Bool}

/-! ## Sorting -/

theorem pairwise_insertByLength {R : Text → Text → Prop} (own : ∀ b ∈ l, R a b)
    (sorted : l.Pairwise fun x y => byteSize y < byteSize x ∨ byteSize y = byteSize x ∧ R x y) :
    (insertByLength a l).Pairwise fun x y =>
      byteSize y < byteSize x ∨ byteSize y = byteSize x ∧ R x y := by
  induction l with
  | nil => exact List.pairwise_singleton ..
  | cons b l ih =>
    obtain ⟨first, rest⟩ := List.pairwise_cons.1 sorted
    obtain ⟨-, others⟩ := List.forall_mem_cons.1 own
    rw [insertByLength]
    split
    · rename_i le
      refine List.pairwise_cons.2 ⟨fun y mem => ?_, sorted⟩
      have below : byteSize y ≤ byteSize b := by
        rcases List.mem_cons.1 mem with rfl | mem
        · exact Nat.le_refl _
        · rcases first y mem with lt | ⟨eq, -⟩ <;> omega
      rcases Nat.lt_or_eq_of_le (Nat.le_trans below le) with lt | eq
      · exact .inl lt
      · exact .inr ⟨eq, own y mem⟩
    · rename_i longer
      refine List.pairwise_cons.2 ⟨fun y mem => ?_, ih others rest⟩
      rcases mem_insertByLength.1 mem with rfl | mem
      · exact .inl (Nat.lt_of_not_le longer)
      · exact first y mem

/-- Sorting by length keeps what holds between the texts of one length. -/
theorem pairwise_longestFirst {R : Text → Text → Prop} (h : l.Pairwise R) :
    (longestFirst l).Pairwise fun x y =>
      byteSize y < byteSize x ∨ byteSize y = byteSize x ∧ R x y := by
  induction l with
  | nil => exact .nil
  | cons a l ih =>
    obtain ⟨own, rest⟩ := List.pairwise_cons.1 h
    rw [longestFirst, List.foldr_cons]
    exact pairwise_insertByLength (fun b mem => own b (mem_longestFirst.1 mem)) (ih rest)

theorem distinct_append_singleton (l : List Text) (a : Text) :
    distinct (l ++ [a]) = if a ∈ l then distinct l else distinct l ++ [a] := by
  have known : (distinct l).contains a ↔ a ∈ l := by
    rw [List.contains_iff_mem, mem_distinct]
  rw [distinct, List.foldl_append, List.foldl_cons, List.foldl_nil, ← distinct]
  simp only [known]

/-- The first occurrences keep their order. -/
theorem pairwise_distinct (l : List Text) :
    (distinct l).Pairwise fun x y => l.idxOf x < l.idxOf y := by
  induction l using List.reverseRecOn with
  | nil => exact .nil
  | append_singleton l a ih =>
    have earlier : (distinct l).Pairwise fun x y => (l ++ [a]).idxOf x < (l ++ [a]).idxOf y :=
      ih.imp_of_mem fun {x y} hx hy lt => by
        rwa [List.idxOf_append_of_mem (mem_distinct.1 hx),
          List.idxOf_append_of_mem (mem_distinct.1 hy)]
    rw [distinct_append_singleton]
    split
    · exact earlier
    · rename_i new
      refine List.pairwise_append.2 ⟨earlier, List.pairwise_singleton .., fun x hx y hy => ?_⟩
      have known := mem_distinct.1 hx
      obtain rfl := List.mem_singleton.1 hy
      rw [List.idxOf_append_of_mem known, List.idxOf_append_of_notMem new]
      exact Nat.lt_add_right _ (List.idxOf_lt_length_of_mem known)

/-! ## Plurals of words -/

/-- How a word makes its plural, and the form that stands for both. -/
inductive Inflects : (word plural form : Text) → Prop
  | y {stem : Text} (consonant : stem.reverse.head?.any fun c => c.isAlpha && !isVowel c) :
    Inflects (stem ++ "y") (stem ++ "ies") (stem ++ "(?:y|ies)")
  | es {word : Text} (sibilant : endsInSibilant word.reverse) :
    Inflects word (word ++ "es") (word ++ "(?:es)?")
  | s {word : Text} (other : endsInSibilant word.reverse = false) :
    Inflects word (word ++ "s") (word ++ "(?:s)?")

theorem exists_inflects (word : w.IsLowerWord) :
    ∃ p, plural? w = some p ∧ Inflects w p (pluralize w) := by
  obtain ⟨last, front, eq⟩ := List.exists_cons_of_ne_nil (List.reverse_ne_nil_iff.2 word.ne_nil)
  have letter : last.isAlpha := by
    have lower := word.lower last (List.mem_reverse.1 (eq ▸ List.mem_cons_self))
    exact Template.isAlpha_of_isLower lower
  have own : w = front.reverse ++ [last] := by
    rw [← List.reverse_reverse w, eq, List.reverse_cons]
  rw [plural?, pluralize, eq, pluralOfReversed?, pluralizeReversed]
  simp only [letter, Bool.not_true, Bool.false_eq_true, if_false]
  split
  · rename_i y
    simp only [Bool.and_eq_true, beq_iff_eq] at y
    obtain ⟨rfl, consonant⟩ := y
    refine ⟨_, rfl, ?_⟩
    rw [own]
    exact .y (by rwa [List.reverse_reverse])
  · split
    · rename_i sibilant
      refine ⟨_, rfl, ?_⟩
      rw [List.reverse_cons, ← own]
      exact .es (eq ▸ sibilant)
    · rename_i other
      refine ⟨_, rfl, ?_⟩
      rw [List.reverse_cons, ← own]
      exact .s (eq ▸ Bool.eq_false_iff.2 other)

namespace Inflects

theorem length_lt (h : Inflects w p q) : w.length < p.length := by
  cases h <;> simp

theorem length_add_le (h : Inflects w p q) : w.length + 6 ≤ q.length := by
  cases h <;> simp

theorem length_le (h : Inflects w p q) : q.length ≤ p.length + 6 := by
  cases h <;> simp

/-- Plurals end in the letter s. -/
theorem exists_eq_append (h : Inflects w p q) : ∃ front, p = front ++ ['s'] := by
  cases h with
  | @y stem => exact ⟨stem ++ "ie", by simp⟩
  | es => exact ⟨w ++ "e", by simp⟩
  | s => exact ⟨w, rfl⟩

/-- A plural that is a word of its own makes its plural with a longer ending. -/
theorem length_add_seven_le {p' q' : Text} (h : Inflects w p q) (h' : Inflects p p' q') :
    p.length + 7 ≤ q'.length := by
  obtain ⟨front, rfl⟩ := h.exists_eq_append
  generalize eq : front ++ ['s'] = word at h'
  cases h' with
  | y => simp_all
  | es => simp
  | s other =>
    subst eq
    simp [endsInSibilant] at other

/-- What ends in a vowel makes its plural with the letter s alone. -/
theorem eq_of_vowel {c : Char} (h : Inflects (w ++ [c]) p q) (vowel : c = 'e' ∨ c = 'i') :
    p = w ++ [c] ++ ['s'] ∧ q.length = w.length + 7 := by
  generalize eq : w ++ [c] = word at h
  cases h with
  | y => rcases vowel with rfl | rfl <;> simp_all
  | es sibilant =>
    subst eq
    rcases vowel with rfl | rfl <;> simp [endsInSibilant] at sibilant
  | s =>
    subst eq
    exact ⟨rfl, by simp⟩

variable {p' q' : Text}

/-- A text of a word that another word begins with is the word itself, if its form is no shorter. -/
theorem isPrefix (ha : Inflects a p q) (hb : Inflects b p' q') (ne : a ≠ b)
    (le : q'.length ≤ q.length) (own : f = p ∨ f = a) (pre : f <+: b) : a <+: b := by
  rcases own with rfl | rfl
  · have short := ha.length_le
    have long := hb.length_add_le
    have shorter := pre.length_le
    have same : f.length = b.length := by omega
    obtain rfl := pre.eq_of_length same
    have longer := ha.length_add_seven_le hb
    omega
  · exact pre

/-- Where the best text of one word hides a longer text of another one whose form is no longer,
the other word begins with the one. -/
theorem isPrefix_of_longer (ha : Inflects a p q) (hb : Inflects b p' q') (ne : a ≠ b)
    (le : q'.length ≤ q.length) (own : f = p ∨ f = a) (best : p <+: t → f = p)
    (own' : g = p' ∨ g = b) (hf : f <+: t) (hg : g <+: t) (lt : f.length < g.length) :
    a <+: b := by
  have pre : f <+: g := List.prefix_of_prefix_length_le hf hg (Nat.le_of_lt lt)
  have proper : f ≠ g := fun eq => Nat.ne_of_lt lt (congrArg _ eq)
  have inside : f <+: b → a <+: b := ha.isPrefix hb ne le own
  -- What ends in a vowel is no plural, so it is the word itself.
  have itself : ∀ {v : Text} {c : Char}, f = v ++ [c] → c = 'e' ∨ c = 'i' →
      a = v ++ [c] ∧ p = v ++ [c] ++ ['s'] ∧ q.length = v.length + 7 := by
    intro v c eq vowel
    obtain rfl : f = a := own.resolve_left fun plural => by
      obtain ⟨front, rfl⟩ := ha.exists_eq_append
      obtain ⟨-, last⟩ := List.append_inj' (plural.symm.trans eq) rfl
      obtain rfl := List.singleton_inj.1 last
      rcases vowel with vowel | vowel <;> cases vowel
    subst eq
    exact ⟨rfl, ha.eq_of_vowel vowel⟩
  rcases own' with rfl | rfl
  swap
  · exact inside pre
  cases hb with
  | s => exact inside ((List.prefix_concat_iff.1 pre).resolve_left proper)
  | es =>
    have split : b ++ "es" = b ++ ['e'] ++ ['s'] := by simp
    rw [split] at pre proper hg
    rcases List.prefix_concat_iff.1 ((List.prefix_concat_iff.1 pre).resolve_left proper) with
      eq | pre
    · obtain ⟨-, plural, -⟩ := itself eq (.inl rfl)
      exact absurd ((best (plural ▸ hg)).trans plural) proper
    · exact inside pre
  | @y stem =>
    have split : stem ++ "ies" = stem ++ ['i'] ++ ['e'] ++ ['s'] := by simp
    rw [split] at pre proper hg
    rcases List.prefix_concat_iff.1 ((List.prefix_concat_iff.1 pre).resolve_left proper) with
      eq | pre
    · obtain ⟨-, plural, -⟩ := itself eq (.inl rfl)
      exact absurd ((best (plural ▸ hg)).trans plural) proper
    rcases List.prefix_concat_iff.1 pre with eq | pre
    · obtain ⟨-, -, length⟩ := itself eq (.inr rfl)
      simp [length] at le
    · exact inside (pre.trans (List.prefix_append stem _))

end Inflects

/-! ## Forms of words -/

theorem byteSize_of_lower (lower : ∀ c ∈ w, c.isLower) : byteSize w = w.length := by
  induction w with
  | nil => rfl
  | cons c w ih =>
    obtain ⟨own, others⟩ := List.forall_mem_cons.1 lower
    have one : Text.lowercaseLetters.all fun c => c.utf8Size == 1 := by decide
    have size : c.utf8Size = 1 := by simpa using Text.of_isLower one own
    rw [Text.byteSize_cons, ih others, size, List.length_cons, Nat.add_comm]

theorem byteSize_form (word : w.IsLowerWord) (plural : Bool) :
    byteSize (form plural w) = (form plural w).length := by
  unfold form
  split
  · obtain ⟨p, -, inflects⟩ := exists_inflects word
    have lower := word.lower
    generalize pluralize w = q at inflects
    cases inflects with
    | y =>
      have stem := byteSize_of_lower fun c mem => lower c (List.mem_append_left _ mem)
      simp [stem, Char.utf8Size]
    | es | s => simp [byteSize_of_lower lower, Char.utf8Size]
  · exact byteSize_of_lower word.lower

/-- What a word has and its form does not, with the form's group behind its first parenthesis. -/
def endings : List (Text × Text) :=
  [("y", "?:y|ies)"), ("", "?:es)?"), ("", "?:s)?")]

theorem Inflects.exists_ending (h : Inflects w p q) :
    ∃ front, ∃ e ∈ endings, w = front ++ e.1 ∧ q = front ++ '(' :: e.2 := by
  cases h with
  | @y stem => exact ⟨stem, ("y", "?:y|ies)"), by simp [endings], rfl, rfl⟩
  | es => exact ⟨w, ("", "?:es)?"), by simp [endings], by simp, rfl⟩
  | s => exact ⟨w, ("", "?:s)?"), by simp [endings], by simp, rfl⟩

theorem form_inj (ha : a.IsLowerWord) (hb : b.IsLowerWord) (same : form plural a = form plural b) :
    a = b := by
  unfold form at same
  split at same
  swap
  · exact same
  have cut : ∀ {front last : Text} (ending : Text), (front ++ last).IsLowerWord →
      (front ++ '(' :: ending).takeWhile (· != '(') = front := by
    intro front last ending word
    have letters : ∀ c ∈ front, (c != '(') = true := fun c mem => bne_iff_ne.2 fun eq =>
      absurd (word.lower c (List.mem_append_left _ mem)) (eq ▸ by decide)
    rw [List.takeWhile_append_of_pos letters]
    simp
  obtain ⟨p, -, inflects⟩ := exists_inflects ha
  obtain ⟨p', -, inflects'⟩ := exists_inflects hb
  obtain ⟨front, e, mem, rfl, eq⟩ := inflects.exists_ending
  obtain ⟨front', e', mem', rfl, eq'⟩ := inflects'.exists_ending
  rw [eq, eq'] at same
  obtain rfl : front = front' := by rw [← cut e.2 ha, same, cut e'.2 hb]
  have group : e.2 = e'.2 := (List.cons.inj (List.append_cancel_left same)).2
  have last : ∀ e ∈ endings, ∀ e' ∈ endings, e.2 = e'.2 → e.1 = e'.1 := by decide
  rw [last e mem e' mem' group]

/-- The word whose form is tried before the form of the other one. -/
def IsTriedBefore (plural : Bool) (ws : List Text) (b a : Text) : Prop :=
  (form plural a).length < (form plural b).length ∨
    (form plural a).length = (form plural b).length ∧ ws.idxOf b < ws.idxOf a

instance (plural : Bool) (ws : List Text) (b a : Text) : Decidable (IsTriedBefore plural ws b a) :=
  inferInstanceAs (Decidable (_ ∨ _))

theorem idxOf_map_form (plural : Bool) (all : ∀ w ∈ ws, w.IsLowerWord) (mem : a ∈ ws) :
    (ws.map (form plural)).idxOf (form plural a) = ws.idxOf a := by
  induction ws with
  | nil => cases mem
  | cons w ws ih =>
    obtain ⟨own, others⟩ := List.forall_mem_cons.1 all
    rw [List.map_cons]
    by_cases eq : w = a
    · rw [eq, List.idxOf_cons_self, List.idxOf_cons_self]
    · have other := (List.mem_cons.1 mem).resolve_left (Ne.symm eq)
      have forms : form plural w ≠ form plural a := fun same =>
        eq (form_inj own (others a other) same)
      rw [List.idxOf_cons_ne _ forms, List.idxOf_cons_ne _ eq, ih others other]

/-- The words in the order in which an alternation tries their forms. -/
theorem exists_order (all : ∀ w ∈ ws, w.IsLowerWord) (plural : Bool) :
    ∃ order : List Text, longestFirst (distinct (ws.map (form plural))) = order.map (form plural) ∧
      (∀ w, w ∈ order ↔ w ∈ ws) ∧ order.Pairwise (IsTriedBefore plural ws) := by
  have source : ∀ q ∈ longestFirst (distinct (ws.map (form plural))),
      ∃ w ∈ ws, form plural w = q := fun q mem =>
    List.mem_map.1 (mem_distinct.1 (mem_longestFirst.1 mem))
  choose! word known same using source
  refine ⟨(longestFirst (distinct (ws.map (form plural)))).map word, ?_, fun w => ⟨?_, ?_⟩, ?_⟩
  · rw [List.map_map]
    exact ((List.map_congr_left same).trans (List.map_id _)).symm
  · intro mem
    obtain ⟨q, inside, rfl⟩ := List.mem_map.1 mem
    exact known q inside
  · intro mem
    have inside : form plural w ∈ longestFirst (distinct (ws.map (form plural))) :=
      mem_longestFirst.2 (mem_distinct.2 (List.mem_map_of_mem mem))
    have eq := form_inj (all _ (known _ inside)) (all w mem) (same _ inside)
    exact List.mem_map.2 ⟨_, inside, eq⟩
  · refine List.pairwise_map.2 ((pairwise_longestFirst (pairwise_distinct _)).imp_of_mem ?_)
    intro x y hx hy before
    have wordX := all _ (known x hx)
    have wordY := all _ (known y hy)
    unfold IsTriedBefore
    rw [← byteSize_form wordX, ← byteSize_form wordY, same x hx, same y hy,
      ← idxOf_map_form plural all (known x hx),
      ← idxOf_map_form plural all (known y hy), same x hx, same y hy]
    exact before

end RulesText.Alternation
