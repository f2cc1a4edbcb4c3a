import RulesText.Proofs.Pattern.FormOrder
import RulesText.Proofs.Pattern.Slots
import RulesText.Proofs.Regex.Nesting

/-!
# Which of several words an alternation takes

Where texts of several words are ahead, an alternation takes the plural of a word before the word
itself and the texts of one word before those of the next. So it takes the longest text that is
ahead, whatever stands there, just when a word that begins with another one is tried before it.

## Main definitions

* `Alternation.IsReadAs`: how the form of a word is read.
* `Alternation.TakesLongest`: of all texts that are ahead, an expression takes the longest.

## Main statements

* `Alternation.exists_tries`: in which order an alternation tries the words.
* `Alternation.takesLongest_iff`: when this is the longest text.
-/

namespace RulesText

open Regex (Reads HasBranches IsFragment NestsWithin char literal chain branchOf oneOf)

/-! ## Lowercase words -/

namespace Text.IsLowerWord

variable {w : Text}

theorem isAlphanum (word : w.IsLowerWord) : ∀ c ∈ w, c.isAlphanum := by
  intro c mem
  have letter := Template.isAlpha_of_isLower (word.lower c mem)
  simp [Char.isAlphanum, letter]

theorem isWording (word : w.IsLowerWord) : w.IsWording := by
  have other : ' ' ∉ w := fun mem => absurd (word.lower _ mem) (by decide)
  refine ⟨word.ne_nil, fun c mem => .inl (word.isAlphanum c mem), ?_, ?_, ?_⟩
  · exact fun first => other (List.mem_of_head? first)
  · exact fun last => other (List.mem_of_getLast? last)
  · exact (List.pairwise_of_forall_mem_list fun c mem d _ (space : c = ' ') =>
      absurd (space ▸ mem) other).isChain

end Text.IsLowerWord

theorem Regex.NestsWithin.letters {w : Text} (lower : ∀ c ∈ w, c.isLower) : NestsWithin 0 w := by
  induction w with
  | nil => exact .nil
  | cons c w ih =>
    obtain ⟨own, others⟩ := List.forall_mem_cons.1 lower
    have plain : c.isAlphanum ∨ c = ' ' :=
      .inl (by simp [Char.isAlphanum, Template.isAlpha_of_isLower own])
    exact (NestsWithin.char (readLexeme?_plain plain)).append (ih others) (stands_of_lower others)

namespace Alternation

variable {a b w f g p q t front ending : Text} {ws ends : List Text} {rs rs' : List Regex}
  {r : Regex} {m : Match} {plural : Bool}

/-! ## How forms are read -/

/-- How the form of a word is read: as letters with at most one more expression behind them. The
ways through it are the texts of the word that are ahead, its plural first. -/
structure IsReadAs (plural : Bool) (w : Text) (rs : List Regex) : Prop where
  reads : Reads false (form plural w) rs
  nests : NestsWithin 4 (form plural w)
  letters : ∃ (front : Text) (last : List Regex),
    (branchOf rs).items = front.map char ++ last ∧ last.length ≤ 1
  steady : ∀ r ∈ rs, r.isSteady
  ways : ∀ m, chain rs m = ((textsOf plural w).reverse.filter (· <+: m.stop.ahead)).map m.past

theorem items_branchOf_append (front : Text) (rs : List Regex) :
    (branchOf (front.map char ++ rs)).items =
      front.map char ++ (rs.flatMap Regex.items).flatMap Regex.items := by
  have letters : (front.map char).flatMap Regex.items = front.map char := by
    rw [List.flatMap_map]
    exact List.map_eq_flatMap.symm
  rw [branchOf, Regex.items_sequence, List.flatMap_append, List.flatMap_append, letters, letters]

/-- A text behind a word is ahead if it is ahead behind the word. -/
theorem map_past_append (front : Text) (ends : List Text) (m : Match) :
    ((ends.map (front ++ ·)).filter (· <+: m.stop.ahead)).map m.past =
      (chain (front.map char) m).flatMap fun n =>
        (ends.filter (· <+: n.stop.ahead)).map n.past := by
  rw [Regex.chain_chars]
  by_cases here : front <+: m.stop.ahead
  · obtain ⟨rest, eq⟩ := here
    have ahead : (m.past front).stop.ahead = rest := Cursor.ahead_past eq.symm
    rw [if_pos ⟨rest, eq⟩, List.flatMap_singleton, ahead, ← eq, List.filter_map, List.map_map]
    congr 1
    · funext e
      exact Match.past_append m front e
    · refine List.filter_congr fun e _ => ?_
      simp
  · have none : (ends.map (front ++ ·)).filter (· <+: m.stop.ahead) = [] := by
      rw [List.filter_eq_nil_iff]
      rintro t mem
      obtain ⟨e, -, rfl⟩ := List.mem_map.1 mem
      simpa using fun pre => here ((List.prefix_append front e).trans pre)
    rw [if_neg here, none]
    rfl

theorem IsReadAs.of_ending (ends : List Text)
    (texts : (textsOf plural w).reverse = ends.map (front ++ ·))
    (split : form plural w = front ++ ending) (lower : ∀ c ∈ front, c.isLower)
    (reads : Reads false ending [r]) (nests : NestsWithin 4 ending) (stands : Regex.Stands ending)
    (single : (r.items.flatMap Regex.items).length ≤ 1) (steady : r.isSteady)
    (ways : ∀ n : Match, r.ways n = (ends.filter (· <+: n.stop.ahead)).map n.past) :
    IsReadAs plural w (front.map char ++ [r]) where
  reads := split ▸ (Reads.letters lower).append reads stands
  nests := split ▸ ((NestsWithin.letters lower).mono (Nat.zero_le 4)).append nests stands
  letters := ⟨front, _, items_branchOf_append front [r], by simpa using single⟩
  steady := by
    intro s mem
    rcases List.mem_append.1 mem with mem | mem
    · obtain ⟨c, -, rfl⟩ := List.mem_map.1 mem
      rfl
    · exact List.mem_singleton.1 mem ▸ steady
  ways := by
    intro m
    rw [texts, map_past_append, Regex.chain_append]
    refine List.flatMap_congr fun n _ => ?_
    rw [Regex.chain_singleton, ways n]

/-- A form with an ending that may be left out. -/
theorem isReadAs_optional (word : w.IsLowerWord) (lower : ∀ c ∈ ending, c.isLower)
    (plural : plural? w = some (w ++ ending))
    (form : pluralize w = w ++ ("(?:" ++ ending ++ ")?")) :
    ∃ rs, IsReadAs true w rs := by
  have letters : Reads false ending (ending.map char) := Reads.letters lower
  refine ⟨_, .of_ending (r := .repetition (branchOf (ending.map char)) 0 (some 1) true)
    [ending, []] ?_ form word.lower ?_ ?_ ⟨by simp, by simp⟩ (Nat.le_refl 1) ?_ ?_⟩
  · simp [textsOf, plural]
  · have option := letters.hasBranches.optional
    rwa [Regex.oneOf_singleton, Regex.repeated_one] at option
  · exact (NestsWithin.letters lower).optional
  · simp [Regex.isSteady, Regex.distributes_isSteady.branchOf, char]
  · intro n
    have own := Slot.optionally_andThen (ending.map char) (fun n => [n]) n
    rw [Ways.andThen_nothing, Ways.andThen_nothing, Regex.chain_chars] at own
    refine Eq.trans own ?_
    by_cases here : ending <+: n.stop.ahead <;> simp [here]

/-- A form that ends in a letter y or in another ending. -/
theorem isReadAs_y {stem : Text} (word : (stem ++ "y").IsLowerWord)
    (plural : plural? (stem ++ "y") = some (stem ++ "ies"))
    (form : pluralize (stem ++ "y") = stem ++ "(?:y|ies)") :
    ∃ rs, IsReadAs true (stem ++ "y") rs := by
  have lower : ∀ c ∈ stem, c.isLower := fun c mem => word.lower c (List.mem_append_left _ mem)
  have branch : ∀ t : Text, (∀ c ∈ t, c.isLower) → HasBranches false t [literal t] := fun t lower =>
    Regex.branchOf_chars t ▸ (Reads.letters lower).hasBranches
  have first : ∀ c ∈ ("y" : Text), c.isLower := List.all_eq_true.1 (by decide)
  have second : ∀ c ∈ ("ies" : Text), c.isLower := List.all_eq_true.1 (by decide)
  refine ⟨_, .of_ending (r := oneOf (["y", "ies"].map literal)) ["ies", "y"]
    ?_ form lower ?_ ?_ ⟨by simp, by simp⟩ ?_ ?_ ?_⟩
  · rw [textsOf, if_pos rfl, plural]
    rfl
  · exact ((branch "y" first).or (branch "ies" second)).group
  · exact (((NestsWithin.letters first).or (NestsWithin.letters second)).group).mono (by decide)
  · decide
  · decide
  · intro n
    rw [Regex.ways_oneOf_words (by simp)]
    by_cases y : ['y'] <+: n.stop.ahead <;> by_cases ies : ['i', 'e', 's'] <+: n.stop.ahead
    · obtain ⟨u, eq⟩ := y
      obtain ⟨v, eq'⟩ := ies
      rw [← eq] at eq'
      simp at eq'
    all_goals simp [Regex.chain_chars, y, ies]

theorem exists_isReadAs (word : w.IsLowerWord) (plural : Bool) : ∃ rs, IsReadAs plural w rs := by
  cases plural with
  | false =>
    refine ⟨w.map char, Reads.letters word.lower,
      (NestsWithin.letters word.lower).mono (Nat.zero_le 4),
      ⟨w, [], by simpa using items_branchOf_append w [], Nat.zero_le 1⟩, ?_, fun m => ?_⟩
    · intro r mem
      obtain ⟨c, -, rfl⟩ := List.mem_map.1 mem
      rfl
    · rw [Regex.chain_chars]
      by_cases here : w <+: m.stop.ahead <;> simp [textsOf, here]
  | true =>
    obtain ⟨p, plural, inflects⟩ := exists_inflects word
    generalize eq : pluralize w = q at inflects
    cases inflects with
    | y => exact isReadAs_y word plural eq
    | es => exact isReadAs_optional word (List.all_eq_true.1 (by decide)) plural eq
    | s => exact isReadAs_optional word (List.all_eq_true.1 (by decide)) plural eq

/-! ## Reading several forms -/

theorem eq_or_lt_of_mem_textsOf (word : w.IsLowerWord) (mem : f ∈ textsOf plural w) :
    f = w ∨ w.length < f.length := by
  rcases List.mem_cons.1 mem with rfl | mem
  · exact .inl rfl
  · obtain ⟨p, plural, inflects⟩ := exists_inflects word
    split at mem
    · rw [plural, Option.toList_some, List.mem_singleton] at mem
      exact .inr (mem ▸ inflects.length_lt)
    · cases mem

namespace IsReadAs

/-- What is read as the same expressions has the same texts. -/
theorem mem_textsOf (h : IsReadAs plural a rs) (h' : IsReadAs plural b rs')
    (same : (branchOf rs).items = (branchOf rs').items) : a ∈ textsOf plural b := by
  have ways : chain rs = chain rs' := by
    rw [← Regex.ways_branchOf, ← Regex.ways_branchOf, ← Regex.chain_items, same,
      Regex.chain_items]
  let m : Match := { stop := .start a }
  have own : m.past a ∈ chain rs m := by
    rw [h.ways, List.mem_map]
    refine ⟨a, List.mem_filter.2 ⟨?_, ?_⟩, rfl⟩
    · simp [textsOf]
    · exact decide_eq_true (List.prefix_refl a)
  rw [ways, h'.ways, List.mem_map] at own
  obtain ⟨f, mem, eq⟩ := own
  obtain ⟨mem, pre⟩ := List.mem_filter.1 mem
  have pre : f <+: a := of_decide_eq_true pre
  have ahead : a.drop f.length = a.drop a.length := congrArg (·.stop.ahead) eq
  rw [List.drop_length, List.drop_eq_nil_iff] at ahead
  exact pre.eq_of_length_le ahead ▸ List.mem_reverse.1 mem

theorem eq_of_items (h : IsReadAs plural a rs) (h' : IsReadAs plural b rs') (ha : a.IsLowerWord)
    (hb : b.IsLowerWord) (same : (branchOf rs).items = (branchOf rs').items) : a = b := by
  rcases eq_or_lt_of_mem_textsOf hb (h.mem_textsOf h' same) with eq | lt
  · exact eq
  · rcases eq_or_lt_of_mem_textsOf ha (h'.mem_textsOf h same.symm) with eq | gt
    · exact eq.symm
    · exact absurd lt (Nat.lt_asymm gt)

/-- A start that is not the whole form consists of letters. -/
theorem single_of_isPrefix (h : IsReadAs plural w rs) {start : List Regex}
    (pre : start <+: (branchOf rs).items) (proper : start ≠ (branchOf rs).items) :
    ∀ i ∈ start, ∀ m, (i.ways m).length ≤ 1 := by
  obtain ⟨front, last, items, single⟩ := h.letters
  have shorter : start.length ≤ (front.map char).length := by
    have lt := lt_of_le_of_ne pre.length_le fun eq => proper (pre.eq_of_length eq)
    rw [items, List.length_append] at lt
    omega
  have inside : start <+: front.map char :=
    List.prefix_of_prefix_length_le pre (items ▸ List.prefix_append _ last) shorter
  intro i mem m
  obtain ⟨c, -, rfl⟩ := List.mem_map.1 (inside.subset mem)
  rw [Regex.ways_char]
  split <;> simp

end IsReadAs

section

variable {order : List Text} {exprs : Text → List Regex}

/-- What the forms of several words have in common are letters. -/
theorem single_of_start (all : ∀ w ∈ order, w.IsLowerWord)
    (read : ∀ w ∈ order, IsReadAs plural w (exprs w)) (distinct : order.Nodup)
    (several : 1 < order.length) {start : List Regex}
    (common : ∀ w ∈ order, start <+: (branchOf (exprs w)).items) :
    ∀ i ∈ start, ∀ m, (i.ways m).length ≤ 1 := by
  obtain ⟨a, b, others, rfl⟩ : ∃ a b others, order = a :: b :: others := by
    match order, several with
    | a :: b :: others, _ => exact ⟨a, b, others, rfl⟩
  have memA : a ∈ a :: b :: others := List.mem_cons_self
  have memB : b ∈ a :: b :: others := List.mem_cons_of_mem _ List.mem_cons_self
  by_cases whole : start = (branchOf (exprs a)).items
  · refine (read b memB).single_of_isPrefix (common b memB) fun whole' => ?_
    have eq := (read a memA).eq_of_items (read b memB) (all a memA) (all b memB)
      (whole.symm.trans whole')
    subst eq
    simp at distinct
  · exact (read a memA).single_of_isPrefix (common a memA) whole

/-- The ways through several forms are the texts that are ahead, one word after the other. -/
theorem ways_oneOf_forms (all : ∀ w ∈ order, w.IsLowerWord)
    (read : ∀ w ∈ order, IsReadAs plural w (exprs w)) (distinct : order.Nodup)
    (nonempty : order ≠ []) (m : Match) :
    (oneOf (order.map fun w => branchOf (exprs w))).ways m =
      ((order.flatMap fun w => (textsOf plural w).reverse).filter (· <+: m.stop.ahead)).map
        m.past := by
  rw [Regex.ways_oneOf_of_start (by simpa using nonempty), List.flatMap_map, List.filter_flatMap,
    List.map_flatMap]
  · refine List.flatMap_congr fun w mem => ?_
    rw [Regex.ways_branchOf, (read w mem).ways]
  · intro several start common
    exact single_of_start all read distinct (by simpa using several) fun w mem =>
      common _ (List.mem_map_of_mem mem)

end

/-! ## What an alternation takes -/

theorem source_eq (ws : List Text) (plural : Bool) : source ws plural false =
    "(?:" ++ Text.join ['|'] (longestFirst (distinct (ws.map (form plural)))) ++ ")" := by
  have mapped : ws.map (form plural) = if plural then ws.map pluralize else ws := by
    cases plural with
    | true => rfl
    | false => exact List.map_id' ws
  rw [mapped]
  rfl

/-- The first text of several lists that has a property is one of the first list that has such a
text. -/
theorem exists_of_find?_flatMap {R : Text → Text → Prop} {texts : Text → List Text}
    {p : Text → Bool} {order : List Text} (sorted : order.Pairwise R)
    (found : (order.flatMap texts).find? p = some f) :
    ∃ w ∈ order, (texts w).find? p = some f ∧
      ∀ v ∈ order, (∃ g ∈ texts v, p g) → v = w ∨ R w v := by
  induction order with
  | nil => cases found
  | cons a order ih =>
    obtain ⟨before, sorted⟩ := List.pairwise_cons.1 sorted
    rw [List.flatMap_cons, List.find?_append] at found
    cases first : (texts a).find? p with
    | some g =>
      rw [first, Option.some_or, Option.some.injEq] at found
      subst found
      refine ⟨a, List.mem_cons_self, first, fun v mem _ => ?_⟩
      exact (List.mem_cons.1 mem).imp_right (before v)
    | none =>
      rw [first, Option.none_or] at found
      obtain ⟨w, mem, own, others⟩ := ih sorted found
      refine ⟨w, List.mem_cons_of_mem a mem, own, List.forall_mem_cons.2 ⟨?_, others⟩⟩
      rintro ⟨g, inside, holds⟩
      exact absurd holds (List.find?_eq_none.1 first g inside)

/-- The expression tries the words in the given order: it takes the first of their texts that is
ahead, plurals before the words themselves. -/
structure Tries (plural : Bool) (ws order : List Text) (r : Regex) : Prop where
  same : ∀ w, w ∈ order ↔ w ∈ ws
  sorted : order.Pairwise (IsTriedBefore plural ws)
  matchAt : ∀ t (c : Cursor), c.IsPlace t →
    r.searcher.matchAt? c = ((order.flatMap fun w => (textsOf plural w).reverse).find?
      (· <+: c.ahead)).map (Match.past { stop := c })

/-- An alternation tries its words by the lengths of their forms. -/
theorem exists_tries (all : ∀ w ∈ ws, w.IsLowerWord) (nonempty : ws ≠ []) (plural : Bool) :
    ∃ r order, Regex.parse? (source ws plural false) = some r ∧ Tries plural ws order r := by
  obtain ⟨order, sorted, same, before⟩ := exists_order all plural
  have words : ∀ w ∈ order, w.IsLowerWord := fun w mem => all w ((same w).1 mem)
  have some_word : order ≠ [] := by
    obtain ⟨w, mem⟩ := List.exists_mem_of_ne_nil ws nonempty
    exact List.ne_nil_of_mem ((same w).2 mem)
  have once : order.Nodup := before.imp fun {x y} first eq => by
    subst eq
    rcases first with lt | ⟨-, lt⟩ <;> exact Nat.lt_irrefl _ lt
  have readable : ∀ w ∈ order, ∃ rs, IsReadAs plural w rs :=
    fun w mem => exists_isReadAs (words w mem) plural
  choose! exprs read using readable
  have branches : HasBranches false (source ws plural false) _ :=
    source_eq ws plural ▸ sorted ▸ (HasBranches.join_map (form plural) some_word
      fun w mem => (read w mem).reads.hasBranches).group.hasBranches
  have piece : Pattern.Piece (source ws plural false) [] := by
    rw [source_eq, sorted]
    refine .group (piece_join fun q mem => ?_)
    obtain ⟨w, inside, rfl⟩ := List.mem_map.1 mem
    have wording := (words w inside).isWording
    exact (denotes_form wording plural).piece_of_noAngle (notMem_form wording plural)
  have nests : NestsWithin 7 (source ws plural false) := by
    rw [source_eq, sorted]
    refine NestsWithin.group (NestsWithin.join fun q mem => ?_)
    obtain ⟨w, inside, rfl⟩ := List.mem_map.1 mem
    exact (read w inside).nests
  obtain ⟨r, parsed⟩ := Option.isSome_iff_exists.1
    (piece.fragment.isSome_parse? List.nodup_nil nests (by decide))
  obtain rfl := branches.parse? parsed
  rw [← List.map_eq_flatMap, Regex.oneOf_singleton] at parsed
  refine ⟨_, order, parsed, same, before, fun t c place => ?_⟩
  have steady : (branchOf [oneOf (order.map fun w => branchOf (exprs w))]).isSteady := by
    simp only [Regex.distributes_isSteady.branchOf, Regex.distributes_isSteady.oneOf,
      List.all_cons, List.all_nil, Bool.and_true, List.all_map, List.all_eq_true]
    intro w mem
    exact (Regex.distributes_isSteady.branchOf _).trans (List.all_eq_true.2 (read w mem).steady)
  rw [Regex.matchAt?_eq_head? steady place, Regex.ways_branchOf, Regex.chain_singleton,
    ways_oneOf_forms words read once some_word, List.head?_map, List.head?_filter]

/-! ## The longest text -/

/-- Wherever texts of the words are ahead, the expression takes the longest of them. -/
def TakesLongest (plural : Bool) (ws : List Text) (r : Regex) : Prop :=
  ∀ t (c : Cursor), c.IsPlace t → (∃ f ∈ ws.flatMap (textsOf plural), f <+: c.ahead) →
    ∃ m g, r.searcher.matchAt? c = some m ∧ c.Through g m.stop ∧
      g ∈ ws.flatMap (textsOf plural) ∧
      ∀ f ∈ ws.flatMap (textsOf plural), f <+: c.ahead → f.length ≤ g.length

theorem IsTriedBefore.length_le (h : IsTriedBefore plural ws b a) :
    (form plural a).length ≤ (form plural b).length := by
  rcases h with lt | ⟨eq, -⟩
  · exact Nat.le_of_lt lt
  · exact Nat.le_of_eq eq

theorem IsTriedBefore.asymm (h : IsTriedBefore plural ws b a) : ¬IsTriedBefore plural ws a b := by
  rintro (lt | ⟨eq, lt⟩) <;> rcases h with lt' | ⟨eq', lt'⟩ <;> omega

theorem exists_textsOf_eq (word : w.IsLowerWord) :
    ∃ p, textsOf true w = [w, p] ∧ Inflects w p (form true w) := by
  obtain ⟨p, plural, inflects⟩ := exists_inflects word
  exact ⟨p, by simp [textsOf, plural], inflects⟩

/-- Of the texts of one word, the longest one that is ahead is taken. -/
theorem length_le_of_find? (word : w.IsLowerWord)
    (found : (textsOf plural w).reverse.find? (· <+: t) = some f) (mem : g ∈ textsOf plural w)
    (ahead : g <+: t) : g.length ≤ f.length := by
  cases plural with
  | false =>
    have own := List.mem_of_find?_eq_some found
    simp only [textsOf, Bool.false_eq_true, if_false, List.reverse_singleton,
      List.mem_singleton] at own mem
    rw [own, mem]
  | true =>
    obtain ⟨p, texts, inflects⟩ := exists_textsOf_eq word
    have longer := inflects.length_lt
    rw [texts] at found mem
    by_cases plural : p <+: t
    · obtain rfl : p = f := by simpa [plural] using found
      rcases List.mem_pair.1 mem with rfl | rfl <;> omega
    · obtain rfl | rfl := List.mem_pair.1 mem
      · obtain ⟨-, rfl⟩ : g <+: t ∧ g = f := by simpa [plural] using found
        exact Nat.le_refl _
      · exact absurd ahead plural

/-- Where the texts of one word are tried before those of another one, a longer text of the other
word that is ahead shows that the other word begins with the one. -/
theorem isPrefix_of_length_lt (ha : a.IsLowerWord) (hb : b.IsLowerWord) (ne : a ≠ b)
    (first : IsTriedBefore plural ws a b)
    (found : (textsOf plural a).reverse.find? (· <+: t) = some f) (mem : g ∈ textsOf plural b)
    (ahead : g <+: t) (lt : f.length < g.length) : plural = true ∧ a <+: b := by
  have own := List.mem_reverse.1 (List.mem_of_find?_eq_some found)
  have here : f <+: t := by simpa using List.find?_some found
  have le := first.length_le
  cases plural with
  | false =>
    simp only [textsOf, Bool.false_eq_true, if_false, List.mem_singleton] at own mem
    simp only [form, Bool.false_eq_true, if_false, ← own, ← mem] at le
    exact absurd lt (Nat.not_lt_of_le le)
  | true =>
    obtain ⟨p, texts, inflects⟩ := exists_textsOf_eq ha
    obtain ⟨p', texts', inflects'⟩ := exists_textsOf_eq hb
    rw [texts] at found own
    rw [texts'] at mem
    refine ⟨rfl, inflects.isPrefix_of_longer inflects' ne le (List.mem_pair.1 own).symm
      (fun plural => ?_) (List.mem_pair.1 mem).symm here ahead lt⟩
    have taken : p = f := by simpa [plural] using found
    exact taken.symm

namespace Tries

variable {order : List Text}

/-- What is taken is the longest text that is ahead, if no word that begins with another one is
tried behind it. -/
theorem takesLongest (h : Tries plural ws order r) (all : ∀ w ∈ ws, w.IsLowerWord)
    (first : plural = true → ∀ a ∈ ws, ∀ b ∈ ws, a <+: b → a ≠ b → IsTriedBefore plural ws b a) :
    TakesLongest plural ws r := by
  rintro t c place ⟨f, known, ahead⟩
  have tried : ∀ g, g ∈ (order.flatMap fun w => (textsOf plural w).reverse) ↔
      g ∈ ws.flatMap (textsOf plural) := fun g => by
    simp only [List.mem_flatMap, List.mem_reverse, h.same]
  have taken : ((order.flatMap fun w => (textsOf plural w).reverse).find?
      (· <+: c.ahead)).isSome := by
    rw [List.find?_isSome]
    exact ⟨f, (tried f).2 known, decide_eq_true ahead⟩
  obtain ⟨g, found⟩ := Option.isSome_iff_exists.1 taken
  have here : g <+: c.ahead := by simpa using List.find?_some found
  refine ⟨_, g, (h.matchAt t c place).trans (congrArg _ found), Cursor.through_past here,
    (tried g).1 (List.mem_of_find?_eq_some found), fun f known ahead => ?_⟩
  obtain ⟨w, mem, own, others⟩ := exists_of_find?_flatMap h.sorted found
  obtain ⟨v, mem', inside⟩ := List.mem_flatMap.1 known
  have mem := (h.same w).1 mem
  rcases others v ((h.same v).2 mem') ⟨f, List.mem_reverse.2 inside, decide_eq_true ahead⟩ with
    rfl | before
  · exact length_le_of_find? (all v mem') own inside ahead
  · by_contra longer
    have ne : w ≠ v := by
      rintro rfl
      exact before.asymm before
    obtain ⟨rfl, pre⟩ := isPrefix_of_length_lt (all w mem) (all v mem') ne before own inside ahead
      (Nat.lt_of_not_le longer)
    exact before.asymm (first rfl w mem v mem' pre ne)

/-- If the longest text is taken everywhere, a word that begins with another one is tried before
it: where the longer word stands alone, what is tried before it is the word itself or a word
that it is the plural of. -/
theorem isTriedBefore (h : Tries true ws order r) (all : ∀ w ∈ ws, w.IsLowerWord)
    (longest : TakesLongest true ws r) (ha : a ∈ ws) (hb : b ∈ ws) (pre : a <+: b) (ne : a ≠ b) :
    IsTriedBefore true ws b a := by
  have known : b ∈ ws.flatMap (textsOf true) := List.mem_flatMap.2 ⟨b, hb, List.mem_cons_self⟩
  have start := Cursor.isPlace_start b
  obtain ⟨m, g, matched, through, -, most⟩ := longest b (.start b) start ⟨b, known, List.prefix_rfl⟩
  rw [h.matchAt b _ start, Option.map_eq_some_iff] at matched
  obtain ⟨f, found, rfl⟩ := matched
  obtain rfl : f = b := by
    have here : f <+: (Cursor.start b).ahead := by simpa using List.find?_some found
    have rest : b = g ++ b.drop f.length := through.ahead
    have le : b.length ≤ g.length := most b known List.prefix_rfl
    have lengths := congrArg List.length rest
    rw [List.length_append, List.length_drop] at lengths
    have whole : b.length ≤ f.length := by omega
    exact here.eq_of_length_le whole
  obtain ⟨w, mem, own, others⟩ := exists_of_find?_flatMap h.sorted found
  have wordW := all w ((h.same w).1 mem)
  have before := others a ((h.same a).2 ha)
    ⟨a, List.mem_reverse.2 List.mem_cons_self, decide_eq_true pre⟩
  obtain ⟨p, texts, inflects⟩ := exists_textsOf_eq wordW
  have text := List.mem_reverse.1 (List.mem_of_find?_eq_some own)
  rw [texts] at text
  rcases List.mem_pair.1 text with rfl | rfl
  · exact before.resolve_left ne
  · obtain ⟨p', -, inflects'⟩ := exists_textsOf_eq (all f hb)
    have longer := inflects.length_add_seven_le inflects'
    have shorter := inflects.length_le
    have le : (form true a).length ≤ (form true w).length := by
      rcases before with rfl | before
      · exact Nat.le_refl _
      · exact before.length_le
    exact .inl (by omega)

end Tries

/-- An alternation of lowercase words can be read. Without plurals it takes the longest text
wherever one is ahead. With plurals it does so just when each word that begins with another one
has the longer form, or one that is as long and declared before it. -/
theorem takesLongest_iff (all : ∀ w ∈ ws, w.IsLowerWord) (plural : Bool) :
    ∃ r, Regex.parse? (source ws plural false) = some r ∧
      (TakesLongest plural ws r ↔ (plural = true →
        ∀ a ∈ ws, ∀ b ∈ ws, a <+: b → a ≠ b → IsTriedBefore plural ws b a)) := by
  by_cases nonempty : ws = []
  · subst nonempty
    have empty : (Regex.parse? (source [] plural false)).isSome := by
      cases plural <;> decide +kernel
    obtain ⟨r, parsed⟩ := Option.isSome_iff_exists.1 empty
    exact ⟨r, parsed, by simp [TakesLongest]⟩
  · obtain ⟨r, order, parsed, tries⟩ := exists_tries all nonempty plural
    refine ⟨r, parsed, fun longest plural => ?_, tries.takesLongest all⟩
    subst plural
    exact fun a ha b hb => tries.isTriedBefore all longest ha hb

/-- Landfalls are not taken for lands. -/
theorem takesLongest_landfall : (∀ w ∈ (["land", "landfall"] : List Text), w.IsLowerWord) ∧
    ∃ r, Regex.parse? (source ["land", "landfall"] true false) = some r ∧
      TakesLongest true ["land", "landfall"] r := by
  have all : ∀ w ∈ (["land", "landfall"] : List Text), w.IsLowerWord := by decide
  obtain ⟨r, parsed, longest⟩ := takesLongest_iff all true
  exact ⟨all, r, parsed, longest.2 fun _ => by decide⟩

/-- The form of `cry` is longer than that of `cryo`, so the beginning of `cryo` is taken for a
whole word. -/
theorem not_takesLongest_cryo : (∀ w ∈ (["cryo", "cry"] : List Text), w.IsLowerWord) ∧
    ∃ r, Regex.parse? (source ["cryo", "cry"] true false) = some r ∧
      ¬TakesLongest true ["cryo", "cry"] r := by
  have all : ∀ w ∈ (["cryo", "cry"] : List Text), w.IsLowerWord := by decide
  obtain ⟨r, order, parsed, tries⟩ := exists_tries all (by simp) true
  refine ⟨all, r, parsed, fun longest => ?_⟩
  have before : IsTriedBefore true ["cryo", "cry"] "cryo" "cry" :=
    tries.isTriedBefore all longest (by decide) (by decide) (by decide) (by decide)
  exact absurd before (by decide)

end Alternation

end RulesText
