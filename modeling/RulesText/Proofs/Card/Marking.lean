import RulesText.Proofs.Card.Names
import RulesText.Proofs.Card.NormalForm

/-!
# Names that stand alone

A text that is just one of a card's names becomes the mark of the card if each end that the edge
of the name's pattern calls a word character is one. The edge goes by letters and numbers of every
kind, fractions and superscripts included, where the boundary goes by word characters.

## Main statements

* `Edge.leading_escape`, `Edge.trailing_escape`: the edges of escaped texts.
* `Card.normalLines_eq_selfMark_iff`: which names are marked.
-/

namespace RulesText.Edge

variable {c : Char} {t : Text}

theorem of_isSpecial (special : Regex.isSpecial c) :
    ofChar c = .other ∧ (c == 'w' || c == 'd') = false := by
  have all : ∀ c ∈ ("\\.+*?()|[]\x7b\x7d^$#&-~" : Text),
      (ofChar c == .other && !(c == 'w' || c == 'd')) = true := List.all_eq_true.1 (by decide)
  simpa using all c (List.contains_iff_mem.1 special)

/-- The leading edge of an escaped text is that of its first character. -/
theorem leading_escape (c : Char) (t : Text) :
    leading (Regex.escape (c :: t)) = ofChar c := by
  rw [Regex.escape_cons]
  by_cases special : Regex.isSpecial c
  · obtain ⟨other, ne⟩ := of_isSpecial special
    simp [special, leading, other, ne]
  · have plain : c ≠ '\\' := fun eq => special (eq ▸ by decide)
    simp only [special, Bool.false_eq_true, if_false, List.singleton_append]
    unfold leading
    split <;> simp_all

/-- The last character of an escaped text, with a backslash before it if it is special. -/
theorem escape_append_singleton (t : Text) (c : Char) :
    Regex.escape (t ++ [c]) =
      Regex.escape t ++ if Regex.isSpecial c then ['\\', c] else [c] := by
  rw [Regex.escape, List.flatMap_append, List.flatMap_singleton]
  rfl

theorem getLast?_escape (t : Text) : (Regex.escape t).getLast? = t.getLast? := by
  rcases List.eq_nil_or_concat t with rfl | ⟨front, c, rfl⟩
  · rfl
  · rw [List.concat_eq_append, escape_append_singleton]
    split <;> simp

/-- Behind a backslash, a character counts as the letter of a class. -/
theorem ofLast_cons (c : Char) (rest : Text) : ofLast (c :: rest) =
    if rest.head? = some '\\' then if c == 'w' || c == 'd' then .word else .other
    else ofChar c := by
  unfold ofLast
  split
  · rename_i eq
    obtain ⟨rfl, rfl⟩ := List.cons.inj eq
    rfl
  · rename_i plain eq
    obtain ⟨rfl, rfl⟩ := List.cons.inj eq
    rw [if_neg fun first => ?_]
    obtain ⟨others, rfl⟩ := List.head?_eq_some_iff.1 first
    exact plain _ rfl
  · rename_i eq
    cases eq

theorem trailing_escape_of_isSpecial (special : Regex.isSpecial c) (t : Text) :
    trailing (Regex.escape (t ++ [c])) = .other := by
  have reversed : (Regex.escape (t ++ [c])).reverse = c :: '\\' :: (Regex.escape t).reverse := by
    simp [escape_append_singleton, special]
  have backslash : ∀ rest, ofLast ('\\' :: rest) = .other := fun rest => by
    rw [ofLast_cons]
    split <;> decide
  obtain ⟨-, ne⟩ := of_isSpecial special
  rw [trailing, reversed]
  dsimp only
  split
  · rw [backslash, ite_self]
  · simp [ofLast_cons, ne]

/-- The trailing edge of an escaped text is that of its last character, unless a backslash stands
before it. -/
theorem trailing_escape (ordinary : Regex.isSpecial c = false) (t : Text) :
    trailing (Regex.escape (t ++ [c])) =
      if t.getLast? = some '\\' then if c == 'w' || c == 'd' then .word else .other
      else ofChar c := by
  have reversed : (Regex.escape (t ++ [c])).reverse = c :: (Regex.escape t).reverse := by
    simp [escape_append_singleton, ordinary]
  have quantifier : ¬isQuantifier c := fun quantifier => by
    simp only [isQuantifier, Bool.or_eq_true, beq_iff_eq] at quantifier
    rcases quantifier with (rfl | rfl) | rfl <;> exact absurd ordinary (by decide)
  rw [trailing, reversed]
  dsimp only
  rw [if_neg quantifier, ofLast_cons, List.head?_reverse, getLast?_escape]

/-- When the edge takes a last character for a word character that is none. -/
theorem trailing_escape_eq_word_iff (other : Text.isWordChar c = false) :
    trailing (Regex.escape (t ++ [c])) = .word ↔ ofChar c = .word ∧ t.getLast? ≠ some '\\' := by
  by_cases special : Regex.isSpecial c
  · rw [trailing_escape_of_isSpecial special, (of_isSpecial special).1]
    simp
  · have letter : ¬(c == 'w' || c == 'd') := fun letter => by
      simp only [Bool.or_eq_true, beq_iff_eq] at letter
      rcases letter with rfl | rfl <;> exact absurd other (by decide)
    rw [trailing_escape (Bool.eq_false_iff.2 special), if_neg letter]
    split <;> simp_all

end RulesText.Edge

namespace RulesText.Card

variable {name h n t front : Text} {r : Regex.Searcher} {c d : Cursor} {m : Match} {x : Char}
  {stripReminders : Bool}

/-! ## Marks -/

theorem markSelf_eq (named : selfReference? name = some r) (t : Text) :
    markSelf name t = r.replaceFrom ['~'] (Cursor.start t) := by
  rw [markSelf, named]
  rfl

theorem reaches_of_matchAt? (named : selfReference? name = some r) (c : Cursor) (m : Match)
    (found : r.matchAt? c = some m) : c.Reaches m.stop := by
  rw [← searcher_eq named] at found
  exact Regex.reaches_of_matchAt? found

/-- The first name in the order of the names that stands at a place is between boundaries there. -/
theorem exists_of_find? (found : (names name).find? (standsAt · c) = some n) :
    n ∈ names name ∧ n ≠ [] ∧ ∃ after, c.ahead = n ++ after ∧
      IsBounded n (c.behindIs Text.isWordChar) (after.head?.any Text.isWordChar) := by
  have mem := List.mem_of_find?_eq_some found
  have ne := (isName_of_mem mem).ne
  exact ⟨mem, ne, (standsAt_iff ne).1 (List.find?_some (p := (standsAt · c)) found)⟩

/-- What is replaced is a name between boundaries. -/
theorem exists_of_replaced (named : selfReference? name = some r) (place : c.IsPlace t)
    (replaced : r.Replaced c m) : ∃ n ∈ names name, n ≠ [] ∧ m.stop = c.past n ∧
      ∃ after, c.ahead = n ++ after ∧
        IsBounded n (c.behindIs Text.isWordChar) (after.head?.any Text.isWordChar) := by
  have found := replaced.found
  rw [matchAt?_eq named place] at found
  obtain ⟨n, first, rfl⟩ := Option.map_eq_some_iff.1 found
  obtain ⟨mem, ne, bounded⟩ := exists_of_find? first
  exact ⟨n, mem, ne, rfl, bounded⟩

/-- Where a name stands, it is replaced, or one that comes before it. -/
theorem exists_replaced (named : selfReference? name = some r) (place : c.IsPlace t)
    (mem : n ∈ names name) (stands : standsAt n c) : ∃ m, r.Replaced c m := by
  obtain ⟨m, found⟩ := Option.isSome_iff_exists.1
    ((isSome_matchAt?_iff named place).2 ⟨n, mem, stands⟩)
  refine ⟨m, found, ?_⟩
  rw [matchAt?_eq named place] at found
  obtain ⟨first, fits, rfl⟩ := Option.map_eq_some_iff.1 found
  obtain ⟨-, ne, after, ahead, -⟩ := exists_of_find? fits
  have rest : (c.past first).ahead = after := Cursor.ahead_past ahead
  rw [Match.past, rest, ahead, List.length_append]
  exact Nat.lt_add_of_pos_left (List.length_pos_iff.2 ne)

/-! ## What is no blank -/

/-- What is left of a text before names are marked. -/
def kept (t : Text) (stripReminders : Bool) : Text :=
  if stripReminders then dropReminders (Text.lowercase t) else Text.lowercase t

/-- Behind the marking of names, nothing but blanks is added or left out. -/
theorem filter_flatten_normalLines (name t : Text) (stripReminders : Bool) :
    (normalLines name t stripReminders).flatten.filter (!Text.isBlank ·) =
      (markSelf name (kept t stripReminders)).filter (!Text.isBlank ·) := by
  have trimmed : ∀ ls : List Text, (ls.map Text.trim).flatten.filter (!Text.isBlank ·) =
      ls.flatten.filter (!Text.isBlank ·) := by
    intro ls
    induction ls with
    | nil => rfl
    | cons l ls ih => rw [List.map_cons, List.flatten_cons, List.flatten_cons, List.filter_append,
        List.filter_append, Text.filter_trim, ih]
  rw [normalLines, trimmed, Text.filter_flatten_lines, filter_collapseSpaces rfl rfl]
  rfl

/-- Every character but blanks that the marking of names leaves is in a line. -/
theorem exists_mem_normalLines (nonblank : Text.isBlank x = false)
    (mem : x ∈ markSelf name (kept t stripReminders)) :
    ∃ line ∈ normalLines name t stripReminders, x ∈ line := by
  have inside : x ∈ (markSelf name (kept t stripReminders)).filter (!Text.isBlank ·) :=
    List.mem_filter.2 ⟨mem, by simp [nonblank]⟩
  rw [← filter_flatten_normalLines] at inside
  exact List.mem_flatten.1 (List.mem_filter.1 inside).1

/-! ## Ends that are no word characters -/

/-- A first character that only the edge takes for a word character is copied. -/
theorem mem_markSelf_of_first (word : Edge.ofChar x = .word) (other : Text.isWordChar x = false)
    (rest : Text) : x ∈ markSelf name (x :: rest) := by
  cases named : selfReference? name with
  | none => simp [markSelf, named]
  | some r =>
    rw [markSelf_eq named]
    rcases Regex.Searcher.head?_replaceFrom r '~' (Cursor.start (x :: rest)) with
      copied | ⟨-, m, replaced⟩
    · exact List.mem_of_mem_head? copied
    · obtain ⟨n, -, ne, -, after, ahead, bounded⟩ :=
        exists_of_replaced named (Cursor.isPlace_start _) replaced
      obtain ⟨y, n', rfl⟩ := List.exists_cons_of_ne_nil ne
      obtain ⟨rfl, -⟩ := List.cons.inj ahead
      have differ := bounded.leading (by rw [Edge.leading_escape, word])
      simp [Cursor.start, Cursor.behindIs, other] at differ

/-- A last character that only the edge takes for a word character is copied. -/
theorem mem_markSelf_of_last (word : Edge.trailing (Regex.escape (front ++ [x])) = .word)
    (other : Text.isWordChar x = false) : x ∈ markSelf name (front ++ [x]) := by
  cases named : selfReference? name with
  | none => simp [markSelf, named]
  | some r =>
    have start := Cursor.isPlace_start (front ++ [x])
    rw [markSelf_eq named]
    rcases Regex.Searcher.mem_replaceFrom_of_getLast? (reaches_of_matchAt? named)
      (by simp [Cursor.start] : (Cursor.start (front ++ [x])).ahead.getLast? = some x) with
      copied | ⟨d, m, reaches, replaced, atEnd⟩
    · exact copied
    · -- The name ends where the text does, so no boundary is behind it.
      have place := start.reaches reaches
      obtain ⟨n, -, ne, stop, after, ahead, bounded⟩ := exists_of_replaced named place replaced
      obtain rfl : after = [] := (stop ▸ Cursor.ahead_past ahead).symm.trans atEnd
      have whole := place.text
      obtain ⟨n', y, rfl⟩ := (List.eq_nil_or_concat n).resolve_left ne
      rw [List.concat_eq_append] at *
      rw [ahead, List.append_nil, ← List.append_assoc] at whole
      obtain ⟨rfl, same⟩ := List.append_inj' whole rfl
      obtain rfl := List.singleton_inj.1 same
      obtain ⟨numeric, plain⟩ := (Edge.trailing_escape_eq_word_iff other).1 word
      have differ := bounded.trailing ((Edge.trailing_escape_eq_word_iff other).2
        ⟨numeric, fun escaped => plain (by simp [escaped])⟩)
      simp [other] at differ

/-! ## Texts that are names -/

/-- A name between boundaries is the longest one that stands there, so the whole text is marked. -/
theorem markSelf_of_isBounded (mem : h ∈ names name) (bounded : IsBounded h false false) :
    markSelf name h = selfMark := by
  have stands : standsAt h (Cursor.start h) :=
    (standsAt_iff (isName_of_mem mem).ne).2 ⟨[], (List.append_nil h).symm, bounded⟩
  have named := selfReference?_eq (List.ne_nil_of_mem mem)
  obtain ⟨n, first⟩ := Option.isSome_iff_exists.1
    ((List.find?_isSome (p := (standsAt · (Cursor.start h)))).2 ⟨h, mem, stands⟩)
  have le := byteSize_le_of_find? first mem stands
  obtain ⟨-, ne, after, ahead, -⟩ := exists_of_find? first
  obtain rfl : after = [] := by
    cases after with
    | nil => rfl
    | cons y after =>
      have := y.utf8Size_pos
      have whole : h = n ++ y :: after := ahead
      rw [whole, Text.byteSize_append, Text.byteSize_cons] at le
      omega
  have rest : ((Cursor.start h).past n).ahead = [] := Cursor.ahead_past ahead
  obtain ⟨m, replaced⟩ := exists_replaced named (Cursor.isPlace_start h) mem stands
  have stop : m.stop.ahead = [] := by
    have found := replaced.found
    rw [matchAt?_eq named (Cursor.isPlace_start h), first] at found
    exact Option.some.inj found ▸ rest
  rw [markSelf_eq named, Regex.Searcher.replaceFrom_of_replaced replaced,
    Regex.Searcher.replaceFrom_of_atEnd stop]
  rfl

/-- The names of a card, each as a text of its own, become the mark of the card just when no end
is taken for a word character that it is not. -/
theorem normalLines_eq_selfMark_iff (mem : h ∈ names name) :
    normalLines name h false = [selfMark] ↔
      (Edge.leading (Regex.escape h) = .word → h.head?.any Text.isWordChar) ∧
        (Edge.trailing (Regex.escape h) = .word → h.getLast?.any Text.isWordChar) := by
  have known := isName_of_mem mem
  have lowered : kept h false = h := Text.lowercase_eq_self known.lowered
  constructor
  · intro eq
    -- The mark is no character that an edge takes for a word character.
    have absent : ∀ x, Edge.ofChar x = .word → x ∉ markSelf name h := by
      intro x word inside
      have nonblank : Text.isBlank x = false := Bool.eq_false_iff.2 fun blank => by
        rw [Edge.ofChar_of_isBlank blank] at word
        cases word
      rw [← lowered] at inside
      obtain ⟨line, own, inside⟩ := exists_mem_normalLines nonblank inside
      rw [eq, List.mem_singleton] at own
      subst own
      obtain rfl := List.mem_singleton.1 inside
      exact absurd word (by decide)
    constructor
    · intro word
      obtain ⟨c, rest, rfl⟩ := List.exists_cons_of_ne_nil known.ne
      rw [Edge.leading_escape] at word
      by_contra other
      exact absent c word (mem_markSelf_of_first word (by simpa using other) rest)
    · intro word
      obtain ⟨front, c, rfl⟩ := (List.eq_nil_or_concat h).resolve_left known.ne
      rw [List.concat_eq_append] at *
      by_contra other
      have other : Text.isWordChar c = false := by simpa using other
      exact absent c ((Edge.trailing_escape_eq_word_iff other).1 word).1
        (mem_markSelf_of_last word other)
  · rintro ⟨leading, trailing⟩
    have bounded : IsBounded h false false :=
      ⟨fun word => by simp [leading word], fun word => by simp [trailing word]⟩
    have marked : markSelf name (kept h false) = selfMark :=
      lowered.symm ▸ markSelf_of_isBounded mem bounded
    rw [kept] at marked
    rw [normalLines, marked]
    decide

/-- A half of a split name is marked. -/
theorem normalLines_half : ("fire" : Text) ∈ names "Fire // Ice" ∧
    normalLines "Fire // Ice" "fire" false = [selfMark] := by
  have mem : ("fire" : Text) ∈ names "Fire // Ice" :=
    mem_names_iff.2 ⟨by decide, .inr (.inl (by decide +kernel))⟩
  exact ⟨mem, (normalLines_eq_selfMark_iff mem).2 (by decide +kernel)⟩

/-- A name that is a fraction is not marked: the edge takes it for a word character, and no
boundary is beside it. -/
theorem normalLines_fraction :
    ("½" : Text) ∈ names "½" ∧ normalLines "½" "½" false ≠ [selfMark] := by
  decide +kernel

end RulesText.Card
