import Mathlib.Algebra.GroupWithZero.Nat
import RulesText.Proofs.Template
import RulesText.Proofs.Text.Bytes
import RulesText.Proofs.Text.Lines
import RulesText.Proofs.Text.Slices

/-!
# Templates cut at places in bytes

A template can also be read by the places of its bytes: opening braces are looked for byte by byte,
and names and literal text are cut out at the places between which they stand. A cut that does not
fall between two characters would fail. None does, and what is read is the same.

## Main definitions

* `Template.parse?`: the snippets of a template, by cuts that can fail.
* `Template.IsTidy`: parts that are not empty and do not fall apart.

## Main statements

* `Template.parse_lossless`: no cut fails, and the snippets hold the template without its blanks.
-/

namespace RulesText

namespace Template

/-! ## Reading by places -/

/-- The size of what stands in front of the first closing brace, if that is a field name. The outer
`Option` is for the cut, the inner one for the name. -/
def nameSize? (rest : Text) : Option (Option Nat) :=
  if '}' ∈ rest then do
    let stop := Text.byteSize (rest.takeWhile (· != '}'))
    let name ← Text.slice? rest ⟨0, stop⟩
    return if name.head?.any isNameStart && name.tail.all isNameChar then some stop else none
  else some none

/-- An opening brace stands at a place, and no backslash before it. -/
def opensAt (bytes : List UInt8) (i : Nat) : Bool :=
  bytes[i]? == some '{'.toUInt8 && (i == 0 || bytes[i - 1]? != some '\\'.toUInt8)

/-- The literal text between two places. -/
def literalAt? (body : Text) (start stop : Nat) : Option (List Part) :=
  if start < stop then do return [.literal (← Text.slice? body ⟨start, stop⟩)] else some []

/-- The parts of a word from a place on. The literal text before that place begins at `start`. -/
def partsFrom? (body : Text) (start i : Nat) : Option (List Part) :=
  if i < Text.byteSize body then
    if opensAt (Text.bytes body) i then do
      match ← nameSize? (← Text.slice? body ⟨i + 1, Text.byteSize body⟩) with
      | some size =>
        let literal ← literalAt? body start i
        let name ← Text.slice? body ⟨i + 1, i + 1 + size⟩
        let later ← partsFrom? body (i + size + 2) (i + size + 2)
        return literal ++ .field name :: later
      | none => partsFrom? body start (i + 1)
    else partsFrom? body start (i + 1)
  else literalAt? body start (Text.byteSize body)
termination_by Text.byteSize body - i

/-- Take closing quotes and punctuation off the end of a word. -/
def peelBack? (body : Text) (closing : List Snippet) : Option (Text × List Snippet) :=
  match _last : body.getLast? with
  | none => some (body, closing)
  | some c =>
    if c == '"' then peelBack? body.dropLast (.quote :: closing)
    else if isTerminalMark c then
      match _cut : Text.slice? body ⟨0, Text.byteSize body - 1⟩ with
      | none => none
      | some front =>
        if front.getLast? != some '\\' then peelBack? front (.terminal c :: closing)
        else some (body, closing)
    else some (body, closing)
termination_by body.length
decreasing_by
  · have : body ≠ [] := List.ne_nil_of_mem (List.mem_of_getLast? _last)
    rw [List.length_dropLast]
    exact Nat.sub_lt (List.length_pos_of_ne_nil this) Nat.one_pos
  · have : body ≠ [] := List.ne_nil_of_mem (List.mem_of_getLast? _last)
    exact Text.length_lt_of_slice? _cut (Nat.sub_lt (Text.byteSize_pos this) Nat.one_pos)

/-- The snippets of one word. -/
def parseWord? (word : Text) : Option (List Snippet) := do
  let opening := word.takeWhile (· == '"')
  let (body, closing) ← peelBack? (word.drop opening.length) []
  let inner ← if body.isEmpty then some [] else (partsFrom? body 0 0).map ([.parts ·])
  return opening.map (fun _ => .quote) ++ inner ++ closing

/-- The snippets of a template. -/
def parse? (template : Text) : Option (List Snippet) := do
  return (← (Text.words template).mapM parseWord?).flatten

/-! ## Every cut falls between characters -/

variable {t body front literal word back rest name : Text} {c : Char} {closing : List Snippet}
  {start i : Nat}

theorem byteSize_brace (front : Text) :
    Text.byteSize (front ++ ['{']) = Text.byteSize front + 1 := by
  rw [Text.byteSize_append]
  rfl

/-! ### Closing marks -/

theorem utf8Size_of_isTerminalMark (mark : isTerminalMark c = true) : c.utf8Size = 1 := by
  obtain rfl | rfl | rfl : c = '.' ∨ c = ',' ∨ c = ';' := by
    simpa [isTerminalMark, or_assoc] using mark
  all_goals rfl

theorem peelBack?_concat (front : Text) (c : Char) (closing : List Snippet) :
    peelBack? (front ++ [c]) closing =
      if c == '"' then peelBack? front (.quote :: closing)
      else if isTerminalMark c && front.getLast? != some '\\' then
        peelBack? front (.terminal c :: closing)
      else some (front ++ [c], closing) := by
  rw [peelBack?]
  split
  · next empty => simp at empty
  · next last ends =>
    obtain rfl : c = last := by simpa using ends
    split
    · rw [List.dropLast_concat]
    · by_cases mark : isTerminalMark c = true
      · have size : Text.byteSize (front ++ [c]) - 1 = Text.byteSize front := by
          simp [utf8Size_of_isTerminalMark mark]
        have cut := Text.slice?_front front [c]
        rw [← size] at cut
        rw [if_pos mark, mark, Bool.true_and]
        split
        · next failed => exact absurd (cut.symm.trans failed) (by simp)
        · next made =>
          obtain rfl := Option.some.inj (cut.symm.trans made)
          rfl
      · simp [mark]

theorem peelBack?_eq (reversed : Text) (closing : List Snippet) :
    peelBack? reversed.reverse closing =
      some ((peelEnd reversed closing).1.reverse, (peelEnd reversed closing).2) := by
  fun_induction peelEnd reversed closing with
  | case1 closing =>
    rw [List.reverse_nil, peelBack?]
    rfl
  | case2 c rest closing quote ih => rw [List.reverse_cons, peelBack?_concat, if_pos quote, ih]
  | case3 c rest closing quote mark ih =>
    rw [List.reverse_cons, peelBack?_concat, if_neg quote, List.getLast?_reverse, if_pos mark, ih]
  | case4 c rest closing quote mark =>
    rw [List.reverse_cons, peelBack?_concat, if_neg quote, List.getLast?_reverse, if_neg mark]

/-! ### Names -/

theorem isNameChar_of_isNameStart (starts : isNameStart c = true) : isNameChar c = true := by
  simp only [isNameStart, isNameChar, Bool.or_eq_true] at starts ⊢
  exact starts.imp_left .inl

theorem isName_iff : IsName name ↔
    (name.head?.any isNameStart && name.tail.all isNameChar) = true := by
  rw [Bool.and_eq_true, List.all_eq_true]
  constructor
  · exact fun h => ⟨h.starts, fun c mem => h.chars c (List.mem_of_mem_tail mem)⟩
  · rintro ⟨starts, chars⟩
    cases name with
    | nil => simp at starts
    | cons c name =>
      refine ⟨List.cons_ne_nil _ _, starts, fun d mem => ?_⟩
      rcases List.mem_cons.1 mem with rfl | mem
      · exact isNameChar_of_isNameStart (by simpa using starts)
      · exact chars d mem

theorem placeholder?_append (h : IsName name) (rest : Text) :
    placeholder? (name ++ '}' :: rest) = some (name, rest) := by
  have closes : isNameChar '}' = false := by decide
  have taken : (name ++ '}' :: rest).takeWhile isNameChar = name := by
    rw [List.takeWhile_append_of_pos h.chars, List.takeWhile_cons_of_neg (by simp [closes]),
      List.append_nil]
  have left : (name ++ '}' :: rest).dropWhile isNameChar = '}' :: rest := by
    rw [List.dropWhile_append_of_pos h.chars, List.dropWhile_cons_of_neg (by simp [closes])]
  obtain ⟨c, others, rfl⟩ := List.exists_cons_of_ne_nil h.ne_nil
  have starts : isNameStart c = true := by simpa using h.starts
  simp only [placeholder?, taken, left, starts, if_true]

theorem takeWhile_append_closing (notMem : '}' ∉ name) (rest : Text) :
    (name ++ '}' :: rest).takeWhile (· != '}') = name := by
  rw [Text.takeWhile_append_of_notMem notMem, List.takeWhile_cons_of_neg (by simp),
    List.append_nil]

/-- The text before the first closing brace is the only one that can be a name. -/
theorem nameSize?_eq (t : Text) :
    nameSize? t = some ((placeholder? t).map fun p => Text.byteSize p.1) := by
  rw [nameSize?]
  split
  · next mem =>
    obtain ⟨name, rest, rfl, notMem⟩ := List.eq_append_cons_of_mem mem
    simp only [takeWhile_append_closing notMem, Text.slice?_front, Option.bind_eq_bind,
      Option.bind_some, Option.pure_def]
    split
    · next own => rw [placeholder?_append (isName_iff.2 own), Option.map_some]
    · next other =>
      cases found : placeholder? (name ++ '}' :: rest) with
      | none => rfl
      | some p =>
        obtain ⟨own, text⟩ := placeholder?_eq_some found
        have closing : '}' ∉ p.1 := own.notMem_of_not_isNameChar (by decide)
        rw [← takeWhile_append_closing notMem rest, text,
          takeWhile_append_closing closing] at other
        exact absurd (isName_iff.1 own) other
  · next notMem =>
    cases found : placeholder? t with
    | none => rfl
    | some p =>
      obtain ⟨-, rfl⟩ := placeholder?_eq_some found
      simp at notMem

/-! ### Parts -/

theorem literalAt?_eq (text : body = front ++ literal.reverse ++ back) :
    literalAt? body (Text.byteSize front) (Text.byteSize (front ++ literal.reverse)) =
      some (flush literal []) := by
  have cut : Text.slice? body
      ⟨Text.byteSize front, Text.byteSize (front ++ literal.reverse)⟩ = some literal.reverse :=
    Text.slice?_eq_some_iff.2 ⟨front, back, text, by rw [Text.byteSize_append]⟩
  cases literal with
  | nil => simp [literalAt?, flush]
  | cons c literal =>
    have := c.utf8Size_pos
    rw [literalAt?, if_pos (by simp; omega), cut]
    rfl

theorem flush_eq_append (literal : Text) (parts : List Part) :
    flush literal parts = flush literal [] ++ parts := by
  unfold flush
  split <;> rfl

/-! ### Opening braces -/

theorem not_opensAt (other : c ≠ '{') {i : Nat} (lt : i < c.utf8Size) :
    opensAt (Text.bytes (front ++ c :: back)) (Text.byteSize front + i) = false := by
  rw [opensAt, Text.getElem?_bytes front back lt, Bool.and_eq_false_iff]
  refine .inl (beq_eq_false_iff_ne.2 fun found => other ?_)
  exact Text.eq_of_mem_utf8EncodeChar (by decide) (List.mem_of_getElem? found)

theorem opensAt_brace (front back : Text) :
    opensAt (Text.bytes (front ++ '{' :: back)) (Text.byteSize front) =
      (front.getLast? != some '\\') := by
  have here : (Text.bytes (front ++ '{' :: back))[Text.byteSize front]? = some '{'.toUInt8 :=
    Text.getElem?_bytes front back (i := 0) (by decide)
  rw [opensAt, here, beq_self_eq_true, Bool.true_and]
  by_cases empty : front = []
  · subst empty
    rfl
  · have inside : (Text.byteSize front == 0) = false :=
      beq_eq_false_iff_ne.2 (Nat.ne_of_gt (Text.byteSize_pos empty))
    rw [inside, Text.getElem?_bytes_pred empty, Bool.false_or, Bool.eq_iff_iff, bne_iff_ne,
      bne_iff_ne, ne_eq, ne_eq, Text.getLast?_bytes_eq_some_iff (by decide)]

/-- The literal text gathered so far decides whether a brace is escaped. -/
theorem getLast?_append_reverse (literal : Text) (closed : front.getLast? ≠ some '\\') :
    ((front ++ literal.reverse).getLast? != some '\\') = (literal.head? != some '\\') := by
  cases literal with
  | nil =>
    rw [List.reverse_nil, List.append_nil]
    exact bne_iff_ne.2 closed
  | cons c literal => simp

/-! ### One step -/

/-- Where nothing opens, the next place is tried. -/
theorem partsFrom?_skip {n : Nat} (closed : ∀ j < n, opensAt (Text.bytes body) (i + j) = false)
    (le : i + n ≤ Text.byteSize body) :
    partsFrom? body start i = partsFrom? body start (i + n) := by
  induction n generalizing i with
  | zero => rfl
  | succ n ih =>
    have here := closed 0 (Nat.zero_lt_succ n)
    rw [partsFrom?, if_pos (by omega), if_neg (by simpa using here), ih]
    · rw [Nat.add_assoc, Nat.add_comm 1]
    · intro j lt
      have := closed (j + 1) (Nat.succ_lt_succ lt)
      rwa [Nat.add_comm j, ← Nat.add_assoc] at this
    · omega

theorem partsFrom?_char (text : body = front ++ c :: rest)
    (closed : c = '{' → front.getLast? = some '\\') :
    partsFrom? body start (Text.byteSize front) =
      partsFrom? body start (Text.byteSize (front ++ [c])) := by
  have size : Text.byteSize (front ++ [c]) = Text.byteSize front + c.utf8Size := by simp
  rw [size]
  refine partsFrom?_skip (fun j lt => ?_) (by simp [text])
  rw [text]
  by_cases brace : c = '{'
  · subst brace
    obtain rfl : j = 0 := Nat.lt_one_iff.1 lt
    rw [Nat.add_zero, opensAt_brace, closed rfl]
    rfl
  · exact not_opensAt brace lt

theorem partsFrom?_brace (text : body = front ++ '{' :: rest)
    (unescaped : (front.getLast? != some '\\') = true) :
    partsFrom? body start (Text.byteSize front) =
      match placeholder? rest with
      | some (name, _) => do
        let literal ← literalAt? body start (Text.byteSize front)
        let stop := Text.byteSize (front ++ '{' :: name ++ ['}'])
        let later ← partsFrom? body stop stop
        return literal ++ .field name :: later
      | none => partsFrom? body start (Text.byteSize (front ++ ['{'])) := by
  have brace : '{'.utf8Size = 1 := rfl
  have inside : Text.byteSize front < Text.byteSize body := by
    rw [text, Text.byteSize_append]
    exact Nat.lt_add_of_pos_right (Nat.add_pos_left (by decide) _)
  have opens : opensAt (Text.bytes body) (Text.byteSize front) = true := by
    rw [text, opensAt_brace, unescaped]
  have behind : Text.slice? body ⟨Text.byteSize front + 1, Text.byteSize body⟩ = some rest := by
    refine Text.slice?_eq_some_iff.2 ⟨front ++ ['{'], [], by simp [text], ?_⟩
    rw [byteSize_brace, text, Text.byteSize_append, Text.byteSize_cons, brace, Nat.add_assoc]
  rw [partsFrom?, if_pos inside, if_pos opens]
  simp only [behind, nameSize?_eq, Option.bind_eq_bind, Option.bind_some, byteSize_brace]
  cases found : placeholder? rest with
  | none => rfl
  | some p =>
    obtain ⟨name, rest'⟩ := p
    obtain ⟨-, rfl⟩ := placeholder?_eq_some found
    have cut : Text.slice? body
        ⟨Text.byteSize front + 1, Text.byteSize front + 1 + Text.byteSize name⟩ = some name :=
      Text.slice?_eq_some_iff.2
        ⟨front ++ ['{'], '}' :: rest', by simp [text], by rw [byteSize_brace]⟩
    have stop : Text.byteSize (front ++ '{' :: name ++ ['}']) =
        Text.byteSize front + Text.byteSize name + 2 := by
      have brace' : '}'.utf8Size = 1 := rfl
      simp only [Text.byteSize_append, Text.byteSize_cons, Text.byteSize_nil, brace, brace']
      omega
    simp only [Option.map_some, cut, stop, Option.bind_some]

theorem partsFrom?_eq (front literal word : Text) (text : body = front ++ literal.reverse ++ word)
    (closed : front.getLast? ≠ some '\\') :
    partsFrom? body (Text.byteSize front) (Text.byteSize (front ++ literal.reverse)) =
      some (splitParts literal word) := by
  -- the front ends with a placeholder, and what is behind it up to here is literal text
  fun_induction splitParts literal word generalizing front with
  | case1 literal =>
    have size : Text.byteSize body = Text.byteSize (front ++ literal.reverse) := by
      rw [text, List.append_nil]
    rw [partsFrom?, size, if_neg (Nat.lt_irrefl _), literalAt?_eq text]
  | case2 literal c word opens name rest found ih =>
    obtain ⟨rfl, unescaped⟩ : c = '{' ∧ (literal.head? != some '\\') = true := by
      simpa using opens
    rw [← getLast?_append_reverse literal closed] at unescaped
    obtain ⟨-, rfl⟩ := placeholder?_eq_some found
    have later := ih (front ++ literal.reverse ++ '{' :: name ++ ['}'])
      (by simp [text]) (by rw [List.getLast?_concat]; decide)
    rw [List.reverse_nil, List.append_nil] at later
    rw [partsFrom?_brace text unescaped, found]
    simp only [literalAt?_eq text, later, Option.bind_eq_bind, Option.bind_some, Option.pure_def,
      flush_eq_append literal (_ :: _)]
  | case3 literal c word opens none ih =>
    obtain ⟨rfl, unescaped⟩ : c = '{' ∧ (literal.head? != some '\\') = true := by
      simpa using opens
    rw [← getLast?_append_reverse literal closed] at unescaped
    rw [partsFrom?_brace text unescaped, none, ← ih front (by simp [text]) closed]
    simp
  | case4 literal c word opens ih =>
    rw [partsFrom?_char text, ← ih front (by simp [text]) closed]
    · simp
    · rintro rfl
      have := getLast?_append_reverse literal closed
      simp_all

/-! ### Words -/

theorem parseWord?_eq (word : Text) : parseWord? word = some (parseWord word) := by
  have peeled := peelBack?_eq (word.drop (word.takeWhile (· == '"')).length).reverse []
  rw [List.reverse_reverse] at peeled
  simp only [parseWord?, parseWord, peeled, Option.bind_eq_bind, Option.bind_some,
    List.isEmpty_reverse]
  cases (peelEnd (word.drop (word.takeWhile (· == '"')).length).reverse []).1 with
  | nil => rfl
  | cons c reversed =>
    have parts : partsFrom? (c :: reversed).reverse 0 0 =
        some (splitParts [] (c :: reversed).reverse) := partsFrom?_eq [] [] _ rfl (by simp)
    rw [if_neg (by simp), if_neg (by simp), parts]
    rfl

/-- No cut fails, and what is read is the same. -/
theorem parse?_eq (template : Text) : parse? template = some (parse template) := by
  have all : (Text.words template).mapM parseWord? =
      some ((Text.words template).map parseWord) := by
    rw [funext parseWord?_eq]
    exact List.mapM_pure
  rw [parse?, all, parse, List.flatMap_def]
  rfl

/-! ## What the parts of a word are -/

/-- Parts of which none is empty, without literal text beside literal text, and with names that
can be the name of a field. -/
structure IsTidy (parts : List Part) : Prop where
  ne_nil : parts ≠ []
  literal_ne_nil : ∀ text, .literal text ∈ parts → text ≠ []
  literals_apart : ∀ text text', ¬[.literal text, .literal text'] <:+: parts
  isName : ∀ name, .field name ∈ parts → IsName name

theorem literal_ne_nil_of_mem_splitParts (mem : .literal t ∈ splitParts literal word) :
    t ≠ [] := by
  fun_induction splitParts literal word with
  | case1 literal =>
    obtain ⟨eq, ne⟩ := (mem_flush mem).resolve_right List.not_mem_nil
    simpa [Part.literal.inj eq] using ne
  | case2 literal c word opens other rest found ih =>
    rcases mem_flush mem with ⟨eq, ne⟩ | mem
    · simpa [Part.literal.inj eq] using ne
    · exact ih ((List.mem_cons.1 mem).resolve_left (by simp))
  | case3 literal c word opens none ih => exact ih mem
  | case4 literal c word opens ih => exact ih mem

theorem literals_apart_splitParts (literal word u w : Text) :
    ¬[.literal u, .literal w] <:+: splitParts literal word := by
  fun_induction splitParts literal word with
  | case1 literal =>
    unfold flush
    split <;> simp [List.infix_cons_iff]
  | case2 literal c word opens other rest found ih =>
    unfold flush
    split <;> simp [List.infix_cons_iff, ih]
  | case3 literal c word opens none ih => exact ih
  | case4 literal c word opens ih => exact ih

theorem isTidy_splitParts (ne : word ≠ []) : IsTidy (splitParts [] word) where
  ne_nil := by
    intro empty
    have source := source_splitParts [] word
    rw [empty] at source
    exact ne source.symm
  literal_ne_nil _ := literal_ne_nil_of_mem_splitParts
  literals_apart := literals_apart_splitParts [] word
  isName _ := isName_of_mem_splitParts

/-- No cut of the parser falls inside a character. The snippets hold the template without its
blanks, their parts are tidy, and all double quotes of the template are counted in them. -/
theorem parse_lossless (template : Text) :
    parse? template = some (parse template) ∧
      (parse template).flatMap Snippet.source = template.filter (!Text.isBlank ·) ∧
      (∀ parts, .parts parts ∈ parse template → IsTidy parts) ∧
      ((parse template).map Snippet.quotes).sum = template.count '"' := by
  refine ⟨parse?_eq template, source_parse template, fun parts mem => ?_, ?_⟩
  · obtain ⟨body, ne, eq⟩ := (mem_parse mem).resolve_right (by simp)
    exact Snippet.parts.inj eq ▸ isTidy_splitParts ne
  · exact List.count_flatMap.symm.trans (count_literalText template)

end Template

end RulesText
