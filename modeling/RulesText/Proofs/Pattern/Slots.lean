import RulesText.Proofs.Pattern.Alternation
import RulesText.Proofs.Regex.Words
import RulesText.Proofs.Text.Words

/-!
# Templates of words

A template of words and placeholders for words is a row of slots. Optional slots in front of the
first required one bring a space behind them, all others a space before them. If no word can
stand in two slots, a line that is spelled from such a template is taken in one way before all
others: by the slots it was spelled from.

## Main definitions

* `Slot`: a place in a template of words.
* `Filling`: slots, each with the word that stands there, if there is one.
* `Slot.row`: the expressions of a row of slots.

## Main statements

* `Filling.head?_row`: what the preferred match of a line of words captures.
-/

namespace RulesText

open Regex (char literal look chain branchOf oneOf Distributes)

/-- A place in a template of words. -/
inductive Slot where
  | word (w : Text)
  | field (f : Field)

/-- Slots, each with the word that stands there, if there is one. -/
abbrev Filling := List (Slot × Option Text)

namespace Slot

/-- The slot as it is written in a template. -/
def snippet : Slot → Snippet
  | word w => .parts [.literal w]
  | field f => .parts [.field f.name]

/-- The words that can stand in the slot. -/
def words : Slot → List Text
  | word w => [w]
  | field f => f.alternatives

def isOptional : Slot → Bool
  | word _ => false
  | field f => f.isOptional

def name? : Slot → Option Text
  | word _ => none
  | field f => some f.name

/-- What can be found in the slot. -/
def Fits (s : Slot) : Option Text → Prop
  | none => s.isOptional
  | some w => w ∈ s.words

instance (s : Slot) : DecidablePred s.Fits
  | none => inferInstanceAs (Decidable (s.isOptional = true))
  | some w => inferInstanceAs (Decidable (w ∈ s.words))

/-! ## Expressions -/

/-- The expressions of the slot, without any space. -/
def exprs : Slot → List Regex
  | word w => w.map char
  | field f => [.group (some f.name) (branchOf
      [oneOf ((Alternation.longestFirst (Alternation.distinct f.alternatives)).map literal)])]

/-- Expressions that may be left out. -/
def optionally (rs : List Regex) : Regex :=
  .repetition (branchOf rs) 0 (some 1) true

/-- The expressions of the slot behind another one. -/
def following (s : Slot) : List Regex :=
  if s.isOptional then [optionally (char ' ' :: s.exprs)] else char ' ' :: s.exprs

/-- The expressions of slots up to the first required one and behind it. -/
def leading : List Slot → List Regex
  | [] => []
  | s :: slots =>
    if s.isOptional then optionally (s.exprs ++ [char ' ']) :: leading slots
    else s.exprs ++ slots.flatMap following

/-- The expressions of a row of slots between word boundaries. -/
def row (slots : List Slot) : List Regex :=
  look .wordBoundary :: (leading slots ++ [look .wordBoundary])

/-- A property of expressions that rows of slots take over from their parts. -/
structure IsKeptByRows (p : Regex → Bool) : Prop where
  distributes : Distributes p
  char : ∀ c, p (char c)
  boundary : p (look .wordBoundary)
  group : ∀ name? r, p r → p (.group name? r)
  option : ∀ r, p r → p (.repetition r 0 (some 1) true)

namespace IsKeptByRows

variable {p : Regex → Bool} (h : IsKeptByRows p) {s : Slot} {slots : List Slot}

include h

theorem chars (w : Text) : ∀ r ∈ w.map Regex.char, p r := by
  intro r mem
  obtain ⟨c, -, rfl⟩ := List.mem_map.1 mem
  exact h.char c

theorem literal (w : Text) : p (Regex.literal w) := by
  rw [Regex.literal, h.distributes.sequence, List.all_eq_true]
  exact h.chars w

theorem exprs : ∀ r ∈ s.exprs, p r := by
  intro r mem
  cases s with
  | word w => exact h.chars w r mem
  | field f =>
    obtain rfl := List.mem_singleton.1 mem
    refine h.group _ _ ?_
    simp [h.distributes.branchOf, h.distributes.oneOf, h.literal]

theorem optionally {rs : List Regex} (all : ∀ r ∈ rs, p r) : p (Slot.optionally rs) := by
  refine h.option _ ?_
  rw [h.distributes.branchOf, List.all_eq_true]
  exact all

theorem following : ∀ r ∈ s.following, p r := by
  have spaced : ∀ r ∈ Regex.char ' ' :: s.exprs, p r :=
    List.forall_mem_cons.2 ⟨h.char ' ', h.exprs⟩
  unfold Slot.following
  split
  · exact List.forall_mem_singleton.2 (h.optionally spaced)
  · exact spaced

theorem leading : ∀ r ∈ Slot.leading slots, p r := by
  induction slots with
  | nil => exact List.forall_mem_nil _
  | cons s slots ih =>
    rw [Slot.leading]
    split
    · have spaced : ∀ r ∈ s.exprs ++ [Regex.char ' '], p r :=
        List.forall_mem_append.2 ⟨h.exprs, List.forall_mem_singleton.2 (h.char ' ')⟩
      exact List.forall_mem_cons.2 ⟨h.optionally spaced, ih⟩
    · refine List.forall_mem_append.2 ⟨h.exprs, fun r mem => ?_⟩
      obtain ⟨s', -, mem⟩ := List.mem_flatMap.1 mem
      exact h.following r mem

theorem row (slots : List Slot) : p (branchOf (Slot.row slots)) := by
  rw [h.distributes.branchOf, Slot.row, List.all_cons, List.all_append]
  simpa [h.boundary] using h.leading

end IsKeptByRows

theorem isSteady_row (slots : List Slot) : (branchOf (row slots)).isSteady :=
  IsKeptByRows.row ⟨Regex.distributes_isSteady, fun _ => rfl, rfl, fun _ _ h => h,
    fun _ h => by simp [Regex.isSteady, h]⟩ slots

theorem looksInLoop_row (slots : List Slot) : (branchOf (row slots)).looksInLoop = false := by
  simpa using IsKeptByRows.row (p := (!·.looksInLoop)) ⟨Regex.distributes_not_looksInLoop,
    fun _ => rfl, rfl, fun _ _ h => h, fun _ h => by simpa [Regex.looksInLoop] using h⟩ slots

end Slot

/-! ## Ways through slots -/

namespace Slot

variable {s : Slot} {slots : List Slot} {w t : Text} {m : Match} {F : Ways}

/-- The match that goes on with a word in the slot. -/
def take (s : Slot) (w : Text) (m : Match) : Match :=
  match s.name? with
  | none => m.past w
  | some name => (m.past w).capture name m.stop

@[simp] theorem stop_take (s : Slot) (w : Text) (m : Match) :
    (s.take w m).stop = m.stop.past w := by
  unfold take
  split <;> rfl

theorem ahead_take (s : Slot) (ahead : m.stop.ahead = w ++ t) : (s.take w m).stop.ahead = t := by
  rw [stop_take]
  exact Cursor.ahead_past ahead

theorem behindIs_take (s : Slot) (own : w.IsLowerWord) :
    (s.take w m).stop.behindIs Char.isLower := by
  rw [stop_take]
  exact Cursor.behindIs_past own.ne_nil own.lower

theorem groups_take (s : Slot) (w : Text) (m : Match) : (s.take w m).groups =
    (s.name?.map (·, Span.mk m.stop.offset (m.stop.offset + Text.byteSize w))).toList ++
      m.groups := by
  unfold take
  split <;> rename_i eq <;> simp [eq, Match.past, Match.capture, Cursor.spanTo, Cursor.past]

/-- In the slot, the word that is ahead is taken if it can stand there. -/
theorem head?_exprs (stuck : F.Stuck) (words : ∀ a ∈ s.words, a.IsLowerWord)
    (nonempty : s.words ≠ []) (lower : w.IsLowerWord) (ahead : m.stop.ahead = w ++ t)
    (ends : t.head?.any Char.isLower = false) :
    ((chain s.exprs).andThen F m).head? =
      if w ∈ s.words then (F (s.take w m)).head? else none := by
  cases s with
  | word a =>
    have own := words a List.mem_cons_self
    rw [Ways.andThen, exprs, Regex.flatMap_chain_chars stuck lower own ahead ends]
    by_cases eq : w = a <;> simp [eq, Slot.words, take, name?]
  | field f =>
    let forms := Alternation.longestFirst (Alternation.distinct f.alternatives)
    have same : ∀ a, a ∈ forms ↔ a ∈ f.alternatives := fun a => by
      rw [Alternation.mem_longestFirst, Alternation.mem_distinct]
    have some_form : forms ≠ [] := by
      obtain ⟨a, mem⟩ := List.exists_mem_of_ne_nil _ nonempty
      exact List.ne_nil_of_mem ((same a).2 mem)
    have inner (m : Match) : (branchOf [oneOf (forms.map literal)]).ways m =
        forms.flatMap fun a => chain (a.map char) m := by
      rw [Regex.ways_branchOf, Regex.chain_singleton,
        Regex.ways_oneOf_words some_form]
    let G : Ways := fun n => F (n.capture f.name m.stop)
    have stuck' : G.Stuck := fun n inside => stuck _ inside
    have captured : (chain (exprs (.field f))).andThen F m =
        (forms.flatMap fun a => chain (a.map char) m).flatMap G := by
      rw [← inner, exprs, Regex.chain_singleton,
        Ways.andThen, Regex.ways, List.flatMap_map]
    rw [captured, Regex.head?_words stuck' lower (fun a mem => words a ((same a).1 mem)) ahead ends]
    simp only [same]
    rfl

/-! ## Ways through rows -/

theorem isLower_space : ' '.isLower = false := by decide

theorem head?_append_of_none {α : Type} {l k : List α} (none : l.head? = none) :
    (l ++ k).head? = k.head? := by
  rw [List.head?_eq_none_iff.1 none, List.nil_append]

/-- What can be left out is tried first. -/
theorem optionally_andThen (rs : List Regex) (F : Ways) (m : Match) :
    (optionally rs).ways.andThen F m = (chain rs).andThen F m ++ F m := by
  have own : (optionally rs).ways m = chain rs m ++ [m] := by
    simp [optionally, Regex.ways, Ways.between, Ways.times, Ways.upTo, Ways.arrange, Ways.andThen,
      Regex.ways_branchOf]
  rw [Ways.andThen, own, List.flatMap_append, List.flatMap_singleton]
  rfl

theorem space_andThen (ahead : m.stop.ahead = ' ' :: t) (F : Ways) :
    (char ' ').ways.andThen F m = F (m.past [' ']) := by
  rw [Ways.andThen, Regex.ways_char, if_pos ⟨t, ahead.symm⟩, List.flatMap_singleton]

theorem ways_space_eq_nil (ahead : m.stop.aheadIs (· == ' ') = false) :
    (char ' ').ways m = [] := by
  rw [Regex.ways_char, if_neg]
  rintro ⟨t, eq⟩
  simp [Cursor.aheadIs, ← eq] at ahead

theorem stuck_space : (char ' ').ways.Stuck := by
  intro m inside
  refine ways_space_eq_nil ?_
  have lower := inside.ahead
  unfold Cursor.aheadIs at lower ⊢
  cases ahead : m.stop.ahead with
  | nil => rfl
  | cons x t =>
    rw [ahead] at lower
    by_contra eq
    obtain rfl : x = ' ' := by simpa using eq
    simp [isLower_space] at lower

theorem stuck_wordBoundary : (chain [look .wordBoundary]).Stuck := by
  intro m inside
  have word : ∀ x : Option Char, x.any Char.isLower → x.any Text.isWordChar := by
    intro x lower
    cases x with
    | none => cases lower
    | some x => exact Text.isWordChar_of_isLower lower
  have behind : m.stop.behindIs Text.isWordChar = true := word _ inside.behind
  have ahead : m.stop.aheadIs Text.isWordChar = true := word _ inside.ahead
  have closed : Regex.Look.wordBoundary.holds m.stop = false := by
    change (m.stop.behindIs Text.isWordChar != m.stop.aheadIs Text.isWordChar) = false
    rw [behind, ahead]
    rfl
  rw [Regex.chain_singleton, Regex.ways, closed]
  rfl

/-- A line of small letters ends at a word boundary. -/
theorem chain_wordBoundary_of_end (inside : m.stop.behindIs Char.isLower)
    (atEnd : m.stop.ahead = []) : chain [look .wordBoundary] m = [m] := by
  have behind : m.stop.behindIs Text.isWordChar = true := by
    unfold Cursor.behindIs at inside ⊢
    cases last : m.stop.behind.head? with
    | none => simp [last] at inside
    | some x => exact Text.isWordChar_of_isLower (by simpa [last] using inside)
  have nothing : m.stop.aheadIs Text.isWordChar = false := by
    rw [Cursor.aheadIs, atEnd]
    rfl
  have closed : Regex.Look.wordBoundary.holds m.stop = true := by
    change (m.stop.behindIs Text.isWordChar != m.stop.aheadIs Text.isWordChar) = true
    rw [behind, nothing]
    rfl
  rw [Regex.chain_singleton, Regex.ways, closed]
  rfl

/-- An optional slot behind another one is tried before it is left out. -/
theorem chain_following_of_isOptional (optional : s.isOptional) (rs : List Regex) (m : Match) :
    chain (s.following ++ rs) m =
      (chain (char ' ' :: s.exprs)).andThen (chain rs) m ++ chain rs m := by
  rw [Regex.chain_append, following, if_pos optional, Regex.chain_singleton, optionally_andThen]

/-- An optional slot in front is tried before it is left out. -/
theorem chain_leading_of_isOptional (optional : s.isOptional) (slots : List Slot)
    (rs : List Regex) (m : Match) :
    chain (leading (s :: slots) ++ rs) m =
      (chain s.exprs).andThen ((char ' ').ways.andThen (chain (leading slots ++ rs))) m ++
        chain (leading slots ++ rs) m := by
  rw [leading, if_pos optional, List.cons_append, ← List.singleton_append, Regex.chain_append,
    Regex.chain_singleton, optionally_andThen, Regex.chain_append, Regex.chain_singleton,
    Ways.andThen_assoc]

theorem chain_leading_of_not_isOptional (required : ¬ s.isOptional) (slots : List Slot)
    (rs : List Regex) :
    chain (leading (s :: slots) ++ rs) =
      (chain s.exprs).andThen (chain (slots.flatMap following ++ rs)) := by
  rw [leading, if_neg required, List.append_assoc, Regex.chain_append]

/-- Behind a slot, no other one begins in the middle of a word. -/
theorem stuck_following (slots : List Slot) :
    (chain (slots.flatMap following ++ [look .wordBoundary])).Stuck := by
  induction slots with
  | nil => exact stuck_wordBoundary
  | cons s slots ih =>
    have spaced := (stuck_space.andThen (chain s.exprs)).andThen
      (chain (slots.flatMap following ++ [look .wordBoundary]))
    rw [List.flatMap_cons, List.append_assoc]
    by_cases optional : s.isOptional
    · intro m inside
      rw [chain_following_of_isOptional optional, ih m inside, List.append_nil]
      exact spaced m inside
    · rw [Regex.chain_append, following, if_neg optional]
      exact spaced

end Slot

namespace Filling

variable {filled : Filling} {w t : Text} {m : Match}

/-- The words of a filling. -/
def words (filled : Filling) : List Text :=
  filled.filterMap (·.2)

/-- The line that a filling spells. -/
def line (filled : Filling) : Text :=
  Text.unwords filled.words

/-- What the words spell behind another word. -/
def behind (filled : Filling) : Text :=
  filled.words.flatMap (' ' :: ·)

/-- Every slot holds a word of its own, no word can stand in two slots, and slots that have to be
filled are filled. -/
structure IsWordy (filled : Filling) : Prop where
  nonempty : ∀ p ∈ filled, p.1.words ≠ []
  lower : ∀ p ∈ filled, ∀ w ∈ p.1.words, w.IsLowerWord
  distinct : (filled.flatMap (·.1.words)).Nodup
  fits : ∀ p ∈ filled, p.1.Fits p.2

theorem IsWordy.tail {p : Slot × Option Text} (h : IsWordy (p :: filled)) : filled.IsWordy where
  nonempty := (List.forall_mem_cons.1 h.nonempty).2
  lower := (List.forall_mem_cons.1 h.lower).2
  distinct := (List.nodup_append.1 h.distinct).2.1
  fits := (List.forall_mem_cons.1 h.fits).2

/-- A word of a later slot does not stand in the first one. -/
theorem IsWordy.not_mem {p : Slot × Option Text} (h : IsWordy (p :: filled))
    (mem : w ∈ filled.words) : w ∉ p.1.words := by
  obtain ⟨q, mem, some⟩ := List.mem_filterMap.1 mem
  have fits := h.tail.fits q mem
  rw [some] at fits
  intro own
  exact (List.nodup_append.1 h.distinct).2.2 w own w (List.mem_flatMap.2 ⟨q, mem, fits⟩) rfl

theorem IsWordy.isLowerWord (h : filled.IsWordy) (mem : w ∈ filled.words) : w.IsLowerWord := by
  obtain ⟨q, mem, some⟩ := List.mem_filterMap.1 mem
  have fits := h.fits q mem
  rw [some] at fits
  exact h.lower q mem w fits

theorem unwords_cons_eq (w : Text) (ws : List Text) :
    Text.unwords (w :: ws) = w ++ ws.flatMap (' ' :: ·) := by
  induction ws generalizing w with
  | nil => simp [Text.unwords, Text.join]
  | cons v ws ih => rw [Text.unwords_cons, ih, List.flatMap_cons, List.cons_append]

theorem head?_flatMap_space (ws : List Text) :
    (ws.flatMap (' ' :: ·)).head?.any Char.isLower = false := by
  cases ws <;> rfl

/-! ## The preferred way -/

/-- The match that goes on with the words behind another one. -/
def followed : Filling → Match → Match
  | [], m => m
  | (_, none) :: filled, m => followed filled m
  | (s, some w) :: filled, m => followed filled (s.take w (m.past [' ']))

/-- The match that goes on with all words. -/
def led : Filling → Match → Match
  | [], m => m
  | (_, none) :: filled, m => led filled m
  | (s, some w) :: filled, m =>
    if s.isOptional then led filled ((s.take w m).past [' ']) else followed filled (s.take w m)

section

variable {s : Slot} {F : Ways} (stuck : F.Stuck) (nonempty : s.words ≠ [])
  (words : ∀ a ∈ s.words, a.IsLowerWord)

include stuck nonempty words

/-- Behind another word, the word that is ahead is taken if it can stand in the slot. -/
theorem head?_spaced (lower : w.IsLowerWord) (ahead : m.stop.ahead = ' ' :: (w ++ t))
    (ends : t.head?.any Char.isLower = false) :
    ((chain (char ' ' :: s.exprs)).andThen F m).head? =
      if w ∈ s.words then (F (s.take w (m.past [' ']))).head? else none := by
  have first : (chain (char ' ' :: s.exprs)).andThen F m =
      (chain s.exprs).andThen F (m.past [' ']) := by
    rw [chain, List.foldr_cons, Ways.andThen_assoc, Slot.space_andThen ahead]
    rfl
  have rest : (m.past [' ']).stop.ahead = w ++ t := Cursor.ahead_past ahead
  rw [first, Slot.head?_exprs stuck words nonempty lower rest ends]

/-- A slot is left out if none of its words comes next. -/
theorem head?_spaced_eq_none {ws : List Text} (lower : ∀ w ∈ ws, w.IsLowerWord)
    (others : ∀ w ∈ ws, w ∉ s.words) (ahead : m.stop.ahead = ws.flatMap (' ' :: ·)) :
    ((chain (char ' ' :: s.exprs)).andThen F m).head? = none := by
  cases ws with
  | nil =>
    have nothing : (char ' ').ways m = [] := by
      refine Slot.ways_space_eq_nil ?_
      simp [Cursor.aheadIs, ahead]
    change (List.flatMap F (List.flatMap (chain s.exprs) ((char ' ').ways m))).head? = none
    rw [nothing]
    rfl
  | cons w ws =>
    rw [head?_spaced stuck nonempty words (lower w List.mem_cons_self) ahead
      (head?_flatMap_space ws), if_neg (others w List.mem_cons_self)]

end

theorem head?_following (h : filled.IsWordy) (inside : m.stop.behindIs Char.isLower)
    (ahead : m.stop.ahead = filled.behind) :
    (chain ((filled.map (·.1)).flatMap Slot.following ++ [look .wordBoundary]) m).head? =
      some (filled.followed m) := by
  induction filled generalizing m with
  | nil =>
    have closed := Slot.chain_wordBoundary_of_end inside ahead
    exact congrArg List.head? closed
  | cons p filled ih =>
    obtain ⟨s, w?⟩ := p
    have stuck := Slot.stuck_following (filled.map (·.1))
    have nonempty : s.words ≠ [] := h.nonempty _ List.mem_cons_self
    have lower : ∀ a ∈ s.words, a.IsLowerWord := h.lower _ List.mem_cons_self
    have fits : s.Fits w? := h.fits _ List.mem_cons_self
    rw [List.map_cons, List.flatMap_cons, List.append_assoc]
    cases w? with
    | none =>
      have optional : s.isOptional := fits
      have absent := head?_spaced_eq_none stuck nonempty lower
        (fun w mem => h.tail.isLowerWord mem) (fun w mem => h.not_mem mem) ahead
      rw [Slot.chain_following_of_isOptional optional, Slot.head?_append_of_none absent]
      exact ih h.tail inside ahead
    | some w =>
      have mem : w ∈ s.words := fits
      have own := lower w mem
      have ahead : m.stop.ahead = ' ' :: (w ++ behind filled) := ahead
      have present := head?_spaced stuck nonempty lower own ahead (head?_flatMap_space _)
      have rest := s.ahead_take (m := m.past [' ']) (Cursor.ahead_past ahead)
      rw [if_pos mem, ih h.tail (s.behindIs_take own) rest] at present
      by_cases optional : s.isOptional
      · rw [Slot.chain_following_of_isOptional optional, List.head?_append, present]
        rfl
      · rw [Regex.chain_append, Slot.following, if_neg optional]
        exact present

theorem IsWordy.words_ne_nil (h : filled.IsWordy)
    (required : ∃ p ∈ filled, p.1.isOptional = false) : filled.words ≠ [] := by
  obtain ⟨⟨s, w?⟩, mem, required⟩ := required
  have fits := h.fits _ mem
  cases w? with
  | none => exact absurd (required.symm.trans fits) (by simp)
  | some w => exact List.ne_nil_of_mem (List.mem_filterMap.2 ⟨_, mem, rfl⟩)

/-- A line of words begins with a small letter. -/
theorem IsWordy.exists_line (h : filled.IsWordy)
    (required : ∃ p ∈ filled, p.1.isOptional = false) :
    ∃ x rest, filled.line = x :: rest ∧ x.isLower := by
  obtain ⟨w, ws, eq⟩ := List.exists_cons_of_ne_nil (h.words_ne_nil required)
  have own := h.isLowerWord (eq ▸ List.mem_cons_self)
  obtain ⟨x, w, rfl⟩ := List.exists_cons_of_ne_nil own.ne_nil
  refine ⟨x, w ++ ws.flatMap (' ' :: ·), ?_, own.lower x List.mem_cons_self⟩
  rw [line, eq, unwords_cons_eq, List.cons_append]

/-- Behind an optional slot, a required one still comes. -/
theorem exists_required_tail {p : Slot × Option Text}
    (required : ∃ q ∈ p :: filled, q.1.isOptional = false) (optional : p.1.isOptional) :
    ∃ q ∈ filled, q.1.isOptional = false := by
  obtain ⟨q, mem, required⟩ := required
  rcases List.mem_cons.1 mem with rfl | mem
  · exact absurd (optional.symm.trans required) (by simp)
  · exact ⟨q, mem, required⟩

theorem head?_leading (h : filled.IsWordy) (required : ∃ p ∈ filled, p.1.isOptional = false)
    (ahead : m.stop.ahead = filled.line) :
    (chain (Slot.leading (filled.map (·.1)) ++ [look .wordBoundary]) m).head? =
      some (filled.led m) := by
  induction filled generalizing m with
  | nil => simp at required
  | cons p filled ih =>
    obtain ⟨s, w?⟩ := p
    have nonempty : s.words ≠ [] := h.nonempty _ List.mem_cons_self
    have lower : ∀ a ∈ s.words, a.IsLowerWord := h.lower _ List.mem_cons_self
    have fits : s.Fits w? := h.fits _ List.mem_cons_self
    rw [List.map_cons]
    by_cases optional : s.isOptional
    · have later := exists_required_tail required optional
      obtain ⟨v, vs, some_word⟩ := List.exists_cons_of_ne_nil (h.tail.words_ne_nil later)
      have stuck := Slot.stuck_space.andThen
        (chain (Slot.leading (filled.map (·.1)) ++ [look .wordBoundary]))
      rw [Slot.chain_leading_of_isOptional optional]
      cases w? with
      | none =>
        have next : line filled = v ++ vs.flatMap (' ' :: ·) := by
          rw [line, some_word, unwords_cons_eq]
        have own : v ∈ words filled := some_word ▸ List.mem_cons_self
        have absent := Slot.head?_exprs stuck lower nonempty (h.tail.isLowerWord own)
          (ahead.trans next) (head?_flatMap_space vs)
        rw [if_neg (h.not_mem own)] at absent
        rw [Slot.head?_append_of_none absent]
        exact ih h.tail later ahead
      | some w =>
        have next : m.stop.ahead = w ++ ' ' :: line filled := by
          rw [ahead, line, line]
          change Text.unwords (w :: words filled) = _
          rw [some_word, Text.unwords_cons]
        have mem : w ∈ s.words := fits
        have present := Slot.head?_exprs stuck lower nonempty (lower w mem) next rfl
        have behind := s.ahead_take next
        have rest : ((s.take w m).past [' ']).stop.ahead = line filled := Cursor.ahead_past behind
        rw [if_pos mem, Slot.space_andThen behind, ih h.tail later rest] at present
        rw [List.head?_append, present, led, if_pos optional]
        rfl
    · cases w? with
      | none => exact absurd fits optional
      | some w =>
        have next : m.stop.ahead = w ++ behind filled := ahead.trans (unwords_cons_eq w _)
        have mem : w ∈ s.words := fits
        have own := lower w mem
        have present := Slot.head?_exprs (Slot.stuck_following (filled.map (·.1))) lower nonempty
          own next (head?_flatMap_space _)
        rw [if_pos mem, head?_following h.tail (s.behindIs_take own) (s.ahead_take next)] at present
        rw [Slot.chain_leading_of_not_isOptional optional, led, if_neg optional]
        exact present

/-- A line of words is taken by the slots that it was spelled from before all else. -/
theorem head?_row (h : filled.IsWordy) (required : ∃ p ∈ filled, p.1.isOptional = false) :
    ((branchOf (Slot.row (filled.map (·.1)))).ways { stop := .start filled.line }).head? =
      some (filled.led { stop := .start filled.line }) := by
  obtain ⟨x, rest, eq, lower⟩ := h.exists_line required
  have starts : Regex.Look.wordBoundary.holds (.start filled.line) = true := by
    change (false != (filled.line.head?.any Text.isWordChar)) = true
    rw [eq]
    simpa using Text.isWordChar_of_isLower lower
  have first : (look .wordBoundary).ways { stop := .start filled.line } =
      [{ stop := .start filled.line }] := by
    rw [Regex.ways, if_pos starts]
  rw [Regex.ways_branchOf, Slot.row, ← List.singleton_append, Regex.chain_append,
    Regex.chain_singleton, Ways.andThen, first, List.flatMap_singleton]
  exact head?_leading h required rfl

/-! ## What is captured -/

/-- The groups of the words, where the first word begins at `start`. -/
def captured : Nat → Filling → List (Text × Span)
  | _, [] => []
  | start, (_, none) :: filled => captured start filled
  | start, (s, some w) :: filled =>
    (s.name?.map (·, ⟨start, start + Text.byteSize w⟩)).toList ++
      captured (start + Text.byteSize w + 1) filled

theorem reverse_toList {α : Type} (o : Option α) : o.toList.reverse = o.toList := by
  cases o <;> rfl

theorem groups_followed (filled : Filling) (m : Match) :
    (filled.followed m).groups =
      (filled.captured (m.stop.offset + 1)).reverse ++ m.groups := by
  induction filled generalizing m with
  | nil => rfl
  | cons p filled ih =>
    obtain ⟨s, _ | w⟩ := p
    · exact ih m
    · have offset : (m.past [' ']).stop.offset = m.stop.offset + 1 := rfl
      rw [followed, ih, Slot.groups_take, Slot.stop_take, offset, captured, List.reverse_append,
        reverse_toList, List.append_assoc]
      rfl

theorem groups_led (filled : Filling) (m : Match) :
    (filled.led m).groups = (filled.captured m.stop.offset).reverse ++ m.groups := by
  induction filled generalizing m with
  | nil => rfl
  | cons p filled ih =>
    obtain ⟨s, _ | w⟩ := p
    · exact ih m
    · rw [led, captured, List.reverse_append, reverse_toList, List.append_assoc]
      split
      · rw [ih]
        have own : ((s.take w m).past [' ']).groups = (s.take w m).groups := rfl
        rw [own, Slot.groups_take]
        simp only [Match.past, Slot.stop_take]
        rfl
      · rw [groups_followed, Slot.groups_take, Slot.stop_take]
        rfl

theorem stop_followed (filled : Filling) (m : Match) :
    (filled.followed m).stop = m.stop.past filled.behind := by
  induction filled generalizing m with
  | nil => rfl
  | cons p filled ih =>
    obtain ⟨s, _ | w⟩ := p
    · exact ih m
    · rw [followed, ih, Slot.stop_take]
      change ((m.stop.past [' ']).past w).past (behind filled) =
        m.stop.past (' ' :: w ++ behind filled)
      rw [← Cursor.past_append, ← Cursor.past_append]
      rfl

theorem stop_led (h : filled.IsWordy) (required : ∃ p ∈ filled, p.1.isOptional = false)
    (m : Match) : (filled.led m).stop = m.stop.past filled.line := by
  induction filled generalizing m with
  | nil => simp at required
  | cons p filled ih =>
    obtain ⟨s, _ | w⟩ := p
    · have optional : s.isOptional := h.fits _ List.mem_cons_self
      exact ih h.tail (exists_required_tail required optional) m
    · rw [led]
      split
      · rename_i optional
        have later := exists_required_tail required optional
        obtain ⟨v, vs, some_word⟩ := List.exists_cons_of_ne_nil (h.tail.words_ne_nil later)
        have whole : line ((s, some w) :: filled) = w ++ [' '] ++ line filled := by
          change Text.unwords (w :: words filled) = w ++ [' '] ++ Text.unwords (words filled)
          rw [some_word, Text.unwords_cons, List.append_assoc, List.singleton_append]
        rw [ih h.tail later, whole, Cursor.past_append, Cursor.past_append]
        simp [Match.past]
      · have whole : line ((s, some w) :: filled) = w ++ behind filled := unwords_cons_eq w _
        rw [stop_followed, Slot.stop_take, whole, Cursor.past_append]

end Filling

end RulesText
