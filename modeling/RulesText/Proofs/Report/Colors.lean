import Mathlib.Data.List.TakeWhile
import RulesText.Proofs.Text.Slices
import RulesText.Proofs.Text.Words
import RulesText.Report.Layout
import RulesText.Vocabulary.Kind

/-!
# Texts without colors

A color sequence is an escape character, an opening bracket, parameters and an `m`. A text without
colors is what is left when these sequences are taken out from left to right. No sequence goes on
across a character that cannot stand inside one, so texts that begin with such a character lose
their sequences for themselves.

## Main definitions

* `Text.withoutColors`: a text without its color sequences.
* `Text.isBarrier`: whether no color sequence goes on with a character.
* `Text.IsPlain`: a text without escape characters.

## Main statements

* `Text.withoutColors_append`: a barrier separates texts.
* `Palette.withoutColors_wrap`: what a palette adds are color sequences.
-/

namespace RulesText

namespace Text

/-! ## Color sequences -/

/-- The character that every escape sequence begins with. -/
def escape : Char :=
  '\x1b'

/-- A character that may stand between the bracket and the `m` of a color sequence. -/
def isParameter (c : Char) : Bool :=
  c.isDigit || c == ';'

/-- What follows the color sequence that a text begins with. -/
def behindColor? : Text → Option Text
  | c :: '[' :: t =>
    if c == escape then
      match t.dropWhile isParameter with
      | 'm' :: after => some after
      | _ => none
    else none
  | _ => none

variable {s t u after code : Text} {c : Char}

theorem escapeSequence_eq (code : Text) :
    escapeSequence code = escape :: '[' :: (code ++ ['m']) := rfl

theorem behindColor?_eq_some_iff : behindColor? t = some after ↔
    ∃ code : Text, code.all isParameter ∧ t = escapeSequence code ++ after := by
  constructor
  · intro found
    rw [behindColor?.eq_def] at found
    split at found
    · rename_i c t
      split at found
      · rename_i first
        obtain rfl := beq_iff_eq.1 first
        split at found
        · rename_i rest
          obtain rfl := Option.some.inj found
          have parts := List.takeWhile_append_dropWhile (p := isParameter) (l := t)
          refine ⟨t.takeWhile isParameter, List.all_takeWhile, ?_⟩
          rw [rest] at parts
          simp [escapeSequence_eq, parts]
        · cases found
      · cases found
    · cases found
  · rintro ⟨code, parameters, rfl⟩
    have rest : (code ++ 'm' :: after).dropWhile isParameter = 'm' :: after := by
      rw [List.dropWhile_append_of_pos (List.all_eq_true.1 parameters)]
      rfl
    simp [escapeSequence_eq, behindColor?, rest]

theorem length_behindColor? (h : behindColor? t = some after) : after.length < t.length := by
  obtain ⟨code, -, rfl⟩ := behindColor?_eq_some_iff.1 h
  simp only [escapeSequence_eq, List.length_append, List.length_cons]
  omega

/-- A text without its color sequences. -/
def withoutColors (t : Text) : Text :=
  match _h : behindColor? t with
  | some after => withoutColors after
  | none =>
    match t with
    | [] => []
    | c :: rest => c :: withoutColors rest
termination_by t.length
decreasing_by
  · exact length_behindColor? _h
  · simp

@[simp] theorem withoutColors_nil : withoutColors [] = [] := by
  rw [withoutColors]
  rfl

theorem withoutColors_sequence (parameters : code.all isParameter) (t : Text) :
    withoutColors (escapeSequence code ++ t) = withoutColors t := by
  have found : behindColor? (escapeSequence code ++ t) = some t :=
    behindColor?_eq_some_iff.2 ⟨code, parameters, rfl⟩
  rw [withoutColors]
  split
  · rename_i h
    rw [found] at h
    rw [Option.some.inj h]
  · rename_i h
    rw [found] at h
    cases h

theorem withoutColors_cons (none : behindColor? (c :: t) = none) :
    withoutColors (c :: t) = c :: withoutColors t := by
  rw [withoutColors]
  split
  · rename_i h
    rw [none] at h
    cases h
  · rfl

/-! ## Barriers -/

/-- Whether no color sequence goes on with a character. -/
def isBarrier (c : Char) : Bool :=
  !(c == '[' || c == 'm' || isParameter c)

/-- Every character of a color sequence but the first one can go on with one. -/
theorem not_isBarrier (parameters : code.all isParameter) (mem : c ∈ '[' :: (code ++ ['m'])) :
    isBarrier c = false := by
  simp only [List.mem_cons, List.mem_append, List.not_mem_nil, or_false] at mem
  rcases mem with rfl | mem | rfl
  · rfl
  · simp [isBarrier, List.all_eq_true.1 parameters c mem]
  · rfl

/-- Where no color sequence begins, none begins when a barrier follows. -/
theorem behindColor?_append (barrier : ∀ c ∈ u.head?, isBarrier c)
    (none : behindColor? (c :: t) = none) : behindColor? (c :: (t ++ u)) = Option.none := by
  refine Option.eq_none_iff_forall_ne_some.2 fun after found => ?_
  obtain ⟨code, parameters, eq⟩ := behindColor?_eq_some_iff.1 found
  have none : ∀ after, c :: t ≠ escapeSequence code ++ after := by
    rintro after eq
    rw [behindColor?_eq_some_iff.2 ⟨code, parameters, eq⟩] at none
    cases none
  rw [← List.cons_append] at eq
  rcases List.append_eq_append_iff.1 eq with ⟨inner, sequence, rest⟩ | ⟨inner, sequence, -⟩
  · cases inner with
    | nil => exact none [] (by rw [sequence, List.append_nil, List.append_nil])
    | cons x inner =>
      have tail : '[' :: (code ++ ['m']) = t ++ x :: inner := (List.cons.inj sequence).2
      have within := not_isBarrier parameters (c := x) (by rw [tail]; simp)
      rw [barrier x (by rw [rest]; rfl)] at within
      cases within
  · exact none inner sequence

theorem withoutColors_append (barrier : ∀ c ∈ u.head?, isBarrier c) (t : Text) :
    withoutColors (t ++ u) = withoutColors t ++ withoutColors u := by
  fun_induction withoutColors t with
  | case1 t after found ih =>
    obtain ⟨code, parameters, rfl⟩ := behindColor?_eq_some_iff.1 found
    rw [List.append_assoc, withoutColors_sequence parameters, ih]
  | case2 => simp
  | case3 c rest none ih =>
    rw [List.cons_append, withoutColors_cons (behindColor?_append barrier none), ih,
      List.cons_append]

theorem withoutColors_cons_of_ne (ne : c ≠ escape) (t : Text) :
    withoutColors (c :: t) = c :: withoutColors t := by
  refine withoutColors_cons (Option.eq_none_iff_forall_ne_some.2 fun after found => ne ?_)
  obtain ⟨code, -, eq⟩ := behindColor?_eq_some_iff.1 found
  exact (List.cons.inj eq).1

/-- A color sequence behind a text is taken out for itself. -/
theorem withoutColors_append_sequence (parameters : code.all isParameter) (s t : Text) :
    withoutColors (s ++ (escapeSequence code ++ t)) = withoutColors s ++ withoutColors t := by
  rw [withoutColors_append ?_ s, withoutColors_sequence parameters]
  rintro c first
  obtain rfl : escape = c := by simpa [escapeSequence_eq] using first
  rfl

/-- A barrier that begins no sequence stays between the texts that it separates. -/
theorem withoutColors_append_cons (barrier : isBarrier c) (ne : c ≠ escape) (s t : Text) :
    withoutColors (s ++ c :: t) = withoutColors s ++ c :: withoutColors t := by
  rw [withoutColors_append (by simpa using barrier), withoutColors_cons_of_ne ne]

@[simp] theorem withoutColors_append_space (s t : Text) :
    withoutColors (s ++ ' ' :: t) = withoutColors s ++ ' ' :: withoutColors t :=
  withoutColors_append_cons rfl (by decide) s t

@[simp] theorem withoutColors_space (t : Text) :
    withoutColors (' ' :: t) = ' ' :: withoutColors t :=
  withoutColors_cons_of_ne (by decide) t

@[simp] theorem withoutColors_indented (depth : Nat) (t : Text) :
    withoutColors (Report.indented depth t) = Report.indented depth (withoutColors t) := by
  rw [Report.indented, Report.indented]
  induction 2 * depth with
  | zero => rfl
  | succ n ih =>
    rw [List.replicate_succ, List.cons_append, withoutColors_space, ih, List.cons_append]

@[simp] theorem withoutColors_unwords (ts : List Text) :
    withoutColors (unwords ts) = unwords (ts.map withoutColors) := by
  induction ts with
  | nil => exact withoutColors_nil
  | cons t ts ih =>
    cases ts with
    | nil => simp [unwords, join]
    | cons t' ts => rw [unwords_cons, withoutColors_append_space, ih]; rfl

/-- Lines lose their color sequences one by one. -/
theorem withoutColors_render (lines : List Text) :
    withoutColors (Report.render lines) = Report.render (lines.map withoutColors) := by
  induction lines with
  | nil => exact withoutColors_nil
  | cons line lines ih =>
    have feed := withoutColors_append_cons (c := '\n') rfl (by decide) line (Report.render lines)
    simp only [Report.render, List.flatMap_cons, List.map_cons, List.append_assoc] at ih ⊢
    rw [← ih]
    exact feed

theorem isInfix_render {line : Text} {lines : List Text} (mem : line ∈ lines) :
    line <:+: Report.render lines := by
  obtain ⟨before, after, rfl⟩ := List.append_of_mem mem
  refine ⟨Report.render before, '\n' :: Report.render after, ?_⟩
  simp [Report.render]

/-! ## Plain texts -/

/-- A text without escape characters. -/
def IsPlain (t : Text) : Prop :=
  escape ∉ t

instance (t : Text) : Decidable (IsPlain t) :=
  inferInstanceAs (Decidable (¬_))

theorem isPlain_nil : IsPlain [] := List.not_mem_nil

theorem isPlain_cons : IsPlain (c :: t) ↔ escape ≠ c ∧ IsPlain t := by
  simp [IsPlain]

theorem isPlain_append : IsPlain (s ++ t) ↔ IsPlain s ∧ IsPlain t := by
  simp [IsPlain]

theorem IsPlain.subset (plain : IsPlain t) (sub : s ⊆ t) : IsPlain s :=
  fun mem => plain (sub mem)

theorem isPlain_join {ts : List Text} (separator : IsPlain s) (all : ∀ t ∈ ts, IsPlain t) :
    IsPlain (join s ts) := by
  induction ts with
  | nil => exact isPlain_nil
  | cons t ts ih =>
    obtain ⟨first, all⟩ := List.forall_mem_cons.1 all
    cases ts with
    | nil => rwa [join, List.intercalate_singleton]
    | cons t' ts =>
      rw [join, List.intercalate_cons_cons]
      exact isPlain_append.2 ⟨isPlain_append.2 ⟨first, separator⟩, ih all⟩

theorem isPlain_unwords {ts : List Text} (all : ∀ t ∈ ts, IsPlain t) : IsPlain (unwords ts) :=
  isPlain_join (by decide) all

theorem isPlain_unwords_singleton (plain : IsPlain t) : IsPlain (unwords [t]) :=
  isPlain_unwords (List.forall_mem_singleton.2 plain)

theorem isPlain_unwords_cons {ts : List Text} (first : IsPlain t) (rest : IsPlain (unwords ts)) :
    IsPlain (unwords (t :: ts)) := by
  cases ts with
  | nil => exact isPlain_unwords_singleton first
  | cons t' ts =>
    rw [unwords_cons]
    exact isPlain_append.2 ⟨first, isPlain_cons.2 ⟨by decide, rest⟩⟩

theorem isPlain_ofNat (n : Nat) : IsPlain (ofNat n) := by
  intro mem
  have digit := Nat.isDigit_of_mem_toDigits (by decide) (by decide) mem
  contradiction

theorem isPlain_replicate (n : Nat) : IsPlain (List.replicate n ' ') := by
  intro mem
  have := List.eq_of_mem_replicate mem
  contradiction

theorem isPlain_padStart (width : Nat) (plain : IsPlain t) : IsPlain (padStart width t) :=
  isPlain_append.2 ⟨isPlain_replicate _, plain⟩

theorem isPlain_padEnd (width : Nat) (plain : IsPlain t) : IsPlain (padEnd width t) :=
  isPlain_append.2 ⟨plain, isPlain_replicate _⟩

theorem isPlain_indented (depth : Nat) (plain : IsPlain t) : IsPlain (Report.indented depth t) :=
  isPlain_append.2 ⟨isPlain_replicate _, plain⟩

theorem isPlain_inQuotes (plain : IsPlain t) : IsPlain (Report.inQuotes t) :=
  isPlain_append.2 ⟨isPlain_cons.2 ⟨by decide, plain⟩, by decide⟩

theorem isPlain_name (kind : Kind) : IsPlain kind.name := by
  cases kind <;> decide

theorem isPlain_render {lines : List Text} (all : ∀ line ∈ lines, IsPlain line) :
    IsPlain (Report.render lines) := by
  intro mem
  obtain ⟨line, inside, mem⟩ := List.mem_flatMap.1 mem
  exact isPlain_append.2 ⟨all line inside, by decide⟩ mem

theorem isPlain_of_mem_words {w : Text} (plain : IsPlain t) (mem : w ∈ words t) : IsPlain w := by
  refine plain.subset fun c inside => ?_
  have kept : c ∈ (words t).flatten := List.mem_flatten.2 ⟨w, mem, inside⟩
  rw [flatten_words] at kept
  exact (List.mem_filter.1 kept).1

theorem IsPlain.slice (plain : IsPlain t) (span : Span) : IsPlain (slice t span) := by
  cases found : slice? t span with
  | none => rw [Text.slice, found]; exact isPlain_nil
  | some part =>
    obtain ⟨before, after, rfl, -⟩ := slice?_eq_some_iff.1 found
    rw [slice_eq found]
    exact plain.subset fun c mem => by simp [mem]

theorem IsPlain.withoutColors_append (plain : IsPlain s) (t : Text) :
    withoutColors (s ++ t) = s ++ withoutColors t := by
  induction s with
  | nil => rfl
  | cons c s ih =>
    obtain ⟨ne, plain⟩ := isPlain_cons.1 plain
    rw [List.cons_append, withoutColors_cons_of_ne ne.symm, ih plain, List.cons_append]

theorem IsPlain.withoutColors_eq (plain : IsPlain t) : withoutColors t = t := by
  simpa using plain.withoutColors_append []

theorem length_withoutColors_le (t : Text) : (withoutColors t).length ≤ t.length := by
  fun_induction withoutColors t with
  | case1 t after found ih => exact ih.trans (length_behindColor? found).le
  | case2 => simp
  | case3 c rest none ih => simpa using ih

/-- A text with a color sequence somewhere does not stay as it is. -/
theorem length_withoutColors_lt (parameters : code.all isParameter)
    (part : escapeSequence code <:+: t) : (withoutColors t).length < t.length := by
  obtain ⟨before, after, rfl⟩ := part
  have first := length_withoutColors_le before
  have rest := length_withoutColors_le after
  rw [List.append_assoc, withoutColors_append_sequence parameters]
  simp only [escapeSequence_eq, List.length_append, List.length_cons]
  omega

end Text

namespace Palette

open Text

variable (p : Palette) {code : Text}

@[simp] theorem paint_disabled (color : Color) (t : Text) :
    (Palette.mk false).paint color t = t := rfl

@[simp] theorem bold_disabled (t : Text) : (Palette.mk false).bold t = t := rfl

@[simp] theorem dim_disabled (t : Text) : (Palette.mk false).dim t = t := rfl

/-- What is painted is shown without its own sequences, and so is what follows. -/
theorem withoutColors_wrap_append (parameters : code.all isParameter) (t u : Text) :
    withoutColors ((Palette.mk true).wrap code t ++ u) = withoutColors t ++ withoutColors u := by
  have wrapped : (Palette.mk true).wrap code t ++ u =
      escapeSequence code ++ (t ++ (escapeSequence "0" ++ u)) := by
    simp [wrap]
  rw [wrapped, withoutColors_sequence parameters, withoutColors_append_sequence (by decide)]

theorem withoutColors_wrap (parameters : code.all isParameter) (t : Text) :
    withoutColors (p.wrap code t) = withoutColors t := by
  obtain ⟨_ | _⟩ := p
  · rw [wrap_disabled]
  · simpa using withoutColors_wrap_append parameters t []

theorem all_isParameter_code (color : Color) : color.code.all isParameter := by
  cases color <;> decide

@[simp] theorem withoutColors_paint (color : Color) (t : Text) :
    withoutColors (p.paint color t) = withoutColors t :=
  p.withoutColors_wrap (all_isParameter_code color) t

@[simp] theorem withoutColors_bold (t : Text) : withoutColors (p.bold t) = withoutColors t :=
  p.withoutColors_wrap (by decide) t

@[simp] theorem withoutColors_dim (t : Text) : withoutColors (p.dim t) = withoutColors t :=
  p.withoutColors_wrap (by decide) t

end Palette

end RulesText
