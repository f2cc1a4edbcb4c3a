import RulesText.Span
import RulesText.Text.Blank

/-!
# Texts

A text is the list of its characters. Places in a text are counted in bytes of its UTF-8 form;
a slice exists only where both of its ends fall between characters.

## Main definitions

* `Text.byteSize`, `Text.slice?` and `Text.slice`: size and slices in bytes.
* `Text.trim`, `Text.words`, `Text.lines`: blanks at the ends, the words between blanks, the
  lines between line feeds.
* `Text.join`, `Text.splitOn`: concatenation with a separator, and its inverse.
-/

namespace RulesText

abbrev Text := List Char

instance : Coe String Text := ⟨String.toList⟩

namespace Text

/-! ## Bytes -/

def byteSize : Text → Nat
  | [] => 0
  | c :: t => c.utf8Size + byteSize t

@[simp] theorem byteSize_nil : byteSize [] = 0 := rfl

@[simp] theorem byteSize_cons (c : Char) (t : Text) :
    byteSize (c :: t) = c.utf8Size + byteSize t := rfl

@[simp] theorem byteSize_append (s t : Text) : byteSize (s ++ t) = byteSize s + byteSize t := by
  induction s with
  | nil => simp
  | cons c s ih => simp only [List.cons_append, byteSize_cons, ih]; omega

/-- Cut a text after `n` bytes, if that falls between two characters. -/
def splitAt? : (n : Nat) → Text → Option (Text × Text)
  | 0, t => some ([], t)
  | _ + 1, [] => none
  | n + 1, c :: t =>
    if c.utf8Size ≤ n + 1 then
      (splitAt? (n + 1 - c.utf8Size) t).map fun (front, back) => (c :: front, back)
    else none

/-- The part of `t` that covers `s`, if `s` is in order, inside `t` and ends between
characters. -/
def slice? (t : Text) (s : Span) : Option Text :=
  if s.start ≤ s.stop then do
    let (_, back) ← splitAt? s.start t
    let (middle, _) ← splitAt? (s.stop - s.start) back
    return middle
  else none

/-- The slice at `s`, which reads as empty where there is none. -/
def slice (t : Text) (s : Span) : Text :=
  (slice? t s).getD []

/-! ## Blanks, words and lines -/

def trimStart (t : Text) : Text :=
  t.dropWhile isBlank

def trimEnd (t : Text) : Text :=
  (t.reverse.dropWhile isBlank).reverse

def trim (t : Text) : Text :=
  trimEnd (trimStart t)

/-- The maximal runs of characters that are not blank. -/
def words (t : Text) : List Text :=
  (t.splitOnP isBlank).filter (!·.isEmpty)

/-- The pieces between line feeds; a text without a line feed is one line. -/
def lines (t : Text) : List Text :=
  t.splitOnP (· == '\n')

/-! ## Separators -/

def join (separator : Text) (pieces : List Text) : Text :=
  separator.intercalate pieces

def unwords (pieces : List Text) : Text :=
  join [' '] pieces

/-- The text before the first occurrence of `pattern` and the text after it. -/
def cut? (pattern : Text) : Text → Option (Text × Text)
  | [] => if pattern.isEmpty then some ([], []) else none
  | c :: t =>
    match pattern.isPrefixOf? (c :: t) with
    | some rest => some ([], rest)
    | none => (cut? pattern t).map fun (front, back) => (c :: front, back)

/-- The pieces between occurrences of `separator`, found from left to right; at most `limit`
cuts are made. -/
def splitOnAtMost (separator : Text) : (limit : Nat) → Text → List Text
  | 0, t => [t]
  | limit + 1, t =>
    match cut? separator t with
    | some (front, back) => front :: splitOnAtMost separator limit back
    | none => [t]

/-- The pieces between occurrences of a non-empty `separator`, found from left to right. -/
def splitOn (separator : Text) (t : Text) : List Text :=
  splitOnAtMost separator t.length t

/-! ## Readers

A reader takes something off the start of a text and leaves the rest. -/

/-- What a reader took and left, if it left less than it was given. -/
def progress? {α : Type} (t : Text) :
    Option (α × Text) → Option (α × { rest : Text // rest.length < t.length })
  | some (a, rest) => if h : rest.length < t.length then some (a, ⟨rest, h⟩) else none
  | none => none

/-! ## Order and padding -/

/-- Order by code point, character by character. -/
def compare (s t : Text) : Ordering :=
  Ord.compare s t

/-- Pad on the left with spaces up to `width` characters. -/
def padStart (width : Nat) (t : Text) : Text :=
  List.replicate (width - t.length) ' ' ++ t

/-- Pad on the right with spaces up to `width` characters. -/
def padEnd (width : Nat) (t : Text) : Text :=
  t ++ List.replicate (width - t.length) ' '

def ofNat (n : Nat) : Text :=
  Nat.toDigits 10 n

end Text

end RulesText
