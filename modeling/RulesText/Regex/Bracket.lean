import RulesText.Regex.Basic
import RulesText.Regex.Ignored
import RulesText.Text.Hexadecimal
import RulesText.Text.Property

/-!
# Escapes and bracketed classes

The two pieces of pattern text that stand for a set of characters: a backslash with what it
escapes, and a class in brackets. A class lists characters, ranges, escapes, nested classes and
named classes such as `[:alpha:]`; `&&`, `--` and `~~` combine what stands on both sides of them.
A hyphen stands for itself at either end, a closing bracket at the very start.
-/

namespace RulesText.Regex

/-- What an escape stands for. -/
inductive Escape where
  | char (c : Char)
  /-- A character given by two hexadecimal digits. -/
  | byte (c : Char)
  | set (s : CharSet)
  | look (condition : Look)

/-! ## Escapes -/

/-- The character whose code point the digits spell. -/
def charOfHex? (digits : Text) : Option Char := do
  let n ← Text.hexNumber? digits
  if n.isValidChar then some (Char.ofNat n) else none

/-- So many characters, between which text may be ignored. -/
def readChars? (verbose : Bool) : (n : Nat) → Text → Option (Text × Text)
  | 0, t => some ([], t)
  | _ + 1, [] => none
  | n + 1, c :: rest =>
    (readChars? verbose n (ignore verbose rest)).map fun (cs, rest) => (c :: cs, rest)

/-- A code point in hexadecimal: `width` digits, or any number of them in braces. -/
def readHex? (verbose : Bool) (width : Nat) (t : Text) : Option (Char × Text) := do
  let (digits, rest) ← match ignore verbose t with
    | '{' :: rest => readBraced? verbose false rest
    | t => readChars? verbose width t
  return (← charOfHex? digits, rest)

def isBoundaryNameChar (c : Char) : Bool :=
  c.isAlpha || c == '-'

/-- The kinds of word boundary that have a name. -/
def namedBoundary? (name : Text) : Option WordLook :=
  match String.ofList name with
  | "start" => some .start
  | "end" => some .stop
  | "start-half" => some .noneBehind
  | "end-half" => some .noneAhead
  | _ => none

/-- A word boundary, with its name in braces if a name follows. Braces with anything else are
left for a count. -/
def readBoundary? (verbose : Bool) (t : Text) : Option (WordLook × Text) :=
  match t with
  | '{' :: inner =>
    if ((ignore verbose inner).head?.any isBoundaryNameChar) then do
      let (name, rest) ← readBraced? verbose false inner
      return (← namedBoundary? name, rest)
    else if (ignore verbose inner).isEmpty then none
    else some (.boundary, t)
  | _ => some (.boundary, t)

/-- A property of characters, by its name in braces or by one letter. -/
def readProperty? (verbose : Bool) (t : Text) : Option (CharSet × Text) := do
  let (name, rest) ← match ignore verbose t with
    | [] => none
    | '{' :: rest => readBraced? verbose false rest
    | '\\' :: _ => none
    | c :: rest => some ([c], rest)
  let property ← Text.Property.find? name
  return (.bracket property.negated (.table property.ranges), rest)

/-- Punctuation may be escaped, letters and digits only where that means something. -/
def isEscapable (c : Char) : Bool :=
  Text.isAscii c && !c.isAlphanum

def classEscape (negated : Bool) (cls : CharClass) : Escape :=
  if negated then .set (.bracket true (.named .unicode cls)) else .set (.named .unicode cls)

/-- An escape, after its backslash. -/
def readEscape? (verbose : Bool) : Text → Option (Escape × Text)
  | [] => none
  | c :: rest =>
    match c with
    | 'd' => some (classEscape false .digit, rest)
    | 's' => some (classEscape false .space, rest)
    | 'w' => some (classEscape false .word, rest)
    | 'D' => some (classEscape true .digit, rest)
    | 'S' => some (classEscape true .space, rest)
    | 'W' => some (classEscape true .word, rest)
    | 'p' => (readProperty? verbose rest).map fun (s, rest) => (.set (.bracket false s), rest)
    | 'P' => (readProperty? verbose rest).map fun (s, rest) => (.set (.bracket true s), rest)
    | 'a' => some (.char '\x07', rest)
    | 'f' => some (.char '\x0c', rest)
    | 'n' => some (.char '\n', rest)
    | 'r' => some (.char '\r', rest)
    | 't' => some (.char '\t', rest)
    | 'v' => some (.char '\x0b', rest)
    | 'A' => some (.look .textStart, rest)
    | 'z' => some (.look .textEnd, rest)
    | 'b' =>
      (readBoundary? verbose rest).map fun (l, rest) => (.look (.word .unicode l), rest)
    | 'B' => some (.look (.word .unicode .noBoundary), rest)
    | '<' => some (.look (.word .unicode .start), rest)
    | '>' => some (.look (.word .unicode .stop), rest)
    | 'x' =>
      let braced := (ignore verbose rest).head? == some '{'
      (readHex? verbose 2 rest).map fun (c, rest) => (if braced then .char c else .byte c, rest)
    | 'u' => (readHex? verbose 4 rest).map fun (c, rest) => (.char c, rest)
    | 'U' => (readHex? verbose 8 rest).map fun (c, rest) => (.char c, rest)
    | c => if isEscapable c then some (.char c, rest) else none

/-! ## Items of a class -/

/-- One character or escape of a class. -/
def readItem? (verbose : Bool) : Text → Option (Escape × Text)
  | [] => none
  | '\\' :: rest => readEscape? verbose rest
  | c :: rest => some (.char c, rest)

namespace Escape

/-- The character of an item that can be an end of a range. -/
def char? : Escape → Option Char
  | char c | byte c => some c
  | _ => none

/-- The set of an item that is not an end of a range. A condition is no set. -/
def set? : Escape → Option CharSet
  | char c | byte c => some (.range c c)
  | set s => some s
  | look _ => none

end Escape

/-- A range, or an item on its own. A hyphen before a closing bracket or another hyphen makes no
range. -/
def readRange? (verbose : Bool) (t : Text) : Option (CharSet × Text) := do
  let (first, rest) ← readItem? verbose t
  match ignore verbose rest with
  | '-' :: after =>
    let next? := (ignore verbose after).head?
    if next? == some ']' || next? == some '-' then return (← first.set?, '-' :: after)
    else do
      let (last, rest) ← readItem? verbose (ignore verbose after)
      let (lo, hi) := (← first.char?, ← last.char?)
      if lo ≤ hi then return (.range lo hi, rest) else failure
  | rest => return (← first.set?, rest)

/-- The classes that are named between colons. -/
def namedRanges? (name : Text) : Option CharSet :=
  let upper : CharSet := .range 'A' 'Z'
  let lower : CharSet := .range 'a' 'z'
  let digits : CharSet := .range '0' '9'
  let alpha : CharSet := .union upper lower
  let punct : CharSet := .union (.union (.range '!' '/') (.range ':' '@'))
    (.union (.range '[' '\x60') (.range '\x7b' '~'))
  let blank : CharSet := .union (.range '\t' '\t') (.range ' ' ' ')
  match String.ofList name with
  | "alnum" => some (.union digits alpha)
  | "alpha" => some alpha
  | "ascii" => some (.range '\x00' '\x7f')
  | "blank" => some blank
  | "cntrl" => some (.union (.range '\x00' '\x1f') (.range '\x7f' '\x7f'))
  | "digit" => some digits
  | "graph" => some (.range '!' '~')
  | "lower" => some lower
  | "print" => some (.range ' ' '~')
  | "punct" => some punct
  | "space" => some (.union (.range '\t' '\r') (.range ' ' ' '))
  | "upper" => some upper
  | "word" => some (.union (.union digits alpha) (.range '_' '_'))
  | "xdigit" => some (.union digits (.union (.range 'A' 'F') (.range 'a' 'f')))
  | _ => none

/-- A named class, after its opening bracket. -/
def readNamed? (t : Text) : Option (CharSet × Text) :=
  match t with
  | ':' :: rest =>
    let (negated, rest) := match rest with
      | '^' :: rest => (true, rest)
      | rest => (false, rest)
    match rest.dropWhile (· != ':') with
    | ':' :: ']' :: after =>
      (namedRanges? (rest.takeWhile (· != ':'))).map (.bracket negated ·, after)
    | _ => none
  | _ => none

/-! ## Classes -/

/-- A class as it is written, with the depth to which classes and lists are nested in it. -/
structure BracketItem where
  set : CharSet
  depth : Nat := 0

/-- A class that is still open: its items so far, latest first, and the operation and left
operand that wait for them. -/
structure Bracket where
  negated : Bool
  left? : Option (SetOperation × BracketItem) := none
  items : List BracketItem := []

namespace Bracket

def add (b : Bracket) (item : BracketItem) : Bracket :=
  { b with items := item :: b.items }

/-- The items as one. -/
def union (b : Bracket) : BracketItem :=
  match b.items with
  | [item] => item
  | items => {
      set := items.foldr (fun item s => .union s item.set) .none
      depth := if items.isEmpty then 0 else items.foldl (fun d item => max d item.depth) 0 + 1 }

def operand (b : Bracket) : BracketItem :=
  match b.left? with
  | none => b.union
  | some (operation, left) => {
      set := .combine operation left.set b.union.set
      depth := max left.depth b.union.depth + 1 }

def close (b : Bracket) : BracketItem :=
  { set := .bracket b.negated b.operand.set, depth := b.operand.depth + 1 }

def apply (b : Bracket) (operation : SetOperation) : Bracket :=
  { b with left? := some (operation, b.operand), items := [] }

end Bracket

/-- The hyphens at the start of a class, each of which stands for itself. -/
def readHyphens (verbose : Bool) : (count : Nat) → Text → List BracketItem × Text
  | n + 1, '-' :: rest =>
    let (items, rest) := readHyphens verbose n (ignore verbose rest)
    ({ set := .range '-' '-' } :: items, rest)
  | _, t => ([], t)

/-- The start of a class, after its opening bracket: a caret, then hyphens or a closing bracket
that stand for themselves. -/
def openBracket (verbose : Bool) (t : Text) : Bracket × Text :=
  let (negated, t) := match ignore verbose t with
    | '^' :: rest => (true, ignore verbose rest)
    | t => (false, t)
  match t with
  | ']' :: rest => ({ negated, items := [{ set := .range ']' ']' }] }, rest)
  | t =>
    let (items, rest) := readHyphens verbose t.length t
    ({ negated, items }, rest)

/-- What can come next in a class. -/
inductive BracketStep where
  | close
  | operation (operation : SetOperation)
  | add (set : CharSet)
  | nested (b : Bracket)

def readStep? (verbose : Bool) (t : Text) : Option (BracketStep × Text) :=
  match ignore verbose t with
  | ']' :: rest => some (.close, rest)
  | '&' :: '&' :: rest => some (.operation .intersection, rest)
  | '-' :: '-' :: rest => some (.operation .difference, rest)
  | '~' :: '~' :: rest => some (.operation .symmetricDifference, rest)
  | '[' :: inner =>
    match readNamed? inner with
    | some (set, rest) => some (.add set, rest)
    | none =>
      let (nested, rest) := openBracket verbose inner
      some (.nested nested, rest)
  | t => (readRange? verbose t).map fun (set, rest) => (.add set, rest)

/-- The rest of a class that lies inside the classes in `outer`, up to its closing bracket. -/
def readBracket? (verbose : Bool) (current : Bracket) (outer : List Bracket) (t : Text) :
    Option (BracketItem × Text) :=
  match Text.progress? t (readStep? verbose t) with
  | none => none
  | some (.close, ⟨rest, _⟩) =>
    match outer with
    | [] => some (current.close, rest)
    | around :: outer => readBracket? verbose (around.add current.close) outer rest
  | some (.operation operation, ⟨rest, _⟩) =>
    readBracket? verbose (current.apply operation) outer rest
  | some (.add set, ⟨rest, _⟩) => readBracket? verbose (current.add { set }) outer rest
  | some (.nested nested, ⟨rest, _⟩) => readBracket? verbose nested (current :: outer) rest
termination_by t.length
decreasing_by all_goals assumption

/-- A class, after its opening bracket. -/
def readClass? (verbose : Bool) (t : Text) : Option (BracketItem × Text) :=
  let (bracket, rest) := openBracket verbose t
  readBracket? verbose bracket [] rest

end RulesText.Regex
