import RulesText.Regex.Bracket

/-!
# Lexemes of patterns

Pattern text is cut into lexemes from left to right: single characters and classes, conditions,
the start and the end of groups, branches, and the counts of repetitions.
-/

namespace RulesText.Regex

/-- Settings that a pattern can change for what follows in the same group. -/
inductive Flag where
  | caseless
  | multiline
  | dotMatchesAll
  | swapGreed
  | unicode
  | carriageReturns
  | verbose
deriving DecidableEq, Repr

/-- Flags switched on or off. -/
abbrev FlagChange := List (Flag × Bool)

/-- Whether a flag is on after a change. -/
def Flag.after (flag : Flag) (change : FlagChange) (before : Bool) : Bool :=
  (change.lookup flag).getD before

inductive Lexeme where
  | char (c : Char)
  /-- A character given by two hexadecimal digits. -/
  | byte (c : Char)
  | set (s : CharSet)
  | bracket (item : BracketItem)
  | dot
  | caret
  | dollar
  | look (condition : Look)
  /-- The preceding item so many times; a question mark after the count makes it lazy. -/
  | count (least : Nat) (most : Option Nat) (lazy : Bool)
  | branch
  /-- A group that captures, under its name if it has one. -/
  | openCapture (name? : Option Text)
  | openGroup (change : FlagChange)
  | setFlags (change : FlagChange)
  | close

/-! ## Groups -/

def Flag.ofChar? : Char → Option Flag
  | 'i' => some .caseless
  | 'm' => some .multiline
  | 's' => some .dotMatchesAll
  | 'U' => some .swapGreed
  | 'u' => some .unicode
  | 'R' => some .carriageReturns
  | 'x' => some .verbose
  | _ => none

/-- Flag letters, those after a hyphen switched off, up to a colon or a closing parenthesis. No
letter comes twice, and a hyphen at most once and not last. -/
def readFlags? (found : FlagChange) (on : Bool) (danglingHyphen : Bool) :
    Text → Option (FlagChange × Text)
  | [] => none
  | c :: rest =>
    if c == ':' || c == ')' then
      if danglingHyphen then none else some (found.reverse, c :: rest)
    else if c == '-' then
      if on then readFlags? found false true rest else none
    else do
      let flag ← Flag.ofChar? c
      if found.any (·.1 == flag) then failure
      readFlags? ((flag, on) :: found) on false rest

def isGroupNameStart (c : Char) : Bool :=
  c == '_' || Text.isLetter c

def isGroupNameChar (c : Char) : Bool :=
  c == '_' || c == '.' || c == '[' || c == ']' || Text.isAlphanumeric c

/-- A group name up to its closing angle bracket. -/
def readGroupName? (t : Text) : Option (Text × Text) :=
  match t.takeWhile (· != '>'), t.dropWhile (· != '>') with
  | c :: name, '>' :: rest =>
    if isGroupNameStart c && name.all isGroupNameChar then some (c :: name, rest) else none
  | _, _ => none

/-- The start of a group or a flag setting, after the opening parenthesis. -/
def readGroup? : Text → Option (Lexeme × Text)
  | '?' :: 'P' :: '<' :: rest =>
    (readGroupName? rest).map fun (name, rest) => (.openCapture (some name), rest)
  | '?' :: '<' :: rest =>
    (readGroupName? rest).map fun (name, rest) => (.openCapture (some name), rest)
  | '?' :: rest =>
    match readFlags? [] true false rest with
    | some (change, ':' :: rest) => some (.openGroup change, rest)
    | some (change, ')' :: rest) =>
      if change.isEmpty then none else some (.setFlags change, rest)
    | _ => none
  | rest => some (.openCapture none, rest)

/-! ## Counts -/

/-- A decimal number below 2 to the power of 32, with blanks around it. -/
def readNumber? (verbose : Bool) (t : Text) : Option (Nat × Text) :=
  let (digits, rest) := readDigits verbose false ((ignore verbose t).dropWhile Text.isBlank)
  let n := Nat.ofDigitChars 10 digits 0
  if digits.isEmpty || n ≥ UInt32.size then none else some (n, rest.dropWhile Text.isBlank)

/-- The bounds of a counted repetition, after the opening brace. -/
def readBounds? (verbose : Bool) (t : Text) : Option ((Nat × Option Nat) × Text) :=
  match readNumber? verbose t with
  | some (least, '\x7d' :: rest) => some ((least, some least), rest)
  | some (least, ',' :: rest) =>
    match ignore verbose rest with
    | '\x7d' :: rest => some ((least, none), rest)
    | rest =>
      match readNumber? verbose rest with
      | some (most, '\x7d' :: rest) =>
        if least ≤ most then some ((least, some most), rest) else none
      | _ => none
  | _ => none

/-- A count, with the question mark that makes it lazy if there is one. -/
def countLexeme (least : Nat) (most : Option Nat) : Text → Lexeme × Text
  | '?' :: rest => (.count least most true, rest)
  | rest => (.count least most false, rest)

/-! ## Lexemes -/

/-- The first lexeme of a text that is not empty. -/
def readLexeme? (verbose : Bool) : Text → Option (Lexeme × Text)
  | [] => none
  | c :: rest =>
    match c with
    | '(' => readGroup? (ignore verbose rest)
    | ')' => some (.close, rest)
    | '|' => some (.branch, rest)
    | '[' => (readClass? verbose rest).map fun (item, rest) => (.bracket item, rest)
    | '?' => some (countLexeme 0 (some 1) rest)
    | '*' => some (countLexeme 0 none rest)
    | '+' => some (countLexeme 1 none rest)
    | '{' =>
      (readBounds? verbose rest).map fun ((least, most), rest) =>
        countLexeme least most (ignore verbose rest)
    | '.' => some (.dot, rest)
    | '^' => some (.caret, rest)
    | '$' => some (.dollar, rest)
    | '\\' =>
      match readEscape? verbose rest with
      | some (.char c, rest) => some (.char c, rest)
      | some (.byte c, rest) => some (.byte c, rest)
      | some (.set s, rest) => some (.set s, rest)
      | some (.look l, rest) => some (.look l, rest)
      | none => none
    | c => some (.char c, rest)

/-- Whether text is ignored inside a group and around it, after a lexeme. -/
def verboseAfter (verbose : Bool) (outer : List Bool) : Lexeme → Bool × List Bool
  | .openCapture _ => (verbose, verbose :: outer)
  | .openGroup change => (Flag.verbose.after change verbose, verbose :: outer)
  | .setFlags change => (Flag.verbose.after change verbose, outer)
  | .close => (outer.head?.getD verbose, outer.tail)
  | _ => (verbose, outer)

/-- The lexemes of the rest of a pattern. -/
def lexemesFrom? (verbose : Bool) (outer : List Bool) (t : Text) : Option (List Lexeme) :=
  match ignore verbose t with
  | [] => some []
  | c :: after =>
    match Text.progress? t (readLexeme? verbose (c :: after)) with
    | some (lexeme, ⟨rest, _⟩) =>
      let (verbose, outer) := verboseAfter verbose outer lexeme
      (lexemesFrom? verbose outer rest).map (lexeme :: ·)
    | none => none
termination_by t.length
decreasing_by assumption

/-- The lexemes of a pattern. -/
def lexemes? (pattern : Text) : Option (List Lexeme) :=
  lexemesFrom? false [] pattern

end RulesText.Regex
