import RulesText.Json.Basic

/-!
# Lexemes of JSON texts

A JSON text is cut into brackets, commas, colons and scalars; the blanks between them are
dropped.
-/

namespace RulesText.Json

inductive Lexeme where
  | openArray
  | closeArray
  | openObject
  | closeObject
  | comma
  | colon
  | null
  | bool (value : Bool)
  | number (written : Text)
  | string (written : Text)
deriving DecidableEq, Repr

/-! ## Strings -/

/-- The string that ends with the next quote that is not escaped, and what follows it. Control
characters and unknown escapes do not belong into a string. -/
def readString? : Text → Option (Text × Text)
  | [] => none
  | '"' :: rest => some ([], rest)
  | '\\' :: 'u' :: a :: b :: c :: d :: rest => do
    let _ ← Text.hexNumber? [a, b, c, d]
    let (written, rest) ← readString? rest
    return ('\\' :: 'u' :: a :: b :: c :: d :: written, rest)
  | '\\' :: c :: rest => do
    let _ ← ofEscape? c
    let (written, rest) ← readString? rest
    return ('\\' :: c :: written, rest)
  | c :: rest =>
    if c.toNat < 32 || c == '\\' then none
    else (readString? rest).map fun (written, rest) => (c :: written, rest)

theorem readString?_escapeChar_append (c : Char) (t : Text) :
    readString? (escapeChar c ++ t) =
      (readString? t).map fun (written, rest) => (escapeChar c ++ written, rest) := by
  unfold escapeChar
  repeat' split
  all_goals cases h : readString? t
  all_goals simp_all [readString?, ofEscape?, hexNumber?_control]

/-- The escaped form of a text ends at the quote that is put after it. -/
theorem readString?_escape (t rest : Text) :
    readString? (escape t ++ '"' :: rest) = some (escape t, rest) := by
  induction t with
  | nil => rfl
  | cons c t ih =>
    have unfolded : escape (c :: t) = escapeChar c ++ escape t := List.flatMap_cons
    rw [unfolded, List.append_assoc, readString?_escapeChar_append, ih]
    rfl

/-! ## Numbers -/

/-- One digit or more. -/
def readDigits? (t : Text) : Option (Text × Text) :=
  let digits := t.takeWhile Char.isDigit
  if digits.isEmpty then none else some (digits, t.drop digits.length)

/-- The digits before the point: a zero, or digits that do not begin with one. -/
def readWhole? : Text → Option (Text × Text)
  | '0' :: rest => some (['0'], rest)
  | t => readDigits? t

/-- A point and digits after it, if there is a point. -/
def readFraction? : Text → Option (Text × Text)
  | '.' :: rest => (readDigits? rest).map fun (digits, rest) => ('.' :: digits, rest)
  | t => some ([], t)

def readSign : Text → Text × Text
  | '+' :: rest => (['+'], rest)
  | '-' :: rest => (['-'], rest)
  | t => ([], t)

/-- An exponent, if there is one. -/
def readExponent? : Text → Option (Text × Text)
  | [] => some ([], [])
  | c :: rest =>
    if c == 'e' || c == 'E' then do
      let (sign, rest) := readSign rest
      let (digits, rest) ← readDigits? rest
      return (c :: sign ++ digits, rest)
    else some ([], c :: rest)

/-- A number without its sign. -/
def readMagnitude? (t : Text) : Option (Text × Text) := do
  let (whole, t) ← readWhole? t
  let (fraction, t) ← readFraction? t
  let (exponent, t) ← readExponent? t
  return (whole ++ fraction ++ exponent, t)

/-! ## Lexemes -/

def isBlank (c : Char) : Bool :=
  c == ' ' || c == '\n' || c == '\r' || c == '\t'

/-- The lexeme at the start of a text. -/
def readLexeme? : Text → Option (Lexeme × Text)
  | '[' :: rest => some (.openArray, rest)
  | ']' :: rest => some (.closeArray, rest)
  | '{' :: rest => some (.openObject, rest)
  | '}' :: rest => some (.closeObject, rest)
  | ',' :: rest => some (.comma, rest)
  | ':' :: rest => some (.colon, rest)
  | '"' :: rest => (readString? rest).map fun (written, rest) => (.string written, rest)
  | '-' :: rest =>
    (readMagnitude? rest).map fun (written, rest) => (.number ('-' :: written), rest)
  | 'n' :: 'u' :: 'l' :: 'l' :: rest => some (.null, rest)
  | 't' :: 'r' :: 'u' :: 'e' :: rest => some (.bool true, rest)
  | 'f' :: 'a' :: 'l' :: 's' :: 'e' :: rest => some (.bool false, rest)
  | t => (readMagnitude? t).map fun (written, rest) => (.number written, rest)

/-- The lexemes of a text. -/
def lexemes? (t : Text) : Option (List Lexeme) :=
  match t with
  | [] => some []
  | c :: after =>
    if isBlank c then lexemes? after
    else
      match Text.progress? (c :: after) (readLexeme? (c :: after)) with
      | some (lexeme, ⟨rest, _⟩) => (lexemes? rest).map (lexeme :: ·)
      | none => none
termination_by t.length
decreasing_by
  · exact Nat.lt_succ_self _
  · assumption

end RulesText.Json
