import RulesText.Text.Hexadecimal

/-!
# JSON values

A JSON value keeps its numbers and strings as they are written, so that every JSON text has a
value: escapes in a string may be in order and yet stand for no character. The members of an
object keep their order, and a key may come twice.

## Main definitions

* `Json`: the values.
* `Json.escape`, `Json.unescape?`: how a text is written between double quotes, and the text
  that stands there.
* `Json.ofText`, `Json.ofNat`, `Json.record`: values of texts, of numbers and of named members.
-/

namespace RulesText

inductive Json where
  | null
  | bool (value : Bool)
  /-- A number as it is written. -/
  | number (written : Text)
  /-- A string as it is written between its quotes. -/
  | string (written : Text)
  | array (items : List Json)
  /-- The members in order, with their keys as they are written. -/
  | object (members : List (Text × Json))
deriving Repr, Inhabited

namespace Json

/-! ## Escapes -/

/-- How one character is written inside a string: quotes, backslashes and control characters are
escaped, all others stand for themselves. -/
def escapeChar (c : Char) : Text :=
  if c == '"' then "\\\""
  else if c == '\\' then "\\\\"
  else if c == '\n' then "\\n"
  else if c == '\r' then "\\r"
  else if c == '\t' then "\\t"
  else if c == '\x08' then "\\b"
  else if c == '\x0c' then "\\f"
  else if c.toNat < 32 then "\\u00" ++ [Nat.digitChar (c.toNat / 16), Nat.digitChar (c.toNat % 16)]
  else [c]

def escape (t : Text) : Text :=
  t.flatMap escapeChar

/-- The character that a letter after a backslash stands for. -/
def ofEscape? : Char → Option Char
  | '"' => some '"'
  | '\\' => some '\\'
  | '/' => some '/'
  | 'b' => some '\x08'
  | 'f' => some '\x0c'
  | 'n' => some '\n'
  | 'r' => some '\r'
  | 't' => some '\t'
  | _ => none

def isHighSurrogate (unit : Nat) : Bool :=
  0xD800 ≤ unit && unit < 0xDC00

def isLowSurrogate (unit : Nat) : Bool :=
  0xDC00 ≤ unit && unit < 0xE000

/-- The character that a high and a low surrogate stand for together. -/
def pairedChar (high low : Nat) : Char :=
  Char.ofNat (0x10000 + (high - 0xD800) * 0x400 + (low - 0xDC00))

/-- The text of a string that is given as it is written. There is none if a surrogate stands
alone. -/
def unescape? : (written : Text) → Option Text
  | [] => some []
  | '\\' :: 'u' :: a :: b :: c :: d :: rest => do
    let unit ← Text.hexNumber? [a, b, c, d]
    if isLowSurrogate unit then none
    else if isHighSurrogate unit then
      match rest with
      | '\\' :: 'u' :: e :: f :: g :: h :: rest => do
        let low ← Text.hexNumber? [e, f, g, h]
        if isLowSurrogate low then (unescape? rest).map (pairedChar unit low :: ·) else none
      | _ => none
    else (unescape? rest).map (Char.ofNat unit :: ·)
  | '\\' :: c :: rest => do
    let c ← ofEscape? c
    (unescape? rest).map (c :: ·)
  | c :: rest => (unescape? rest).map (c :: ·)

theorem hexNumber?_control : ∀ n < 32,
    Text.hexNumber? ['0', '0', Nat.digitChar (n / 16), Nat.digitChar (n % 16)] = some n := by
  decide

theorem unescape?_escapeChar_append (c : Char) (t : Text) :
    unescape? (escapeChar c ++ t) = (unescape? t).map (c :: ·) := by
  unfold escapeChar
  repeat' split
  all_goals try simp_all [unescape?, ofEscape?]
  rename_i h
  rw [hexNumber?_control c.toNat h]
  have high : isHighSurrogate c.toNat = false := by simp [isHighSurrogate]; omega
  have low : isLowSurrogate c.toNat = false := by simp [isLowSurrogate]; omega
  simp [high, low, Char.ofNat_toNat]

@[simp] theorem unescape?_escape (t : Text) : unescape? (escape t) = some t := by
  induction t with
  | nil => rfl
  | cons c t ih =>
    rw [escape, List.flatMap_cons, unescape?_escapeChar_append, ← escape, ih]
    rfl

/-! ## Values of other types -/

def ofText (t : Text) : Json :=
  string (escape t)

def ofNat (n : Nat) : Json :=
  number (Text.ofNat n)

/-- The list of the values of a list's elements. -/
def ofList {α : Type} (value : α → Json) (items : List α) : Json :=
  array (items.map value)

/-- An object with the given keys. -/
def record (members : List (Text × Json)) : Json :=
  object (members.map fun (key, value) => (escape key, value))

def text? : Json → Option Text
  | string written => unescape? written
  | _ => none

@[simp] theorem text?_ofText (t : Text) : (ofText t).text? = some t :=
  unescape?_escape t

end Json

end RulesText
