import RulesText.Text.Basic

/-!
# Reading options

Options come before words: `--name`, with a value as `--name value` or `--name=value`, or in
short form as letters after one hyphen, the last of which may have its value attached. A lone
`--` ends the options, a lone `-` is a word. No option comes twice.

## Main definitions

* `OptionSpec`: what options there are.
* `OptionReading.ofArguments`: the options at the start of an argument list, and the rest.
-/

namespace RulesText.CommandLine

/-- Why the program ends before it has done anything. -/
inductive EarlyExit where
  /-- The arguments are in error. -/
  | usage
  | help
  | version
deriving DecidableEq, Repr

inductive OptionKind where
  | flag
  /-- An option with any value. -/
  | text
  /-- An option with a decimal number below 2 to the power of 64. -/
  | count
  /-- A flag that ends the program at once. -/
  | exit (reason : EarlyExit)
deriving DecidableEq, Repr

structure OptionSpec where
  name : Text
  kind : OptionKind := .flag
  letter? : Option Char := none
deriving DecidableEq, Repr

/-! ## Arguments -/

inductive Argument where
  /-- Two hyphens and nothing else. -/
  | endOfOptions
  | long (name : Text) (value? : Option Text)
  | short (letters : Text)
  | word (text : Text)
deriving DecidableEq, Repr

def Argument.ofText : Text → Argument
  | ['-'] => .word "-"
  | ['-', '-'] => .endOfOptions
  | '-' :: '-' :: t =>
    match Text.cut? "=" t with
    | some (name, value) => .long name (some value)
    | none => .long t none
  | '-' :: letters => .short letters
  | t => .word t

/-- The number that a text of decimal digits stands for; a plus sign may be in front. -/
def count? (t : Text) : Option Nat :=
  let digits := match t with
    | '+' :: rest => rest
    | _ => t
  let n := Nat.ofDigitChars 10 digits 0
  if digits.isEmpty || !digits.all Char.isDigit || n ≥ UInt64.size then none else some n

/-! ## Options -/

/-- The names of the options that were found, with their values; that of a flag is empty. -/
abbrev FoundOptions := List (Text × Text)

namespace FoundOptions

def has (o : FoundOptions) (name : Text) : Bool :=
  o.any (·.1 == name)

def text? (o : FoundOptions) (name : Text) : Option Text :=
  o.lookup name

def number? (o : FoundOptions) (name : Text) : Option Nat :=
  (o.text? name).bind count?

/-- Add an option with the given value. -/
def add (o : FoundOptions) (s : OptionSpec) (value : Text) : Except EarlyExit FoundOptions :=
  if o.has s.name || (s.kind == .count && (count? value).isNone) then .error .usage
  else .ok ((s.name, value) :: o)

end FoundOptions

/-- The options so far, and an option that still waits for its value. -/
abbrev Progress := Option OptionSpec × FoundOptions

/-- An option with the value that is attached to it, if there is one. -/
def takeOption (o : FoundOptions) (s : OptionSpec) (value? : Option Text) :
    Except EarlyExit Progress :=
  match s.kind, value? with
  | .exit reason, none => .error reason
  | .exit _, some _ | .flag, some _ => .error .usage
  | .flag, none => return (none, ← o.add s [])
  | _, some value => return (none, ← o.add s value)
  | _, none => .ok (some s, o)

/-- A value attached to a letter; an equals sign between them is no part of it. -/
def attached? : Text → Option Text
  | [] => none
  | '=' :: value => some value
  | value => some value

def takesValue (s : OptionSpec) : Bool :=
  s.kind == .text || s.kind == .count

/-- The options of the letters after a hyphen. -/
def takeLetters (specs : List OptionSpec) (o : FoundOptions) : Text → Except EarlyExit Progress
  | [] => .ok (none, o)
  | c :: letters =>
    match specs.find? (·.letter? == some c) with
    | none => .error .usage
    | some s =>
      if takesValue s then takeOption o s (attached? letters)
      else do
        let (_, o) ← takeOption o s none
        takeLetters specs o letters

/-- The options at the start of an argument list. -/
structure OptionReading where
  found : FoundOptions
  /-- The arguments from the first word on. -/
  rest : List Text
  /-- Whether the options were ended by two hyphens. -/
  isEnded : Bool
deriving DecidableEq, Repr

namespace OptionReading

/-- The options at the start of an argument list, added to those found before. An option that
waits for its value takes the next word. -/
def after (specs : List OptionSpec) : Progress → List Text → Except EarlyExit OptionReading
  | (none, found), [] => .ok { found, rest := [], isEnded := false }
  | (some _, _), [] => .error .usage
  | (waiting?, found), argument :: rest =>
    match Argument.ofText argument, waiting? with
    | .word value, some s => do
      let found ← found.add s value
      after specs (none, found) rest
    | _, some _ => .error .usage
    | .word _, none => .ok { found, rest := argument :: rest, isEnded := false }
    | .endOfOptions, none => .ok { found, rest, isEnded := true }
    | .long name value?, none =>
      match specs.find? (·.name == name) with
      | none => .error .usage
      | some s => do
        let progress ← takeOption found s value?
        after specs progress rest
    | .short letters, none => do
      let progress ← takeLetters specs found letters
      after specs progress rest

def ofArguments (specs : List OptionSpec) (arguments : List Text) :
    Except EarlyExit OptionReading :=
  after specs (none, []) arguments

end OptionReading

end RulesText.CommandLine
