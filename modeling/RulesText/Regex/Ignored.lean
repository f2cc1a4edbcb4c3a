import RulesText.Text.Basic

/-!
# Ignored text

Where the verbose flag is set, blanks in a pattern are ignored, and so are comments, which go
from a hash to the end of the line.
-/

namespace RulesText.Regex

/-- The text after the blanks and comments at its start. -/
def dropIgnored : (inComment : Bool) → Text → Text
  | _, [] => []
  | true, c :: rest => dropIgnored (c != '\n') rest
  | false, c :: rest =>
    if Text.isBlank c then dropIgnored false rest
    else if c == '#' then dropIgnored true rest
    else c :: rest

def ignore (verbose : Bool) (t : Text) : Text :=
  if verbose then dropIgnored false t else t

/-- The text up to the next closing brace, without what is ignored, and what follows the brace. -/
def readBraced? (verbose : Bool) : (inComment : Bool) → Text → Option (Text × Text)
  | _, [] => none
  | true, c :: rest => readBraced? verbose (c != '\n') rest
  | false, c :: rest =>
    if c == '\x7d' then some ([], rest)
    else if verbose && Text.isBlank c then readBraced? verbose false rest
    else if verbose && c == '#' then readBraced? verbose true rest
    else (readBraced? verbose false rest).map fun (name, rest) => (c :: name, rest)

/-- The decimal digits at the start of a text, without what is ignored between them. -/
def readDigits (verbose : Bool) : (inComment : Bool) → Text → Text × Text
  | _, [] => ([], [])
  | true, c :: rest => readDigits verbose (c != '\n') rest
  | false, c :: rest =>
    if c.isDigit then
      let (digits, rest) := readDigits verbose false rest
      (c :: digits, rest)
    else if verbose && Text.isBlank c then readDigits verbose false rest
    else if verbose && c == '#' then readDigits verbose true rest
    else ([], c :: rest)

end RulesText.Regex
