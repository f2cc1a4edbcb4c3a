/-!
# Blank characters

The characters that separate words: those with the Unicode property `White_Space`.
-/

namespace RulesText.Text

def isBlank (c : Char) : Bool :=
  ('\t' ≤ c && c ≤ '\r') || c == ' ' || c == '\u0085' || c == '\u00A0' || c == '\u1680' ||
  ('\u2000' ≤ c && c ≤ '\u200A') || c == '\u2028' || c == '\u2029' || c == '\u202F' ||
  c == '\u205F' || c == '\u3000'

end RulesText.Text
