import RulesText.Text.Alphabetic
import RulesText.Text.Marks
import RulesText.Text.Recent

/-!
# Letters, digits and word characters

Three classes of characters that are close but not equal. A *word character* decides where
words end: a letter, a combining mark, a decimal digit, connecting punctuation such as `_`, or
one of the two joiners, as long as it is not one of the most recent characters. *Alphanumeric*
characters are the letters and every kind of number, superscripts and fractions included; marks
and connectors are not among them.
-/

namespace RulesText.Text

def isAscii (c : Char) : Bool :=
  c.toNat < 0x80

/-- Letters, by the Unicode property `Alphabetic`. -/
def isLetter (c : Char) : Bool :=
  if isAscii c then c.isAlpha else alphabeticRanges.contains c

/-- Decimal digits of every script, as far as expressions know them. -/
def isDecimalDigit (c : Char) : Bool :=
  if isAscii c then c.isDigit else digitRanges.contains c && !isRecent c

def isAlphanumeric (c : Char) : Bool :=
  if isAscii c then c.isAlphanum
  else alphabeticRanges.contains c || digitRanges.contains c || otherNumberRanges.contains c

def isJoiner (c : Char) : Bool :=
  c == '\u200C' || c == '\u200D'

/-- The word characters of ASCII. -/
def isAsciiWordChar (c : Char) : Bool :=
  c.isAlphanum || c == '_'

def isWordChar (c : Char) : Bool :=
  if isAscii c then isAsciiWordChar c
  else (alphabeticRanges.contains c || markRanges.contains c || digitRanges.contains c ||
    connectorRanges.contains c || isJoiner c) && !isRecent c

end RulesText.Text
