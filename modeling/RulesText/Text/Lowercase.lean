import RulesText.Text.Basic
import RulesText.Text.CaseTables
import RulesText.Text.WordChar

/-!
# Lower case and folded case

`Text.lowercase` is full lowercasing: one capital (İ) becomes two characters, and a capital
sigma becomes the final form at the end of a word. `foldCase` maps a character to the
representative of its case variants, and `caseVariants` lists them.
-/

namespace RulesText.Text

def isCased (c : Char) : Bool :=
  if isAscii c then c.isAlpha else casedRanges.contains c

/-- Characters that are passed over when the case of a neighbour matters. -/
def isCaseIgnorable (c : Char) : Bool :=
  if isAscii c then c == '\'' || c == '.' || c == ':' || c == '^' || c == '`'
  else caseIgnorableRanges.contains c

/-- Lower case of a character that is not a capital sigma. -/
def lowercaseChar (c : Char) : Text :=
  if isAscii c then [c.toLower]
  else if c == 'İ' then ['i', '\u0307']
  else [(lowercaseShifts.findSome? (·.image? c)).getD c]

/-- Whether the first character that is not passed over has a case. -/
def meetsCased (t : Text) : Bool :=
  ((t.dropWhile isCaseIgnorable).head?.map isCased).getD false

/-- Lower case of `rest`, where `behind` holds the characters before it, nearest first. A
capital sigma after a cased character and before none is final. -/
def lowercaseFrom (behind : Text) : (rest : Text) → Text
  | [] => []
  | c :: rest =>
    let lowered :=
      if c == 'Σ' then
        if meetsCased behind && !meetsCased rest then ['ς'] else ['σ']
      else lowercaseChar c
    lowered ++ lowercaseFrom (c :: behind) rest

def lowercase (t : Text) : Text :=
  lowercaseFrom [] t

/-- Simple case folding of one character. -/
def foldCase (c : Char) : Char :=
  if isAscii c then c.toLower else (foldShifts.findSome? (·.image? c)).getD c

/-- All characters with the folded case of `c`: that folded case, its ASCII capital if it has
one, and what the table maps to it. -/
def caseVariants (c : Char) : List Char :=
  let folded := foldCase c
  folded :: (if isAscii folded then [folded.toUpper] else []) ++
    foldShifts.filterMap (·.source? folded)

end RulesText.Text
