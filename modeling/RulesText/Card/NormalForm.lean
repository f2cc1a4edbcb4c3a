import RulesText.Card.Name
import RulesText.Regex.Replace

/-!
# The normal form of card text

Before a card's text is read it is brought into lower case, its reminder text in parentheses is
dropped if asked for, every name of the card becomes `~`, runs of spaces and tabs become single
spaces, and every line is trimmed.

## Main definitions

* `Card.dropReminders`, `Card.collapseSpaces`: two of these steps.
* `Card.normalLines`: the lines of the normal form.
-/

namespace RulesText.Card

/-- What stands for the card's own name. -/
def selfMark : Text :=
  "~"

/-- The text without its parenthesized parts. Each goes from an opening parenthesis to the next
closing one, with the blanks before it; a parenthesis that is not closed stays. -/
def dropReminders (t : Text) : Text :=
  match t.dropWhile Text.isBlank with
  | [] => t
  | c :: rest =>
    let blanks := t.takeWhile Text.isBlank
    if c = '(' then
      match rest.dropWhile (· != ')') with
      | [] => t
      | _ :: after =>
        if after.length < t.length then dropReminders after else []
    else
      blanks ++ c :: (if rest.length < t.length then dropReminders rest else [])
termination_by t.length
decreasing_by all_goals assumption

def isSpaceOrTab (c : Char) : Bool :=
  c == ' ' || c == '\t'

/-- Every run of spaces and tabs becomes one space. `inRun` tells that a space has just been
written for the run that the text continues. -/
def collapseSpaces (inRun : Bool) : Text → Text
  | [] => []
  | c :: rest =>
    if isSpaceOrTab c then
      if inRun then collapseSpaces true rest else ' ' :: collapseSpaces true rest
    else c :: collapseSpaces false rest

/-- Put `~` in the place of every name of the card. -/
def markSelf (name t : Text) : Text :=
  match selfReference? name with
  | some r => r.replaceAll selfMark t
  | none => t

/-- The lines of a card's text in normal form. -/
def normalLines (name t : Text) (stripReminders : Bool) : List Text :=
  let lowered := Text.lowercase t
  let kept := if stripReminders then dropReminders lowered else lowered
  (Text.lines (collapseSpaces false (markSelf name kept))).map Text.trim

end RulesText.Card
