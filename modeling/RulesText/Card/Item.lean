import RulesText.Json.Reader

/-!
# Cards as they are given

A card has a name and a text. A corpus of cards is a JSON array with an object or an array for
every card.

## Main definitions

* `CardItem.ofJson?`, `CardItem.listOfJson?`: the card, or the corpus, that a JSON value stands
  for.
* `CardItem.parseCorpus?`: the corpus of a JSON text.
-/

namespace RulesText

structure CardItem where
  name : Text
  text : Text
deriving DecidableEq, Repr

namespace CardItem

/-- The card with the given members: a `name` and, if it has one, a `text`. Neither comes twice;
other members do not matter. -/
def ofMembers? (members : List (Text × Json)) : Option CardItem := do
  let named ← members.mapM fun (key, value) => return (← Json.unescape? key, value)
  let valuesOf (key : Text) := (named.filter (·.1 == key)).map (·.2)
  match valuesOf "name", valuesOf "text" with
  | [name], [] => return { name := ← name.text?, text := [] }
  | [name], [text] => return { name := ← name.text?, text := ← text.text? }
  | _, _ => none

/-- A card is an object, or an array of its name and, if it has one, its text. -/
def ofJson? : Json → Option CardItem
  | .object members => ofMembers? members
  | .array [name] => do return { name := ← name.text?, text := [] }
  | .array [name, text] => do return { name := ← name.text?, text := ← text.text? }
  | _ => none

def listOfJson? : Json → Option (List CardItem)
  | .array items => items.mapM ofJson?
  | _ => none

def parseCorpus? (t : Text) : Option (List CardItem) :=
  (Json.parse? t).bind listOfJson?

end CardItem

end RulesText
