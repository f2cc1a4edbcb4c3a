import RulesText.Json.Basic

/-!
# Printing JSON

Every item and every member has a line of its own, indented by two spaces for every array and
object around it. An array or object without content is printed as a pair of brackets.
-/

namespace RulesText.Json

/-- A new line at the given depth. -/
def newline (depth : Nat) : Text :=
  '\n' :: List.replicate (2 * depth) ' '

def quoted (written : Text) : Text :=
  '"' :: written ++ ['"']

mutual

def prettyAt (depth : Nat) : Json → Text
  | null => "null"
  | bool value => if value then "true" else "false"
  | number written => written
  | string written => quoted written
  | array [] => "[]"
  | array (item :: items) =>
    '[' :: newline (depth + 1) ++ prettyAt (depth + 1) item ++ prettyItems (depth + 1) items ++
      newline depth ++ [']']
  | object [] => "\x7b\x7d"
  | object ((key, value) :: members) =>
    '{' :: newline (depth + 1) ++ quoted key ++ ": " ++ prettyAt (depth + 1) value ++
      prettyMembers (depth + 1) members ++ newline depth ++ ['}']

/-- The items after the first one. -/
def prettyItems (depth : Nat) : List Json → Text
  | [] => []
  | item :: items => ',' :: newline depth ++ prettyAt depth item ++ prettyItems depth items

/-- The members after the first one. -/
def prettyMembers (depth : Nat) : List (Text × Json) → Text
  | [] => []
  | (key, value) :: members =>
    ',' :: newline depth ++ quoted key ++ ": " ++ prettyAt depth value ++
      prettyMembers depth members

end

def pretty (j : Json) : Text :=
  prettyAt 0 j

end RulesText.Json
