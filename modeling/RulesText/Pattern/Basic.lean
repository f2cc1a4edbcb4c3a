import RulesText.Pattern.Edge
import RulesText.Vocabulary.Kind

/-!
# Rendered patterns

A kind's template, with its fields filled in, becomes the text of a regular expression with one
named group per field. The groups of a nested phrase are qualified with the name of the field it
stands in, so that names stay apart.
-/

namespace RulesText

structure Pattern where
  kind : Kind
  /-- The text of the regular expression. -/
  source : Text
  /-- The kind's own fields, in the order of the template. -/
  fields : List Text
  /-- All groups of the source: the own fields, then those of nested phrases, qualified. -/
  groups : List Text
  leading : Edge
  trailing : Edge
deriving DecidableEq, Repr

namespace Pattern

def size (p : Pattern) : Nat :=
  Text.byteSize p.source

/-- What stands between the name of a field and the name of a group inside it. -/
def qualifier : Text :=
  "__"

def qualified (field group : Text) : Text :=
  field ++ qualifier ++ group

/-- What opens a named group. -/
def groupMarker : Text :=
  "(?P<"

/-- Qualify the named groups of `source` with `field`. A marker after an odd number of
backslashes is escaped and opens no group; `escaped` is the parity of those just before. -/
def qualifyFrom (field : Text) (escaped : Bool) : (source : Text) → Text
  | [] => []
  | '(' :: '?' :: 'P' :: '<' :: rest =>
    groupMarker ++ (if escaped then [] else field ++ qualifier) ++ qualifyFrom field false rest
  | c :: rest => c :: qualifyFrom field (c == '\\' && !escaped) rest

/-- Qualify the named groups of a pattern text with the name of a field. -/
def qualifyGroups (source field : Text) : Text :=
  qualifyFrom field false source

end Pattern

end RulesText
