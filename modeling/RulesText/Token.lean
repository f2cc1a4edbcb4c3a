import RulesText.Vocabulary.Kind

/-!
# Tokens

A token is a stretch of a line with what it was recognized as: a kind of phrase, or nothing.
-/

namespace RulesText

/-- What a token was recognized as. -/
inductive Label where
  | kind (kind : Kind)
  | unmatched
deriving DecidableEq, Repr

namespace Label

def isMatched : Label → Bool
  | kind _ => true
  | unmatched => false

def kind? : Label → Option Kind
  | kind k => some k
  | unmatched => none

def name : Label → Text
  | kind k => k.name
  | unmatched => "?"

end Label

structure Token where
  label : Label
  span : Span
deriving DecidableEq, Repr

/-- The text of a token in its line. -/
def Token.text (t : Token) (line : Text) : Text :=
  Text.slice line t.span

end RulesText
