import RulesText.Vocabulary.Kind

/-!
# Faults

What can go wrong, by cause. All but one are defects of a declared vocabulary; a run length out
of range is a mistake of the caller. Text that nothing matches is never a fault.
-/

namespace RulesText

inductive Fault where
  /-- A template has a placeholder for a field that is not declared. -/
  | unknownField (kind : Kind) (field : Text)
  /-- A declared field has no placeholder in the template. -/
  | unreferencedField (kind : Kind) (field : Text)
  /-- A field is declared twice, or has two placeholders. -/
  | duplicateField (kind : Kind) (field : Text)
  /-- The template has an odd number of double quotes. -/
  | unbalancedQuotes (kind : Kind)
  /-- A kind is declared twice. -/
  | duplicateKind (kind : Kind)
  /-- A kind is needed that is not declared. -/
  | undeclaredKind (kind : Kind)
  /-- Nested fields lead from a kind back to itself. The chain begins and ends with it. -/
  | cyclicNesting (chain : List Kind)
  /-- The rendered pattern, or the pattern of a member, is no regular expression or too large. -/
  | invalidPattern (kind : Kind)
  /-- All patterns together are too large to be searched for at once. -/
  | patternsTooLarge
  /-- A captured text matches no member of the field's family. -/
  | noMatchingMember (field family text : Text)
  /-- A token's text does not match the pattern of its kind. -/
  | tokenMismatch (kind : Kind) (text : Text)
  /-- The least length of an unmatched run is neither 1 nor 2. -/
  | invalidRunLength (length : Nat)
deriving DecidableEq, Repr

namespace Fault

/-- Whether the declared vocabulary is to blame, and not the caller. -/
def isDefect : Fault → Bool
  | invalidRunLength _ => false
  | _ => true

private def quoted (t : Text) : Text :=
  ['\x60'] ++ t ++ ['\x60']

def message : Fault → Text
  | unknownField kind field =>
    "variant " ++ quoted kind.name ++ " references undeclared field " ++ quoted field ++
      " in its template"
  | unreferencedField kind field =>
    "variant " ++ quoted kind.name ++ " declares field " ++ quoted field ++
      " but its template never uses it"
  | duplicateField kind field =>
    "variant " ++ quoted kind.name ++ " declares field " ++ quoted field ++ " more than once"
  | unbalancedQuotes kind =>
    "variant " ++ quoted kind.name ++ " has an unbalanced " ++ quoted ['"'] ++
      " in its template"
  | duplicateKind kind => "variant " ++ quoted kind.name ++ " is registered more than once"
  | undeclaredKind kind =>
    "variant " ++ quoted kind.name ++ " is referenced but was never registered"
  | cyclicNesting chain =>
    "nested variants form a cycle: " ++ Text.join " -> " (chain.map Kind.name)
  | invalidPattern kind =>
    "compiled pattern for " ++ quoted kind.name ++ " is not a valid regex"
  | patternsTooLarge => "compiled pattern for " ++ quoted "trigger set" ++ " is not a valid regex"
  | noMatchingMember field family text =>
    "captured text " ++ quoted text ++ " for field " ++ quoted field ++
      " matches no member of " ++ quoted family
  | tokenMismatch kind text =>
    "variant " ++ quoted kind.name ++ " no longer matches its own token text " ++ quoted text
  | invalidRunLength length =>
    "minimum unmatched run length must be 1 or 2, got " ++ Text.ofNat length

end Fault

end RulesText
