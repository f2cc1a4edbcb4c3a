import RulesText.Fault
import RulesText.Token

/-!
# Gaps

A gap is a maximal run of unmatched tokens in a line. Blanks between the tokens belong to it, so
its text is a slice of the line. It knows what stands on either side.

## Main definitions

* `Gap.ofTokens`: the gaps of a line that have enough tokens.
* `Gap.find`: the same, for a least number of tokens that may be asked for.
-/

namespace RulesText

/-- What stands next to a gap. -/
inductive Neighbour where
  | lineStart
  | lineEnd
  | kind (kind : Kind)
deriving DecidableEq, Repr

def Neighbour.label : Neighbour → Text
  | lineStart => "^"
  | lineEnd => "$"
  | kind k => k.name

structure Gap where
  text : Text
  /-- The span in the line. -/
  span : Span
  /-- The number of unmatched tokens. -/
  tokens : Nat
  before : Neighbour
  after : Neighbour
deriving DecidableEq, Repr

namespace Gap

def isUnmatched (t : Token) : Bool :=
  t.label == .unmatched

/-- The gap of a run of unmatched tokens that begins with `first` and is followed by `after`. -/
def ofRun (line : Text) (before : Neighbour) (first : Token) (others after : List Token) :
    Gap :=
  let span := ⟨first.span.start, ((first :: others).getLast (by simp)).span.stop⟩
  { text := Text.slice line span
    span
    tokens := others.length + 1
    before
    after := ((after.head?.bind (·.label.kind?)).map .kind).getD .lineEnd }

/-- The gaps among the tokens that follow `before`, with at least `least` tokens each. -/
def ofTokens (line : Text) (least : Nat) (before : Neighbour) : List Token → List Gap
  | [] => []
  | t :: rest =>
    match t.label with
    | .kind k => ofTokens line least (.kind k) rest
    | .unmatched =>
      let others := rest.takeWhile isUnmatched
      let after := rest.dropWhile isUnmatched
      let later := ofTokens line least before after
      if least ≤ others.length + 1 then ofRun line before t others after :: later else later
termination_by tokens => tokens.length
decreasing_by
  · simp
  · have := (List.dropWhile_suffix (l := rest) isUnmatched).length_le
    simp only [List.length_cons]
    omega

/-- The least length of a run is 1, which keeps single words, or 2, which does not. -/
def checkRunLength (least : Nat) : Except Fault Unit :=
  if least = 1 ∨ least = 2 then .ok () else .error (.invalidRunLength least)

/-- The gaps of a line. -/
def find (line : Text) (tokens : List Token) (least : Nat) : Except Fault (List Gap) := do
  checkRunLength least
  return ofTokens line least .lineStart tokens

end Gap

end RulesText
