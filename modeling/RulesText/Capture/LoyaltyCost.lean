import RulesText.Capture.Basic
import RulesText.Fault
import RulesText.Text.WordChar

/-!
# Loyalty costs

A loyalty cost is a sign, which may be missing, an amount in digits or `x`, and a colon. It is
read as a sign and an amount and not as one text.
-/

namespace RulesText

structure LoyaltyCost where
  sign? : Option Char
  amount : Text
deriving DecidableEq, Repr

namespace LoyaltyCost

def isSign (c : Char) : Bool :=
  c == '+' || c == '−' || c == '-'

/-- An amount that a colon ends. -/
def amount? (t : Text) : Option Text :=
  let digits := t.takeWhile Text.isDecimalDigit
  if !digits.isEmpty && t.drop digits.length == [':'] then some digits
  else if t == ['x', ':'] then some ['x']
  else none

/-- Read a text that is a loyalty cost as a whole. -/
def ofText? : Text → Option LoyaltyCost
  | [] => none
  | c :: rest =>
    if isSign c then (amount? rest).map (⟨some c, ·⟩)
    else (amount? (c :: rest)).map (⟨none, ·⟩)

def isNegative (l : LoyaltyCost) : Bool :=
  l.sign? == some '-' || l.sign? == some '−'

/-- The size of the sign in bytes. -/
def signSize (l : LoyaltyCost) : Nat :=
  Text.byteSize l.sign?.toList

/-- The tree of a cost at the given span. Its flag `negative` has a span if there is a sign. -/
def capture (l : LoyaltyCost) (kind : Kind) (span : Span) : Capture where
  kind
  span
  fields := [
    { name := "negative"
      value := .flag l.isNegative
      span? := l.sign?.map fun _ => ⟨span.start, span.start + l.signSize⟩ },
    { name := "amount"
      value := .text l.amount
      span? := some ⟨span.start + l.signSize,
        span.start + l.signSize + Text.byteSize l.amount⟩ }]

/-- Read the text at a span of a line as a loyalty cost. -/
def readBack (kind : Kind) (line : Text) (span : Span) : Except Fault Capture :=
  match ofText? (Text.slice line span) with
  | some l => .ok (l.capture kind span)
  | none => .error (.tokenMismatch kind (Text.slice line span))

end LoyaltyCost

end RulesText
