import RulesText.Regex.CharSet
import RulesText.Text.Property

/-!
# Sets of characters as ranges

The code points that a set of characters accepts, all at once.

## Main definitions

* `CaseRule.closure`: a set with the case variants of what is in it.
* `CharSet.codes`: the code points of a set.
-/

namespace RulesText.Regex

open Text (CodeRanges)

/-- The properties of the characters in a class. -/
def CharClass.properties : CharClass → List String
  | digit => ["nd"]
  | space => ["wspace"]
  | word => ["alpha", "m", "nd", "pc", "joinc"]

def CharClass.codes (cls : CharClass) : Repertoire → CodeRanges
  | .unicode =>
    .ofList ((cls.properties.filterMap Text.Property.basic?).flatMap CodeRanges.toList)
  | .ascii =>
    .ofList (((List.range 0x80).filter fun n => cls.contains .ascii (Char.ofNat n)).map fun n =>
      (n, n))

/-- The code points that can have case variants: the letters of ASCII and those that take part in
case folding. -/
def foldingCodes : List Nat :=
  (List.range 0x80).filter (fun n => (Char.ofNat n).isAlpha) ++
    Text.foldShifts.flatMap fun s => s.sources ++ s.images

/-- A set with the case variants of what is in it. -/
def CaseRule.closure (rule : CaseRule) (t : CodeRanges) : CodeRanges :=
  match rule with
  | exact => t
  | variants _ =>
    let inside :=
      if t.count ≤ foldingCodes.length then t.codes
      else foldingCodes.filter fun n => t.contains (Char.ofNat n)
    t.union (.ofList ((inside.filter Nat.isValidChar).flatMap fun n =>
      (rule.variantsOf (Char.ofNat n)).map fun c => (c.toNat, c.toNat)))

def SetOperation.codes : SetOperation → CodeRanges → CodeRanges → CodeRanges
  | intersection, a, b => a.intersection b
  | difference, a, b => a.difference b
  | symmetricDifference, a, b => (a.difference b).union (b.difference a)

/-- The code points that a set accepts. -/
def CharSet.codes (rule : CaseRule) : CharSet → CodeRanges
  | none => .ofList []
  | range first last => .ofList [(first.toNat, last.toNat)]
  | named r cls => cls.codes r
  | table t => t
  | union a b => (codes rule a).union (codes rule b)
  | combine operation a b =>
    operation.codes (rule.closure (codes rule a)) (rule.closure (codes rule b))
  | bracket negated inner =>
    let closed := rule.closure (codes rule inner)
    if negated then closed.complement else closed

end RulesText.Regex
