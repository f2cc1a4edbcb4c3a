import RulesText.Text.Lowercase
import RulesText.Text.WordChar

/-!
# Sets of characters

What one place of a regular expression accepts: a range, one of the three named classes, a table
of code points, or a bracketed combination of these. Where case does not matter, a bracket is
closed under case variants before it is negated.
-/

namespace RulesText.Regex

/-- Which characters count: those of all scripts, or those of ASCII only. -/
inductive Repertoire where
  | unicode
  | ascii
deriving DecidableEq, Repr

/-- The classes with a one-letter escape. -/
inductive CharClass where
  | digit
  | space
  | word
deriving DecidableEq, Repr

namespace CharClass

def isAsciiBlank (c : Char) : Bool :=
  c == ' ' || ('\t' ≤ c && c ≤ '\r')

def contains : Repertoire → CharClass → Char → Bool
  | .unicode, digit, c => Text.isDecimalDigit c
  | .unicode, space, c => Text.isBlank c
  | .unicode, word, c => Text.isWordChar c
  | .ascii, digit, c => c.isDigit
  | .ascii, space, c => isAsciiBlank c
  | .ascii, word, c => Text.isAsciiWordChar c

end CharClass

/-- Which case variants of a character are as good as the character. -/
inductive CaseRule where
  | exact
  | variants (r : Repertoire)
deriving DecidableEq, Repr

def CaseRule.variantsOf : CaseRule → Char → List Char
  | exact, _ => []
  | variants .unicode, c => Text.caseVariants c
  | variants .ascii, c => [c.toLower, c.toUpper]

inductive SetOperation where
  | intersection
  | difference
  | symmetricDifference
deriving DecidableEq, Repr

def SetOperation.apply : SetOperation → Bool → Bool → Bool
  | intersection, a, b => a && b
  | difference, a, b => a && !b
  | symmetricDifference, a, b => a != b

inductive CharSet where
  | none
  | range (first last : Char)
  | named (r : Repertoire) (cls : CharClass)
  | table (t : Text.CodeRanges)
  | union (a b : CharSet)
  | combine (operation : SetOperation) (a b : CharSet)
  | bracket (negated : Bool) (inner : CharSet)
deriving DecidableEq, Repr

namespace CharSet

/-- Whether a character or one of its case variants is in a set. -/
def closure (rule : CaseRule) (mem : Char → Bool) (c : Char) : Bool :=
  mem c || (rule.variantsOf c).any mem

def contains (rule : CaseRule) : CharSet → Char → Bool
  | none, _ => false
  | range first last, c => first ≤ c && c ≤ last
  | named r cls, c => cls.contains r c
  | table t, c => t.contains c
  | union a b, c => contains rule a c || contains rule b c
  | combine operation a b, c =>
    operation.apply (closure rule (contains rule a) c) (closure rule (contains rule b) c)
  | bracket negated inner, c => closure rule (contains rule inner) c != negated

/-- The set of one character and, where case does not matter, its variants. -/
def single (c : Char) : CharSet :=
  bracket false (range c c)

/-- The set of all characters but the given ones. -/
def except (cs : List Char) : CharSet :=
  bracket true (cs.foldr (fun c s => union (range c c) s) none)

/-- The set as it is read where only ASCII counts. A set that would hold other characters has no
such reading. -/
def ascii? : CharSet → Option CharSet
  | none => some none
  | range first last => if last.toNat < 0x80 then some (range first last) else Option.none
  | named _ cls => some (named .ascii cls)
  | table _ => Option.none
  | union a b => do return union (← ascii? a) (← ascii? b)
  | combine operation a b => do return combine operation (← ascii? a) (← ascii? b)
  | bracket negated inner => if negated then Option.none else (ascii? inner).map (bracket false)

@[simp] theorem contains_single {c d : Char} :
    contains .exact (single c) d = (c == d) := by
  have agree : (decide (c ≤ d) && decide (d ≤ c)) = (c == d) := by
    rw [Bool.eq_iff_iff, Bool.and_eq_true, decide_eq_true_eq, decide_eq_true_eq, beq_iff_eq]
    exact ⟨fun ⟨le, ge⟩ => Char.le_antisymm le ge, fun h => h ▸ ⟨Char.le_refl _, Char.le_refl _⟩⟩
  simp [single, contains, closure, agree, CaseRule.variantsOf]

end CharSet

end RulesText.Regex
