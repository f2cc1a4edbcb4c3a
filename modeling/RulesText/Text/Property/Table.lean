import RulesText.Text.CodeRanges
import RulesText.Text.Hexadecimal

/-!
# Tables of character properties

A property is a set of characters that goes by one name or more. Code points are listed in
hexadecimal: `AA` is one of them, `41-5A` a range, and `100-12E/2` every second one of a range.
Many properties are put together from others, so a row may refer to the rows after it.

## Main definitions

* `PropertyRow`: a property.
* `PropertyRow.find?`: the set with a name.
-/

namespace RulesText.Text

/-- A named set of code points: the sets in `includes` together with `codes`, but without the
sets in `excludes` and without the exceptions. -/
structure PropertyRow where
  /-- The names, in small letters and with nothing between words. -/
  names : List String
  includes : List String := []
  codes : List String := []
  excludes : List String := []
  exceptions : List String := []

namespace PropertyRow

/-- The ranges of one entry in a list of code points. -/
def entryRanges? (entry : Text) : Option (List (Nat × Nat)) := do
  let (span, step?) := match cut? "/" entry with
    | some (span, step) => (span, some step)
    | none => (entry, none)
  let (first, last) := (cut? "-" span).getD (span, span)
  let first ← hexNumber? first
  let last ← hexNumber? last
  match step? with
  | none => return [(first, last)]
  | some step => do
    let step ← hexNumber? step
    return (List.range ((last - first) / step + 1)).map fun i =>
      (first + i * step, first + i * step)

/-- The ranges in lines of code points. -/
def listed (lines : List String) : List (Nat × Nat) :=
  ((lines.flatMap fun line => words line.toList).filterMap entryRanges?).flatten

/-- The set of a row, by the sets that it refers to. -/
def ranges (row : PropertyRow) (find? : String → Option CodeRanges) : CodeRanges :=
  let all (names : List String) := (names.filterMap find?).flatMap CodeRanges.toList
  (CodeRanges.ofList (all row.includes ++ listed row.codes)).difference
    (CodeRanges.ofList (all row.excludes ++ listed row.exceptions))

/-- The set with the given name. Rows refer to the rows after them, and then to `others`. -/
def find? (others : String → Option CodeRanges) :
    List PropertyRow → (name : String) → Option CodeRanges
  | [], _ => none
  | row :: rows, name =>
    if row.names.contains name then
      some (row.ranges fun name => (find? others rows name).or (others name))
    else find? others rows name

end PropertyRow

end RulesText.Text
