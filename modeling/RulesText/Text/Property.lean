import RulesText.Text.Property.Age
import RulesText.Text.Property.Binary
import RulesText.Text.Property.Category
import RulesText.Text.Property.Script
import RulesText.Text.Property.Segmentation
import RulesText.Text.WordChar

/-!
# Character properties by name

A set of characters is asked for by the name of a binary property, a general category or a
script, or as the value of a property: `gc=Lu`, `Script:Greek`, `age!=6.0`. Case, spaces,
hyphens, underscores and a leading `is` do not matter in names.

## Main definitions

* `Property.normalize`: the form in which names are compared.
* `Property.find?`: the set that is asked for.
-/

namespace RulesText.Text

/-- A set of characters, or all others. -/
structure Property where
  negated : Bool
  ranges : CodeRanges

namespace Property

/-! ## Names -/

/-- A name without a leading `is`, and whether it had one. -/
def dropIs : (name : Text) → Bool × Text
  | i :: s :: rest =>
    if i.toLower == 'i' && s.toLower == 's' then (true, rest) else (false, i :: s :: rest)
  | name => (false, name)

def isSeparator (c : Char) : Bool :=
  c == ' ' || c == '_' || c == '-'

/-- The form in which names are compared. The name `isc` is not that of the category `c`. -/
def normalize (name : Text) : String :=
  let (hadIs, rest) := dropIs name
  let letters := (rest.filter fun c => isAscii c && !isSeparator c).map Char.toLower
  String.ofList (if hadIs && letters == ['c'] then "isc" else letters)

/-! ## Values -/

def category? : String → Option CodeRanges :=
  PropertyRow.find? (fun _ => none) categoryRows

def binary? : String → Option CodeRanges :=
  PropertyRow.find? category? binaryRows

def script? : String → Option CodeRanges :=
  PropertyRow.find? (fun _ => none) scriptRows

/-- Binary properties and general categories. -/
def basic? (name : String) : Option CodeRanges :=
  (binary? name).or (category? name)

def scriptExtension? (name : String) : Option CodeRanges :=
  (PropertyRow.find? script? scriptExtensionRows name).or (script? name)

/-- The set of a value of a property, by normal names. -/
def value? (property value : String) : Option CodeRanges :=
  match property with
  | "gc" | "generalcategory" => category? value
  | "sc" | "script" => script? value
  | "scx" | "scriptextensions" => scriptExtension? value
  | "age" => PropertyRow.find? (fun _ => none) ageRows value
  | "gcb" | "graphemeclusterbreak" => PropertyRow.find? basic? graphemeRows value
  | "wb" | "wordbreak" => PropertyRow.find? basic? wordRows value
  | "sb" | "sentencebreak" => PropertyRow.find? basic? sentenceRows value
  | _ => none

/-- A property and its value as they stand around a sign between them, which is the first of
the signs `!=`, `:` and `=` that occurs at all. -/
def cutValue? (name : Text) : Option (Bool × Text × Text) :=
  ((Text.cut? "!=" name).map (true, ·)).or
    (((Text.cut? ":" name).or (Text.cut? "=" name)).map (false, ·))

/-- The set that is asked for. -/
def find? (name : Text) : Option Property :=
  match cutValue? name with
  | some (negated, property, value) =>
    (value? (normalize property) (normalize value)).map fun ranges => { negated, ranges }
  | none =>
    let name := normalize name
    ((basic? name).or (script? name)).map fun ranges => { negated := false, ranges }

end Property

end RulesText.Text
