import RulesText.Vocabulary.Family
import RulesText.Vocabulary.Kind

/-!
# Capture trees

A token that is read back becomes a tree: its kind, its span in the line, a value for every
field that took part, and the trees of nested phrases in the order of their spans. A field with
a nested phrase holds the index of its tree among the children.
-/

namespace RulesText

inductive CaptureValue where
  /-- A member of a family, with its place in the family. -/
  | choice (family member : Text) (index : Nat)
  | flag (isSet : Bool)
  | text (text : Text)
  /-- The tree with this index among the children. -/
  | child (index : Nat)
deriving DecidableEq, Repr

structure CaptureField where
  name : Text
  value : CaptureValue
  /-- The span that the field captured; a flag that is not set has none. -/
  span? : Option Span
deriving DecidableEq, Repr

structure Capture where
  kind : Kind
  span : Span
  fields : List CaptureField := []
  children : List Capture := []

namespace Capture

/-! ## Looking up fields -/

def get? (t : Capture) (name : Text) : Option CaptureField :=
  t.fields.find? (·.name == name)

def value? (t : Capture) (name : Text) : Option CaptureValue :=
  (t.get? name).map (·.value)

/-- Whether a flag is set. A field that is absent or no flag counts as not set. -/
def flag (t : Capture) (name : Text) : Bool :=
  t.value? name == some (.flag true)

def text? (t : Capture) (name : Text) : Option Text :=
  match t.value? name with
  | some (.text text) => some text
  | _ => none

/-- The member of a family that a field holds, if it holds one of this family. -/
def member? (t : Capture) (family : Family) (name : Text) : Option Member :=
  match t.value? name with
  | some (.choice familyName _ index) =>
    if familyName == family.name then family.members[index]? else none
  | _ => none

def child? (t : Capture) (name : Text) : Option Capture :=
  match t.value? name with
  | some (.child index) => t.children[index]?
  | _ => none

/-- The tree that a path of field names leads to. -/
def descend? : Capture → (path : List Text) → Option Capture
  | t, [] => some t
  | t, name :: path => (t.child? name).bind (descend? · path)

/-! ## Walking -/

mutual

/-- A tree and all trees below it, each before its children. -/
def walk : Capture → List Capture
  | ⟨kind, span, fields, children⟩ => ⟨kind, span, fields, children⟩ :: walkAll children

def walkAll : List Capture → List Capture
  | [] => []
  | t :: rest => walk t ++ walkAll rest

end

def size (t : Capture) : Nat :=
  t.walk.length

end Capture

end RulesText
