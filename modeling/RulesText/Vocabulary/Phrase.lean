import RulesText.Capture.LoyaltyCost

/-!
# Phrases

A phrase declares what the texts of one kind look like: by a template of literal words and
`{name}` placeholders, and by the fields that the placeholders stand for. Fields are built with
`Field.choice`, `Field.flag`, `Field.words` and `Field.nested` and marked `plural`, `bounded` or
`optional`. A phrase may come with a hook that reads its tokens back in place of the fields.
-/

namespace RulesText

/-- What a field captures. -/
inductive FieldKind where
  /-- One member of a family. -/
  | choice (family : Family)
  /-- Whether one of the alternatives is present. -/
  | flag (alternatives : List Text)
  /-- The text that one of the alternatives matches. -/
  | words (alternatives : List Text)
  /-- Another phrase. -/
  | nested (kind : Kind)
deriving DecidableEq, Repr

structure Field where
  name : Text
  kind : FieldKind
  /-- The plural of every alternative is accepted too. -/
  isPlural : Bool := false
  /-- The field starts and ends at word boundaries. -/
  isBounded : Bool := false
  /-- The field was declared optional. -/
  isMarkedOptional : Bool := false
deriving DecidableEq, Repr

namespace Field

def choice (name : Text) (family : Family) : Field := { name, kind := .choice family }

def flag (name : Text) (alternatives : List Text) : Field := { name, kind := .flag alternatives }

def words (name : Text) (alternatives : List Text) : Field :=
  { name, kind := .words alternatives }

def nested (name : Text) (kind : Kind) : Field := { name, kind := .nested kind }

def plural (f : Field) : Field := { f with isPlural := true }

def bounded (f : Field) : Field := { f with isBounded := true }

def optional (f : Field) : Field := { f with isMarkedOptional := true }

/-- Whether a match may leave the field out. A flag always may. -/
def isOptional (f : Field) : Bool :=
  match f.kind with
  | .flag _ => true
  | _ => f.isMarkedOptional

/-- The patterns that the field alternates between; a nested phrase has none of its own. -/
def alternatives (f : Field) : List Text :=
  match f.kind with
  | .choice family => family.sources
  | .flag alternatives | .words alternatives => alternatives
  | .nested _ => []

def nestedKind? (f : Field) : Option Kind :=
  match f.kind with
  | .nested kind => some kind
  | _ => none

end Field

/-- Code that comes with a phrase and reads its tokens back. It is given the kind, the whole line
and the token's span. -/
abbrev Hook := Kind → (line : Text) → Span → Except Fault Capture

/-- How a token is read back into a capture tree. -/
inductive Reading where
  /-- Field by field, with the kind's own pattern. -/
  | fields
  /-- As the sign and the amount of a loyalty cost. -/
  | loyaltyCost
  /-- By any other hook. What it answers is passed on unchecked. -/
  | hook (read : Hook)

namespace Reading

/-- Hooks cannot be compared, so a reading by one of them is the same as no other. -/
instance : BEq Reading where
  beq
    | fields, fields | loyaltyCost, loyaltyCost => true
    | _, _ => false

/-- What reads a token back in place of its fields. -/
def hook? : Reading → Option Hook
  | .fields => none
  | .loyaltyCost => some LoyaltyCost.readBack
  | .hook read => some read

theorem eq_fields_of_beq {r : Reading} (same : r == fields) : r = fields := by
  cases r with
  | fields => rfl
  | loyaltyCost | hook => cases same

theorem hook?_eq_none_iff {r : Reading} : r.hook? = none ↔ r = fields := by
  cases r <;> simp [hook?]

end Reading

structure Phrase where
  kind : Kind
  template : Text
  fields : List Field := []
  reading : Reading := .fields

/-- The first field of a given name. -/
def Phrase.field? (p : Phrase) (name : Text) : Option Field :=
  p.fields.find? (·.name == name)

/-- The phrases in the order of their declaration. -/
abbrev Vocabulary := List Phrase

end RulesText
