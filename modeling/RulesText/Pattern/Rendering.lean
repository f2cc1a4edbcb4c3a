import RulesText.Fault
import RulesText.Pattern.Alternation
import RulesText.Pattern.Basic
import RulesText.Regex.Parser
import RulesText.Template
import RulesText.Vocabulary.Phrase

/-!
# Rendering templates

Snippets are joined with single spaces, except before closing punctuation and inside double
quotes. An optional placeholder that is a snippet of its own takes its space into its optional
group: behind the placeholder in front of the first required snippet, before it everywhere else.
A word boundary is put at an end of the whole only where every match has a word character there.

## Main definitions

* `RenderedField`: a field as a named group, with its edges.
* `Rendering.join`: the body of a pattern.
* `Rendering.outerEdge`: the edge of a whole template.
* `Rendering.assemble`: the pattern of a phrase whose fields are rendered.
-/

namespace RulesText

/-- The two ends of a pattern. -/
inductive Side where
  | leading
  | trailing
deriving DecidableEq, Repr

namespace Side

def edge : Side → Text → Edge
  | leading => Edge.leading
  | trailing => Edge.trailing

/-- A list of adjacent things, from this end on. -/
def inward {α : Type} : Side → List α → List α
  | leading, l => l
  | trailing, l => l.reverse

end Side

/-- A field as a named group. -/
structure RenderedField where
  name : Text
  group : Text
  isOptional : Bool
  leading : Edge
  trailing : Edge
  /-- The qualified groups inside it. -/
  groups : List Text := []
deriving DecidableEq, Repr

namespace RenderedField

def edge (f : RenderedField) : Side → Edge
  | .leading => f.leading
  | .trailing => f.trailing

def wrap (name body : Text) : Text :=
  Pattern.groupMarker ++ name ++ ['>'] ++ body ++ [')']

/-- A field whose alternatives are pattern texts. -/
def ofAlternatives (f : Field) (alternatives : List Text) : RenderedField where
  name := f.name
  group := wrap f.name (Alternation.source alternatives f.isPlural f.isBounded)
  isOptional := f.isOptional
  leading := Edge.ofAll Edge.leading alternatives
  trailing := Edge.ofAll Edge.trailing alternatives

/-- A field that holds a phrase with the given pattern. -/
def ofNested (f : Field) (p : Pattern) : RenderedField where
  name := f.name
  group := wrap f.name (Pattern.qualifyGroups p.source f.name)
  isOptional := f.isOptional
  leading := p.leading
  trailing := p.trailing
  groups := p.groups.map (Pattern.qualified f.name)

end RenderedField

namespace Rendering

def find? (fields : List RenderedField) (name : Text) : Option RenderedField :=
  fields.find? (·.name == name)

/-- The field of a snippet that is one optional placeholder. -/
def optionalField? (fields : List RenderedField) (s : Snippet) : Option RenderedField :=
  (s.soleField?.bind (find? fields)).filter (·.isOptional)

/-! ## Joining -/

def partSource (fields : List RenderedField) : Part → Text
  | .literal text => text
  | .field name =>
    match find? fields name with
    | none => []
    | some f => if f.isOptional then "(?:" ++ f.group ++ ")?" else f.group

/-- The pattern text of a snippet that is not an optional placeholder of its own. -/
def snippetSource (fields : List RenderedField) : Snippet → Text
  | .parts parts => parts.flatMap (partSource fields)
  | .terminal mark => Regex.escape [mark]
  | .quote => Regex.escape ['"']

/-- What the snippets so far say about the next one. -/
structure Position where
  /-- No snippet has come yet. -/
  isFirst : Bool := true
  /-- All snippets so far were optional placeholders. -/
  inLead : Bool := true
  /-- The number of double quotes so far is odd. -/
  inQuotes : Bool := false
  /-- The previous snippet brought its own space behind it. -/
  spaced : Bool := false
deriving DecidableEq, Repr

/-- The pattern text of one snippet with the space before it, and the position after it. -/
def joinOne (fields : List RenderedField) (at_ : Position) (s : Snippet) : Text × Position :=
  let optional := optionalField? fields s
  let padsBehind := optional.isSome && at_.inLead
  let padsBefore := optional.isSome && !at_.inLead
  let glued := at_.isFirst || s.isTerminal || at_.inQuotes || padsBefore || at_.spaced
  let body := match optional with
    | some f => if at_.inLead then "(?:" ++ f.group ++ " )?" else "(?: " ++ f.group ++ ")?"
    | none => snippetSource fields s
  ((if glued then [] else [' ']) ++ body,
    { isFirst := false
      inLead := padsBehind
      inQuotes := at_.inQuotes != (s.quotes % 2 == 1)
      spaced := padsBehind })

/-- The pattern text of all snippets from a position on. -/
def join (fields : List RenderedField) : Position → List Snippet → Text
  | _, [] => []
  | at_, s :: rest =>
    let (text, next) := joinOne fields at_ s
    text ++ join fields next rest

/-! ## Edges -/

/-- The edge of some parts, from the given end inward. There is none if all of them are optional
fields with a word edge: then the neighbouring snippet decides. -/
def partsEdge? (fields : List RenderedField) (side : Side) : List Part → Option Edge
  | [] => none
  | .literal text :: _ => some (side.edge text)
  | .field name :: rest =>
    match find? fields name with
    | none => some .other
    | some f =>
      if f.edge side == .word && f.isOptional then partsEdge? fields side rest
      else some (f.edge side)

/-- The edge of some snippets, from the given end inward. -/
def outerEdge (fields : List RenderedField) (side : Side) : List Snippet → Edge
  | [] => .other
  | .parts parts :: rest =>
    (partsEdge? fields side (side.inward parts)).getD (outerEdge fields side rest)
  | _ :: _ => .other

/-! ## Assembling -/

/-- Every declared field has a name of its own and a placeholder. -/
def checkFields (kind : Kind) (placeholders seen : List Text) :
    List Field → Except Fault Unit
  | [] => .ok ()
  | f :: rest =>
    if seen.contains f.name then .error (.duplicateField kind f.name)
    else if !placeholders.contains f.name then .error (.unreferencedField kind f.name)
    else checkFields kind placeholders (f.name :: seen) rest

def boundary : Edge → Text
  | .word => "\\b"
  | .other => []

/-- The pattern of a template whose fields have been rendered, in template order. -/
def assemble (kind : Kind) (snippets : List Snippet) (fields : List RenderedField) :
    Except Fault Pattern :=
  if (snippets.flatMap Snippet.literalText).count '"' % 2 == 1 then .error (.unbalancedQuotes kind)
  else
    let leading := outerEdge fields .leading snippets
    let trailing := outerEdge fields .trailing snippets.reverse
    .ok {
      kind
      source := boundary leading ++ join fields {} snippets ++ boundary trailing
      fields := fields.map (·.name)
      groups := fields.map (·.name) ++ fields.flatMap (·.groups)
      leading
      trailing }

end Rendering

end RulesText
