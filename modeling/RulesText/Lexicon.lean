import RulesText.Pattern.Compiler
import RulesText.Regex.Finder
import RulesText.Regex.Footprint

/-!
# Lexicons

A lexicon is a vocabulary that is ready to be matched: every kind with its pattern, the
expression of the pattern, the expression that must match a whole token, and for every field
that captures a choice the expressions of its members. A vocabulary with any fault has none.
-/

namespace RulesText

/-- An expression, ready to be searched for, with the text it was read from. -/
structure MemberPattern where
  source : Text
  searcher : Regex.Searcher

/-- A field as it is read back. -/
structure LexiconField where
  name : Text
  kind : FieldKind
  /-- One expression for each member of a choice, in order; none for other fields. -/
  members : List MemberPattern

structure LexiconEntry where
  pattern : Pattern
  /-- The expression of the pattern. -/
  regex : Regex
  /-- Matches the phrase inside a line. -/
  search : Regex.Finder
  /-- Matches a text that is the phrase as a whole. -/
  exact : Regex.Searcher
  /-- The fields in the order of the template. -/
  fields : List LexiconField
  reading : Reading

namespace LexiconEntry

def kind (e : LexiconEntry) : Kind :=
  e.pattern.kind

def field? (e : LexiconEntry) (name : Text) : Option LexiconField :=
  e.fields.find? (·.name == name)

end LexiconEntry

/-- The entries of a vocabulary, in declaration order. -/
structure Lexicon where
  entries : List LexiconEntry

namespace Lexicon

def find? (l : Lexicon) (kind : Kind) : Option LexiconEntry :=
  l.entries.find? (·.kind == kind)

/-- The largest footprint of a pattern. -/
def patternLimit : Nat := 64 <<< 20

/-- The largest footprint of the pattern of a member. -/
def memberLimit : Nat := 10 <<< 20

/-- Read a pattern text of the given kind. -/
def parse (kind : Kind) (limit : Nat) (source : Text) (caseless : Bool := false) :
    Except Fault Regex :=
  match Regex.parse? source caseless with
  | some r => if r.fits limit then .ok r else .error (.invalidPattern kind)
  | none => .error (.invalidPattern kind)

/-- The pattern text that a captured text must match as a whole to be read as the member. A
plural field captures plurals too. -/
def memberSource (f : Field) (m : Member) : Text :=
  Regex.anchored (if f.isPlural then Alternation.pluralize m.source else m.source)

/-- Captured texts are compared with members without regard to case. -/
def memberPatterns (kind : Kind) (f : Field) : Except Fault (List MemberPattern) :=
  match f.kind with
  | .choice family =>
    family.members.mapM fun m => do
      let source := memberSource f m
      return { source, searcher := (← parse kind memberLimit source true).searcher }
  | _ => .ok []

def buildField (kind : Kind) (f : Field) : Except Fault LexiconField := do
  return { name := f.name, kind := f.kind, members := ← memberPatterns kind f }

def buildEntry (phrase : Phrase) (pattern : Pattern) : Except Fault LexiconEntry := do
  let regex ← parse phrase.kind patternLimit pattern.source
  let exact ← parse phrase.kind patternLimit (Regex.anchored pattern.source)
  let fields ← (pattern.fields.filterMap phrase.field?).mapM (buildField phrase.kind)
  return {
    pattern, regex, fields
    search := regex.finder
    exact := exact.searcher
    reading := phrase.reading }

/-- The entries of the given phrases, compiled one after the other. -/
def buildEntries (c : Compiler) : List Phrase → Except Fault (List LexiconEntry)
  | [] => .ok []
  | phrase :: rest => do
    let (pattern, c) := c.compile phrase.kind
    let entry ← buildEntry phrase (← pattern)
    return entry :: (← buildEntries c rest)

/-- The lexicon of a vocabulary, or its first fault. -/
def build (v : Vocabulary) : Except Fault Lexicon := do
  let compiler ← Compiler.new v
  return { entries := ← buildEntries compiler v }

end Lexicon

end RulesText
