import RulesText.Lexicon
import RulesText.Token

/-!
# Reading tokens back

A token says which phrase was recognized and where. To read it back, the phrase's pattern is
matched against the token's own text, and every field gets the value of what its group captured:
a flag whether it took part, a choice the first member that matches, a text the text itself, and
a nested phrase the tree of its own text. Fields that took no part are left out, flags apart.
Where the phrase has a hook, the hook reads the token in place of all this.

## Main definitions

* `Lexicon.readBack`: the tree of a phrase at a span of a line.
* `Lexicon.readToken`: the tree of a token, if it is not unmatched.
-/

namespace RulesText

namespace Lexicon

/-- A field that was read, with the tree it holds if it is a nested phrase. -/
abbrev FieldReading := CaptureField × Option Capture

/-- Read one field whose group captured the span `found?` of `text`, which starts at `start` in
the line. `nested` reads phrases at spans of the line. -/
def readField (nested : Kind → Span → Except Fault Capture) (text : Text) (start : Nat)
    (f : LexiconField) (found? : Option Span) : Except Fault (Option FieldReading) :=
  match f.kind, found? with
  | .flag _, _ =>
    .ok (some ({ name := f.name, value := .flag found?.isSome,
                 span? := found?.map (·.shift start) }, none))
  | _, none => .ok none
  | .choice family, some found =>
    let captured := Text.slice text found
    let index := f.members.findIdx (·.searcher.occursIn captured)
    match family.members[index]? with
    | some member =>
      .ok (some ({ name := f.name, value := .choice family.name member.name index,
                   span? := some (found.shift start) }, none))
    | none => .error (.noMatchingMember f.name family.name captured)
  | .words _, some found =>
    .ok (some ({ name := f.name, value := .text (Text.slice text found),
                 span? := some (found.shift start) }, none))
  | .nested kind, some found => do
    let tree ← nested kind (found.shift start)
    return some ({ name := f.name, value := .child 0, span? := some (found.shift start) },
      some tree)

/-- The readings of fields in order, without those that took no part. -/
def readFields (nested : Kind → Span → Except Fault Capture) (text : Text) (start : Nat)
    (m : Match) : List LexiconField → Except Fault (List FieldReading)
  | [] => .ok []
  | f :: rest => do
    let reading ← readField nested text start f (m.group? f.name)
    return reading.toList ++ (← readFields nested text start m rest)

/-- The trees among the readings with the places of their fields, in the order of their spans.
Trees with the same span keep the order of their fields. -/
def sortedTrees (readings : List FieldReading) : List (Nat × Capture) :=
  let trees := readings.zipIdx.filterMap fun ((_, tree?), place) => tree?.map (place, ·)
  trees.mergeSort fun a b => (a.2.span.compare b.2.span).isLE

/-- The tree with the given readings. Each nested phrase is found by the place of its field. -/
def assembleTree (kind : Kind) (span : Span) (readings : List FieldReading) : Capture :=
  let trees := sortedTrees readings
  { kind
    span
    fields := readings.zipIdx.map fun ((f, tree?), place) =>
      match tree? with
      | none => f
      | some _ => { f with value := .child (trees.findIdx (·.1 == place)) }
    children := trees.map (·.2) }

def others (entries : List LexiconEntry) (kind : Kind) : List LexiconEntry :=
  entries.filter (·.kind != kind)

theorem length_others_lt {entries : List LexiconEntry} {kind : Kind} {e : LexiconEntry}
    (h : entries.find? (·.kind == kind) = some e) :
    (others entries kind).length < entries.length := by
  have mem := List.mem_of_find?_eq_some h
  have found : e.kind = kind := by simpa using List.find?_some h
  refine List.length_filter_lt_length_iff_exists.2 ⟨e, mem, ?_⟩
  simp [found]

/-- The tree of a phrase at a span of a line, where `entries` are the phrases that it may be or
contain: a phrase cannot contain itself. -/
def readWithin (entries : List LexiconEntry) (line : Text) (kind : Kind) (span : Span) :
    Except Fault Capture :=
  match _h : entries.find? (·.kind == kind) with
  | none => .error (.undeclaredKind kind)
  | some e =>
    match e.reading.hook? with
    | some hook => hook kind line span
    | none =>
      let text := Text.slice line span
      match e.exact.find? text with
      | none => .error (.tokenMismatch kind text)
      | some m => do
        let nested := readWithin (others entries kind) line
        let readings ← readFields nested text span.start m e.fields
        return assembleTree kind span readings
termination_by entries.length
decreasing_by exact length_others_lt _h

/-- The tree of a phrase at a span of a line. -/
def readBack (l : Lexicon) (kind : Kind) (line : Text) (span : Span) : Except Fault Capture :=
  readWithin l.entries line kind span

/-- The tree of a token; an unmatched token has none. -/
def readToken (l : Lexicon) (line : Text) (t : Token) : Except Fault (Option Capture) :=
  match t.label with
  | .kind kind => (l.readBack kind line t.span).map some
  | .unmatched => .ok none

end Lexicon

end RulesText
