import RulesText.Regex.Lexeme

/-!
# From pattern text to expressions

Lexemes are folded into an expression over a stack of open groups. Text that is not a pattern
has no expression: a group that is not closed or not opened, a count with nothing before it, a
group name that is used twice, or text that cannot be cut into lexemes.

## Main definitions

* `Regex.parse?`: the expression of a pattern, with or without regard to case.
* `Regex.escape`: the pattern of a text that stands for itself.
-/

namespace RulesText.Regex

/-- The flags in force. -/
structure Flags where
  caseless : Bool := false
  multiline : Bool := false
  dotMatchesAll : Bool := false
  swapGreed : Bool := false
  unicode : Bool := true
  carriageReturns : Bool := false

namespace Flags

def change (f : Flags) (c : FlagChange) : Flags where
  caseless := Flag.caseless.after c f.caseless
  multiline := Flag.multiline.after c f.multiline
  dotMatchesAll := Flag.dotMatchesAll.after c f.dotMatchesAll
  swapGreed := Flag.swapGreed.after c f.swapGreed
  unicode := Flag.unicode.after c f.unicode
  carriageReturns := Flag.carriageReturns.after c f.carriageReturns

def repertoire (f : Flags) : Repertoire :=
  if f.unicode then .unicode else .ascii

def caseRule (f : Flags) : CaseRule :=
  if f.caseless then .variants f.repertoire else .exact

/-- One character of a set. Where only ASCII counts, the set has to stay inside it. -/
def one? (f : Flags) (s : CharSet) : Option Regex :=
  if f.unicode then some (one f.caseRule s) else s.ascii?.map (one f.caseRule)

/-- The given character, or its case variants too. -/
def char (f : Flags) (c : Char) : Regex :=
  if f.unicode || Text.isAscii c then one f.caseRule (.single c) else Regex.char c

/-- What a dot stands for. Only characters of all scripts cover a whole text. -/
def dot? (f : Flags) : Option Regex :=
  if !f.unicode then none
  else if f.dotMatchesAll then some (one .exact (.except []))
  else if f.carriageReturns then some (one .exact (.except ['\r', '\n']))
  else some (one .exact (.except ['\n']))

def caret (f : Flags) : Look :=
  if f.multiline then .lineStart f.carriageReturns else .textStart

def dollar (f : Flags) : Look :=
  if f.multiline then .lineEnd f.carriageReturns else .textEnd

/-- A condition by the word characters that count. -/
def look (f : Flags) : Look → Look
  | .word _ condition => .word f.repertoire condition
  | condition => condition

end Flags

/-- A part of a branch with the depth to which expressions are nested in it. A flag setting is a
part without an expression. -/
structure Part where
  regex? : Option Regex
  depth : Nat := 0

namespace Part

/-- The depth of several parts in one: one more than the deepest, unless there is only one. -/
def depthOf (depths : List Nat) : Nat :=
  (depths.max?).getD 0 + if depths.length < 2 then 0 else 1

end Part

/-- A group that is still open, or the whole pattern. -/
structure Level where
  flags : Flags
  /-- The branches before the current one, latest first, with their depths. -/
  branches : List (Regex × Nat) := []
  /-- The parts of the current branch, latest first. -/
  parts : List Part := []

namespace Level

def add (l : Level) (r : Regex) (depth : Nat := 0) : Level :=
  { l with parts := { regex? := some r, depth } :: l.parts }

/-- The expression of the current branch. -/
def branch (l : Level) : Regex × Nat :=
  (sequence ((l.parts.reverse.filterMap (·.regex?)).flatMap items),
    Part.depthOf (l.parts.map (·.depth)))

def endBranch (l : Level) : Level :=
  { l with branches := l.branch :: l.branches, parts := [] }

/-- The expression of the whole group. -/
def body (l : Level) : Regex × Nat :=
  let all := (l.branch :: l.branches).reverse
  match all.map (·.1) with
  | [] => (empty, 0)
  | r :: rs => (firstOf r rs, Part.depthOf (all.map (·.2)))

/-- Apply a count to the latest part. -/
def count? (l : Level) (least : Nat) (most : Option Nat) (lazy : Bool) : Option Level :=
  match l.parts with
  | { regex? := some r, depth } :: parts =>
    let greedy := lazy == l.flags.swapGreed
    let part := { regex? := some (repeated r least most greedy), depth := depth + 1 }
    some { l with parts := part :: parts }
  | _ => none

end Level

/-- How far a pattern has been read. -/
structure Reader where
  level : Level
  /-- The levels around the current one, each with what becomes of the group inside it. -/
  outer : List ((Regex → Regex) × Level) := []
  /-- The group names used so far. -/
  names : List Text := []

namespace Reader

def flags (s : Reader) : Flags :=
  s.level.flags

def add (s : Reader) (r : Regex) (depth : Nat := 0) : Reader :=
  { s with level := s.level.add r depth }

def openGroup (s : Reader) (flags : Flags) (wrap : Regex → Regex) : Reader :=
  { s with level := { flags }, outer := (wrap, s.level) :: s.outer }

def step? (s : Reader) : Lexeme → Option Reader
  | .char c => some (s.add (s.flags.char c))
  | .byte c =>
    if s.flags.unicode || Text.isAscii c then some (s.add (s.flags.char c)) else none
  | .set set => (s.flags.one? set).map s.add
  | .bracket item => (s.flags.one? item.set).map fun r => s.add r item.depth
  | .dot => s.flags.dot?.map s.add
  | .caret => some (s.add (look s.flags.caret))
  | .dollar => some (s.add (look s.flags.dollar))
  | .look condition => some (s.add (look (s.flags.look condition)))
  | .count least most lazy =>
    (s.level.count? least most lazy).map fun level => { s with level }
  | .branch => some { s with level := s.level.endBranch }
  | .openCapture name? =>
    if name?.any s.names.contains then none
    else some { s.openGroup s.flags (group name?) with names := name?.toList ++ s.names }
  | .openGroup change => some (s.openGroup (s.flags.change change) id)
  | .setFlags change =>
    some { s with level := { s.level with
      flags := s.flags.change change, parts := { regex? := none } :: s.level.parts } }
  | .close =>
    match s.outer with
    | [] => none
    | (wrap, around) :: outer =>
      let (r, depth) := s.level.body
      some { s with level := around.add (wrap r) (depth + 1), outer }

/-- The deepest that groups, classes, counts, sequences and branches may be nested. -/
def maxDepth : Nat := 250

def finish? (s : Reader) : Option Regex :=
  let (r, depth) := s.level.body
  if s.outer.isEmpty && depth ≤ maxDepth then some r else none

end Reader

/-- The expression of a pattern. -/
def parse? (pattern : Text) (caseless : Bool := false) : Option Regex := do
  let lexemes ← lexemes? pattern
  let reader ← lexemes.foldlM Reader.step? { level := { flags := { caseless } } }
  reader.finish?

/-- The pattern text of an expression that must match a whole text. -/
def anchored (pattern : Text) : Text :=
  "^(?:" ++ pattern ++ ")$"

def isSpecial (c : Char) : Bool :=
  "\\.+*?()|[]\x7b\x7d^$#&-~".toList.contains c

/-- A pattern that matches exactly the given text. -/
def escape (t : Text) : Text :=
  t.flatMap fun c => if isSpecial c then ['\\', c] else [c]

end RulesText.Regex
